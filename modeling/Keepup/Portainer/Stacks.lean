import Keepup.Docker.Discovery
import Keepup.Portainer.Update

/-!
The stacks that Portainer has, with whether there are updates for their images.
The stack of this program is left out.
-/

namespace Keepup.Portainer

open Lib Docker.Discovery

/-- A container, as an endpoint lists it, with its image. -/
structure RunningContainer extends ContainerSummary where
  image : String
  imageId : String

structure Endpoint where
  id : Int
  name : String
  type : Option Int

/-- A stack, as Portainer lists it. What is missing is `none`. -/
structure ListedStack where
  id : Int
  name : Option String
  endpointId : Option Int

/-- What Portainer lists. An endpoint that cannot be reached has no containers. -/
structure Overview where
  endpoints : List Endpoint
  listed : List ListedStack
  containers : Int → Option (List RunningContainer)

/-- A row of the dashboard. -/
structure StackStatus where
  id : Int
  name : String
  endpointId : Int
  endpointName : String
  updateStatus : UpdateStatus
  unknownReason : Option String
  images : List ImageReport
deriving DecidableEq

section Source

/- `str.lower`, what this program knows of its own container, and what the check of
an image of an endpoint comes to, by its name and id. -/
variable (lower : String → String) (selfId selfName : Option String)
variable (check : Int → String → String → ImageCheck) (overview : Overview)

/-- The single reason of the unknown images, if there is one. -/
def rollupUnknownReason (images : List ImageReport) : Option String :=
  let reasons := (images.filterMap fun image =>
    if image.status = .unknown ∧ Text.given image.reason then image.reason else none).dedup
  if reasons.length = 1 then reasons.head? else none

/-- Kubernetes and other environments without Docker are left out. -/
def Overview.getEndpoints : List Endpoint :=
  overview.endpoints.filter fun endpoint => [some 1, some 2, some 4].contains endpoint.type

def Overview.endpointContainers (endpointId : Int) : List RunningContainer :=
  if overview.getEndpoints.any fun endpoint => endpoint.id == endpointId then
    (overview.containers endpointId).getD []
  else []

def Overview.unreachable (endpointId : Int) : Bool :=
  (overview.getEndpoints.any fun endpoint => endpoint.id == endpointId) &&
    (overview.containers endpointId).isNone

def Overview.endpointName (endpointId : Int) : String :=
  ((overview.getEndpoints.filter fun endpoint => endpoint.id == endpointId).getLast?.map
    Endpoint.name).getD ("env-" ++ toString endpointId)

def ListedStack.title (stack : ListedStack) : String := stack.name.getD "unknown"

def ListedStack.endpoint (stack : ListedStack) : Int := stack.endpointId.getD 0

/-- The loop takes the stack for the one of this program, `none` where it raises. -/
def takenForOwn (stack : ListedStack) : Option Bool :=
  inStack lower selfId selfName ⟨some stack.title, []⟩
    ((overview.endpointContainers stack.endpoint).map RunningContainer.toContainerSummary)

/-- The first container of each image. -/
def distinctImages (containers : List RunningContainer) : List RunningContainer :=
  containers.foldl (fun seen c =>
    if c.image = "" ∨ seen.any fun other => other.image == c.image then seen else seen ++ [c]) []

def checkedImages (stack : ListedStack) : List ImageReport :=
  let own := (overview.endpointContainers stack.endpoint).filter fun c =>
    c.project lower == some (lower stack.title)
  (distinctImages own).map fun c =>
    let found := check stack.endpoint c.image c.imageId
    ⟨c.image, found.status, if found.status = .unknown then found.reason else none⟩

/-- A single status for the images of a stack. -/
def rollup (images : List ImageReport) : UpdateStatus :=
  if images = [] then .unknown
  else if images.all fun image => image.status = .updateAvailable then .updateAvailable
  else if images.any fun image => image.status = .updateAvailable then .mixed
  else if images.all fun image => image.status = .upToDate then .upToDate
  else .unknown

def unknownReason (stack : ListedStack) (images : List ImageReport) : Option String :=
  if images = [] then
    some (if overview.unreachable stack.endpoint then "endpoint_unreachable" else "no_containers")
  else if rollup images = .unknown then rollupUnknownReason images
  else none

def stackStatus (stack : ListedStack) : StackStatus :=
  let images := checkedImages lower check overview stack
  { id := stack.id
    name := stack.title
    endpointId := stack.endpoint
    endpointName := overview.endpointName stack.endpoint
    updateStatus := rollup images
    unknownReason := unknownReason overview stack images
    images := images }

/-- One round of the loop, which reports nothing of the own stack. -/
def reportStack (stack : ListedStack) : Option (Option StackStatus) :=
  (takenForOwn lower selfId selfName overview stack).map fun own =>
    if own then none else some (stackStatus lower check overview stack)

def StackStatus.before (a b : StackStatus) : Bool :=
  decide (a.endpointName < b.endpointName) ||
    (a.endpointName == b.endpointName && decide (a.name ≤ b.name))

/-- `none` where the loop raises. -/
def getStacksWithUpdateStatus : Option (List StackStatus) :=
  (overview.listed.mapM (reportStack lower selfId selfName check overview)).map fun found =>
    (found.filterMap id).mergeSort StackStatus.before

end Source

section Loop

variable (lower : String → String) (selfId selfName : Option String)
variable {check : Int → String → String → ImageCheck} {overview : Overview}

/-- The labels and the names of all containers are there, as the API of Docker has them. -/
def Overview.Readable (overview : Overview) : Prop :=
  ∀ endpointId containers, overview.containers endpointId = some containers →
    ∀ c ∈ containers, c.labels.isSome = true ∧ c.names.isSome = true

theorem stackContainers_readable (project : String) {containers : List ContainerSummary}
    (h : ∀ c ∈ containers, c.labels.isSome = true ∧ c.names.isSome = true) :
    ∃ own, stackContainers lower project containers = some own ∧ own ⊆ containers := by
  induction containers with
  | nil => exact ⟨[], rfl, List.Subset.refl _⟩
  | cons c cs ih =>
      obtain ⟨labels, hlabels⟩ := Option.isSome_iff_exists.mp (h c List.mem_cons_self).1
      obtain ⟨rest, hrest, hsub⟩ := ih fun d hd => h d (List.mem_cons_of_mem c hd)
      rw [stackContainers, ContainerSummary.project, hlabels, hrest]
      by_cases hown : lower (labels.getD projectLabel "") = project
      · exact ⟨c :: rest, by simp [hown], List.cons_subset_cons c hsub⟩
      · exact ⟨rest, by simp [hown], List.subset_cons_of_subset c hsub⟩

theorem nameMatch_readable {containers : List ContainerSummary}
    (h : ∀ c ∈ containers, c.names.isSome = true) :
    ∃ found, nameMatch selfName containers = some found := by
  induction containers with
  | nil => exact ⟨false, rfl⟩
  | cons c cs ih =>
      obtain ⟨names, hnames⟩ := Option.isSome_iff_exists.mp (h c List.mem_cons_self)
      obtain ⟨found, hfound⟩ := ih fun d hd => h d (List.mem_cons_of_mem c hd)
      rw [nameMatch, hnames, hfound, Option.bind_eq_bind, Option.bind_some]
      split
      · exact ⟨true, rfl⟩
      · exact ⟨found, rfl⟩

theorem takenForOwn_readable (h : overview.Readable) (stack : ListedStack) :
    ∃ own, takenForOwn lower selfId selfName overview stack = some own := by
  have hcontainers : ∀ c ∈ (overview.endpointContainers stack.endpoint).map
      RunningContainer.toContainerSummary, c.labels.isSome = true ∧ c.names.isSome = true := by
    intro c hc
    obtain ⟨running, hrunning, rfl⟩ := List.mem_map.mp hc
    rw [Overview.endpointContainers] at hrunning
    split at hrunning
    · cases hlisted : overview.containers stack.endpoint with
      | none =>
          rw [hlisted] at hrunning
          cases hrunning
      | some containers =>
          rw [hlisted] at hrunning
          exact h stack.endpoint containers hlisted running hrunning
    · cases hrunning
  obtain ⟨own, hown, hsub⟩ := stackContainers_readable lower (lower stack.title) hcontainers
  obtain ⟨found, hfound⟩ := nameMatch_readable selfName fun c hc => (hcontainers c (hsub hc)).2
  rw [takenForOwn, inStack]
  by_cases hnamed : selfName.isSome = true
  · exact ⟨own.any (ContainerSummary.hasId selfId) || found, by simp [hown, hnamed, hfound]⟩
  · exact ⟨own.any (ContainerSummary.hasId selfId), by simp [hown, hnamed]⟩

theorem mapM_readable {α β : Type} {f : α → Option β} {list : List α}
    (h : ∀ a ∈ list, ∃ b, f a = some b) :
    ∃ found, list.mapM f = some found ∧ ∀ a ∈ list, ∀ b, f a = some b → b ∈ found := by
  induction list with
  | nil => exact ⟨[], rfl, nofun⟩
  | cons a list ih =>
      obtain ⟨b, hb⟩ := h a List.mem_cons_self
      obtain ⟨rest, hrest, hmem⟩ := ih fun a' ha' => h a' (List.mem_cons_of_mem a ha')
      refine ⟨b :: rest, by simp [List.mapM_cons, hb, hrest], fun a' ha' b' hb' => ?_⟩
      rcases List.mem_cons.mp ha' with rfl | hlater
      · rw [hb] at hb'
        cases hb'
        exact List.mem_cons_self
      · exact List.mem_cons_of_mem b (hmem a' hlater b' hb')

/-- Every stack is reported, unless it is taken for that of this program. -/
theorem stacks_reported (h : overview.Readable) :
    ∃ reports, getStacksWithUpdateStatus lower selfId selfName check overview = some reports ∧
      ∀ stack ∈ overview.listed, takenForOwn lower selfId selfName overview stack = some true ∨
        stackStatus lower check overview stack ∈ reports := by
  have hround : ∀ stack ∈ overview.listed, ∃ found,
      reportStack lower selfId selfName check overview stack = some found := fun stack _ => by
    obtain ⟨own, hown⟩ := takenForOwn_readable lower selfId selfName h stack
    exact ⟨_, by rw [reportStack, hown, Option.map_some]⟩
  obtain ⟨found, hfound, hmem⟩ := mapM_readable hround
  refine ⟨(found.filterMap id).mergeSort StackStatus.before,
    by rw [getStacksWithUpdateStatus, hfound]; rfl, ?_⟩
  intro stack hstack
  obtain ⟨own, hown⟩ := takenForOwn_readable lower selfId selfName h stack
  cases own with
  | true => exact .inl hown
  | false =>
      refine .inr ((List.mergeSort_perm _ _).mem_iff.mpr ?_)
      have hreport := hmem stack hstack (some (stackStatus lower check overview stack))
        (by rw [reportStack, hown, Option.map_some, if_neg Bool.false_ne_true])
      exact List.mem_filterMap.mpr ⟨_, hreport, rfl⟩

end Loop

end Keepup.Portainer
