import Keepup.Docker.SelfIdentity
import Keepup.Lib.Remote

/-!
The redeploy of a stack through Portainer, with the check that it is not the
stack of this program. The check asks Portainer twice, and a failure of it is
handed on as an answer, because it does not end the update.
-/

namespace Keepup.Portainer

open Lib

/-- What Portainer says about a container. A value is `none` where it is null. -/
structure ContainerSummary where
  id : Option String
  names : Option (List String)
  labels : Option (Dict String String)

structure Stack where
  name : Option String
  env : List (String × String)

/-- What a redeploy is asked to do. -/
structure Payload where
  stackFileContent : String
  env : List (String × String)
  prune : Bool := false
  pullImage : Bool := true

inductive Call where
  | containers (endpointId : Int)
  | stack (stackId : Int)
  | stackFile (stackId : Int)
  | redeploy (stackId endpointId : Int) (payload : Payload)

def Call.path : Call → String
  | .containers endpointId =>
      "/api/endpoints/" ++ toString endpointId ++ "/docker/containers/json?all=1"
  | .stack stackId => "/api/stacks/" ++ toString stackId
  | .stackFile stackId => "/api/stacks/" ++ toString stackId ++ "/file"
  | .redeploy stackId endpointId _ =>
      "/api/stacks/" ++ toString stackId ++ "?endpointId=" ++ toString endpointId

/-- An exception. Text that is no JSON raises a `ValueError`, an HTTP error or a lost
connection does not. -/
inductive Raised where
  | valueError (message : String)
  | other (message : String)

inductive Answer where
  | containers (list : List ContainerSummary)
  | stack (found : Stack)
  | stackFile (content : String)
  | redeployed (status : String)
  | raised (error : Raised)

/-- A Portainer server: the containers of each endpoint, the stacks and their files. -/
structure World where
  containers : Int → Option (List ContainerSummary)
  stackOf : Int → Option Stack
  files : Int → String

/-- How a call ends: it is answered, with this status where it is a redeploy, or it raises. -/
inductive Fate where
  | answered (status : String)
  | raised (error : Raised)

def notFound : Raised := .other "Client error '404 Not Found'"

def World.answer (world : World) : Call → Fate → Answer
  | _, .raised error => .raised error
  | .containers endpointId, .answered _ =>
      (world.containers endpointId).elim (.raised notFound) .containers
  | .stack stackId, .answered _ => (world.stackOf stackId).elim (.raised notFound) .stack
  | .stackFile stackId, .answered _ =>
      if (world.stackOf stackId).isSome then .stackFile (world.files stackId) else .raised notFound
  | .redeploy _ _ _, .answered status => .redeployed status

/-- What a redeploy does to the containers is left open. -/
def serve : Server World Call Answer Raised Fate :=
  fun world call fate => (world, .ok (world.answer call fate))

abbrev Request (α : Type) := Remote Call Answer Raised α

/-- Send a call, and raise what it raises. -/
def get {α : Type} (call : Call) (read : Answer → Option α) : Request α :=
  .call call fun
    | .raised error => .raise error
    | answer => (read answer).elim (.raise (.other "")) .ret

def getContainers (endpointId : Int) : Request (List ContainerSummary) :=
  get (.containers endpointId) fun
    | .containers list => some list
    | _ => none

def getStack (stackId : Int) : Request Stack :=
  get (.stack stackId) fun
    | .stack found => some found
    | _ => none

def getStackFile (stackId : Int) : Request String :=
  get (.stackFile stackId) fun
    | .stackFile content => some content
    | _ => none

def putStack (stackId endpointId : Int) (payload : Payload) : Request String :=
  get (.redeploy stackId endpointId payload) fun
    | .redeployed status => some status
    | _ => none

section Update

/- `str.lower`, and what this program knows of its own container. -/
variable (lower : String → String) (selfId selfName : Option String)

def projectLabel : String := "com.docker.compose.project"

/-- The project of a container in lower case, `none` where its labels are null. -/
def ContainerSummary.project (c : ContainerSummary) : Option String :=
  c.labels.map fun labels => lower (labels.getD projectLabel "")

/-- The containers of a project, `none` where one of the labels cannot be read. -/
def stackContainers (project : String) : List ContainerSummary → Option (List ContainerSummary)
  | [] => some []
  | c :: cs => do
      let own ← c.project lower
      let rest ← stackContainers project cs
      some (if own = project then c :: rest else rest)

def ContainerSummary.hasId (c : ContainerSummary) : Bool :=
  selfId == some (Text.take 12 (c.id.getD ""))

/-- One of the containers has the own name, `none` where the names of one before it
are null. -/
def nameMatch : List ContainerSummary → Option Bool
  | [] => some false
  | c :: cs => do
      let names ← c.names
      if (names.map (Text.lstripChar '/')).any fun name => selfName == some name then some true
      else nameMatch cs

/-- The own container is among those of the stack, `none` where that cannot be read. -/
def inStack (stack : Stack) (containers : List ContainerSummary) : Option Bool := do
  let name ← stack.name
  let own ← stackContainers lower (lower name) containers
  let idMatch := own.any (ContainerSummary.hasId selfId)
  let named ← (if selfName.isSome then nameMatch selfName own else some false : Option Bool)
  some (idMatch || named)

def selfCheck (stackId endpointId : Int) : Request Bool := do
  let containers ← getContainers endpointId
  let stack ← getStack stackId
  (inStack lower selfId selfName stack containers).elim (.raise (.other "")) .ret

def redeployStack (stackId endpointId : Int) : Request String := do
  let stack ← getStack stackId
  let composeContent ← getStackFile stackId
  putStack stackId endpointId { stackFileContent := composeContent, env := stack.env }

def updateStack (stackId endpointId : Int) : Request String :=
  if selfId.isSome || selfName.isSome then do
    match ← (selfCheck lower selfId selfName stackId endpointId).attempt with
    | .ok true => .raise (.valueError
        ("Self-update refused: Keepup is in Portainer stack " ++ toString stackId))
    | .error (.valueError message) => .raise (.valueError message)
    | .ok false | .error (.other _) => redeployStack stackId endpointId
  else redeployStack stackId endpointId

end Update

section OwnStack

variable {lower : String → String} {selfId selfName : Option String}
variable {stackId endpointId : Int} {world : World} {fates : Nat → Call → Fate}

def Call.isRedeploy : Call → Bool
  | .redeploy _ _ _ => true
  | _ => false

/-- A container is the own one: it has the own id, or the own name. -/
def ContainerSummary.IsSelf (selfId selfName : Option String) (c : ContainerSummary) : Prop :=
  c.hasId selfId = true ∨
    ∃ names name, c.names = some names ∧ selfName = some name ∧
      name ∈ names.map (Text.lstripChar '/')

/-- The own container runs on the endpoint and belongs to the stack: its project is the
name of the stack, up to the case of the letters. -/
def World.HoldsSelf (world : World) (lower : String → String) (selfId selfName : Option String)
    (stackId endpointId : Int) : Prop :=
  ∃ stack name containers c, world.stackOf stackId = some stack ∧ stack.name = some name ∧
    world.containers endpointId = some containers ∧ c ∈ containers ∧
    c.project lower = some (lower name) ∧ c.IsSelf selfId selfName

/-- What the check comes to, or what it raises. -/
def checkResult (lower : String → String) (selfId selfName : Option String) (world : World)
    (fates : Nat → Call → Fate) (stackId endpointId : Int) : Except Raised Bool :=
  (Remote.exec serve fates 0 (selfCheck lower selfId selfName stackId endpointId) world).2

theorem mem_stackContainers {project : String} {containers own : List ContainerSummary}
    (h : stackContainers lower project containers = some own) {c : ContainerSummary}
    (hc : c ∈ containers) (hproject : c.project lower = some project) : c ∈ own := by
  induction containers generalizing own with
  | nil => cases hc
  | cons d ds ih =>
      simp only [stackContainers, Option.bind_eq_bind, Option.bind_eq_some_iff,
        Option.some.injEq] at h
      obtain ⟨label, hlabel, rest, hrest, rfl⟩ := h
      rcases List.mem_cons.mp hc with rfl | hin
      · obtain rfl : label = project := Option.some.inj (hlabel.symm.trans hproject)
        simp
      · have hmem := ih hrest hin
        split
        · exact List.mem_cons_of_mem d hmem
        · exact hmem

theorem nameMatch_of_mem {own : List ContainerSummary} {found : Bool}
    (h : nameMatch selfName own = some found) {c : ContainerSummary} (hc : c ∈ own)
    {names : List String} {name : String} (hnames : c.names = some names)
    (hself : selfName = some name) (hname : name ∈ names.map (Text.lstripChar '/')) :
    found = true := by
  induction own with
  | nil => cases hc
  | cons d ds ih =>
      simp only [nameMatch, Option.bind_eq_bind, Option.bind_eq_some_iff] at h
      obtain ⟨dnames, hd, h⟩ := h
      split at h
      · exact (Option.some.inj h).symm
      · next hnone =>
          rcases List.mem_cons.mp hc with rfl | hin
          · obtain rfl : dnames = names := Option.some.inj (hd.symm.trans hnames)
            refine absurd (List.any_eq_true.mpr ⟨name, hname, ?_⟩) hnone
            simp [hself]
          · exact ih h hin

/-- A check that can read the containers finds the own one in its stack. -/
theorem inStack_of_holds {stack : Stack} {containers : List ContainerSummary} {name : String}
    {c : ContainerSummary} {found : Bool}
    (h : inStack lower selfId selfName stack containers = some found)
    (hname : stack.name = some name) (hc : c ∈ containers)
    (hproject : c.project lower = some (lower name)) (hself : c.IsSelf selfId selfName) :
    found = true := by
  simp only [inStack, hname, Option.bind_eq_bind, Option.bind_some, Option.bind_eq_some_iff,
    Option.some.injEq] at h
  obtain ⟨own, hown, named, hnamed, rfl⟩ := h
  have hmem := mem_stackContainers hown hc hproject
  rcases hself with hid | ⟨names, own', hnames, hselfName, hin⟩
  · simp only [Bool.or_eq_true]
    exact .inl (List.any_eq_true.mpr ⟨c, hmem, hid⟩)
  · simp only [Bool.or_eq_true]
    rw [hselfName] at hnamed
    simp only [Option.isSome_some, if_true] at hnamed
    exact .inr (nameMatch_of_mem hnamed hmem hnames rfl hin)

theorem quiet_get {α : Type} {call : Call} (h : call.isRedeploy = false)
    (read : Answer → Option α) :
    Remote.Only (fun c => Call.isRedeploy c = false) (get call read) := by
  refine ⟨h, fun answer => ?_⟩
  cases answer with
  | raised error => trivial
  | containers list => cases hread : read (.containers list) <;> simp [hread, Remote.Only]
  | stack found => cases hread : read (.stack found) <;> simp [hread, Remote.Only]
  | stackFile content => cases hread : read (.stackFile content) <;> simp [hread, Remote.Only]
  | redeployed status => cases hread : read (.redeployed status) <;> simp [hread, Remote.Only]

theorem quiet_selfCheck : Remote.Only (fun c => Call.isRedeploy c = false)
    (selfCheck lower selfId selfName stackId endpointId) := by
  refine Remote.only_bind (quiet_get rfl _) fun containers =>
    Remote.only_bind (quiet_get rfl _) fun stack => ?_
  cases inStack lower selfId selfName stack containers <;> trivial

/-- A call that is read has been answered. -/
theorem exec_get_ok {α β : Type} {call : Call} {read : Answer → Option α} {k : α → Request β}
    {n : Nat} {b : β} (h : (Remote.exec serve fates n (get call read >>= k) world).2 = .ok b) :
    ∃ a, read (world.answer call (fates n call)) = some a ∧
      (Remote.exec serve fates (n + 1) (k a) world).2 = .ok b := by
  have hcall : get call read >>= k = .call call fun answer =>
      (match answer with
        | .raised error => .raise error
        | answer => (read answer).elim (.raise (.other "")) .ret : Request α).bind k := rfl
  rw [hcall, Remote.exec_call_ok rfl] at h
  cases hanswer : world.answer call (fates n call) with
  | raised error => simp [hanswer, Remote.bind] at h
  | _ =>
      simp only [hanswer] at h
      cases hread : read _ with
      | none => simp [hread, Remote.bind] at h
      | some a => exact ⟨a, rfl, by simpa [hread, Remote.bind] using h⟩

/-- A check that comes to a result has read the containers and the stack. -/
theorem checkResult_ok {found : Bool}
    (h : checkResult lower selfId selfName world fates stackId endpointId = .ok found) :
    ∃ containers stack, world.containers endpointId = some containers ∧
      world.stackOf stackId = some stack ∧
      inStack lower selfId selfName stack containers = some found := by
  obtain ⟨containers, hcontainers, h⟩ := exec_get_ok h
  obtain ⟨stack, hstack, h⟩ := exec_get_ok h
  refine ⟨containers, stack, ?_, ?_, ?_⟩
  · cases hfate : fates 0 (.containers endpointId) with
    | raised error => simp [hfate, World.answer] at hcontainers
    | answered status =>
        cases hworld : world.containers endpointId with
        | none => simp [hfate, hworld, World.answer] at hcontainers
        | some list => simpa [hfate, hworld, World.answer] using hcontainers
  · cases hfate : fates 1 (.stack stackId) with
    | raised error => simp [hfate, World.answer] at hstack
    | answered status =>
        cases hworld : world.stackOf stackId with
        | none => simp [hfate, hworld, World.answer] at hstack
        | some found => simpa [hfate, hworld, World.answer] using hstack
  · cases hin : inStack lower selfId selfName stack containers with
    | none => simp [hin] at h
    | some b => simpa [hin] using h

theorem serve_answers (world : World) (call : Call) (fate : Fate) :
    ∃ world' answer, serve world call fate = (world', .ok answer) := ⟨_, _, rfl⟩

/-- A stack that holds the own container is redeployed only after a check that has
failed with an exception other than a `ValueError`. -/
theorem redeploy_of_failed_check (hholds : world.HoldsSelf lower selfId selfName stackId endpointId)
    (hknown : selfId.isSome = true ∨ selfName.isSome = true) {call : Call}
    (hsent : call ∈ Remote.sent serve fates 0
      (updateStack lower selfId selfName stackId endpointId) world)
    (hredeploy : call.isRedeploy = true) :
    ∃ message, checkResult lower selfId selfName world fates stackId endpointId =
      .error (.other message) := by
  rw [updateStack, if_pos (by simpa using hknown)] at hsent
  choose m hm using fun k => Remote.sent_attempt (β := String) fates serve_answers
    (selfCheck lower selfId selfName stackId endpointId) 0 world k
  rw [hm, List.mem_append] at hsent
  rcases hsent with hcheck | hafter
  · have hquiet := Remote.sent_only quiet_selfCheck fates 0 world call hcheck
    rw [hquiet] at hredeploy
    cases hredeploy
  · cases hresult : checkResult lower selfId selfName world fates stackId endpointId with
    | ok found =>
        obtain ⟨containers, stack, hcontainers, hstack, hin⟩ := checkResult_ok hresult
        obtain ⟨stack', name, list, c, hstack', hname, hlist, hc, hproject, hself⟩ := hholds
        obtain rfl := Option.some.inj (hstack'.symm.trans hstack)
        obtain rfl := Option.some.inj (hlist.symm.trans hcontainers)
        obtain rfl := inStack_of_holds hin hname hc hproject hself
        rw [checkResult] at hresult
        rw [hresult] at hafter
        cases hafter
    | error error =>
        cases error with
        | valueError message =>
            rw [checkResult] at hresult
            rw [hresult] at hafter
            cases hafter
        | other message => exact ⟨message, rfl⟩

end OwnStack

end Keepup.Portainer
