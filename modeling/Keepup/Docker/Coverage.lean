import Keepup.Portainer.Stacks

/-!
The containers of a host between the two backends. What the scan over SSH leaves
to Portainer is of a stack that Portainer lists, and that its backend reports.
-/

namespace Keepup.Docker.Discovery

open Lib Portainer

section Coverage

/-- The stacks by which a path of Portainer's data volume is checked. -/
def stackIndex (listed : List ListedStack) : List (Int × String) :=
  listed.map fun stack => (stack.id, stack.name.getD "")

variable {lower : String → String}

theorem isListedStack_iff {configFiles project : String} {known : List (Int × String)} :
    Compose.isListedStack lower configFiles project known = true ↔
      ∃ id, Compose.portainerStackId configFiles = some id ∧
        ∃ stack ∈ known, stack.1 = id ∧ lower stack.2 = lower project := by
  rw [Compose.isListedStack, Option.any_eq_true]
  refine exists_congr fun id => and_congr_right fun _ => ?_
  rw [List.contains_iff_mem, List.mem_map]
  simp only [Prod.mk.injEq]

/-- Being told the stacks, the scan leaves no more to Portainer than without. -/
theorem managed_subset (known : List (Int × String)) (containers : List PsContainer) :
    portainerManagedProjects lower (some known) containers ⊆
      portainerManagedProjects lower none containers := by
  intro project h
  obtain ⟨hagent, c, hc, hdeployed, hproject⟩ := mem_portainerManagedProjects.mp h
  refine mem_portainerManagedProjects.mpr ⟨hagent, c, hc, ?_, hproject⟩
  simp only [PsContainer.deployed, Bool.and_eq_true] at hdeployed ⊢
  exact ⟨hdeployed.1, rfl⟩

/-- A project that is left to Portainer has the name of a stack, and its id in a path. -/
theorem managed_listed (hlower : ∀ s, lower s = lower "" → s = "") {listed : List ListedStack}
    {containers : List PsContainer} {project : String}
    (h : project ∈ portainerManagedProjects lower (some (stackIndex listed)) containers) :
    ∃ stack ∈ listed, lower stack.title = lower project ∧
      ∃ c ∈ containers, c.project = project ∧ Compose.portainerStackId c.configFiles =
        some stack.id := by
  obtain ⟨_, c, hc, hdeployed, rfl⟩ := mem_portainerManagedProjects.mp h
  rw [PsContainer.deployed, Bool.and_eq_true, Bool.and_eq_true, bne_iff_ne, Option.all_some]
    at hdeployed
  obtain ⟨⟨hgiven, _⟩, hlisted⟩ := hdeployed
  obtain ⟨id, hid, entry, hentry, rfl, hname⟩ := isListedStack_iff.mp hlisted
  obtain ⟨stack, hstack, rfl⟩ := List.mem_map.mp hentry
  refine ⟨stack, hstack, ?_, c, hc, rfl, hid⟩
  -- a stack without a name would have to be that of a project without one
  cases hnamed : stack.name with
  | none =>
      rw [hnamed] at hname
      exact absurd (hlower c.project hname.symm) hgiven
  | some name =>
      rw [hnamed] at hname
      rw [ListedStack.title, hnamed]
      exact hname

/-- A scan without a selection has a row for each container that qualifies. -/
theorem row_of_rawAll {knownStacks : Option (List (Int × String))} {t : Target} {active : Bool}
    {check : String → ImageCheck} {host : HostEntry} {listing : Listing} {config : Config}
    {containers : List PsContainer} (hmode : host.dockerMode ≠ some "selected")
    (hlisting : listing.containers = some containers) :
    (containersForHost lower knownStacks t active check host listing config).2 =
      some ((rawAll lower knownStacks t active containers).map (stackRow check host)) := by
  rw [containersForHost, hlisting]
  have hpending : pendingStacks host = none := if_neg fun h => hmode h.1
  have hall : allowedContainers host = none := if_neg hmode
  dsimp only
  rw [hpending, hall]
  simp

/-- The stack is in the rows of Portainer's backend. -/
def Reported (reports : List StackStatus) (stack : ListedStack) : Prop :=
  ∃ report ∈ reports, report.id = stack.id ∧ report.name = stack.title

variable (lower) in
/-- The project and the id of the container, or of another one of its project, are
those of the stack. -/
def BelongsTo (containers : List PsContainer) (c : PsContainer) (stack : ListedStack) : Prop :=
  lower stack.title = lower c.project ∧
    ∃ other ∈ containers, other.project = c.project ∧
      Compose.portainerStackId other.configFiles = some stack.id

/-- A container with a name and an image is found over SSH or is of a stack that
Portainer's backend reports, unless it belongs to this program or its stack is taken
for that of this program. -/
theorem no_container_between (lower : String → String) (hlower : ∀ s, lower s = lower "" → s = "")
    (env : SelfEnvironment) (active : Bool) (imageCheck : String → ImageCheck)
    (stackCheck : Int → String → String → ImageCheck) (config : Config) {host : HostEntry}
    (hmode : host.dockerMode ≠ some "selected") {overview : Overview}
    (hreadable : overview.Readable) (returncode : Option Int) (containers : List PsContainer) :
    let t := Compose.target env host
    let known := some (stackIndex overview.listed)
    ∃ rows reports,
      (containersForHost lower known t active imageCheck host ⟨returncode, some containers⟩
        config).2 = some rows ∧
      getStacksWithUpdateStatus lower (getSelfContainerId env) (getSelfContainerName env)
        stackCheck overview = some reports ∧
      (∀ c ∈ containers, c.name ≠ "" → c.image ≠ "" → t.isSelf c.id = false →
        c.project ∉ selfProjects t containers →
        (∃ row ∈ rows, row.name = c.name ∧ row.composeProject = c.project) ∨
        ∃ stack ∈ overview.listed, BelongsTo lower containers c stack ∧
          (Reported reports stack ∨
            takenForOwn lower (getSelfContainerId env) (getSelfContainerName env)
            overview stack = some true)) ∧
      portainerManagedProjects lower known containers ⊆
          portainerManagedProjects lower none containers := by
  intro t known
  obtain ⟨reports, hreports, hall⟩ := stacks_reported lower _ _ hreadable
  refine ⟨_, reports, row_of_rawAll hmode rfl, hreports, fun c hc hname himage hother hown => ?_,
    managed_subset _ containers⟩
  by_cases hleft : active = true ∧ c.project ∈ portainerManagedProjects lower known containers
  · obtain ⟨stack, hstack, hbelongs⟩ := managed_listed hlower hleft.2
    refine .inr ⟨stack, hstack, hbelongs, ?_⟩
    rcases hall stack hstack with htaken | hreported
    · exact .inr htaken
    · exact .inl ⟨_, hreported, rfl, rfl⟩
  · refine .inl ⟨_, List.mem_map_of_mem (mem_rawAll.mpr ⟨hc, hname, himage, hother, hown, hleft⟩),
      rfl, rfl⟩

/-- A host with an agent of Portainer and a container of a stack. -/
def mediaContainers : List PsContainer :=
  [⟨"5f0c7a9d1e2b", "/portainer_agent", "portainer/agent:2.19", ""⟩,
   ⟨"8d3b6c4f5a1e", "/jellyfin", "jellyfin/jellyfin", "com.docker.compose.project=media," ++
      "com.docker.compose.project.config_files=/data/compose/3/docker-compose.yml"⟩]

def mediaOverview : Overview where
  endpoints := [⟨1, "nas", some 2⟩]
  listed := [⟨3, some "Media", some 1⟩]
  containers _ := some []

def mediaHost : HostEntry where
  name := "nas"
  host := "10.0.0.2"
  dockerMode := some "all"

/-- No registry answers. -/
def unanswered : ImageCheck := ⟨.unknown, some "registry_error"⟩

theorem toLower_eq_empty (s : String) (h : s.toLower = "".toLower) : s = "" := by
  have hempty : "".toLower = "" := String.map_eq_empty.mpr rfl
  rw [hempty] at h
  exact String.map_eq_empty.mp h

/-- The container of the stack is left to Portainer, whose backend reports the stack. -/
theorem media_covered : ∃ rows reports,
    (containersForHost String.toLower (some (stackIndex mediaOverview.listed))
      (Compose.target ⟨"", none, ""⟩ mediaHost) true (fun _ => unanswered) mediaHost
      ⟨some 0, some mediaContainers⟩ {}).2 = some rows ∧
    getStacksWithUpdateStatus String.toLower none none (fun _ _ _ => unanswered) mediaOverview =
      some reports ∧
    ((∃ row ∈ rows, row.name = "jellyfin") ∨ ∃ report ∈ reports, report.id = 3) := by
  have hreadable : mediaOverview.Readable := by
    rintro _ _ hlisted c hc
    cases hlisted
    cases hc
  have hmode : mediaHost.dockerMode ≠ some "selected" := by decide
  obtain ⟨rows, reports, hrows, hreports, hcovered, _⟩ :=
    no_container_between String.toLower toLower_eq_empty
    ⟨"", none, ""⟩ true (fun _ => unanswered) (fun _ _ _ =>
      unanswered) {} hmode hreadable (some 0) mediaContainers
  refine ⟨rows, reports, hrows, hreports, ?_⟩
  have hown : takenForOwn String.toLower none none mediaOverview ⟨3, some "Media", some 1⟩ =
      some false := by
    decide +kernel
  rcases hcovered _ (List.mem_cons_of_mem _ List.mem_cons_self) (by decide +kernel) (by decide) rfl
    (by decide +kernel) with ⟨row, hrow, hname, _⟩ | ⟨stack, hstack, _, hreported⟩
  · exact .inl ⟨row, hrow, hname.trans (by decide +kernel)⟩
  · obtain rfl := List.mem_singleton.mp hstack
    rcases hreported with ⟨report, hreport, hid, _⟩ | htaken
    · exact .inr ⟨report, hreport, hid⟩
    · exact absurd (hown.symm.trans htaken) (by decide)

end Coverage

end Keepup.Docker.Discovery
