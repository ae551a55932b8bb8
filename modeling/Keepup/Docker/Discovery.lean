import Keepup.Docker.Compose
import Keepup.Schedules.UpdatePaths

/-!
The containers of a host, as a scan over SSH finds them, and the migration of an
older selection of projects to one of containers, which the scan does on its way.
A project that an agent of Portainer manages is left to Portainer.
-/

namespace Keepup.Docker.Discovery

open Lib

inductive UpdateStatus where
  | updateAvailable
  | upToDate
  | mixed
  | unknown
deriving DecidableEq

/-- What the check of an image comes to. -/
structure ImageCheck where
  status : UpdateStatus
  reason : Option String := none
deriving DecidableEq

structure ImageReport where
  name : String
  status : UpdateStatus
  reason : Option String
deriving DecidableEq

/-- A row of `docker ps`. What is missing or null is empty. -/
structure PsContainer where
  id : String
  names : String
  image : String
  labels : String

/-- What comes back of `docker ps`. There are no containers where the connection or
the command raised, or where a row is no dictionary or has null for its names, at
which the scan raises. -/
structure Listing where
  returncode : Option Int
  containers : Option (List PsContainer)

/-- A row of the dashboard. -/
structure StackRow where
  id : String
  name : String
  endpointId : String
  endpointName : String
  connectionBadge : String
  updateStatus : UpdateStatus
  unknownReason : Option String
  images : List ImageReport
  updatePath : String
  composeProject : String

section Rows

variable (c : PsContainer)

def PsContainer.label (key : String) : String := (Compose.parseDockerPsLabels c.labels).getD key ""

def PsContainer.project : String := c.label Compose.projectLabel

def PsContainer.configFiles : String := c.label (Compose.projectLabel ++ ".config_files")

def PsContainer.name : String := Text.strip (Text.lstripChar '/' (Text.before ',' c.names))

end Rows

section Projects

/- `str.lower`, the stacks that Portainer lists by id and name, where it has been
asked, and the target with what it knows of the own container. -/
variable (lower : String → String) (knownStacks : Option (List (Int × String))) (t : Target)

def composeData : String := "/data/compose/"

def hasAgent (containers : List PsContainer) : Bool :=
  containers.any fun c => Text.isIn "portainer/agent" (lower c.image)

/-- The container is one of a project that Portainer has deployed, and still lists
if it has been asked. -/
def PsContainer.deployed (c : PsContainer) : Bool :=
  c.project != "" && Text.startsWith c.configFiles composeData &&
    knownStacks.all (Compose.isListedStack lower c.configFiles c.project)

def portainerManagedProjects (containers : List PsContainer) : List String :=
  if hasAgent lower containers then
    (containers.filter (PsContainer.deployed lower knownStacks)).map PsContainer.project
  else []

/-- The projects of the own container. -/
def selfProjects (containers : List PsContainer) : List String :=
  (containers.filter fun c => t.isSelf c.id && c.project != "").map PsContainer.project

end Projects

section Scan

variable (lower : String → String) (knownStacks : Option (List (Int × String))) (t : Target)

/- Whether the integration with Portainer is active. -/
variable (active : Bool)

def PsContainer.skipped (containers : List PsContainer) (c : PsContainer) : Bool :=
  c.name == "" || c.image == "" || t.isSelf c.id ||
    (c.project != "" && (selfProjects t containers).contains c.project) ||
    (c.project != "" &&
      (portainerManagedProjects lower knownStacks containers).contains c.project && active)

/-- The containers that qualify, whatever the selection. -/
def rawAll (containers : List PsContainer) : List PsContainer :=
  containers.filter fun c => !c.skipped lower knownStacks t active containers

/-- The containers of the selected projects. -/
def expandedNames (containers : List PsContainer) (selected : List String) : List String :=
  ((rawAll lower knownStacks t active containers).filter fun c => selected.contains c.project).map
    PsContainer.name

def connectionBadge (host : HostEntry) : String :=
  let type := Text.orElse host.proxmoxType "lxc"
  if Text.given host.proxmoxNode then
    match host.proxmoxVmid with
    | none => "Node · Proxmox API"
    | some vmid =>
        if type = "lxc" then "LXC " ++ toString vmid ++ " · pct exec"
        else if type = "vm" then "VM " ++ toString vmid ++ " · SSH"
        else "SSH"
  else "SSH"

/-- The row of a container. `check` is what the check of its image came to. -/
def stackRow (check : String → ImageCheck) (host : HostEntry) (c : PsContainer) : StackRow :=
  let ref := if c.project = "" then Schedules.makeStandaloneRef host.slug c.name
    else Schedules.makeComposeRef host.slug c.project c.name
  { id := ref
    name := c.name
    endpointId := host.slug
    endpointName := host.name
    connectionBadge := connectionBadge host
    updateStatus := (check c.image).status
    unknownReason := (check c.image).reason
    images := [⟨c.image, (check c.image).status, (check c.image).reason⟩]
    updatePath := "ssh/" ++ ref
    composeProject := c.project }

/-- The selected projects, where they are still to be migrated. -/
def pendingStacks (host : HostEntry) : Option (List String) :=
  if host.dockerMode = some "selected" ∧ host.dockerContainers = none then host.dockerStacks
  else none

/-- The names that are scanned, `none` for all. -/
def allowedContainers (host : HostEntry) : Option (List String) :=
  if host.dockerMode = some "selected" then some (host.dockerContainers.getD []) else none

/-- The scan of a host: what becomes of the configuration, and the rows, unless it raises. -/
def containersForHost (check : String → ImageCheck) (host : HostEntry) (listing : Listing)
    (config : Config) :
    Config × Option (List StackRow) :=
  match listing.containers with
  | none => (config, none)
  | some containers =>
      let raw := rawAll lower knownStacks t active containers
      match pendingStacks host with
      | some selected =>
          let names := expandedNames lower knownStacks t active containers selected
          (config.setDockerMonitoring host.slug "selected" (some names),
            some ((raw.filter fun c => names.contains c.name).map (stackRow check host)))
      | none =>
          (config, some ((raw.filter fun c => (allowedContainers host).all fun names =>
            names.contains c.name).map (stackRow check host)))

end Scan

section Facts

variable {lower : String → String} {knownStacks : Option (List (Int × String))}
  {t : Target} {active : Bool}
variable {containers : List PsContainer} {c : PsContainer} {project : String}

theorem mem_portainerManagedProjects :
    project ∈ portainerManagedProjects lower knownStacks containers ↔
    hasAgent lower containers = true ∧ ∃ c ∈ containers, c.deployed lower knownStacks = true ∧
      c.project = project := by
  rw [portainerManagedProjects]
  split
  · rename_i hagent
    simp [hagent, and_assoc]
  · rename_i hagent
    simp [hagent]

theorem mem_selfProjects : project ∈ selfProjects t containers ↔
    project ≠ "" ∧ ∃ c ∈ containers, t.isSelf c.id = true ∧ c.project = project := by
  simp only [selfProjects, List.mem_map, List.mem_filter, Bool.and_eq_true, bne_iff_ne]
  constructor
  · rintro ⟨c, ⟨hmem, hself, hgiven⟩, rfl⟩
    exact ⟨hgiven, c, hmem, hself, rfl⟩
  · rintro ⟨hgiven, c, hmem, hself, rfl⟩
    exact ⟨c, ⟨hmem, hself, hgiven⟩, rfl⟩

/-- The containers of the own project, and those that are left to Portainer. -/
theorem not_skipped_iff : c.skipped lower knownStacks t active containers = false ↔
    c.name ≠ "" ∧ c.image ≠ "" ∧ t.isSelf c.id = false ∧ c.project ∉ selfProjects t containers ∧
      ¬ (active = true ∧ c.project ∈ portainerManagedProjects lower knownStacks containers) := by
  have hself : c.project ∈ selfProjects t containers → c.project ≠ "" :=
    fun h => (mem_selfProjects.mp h).1
  have hmanaged : c.project ∈ portainerManagedProjects lower knownStacks containers →
      c.project ≠ "" := by
    intro h
    obtain ⟨_, other, _, hdeployed, hsame⟩ := mem_portainerManagedProjects.mp h
    rw [PsContainer.deployed, Bool.and_eq_true, Bool.and_eq_true, bne_iff_ne] at hdeployed
    exact hsame ▸ hdeployed.1.1
  simp only [PsContainer.skipped, Bool.or_eq_false_iff, beq_eq_false_iff_ne, Bool.and_eq_false_iff,
    bne_eq_false_iff_eq, List.contains_eq_mem, decide_eq_false_iff_not]
  constructor
  · rintro ⟨⟨⟨⟨hname, himage⟩, hother⟩, hown⟩, hleft⟩
    refine ⟨hname, himage, hother, fun h => hown.elim (hself h) fun hnot => hnot h, fun h => ?_⟩
    rcases hleft with (hempty | hnot) | hactive
    · exact hmanaged h.2 hempty
    · exact hnot h.2
    · exact absurd h.1 (by simp [hactive])
  · rintro ⟨hname, himage, hother, hown, hleft⟩
    refine ⟨⟨⟨⟨hname, himage⟩, hother⟩, .inr hown⟩, ?_⟩
    cases active with
    | false => exact .inr rfl
    | true => exact .inl (.inr fun h => hleft ⟨rfl, h⟩)

theorem mem_rawAll : c ∈ rawAll lower knownStacks t active containers ↔
    c ∈ containers ∧ c.name ≠ "" ∧ c.image ≠ "" ∧ t.isSelf c.id = false ∧
      c.project ∉ selfProjects t containers ∧
      ¬ (active = true ∧ c.project ∈ portainerManagedProjects lower knownStacks containers) := by
  rw [rawAll, List.mem_filter, Bool.not_eq_true', not_skipped_iff]

end Facts

end Keepup.Docker.Discovery
