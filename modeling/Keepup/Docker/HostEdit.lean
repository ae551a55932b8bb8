import Keepup.Docker.Discovery

/-!
The edit of a host: its name, its address, its user and its port. The entry is
built anew from the form, and of the fields that other operations have stored in
it only the mode of the monitoring and an older selection of projects are carried
over. What the SSH backend monitors on the host depends on the rest as well.
-/

namespace Keepup.Docker.Discovery

open Lib

/-- A host with other connection fields. A blank user and the port 0 are left out. -/
def reconnected (name host : String) (user : Option String) (port : Option Int) (old : HostEntry) :
    HostEntry :=
  { old with
    name := name
    host := host
    user := user.filter (· ≠ "")
    port := port.filter (· ≠ 0) }

section Monitored

variable (lower : String → String) (env : SelfEnvironment) (check : String → ImageCheck)
  (knownStacks : Option (List (Int × String))) (active : Bool)

/-- The names of the containers that the scan of a host reports. -/
def monitored (config : Config) (listing : Listing) (host : HostEntry) : Option (List String) :=
  (containersForHost lower knownStacks
    (Compose.target env host) active check host listing config).2.map
    fun rows => rows.map StackRow.name

variable {lower env check knownStacks active}

/-- Of the target of a host only the own container counts. -/
theorem rawAll_congr {t t' : Target} (h : t.selfId = t'.selfId) (containers : List PsContainer) :
    rawAll lower knownStacks t active containers =
      rawAll lower knownStacks t' active containers := by
  have hself : ∀ id, t.isSelf id = t'.isSelf id := by
    intro id
    rw [Target.isSelf, h, Target.isSelf]
  have hprojects : selfProjects t containers = selfProjects t' containers := by
    simp only [selfProjects, hself]
  simp only [rawAll, PsContainer.skipped, hself, hprojects]

theorem names_of_rows (host : HostEntry) (containers : List PsContainer) :
    (containers.map (stackRow check host)).map StackRow.name = containers.map PsContainer.name := by
  rw [List.map_map]
  rfl

/-- What is monitored is decided by the settings of the monitoring. -/
theorem monitored_congr {config config' : Config} {listing : Listing} {host host' : HostEntry}
    (hmode : host.dockerMode = host'.dockerMode)
    (hcontainers : host.dockerContainers = host'.dockerContainers)
    (hstacks : host.dockerStacks = host'.dockerStacks) :
    monitored lower env check knownStacks active config listing host =
      monitored lower env check knownStacks active config' listing host' := by
  have hpending : pendingStacks host = pendingStacks host' := by
    simp only [pendingStacks, hmode, hcontainers, hstacks]
  have hallowed : allowedContainers host = allowedContainers host' := by
    simp only [allowedContainers, hmode, hcontainers]
  have hraw : ∀ containers, rawAll lower knownStacks (Compose.target env host) active containers =
      rawAll lower knownStacks (Compose.target env host') active containers := rawAll_congr rfl
  rw [monitored, monitored, containersForHost, containersForHost]
  cases listing.containers with
  | none => rfl
  | some containers =>
      simp only [hpending, hallowed, expandedNames, hraw]
      cases pendingStacks host' with
      | none => simp only [Option.map_some, names_of_rows]
      | some selected => simp only [Option.map_some, names_of_rows]

end Monitored

section Edit

variable (config : Config) (slug name host : String) (user : Option String) (port : Option Int)

/-- The edit changes the connection fields of the first host of the slug and nothing
else, and a selection of containers on it is monitored as before. -/
structure EditsConnection : Prop where
  unknown : (∀ x ∈ config.hosts, x.slug ≠ slug) →
    config.updateHost slug name host user port = config
  known : ∀ before old after, config.hosts = before ++ old :: after → old.slug = slug →
    (∀ x ∈ before, x.slug ≠ slug) → ∃ new,
      config.updateHost slug name host user port = { config with hosts := before ++ new :: after } ∧
      new = reconnected name host user port old ∧
      (old.dockerMode = some "selected" → ∀ lower env check knownStacks active listing,
        monitored lower env check knownStacks active
            (config.updateHost slug name host user port) listing new =
          monitored lower env check knownStacks active config listing old)

/-- Nothing is stored in the entry that the edit does not carry over. -/
structure Bare (old : HostEntry) : Prop where
  autoUpdate : old.autoUpdate = none
  key : old.key = none
  dockerContainers : old.dockerContainers = none
  proxmoxNode : old.proxmoxNode = none
  proxmoxVmid : old.proxmoxVmid = none
  proxmoxType : old.proxmoxType = none
  proxmoxServer : old.proxmoxServer = none

variable {config slug name host user port}

/-- The new entry is the old one up to its connection exactly for a bare one. -/
theorem editedEntry_eq_iff {old : HostEntry} :
    Config.editedEntry name host user port old = reconnected name host user port old ↔
      Bare old := by
  constructor
  · intro h
    exact {
      autoUpdate := (congrArg HostEntry.autoUpdate h).symm
      key := (congrArg HostEntry.key h).symm
      dockerContainers := (congrArg HostEntry.dockerContainers h).symm
      proxmoxNode := (congrArg HostEntry.proxmoxNode h).symm
      proxmoxVmid := (congrArg HostEntry.proxmoxVmid h).symm
      proxmoxType := (congrArg HostEntry.proxmoxType h).symm
      proxmoxServer := (congrArg HostEntry.proxmoxServer h).symm }
  · intro h
    simp only [Config.editedEntry, Config.buildHostEntry, reconnected, h.autoUpdate, h.key,
      h.dockerContainers, h.proxmoxNode, h.proxmoxVmid, h.proxmoxType,
        h.proxmoxServer, Option.filter_none]

theorem updateHost_hosts {before after : List HostEntry} {old : HostEntry}
    (hhosts : config.hosts = before ++ old :: after) (hslug : old.slug = slug)
    (hfirst : ∀ x ∈ before, x.slug ≠ slug) : config.updateHost slug name host user port =
      { config with hosts := before ++ Config.editedEntry name host user port old :: after } := by
  rw [Config.updateHost, hhosts, Config.changeHost_append hfirst hslug]

/-- An edit keeps to the connection exactly where the host has nothing else. -/
theorem edit_keeps_iff (config : Config) (slug name host : String) (user : Option String)
    (port : Option Int) : EditsConnection config slug name host user port ↔
      ∀ before old after, config.hosts = before ++ old :: after → old.slug = slug →
        (∀ x ∈ before, x.slug ≠ slug) → Bare old := by
  constructor
  · intro hedit before old after hhosts hslug hfirst
    obtain ⟨new, hwritten, hnew, _⟩ := hedit.known before old after hhosts hslug hfirst
    rw [updateHost_hosts hhosts hslug hfirst] at hwritten
    have hsame := List.append_cancel_left (congrArg Config.hosts hwritten)
    rw [hnew] at hsame
    exact editedEntry_eq_iff.mp (List.cons.inj hsame).1
  · intro hbare
    constructor
    · intro hnone
      rw [Config.updateHost, Config.changeHost_of_not_mem hnone]
    · intro before old after hhosts hslug hfirst
      have hentry : Config.editedEntry name host user port old =
          reconnected name host user port old :=
        editedEntry_eq_iff.mpr (hbare before old after hhosts hslug hfirst)
      refine ⟨reconnected name host user port old, ?_, rfl, ?_⟩
      · rw [updateHost_hosts hhosts hslug hfirst, hentry]
      · intro _ lower env check knownStacks active listing
        exact monitored_congr rfl rfl rfl

end Edit

/-- A host on which one container has been selected, and its configuration. -/
def selectedHost : HostEntry :=
  { name := "nas", host := "10.0.0.5", user := some "root", dockerMode := some "selected",
    dockerContainers := some ["web"] }

def selectedConfig : Config := { hosts := [selectedHost] }

/-- The names that a scan of a host with that one container reports. -/
def scannedNames (host : HostEntry) : Option (List String) :=
  monitored id ⟨"", none, ""⟩ (fun _ => ⟨.upToDate, none⟩) none false selectedConfig
    ⟨some 0, some [⟨"0123456789ab", "web", "nginx", ""⟩]⟩ host

/-- A new address ends the monitoring of the container. -/
theorem new_address_drops_selection :
    (selectedConfig.updateHost "nas" "nas" "10.0.0.6" (some "root") none).hosts =
        [Config.editedEntry "nas" "10.0.0.6" (some "root") none selectedHost] ∧
      scannedNames selectedHost = some ["web"] ∧
      scannedNames (Config.editedEntry "nas" "10.0.0.6" (some "root") none selectedHost) = some [] ∧
      ¬ EditsConnection selectedConfig "nas" "nas" "10.0.0.6" (some "root") none := by
  have hslug : selectedHost.slug = "nas" := by decide +kernel
  have hfirst : ∀ x ∈ ([] : List HostEntry), x.slug ≠ "nas" := by simp
  have hhosts : selectedConfig.hosts = [] ++ selectedHost :: [] := rfl
  refine ⟨?_, by decide +kernel, by decide +kernel, fun hedit => ?_⟩
  · rw [updateHost_hosts hhosts hslug hfirst, List.nil_append]
  · obtain ⟨new, hwritten, hnew, _⟩ := hedit.known [] selectedHost [] hhosts hslug hfirst
    rw [updateHost_hosts hhosts hslug hfirst, hnew] at hwritten
    have hsame := List.append_cancel_left (congrArg Config.hosts hwritten)
    have hbare := editedEntry_eq_iff.mp (List.cons.inj hsame).1
    exact absurd hbare.dockerContainers (by simp [selectedHost])

end Keepup.Docker.Discovery
