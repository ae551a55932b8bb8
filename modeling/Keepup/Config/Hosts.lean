import Keepup.Credentials.Store

/-!
The operations on the host entries of the configuration. A host is addressed by
the slug of its name; all but `deleteHost` and the wizard's container selection
stop at the first entry that has it.
-/

namespace Keepup.Config

section Entries

/-- Only what says something is written. -/
def buildHostEntry (name host : String) (user : Option String) (port : Option Int)
    (keyPath dockerMode proxmoxNode : Option String) (proxmoxVmid : Option Int)
    (proxmoxType proxmoxServer : Option String) : HostEntry where
  name := name
  host := host
  user := user.filter (· ≠ "")
  port := port.filter (· ≠ 0)
  key := keyPath.filter (· ≠ "")
  dockerMode := dockerMode.filter fun mode => mode ≠ "" ∧ mode ≠ "none"
  proxmoxNode := proxmoxNode.filter (· ≠ "")
  proxmoxVmid := proxmoxVmid
  proxmoxType := proxmoxType.filter (· ≠ "")
  proxmoxServer := proxmoxServer.filter (· ≠ "")

/-- The entry after an edit: a new one, with the monitoring of the old. -/
def editedEntry (name host : String) (user : Option String) (port : Option Int) (old : HostEntry) :
    HostEntry :=
  { buildHostEntry name host user port none none none none none none with
    dockerMode := old.dockerMode
    dockerStacks := old.dockerStacks }

def monitoredEntry (mode : String) (containers : Option (List String)) (old : HostEntry) :
    HostEntry :=
  if mode = "none" then
    { old with dockerMode := none, dockerContainers := none, dockerStacks := none }
  else
    { old with
      dockerMode := some mode
      dockerContainers := if mode = "selected" then containers else none
      dockerStacks := none }

def scheduledEntry (osEnabled : Bool) (osSchedule : String) (autoReboot : Bool) (old : HostEntry) :
    HostEntry :=
  { old with autoUpdate := if osEnabled then some ⟨true, some osSchedule, autoReboot⟩ else none }

@[simp] theorem editedEntry_name {name host : String} {user : Option String} {port : Option Int}
    {old : HostEntry} : (editedEntry name host user port old).name = name := rfl

@[simp] theorem monitoredEntry_name {mode : String} {containers : Option (List String)}
    {old : HostEntry} : (monitoredEntry mode containers old).name = old.name := by
  rw [monitoredEntry]
  split <;> rfl

@[simp] theorem scheduledEntry_name {osEnabled : Bool} {osSchedule : String} {autoReboot : Bool}
    {old : HostEntry} : (scheduledEntry osEnabled osSchedule autoReboot old).name = old.name := rfl

end Entries

section FirstOfSlug

/-- Change the first host of a slug. -/
def changeHost (slug : String) (change : HostEntry → HostEntry) : List HostEntry → List HostEntry
  | [] => []
  | h :: rest => if h.slug = slug then change h :: rest else h :: changeHost slug change rest

variable {slug : String} {change : HostEntry → HostEntry} {hosts : List HostEntry}

theorem changeHost_of_not_mem (h : ∀ host ∈ hosts, host.slug ≠ slug) :
    changeHost slug change hosts = hosts := by
  induction hosts with
  | nil => rfl
  | cons host rest ih =>
      rw [changeHost, if_neg (h host (by simp)), ih fun x hx => h x (by simp [hx])]

theorem changeHost_append {before after : List HostEntry} {host : HostEntry}
    (hbefore : ∀ x ∈ before, x.slug ≠ slug) (hhost : host.slug = slug) :
    changeHost slug change (before ++ host :: after) = before ++ change host :: after := by
  induction before with
  | nil => simp [changeHost, hhost]
  | cons x rest ih =>
      rw [List.cons_append, changeHost, if_neg (hbefore x (by simp)),
        ih fun y hy => hbefore y (by simp [hy]), List.cons_append]

/-- The first host of a slug, between those before it and those after it. -/
theorem exists_firstOfSlug (h : ∃ host ∈ hosts, host.slug = slug) :
    ∃ before host after, hosts = before ++ host :: after ∧ host.slug = slug ∧
      ∀ x ∈ before, x.slug ≠ slug := by
  induction hosts with
  | nil => simp at h
  | cons host rest ih =>
      by_cases hhost : host.slug = slug
      · exact ⟨[], host, rest, rfl, hhost, by simp⟩
      · obtain ⟨x, hx, hslug⟩ := h
        have hrest : x ∈ rest := by
          rcases List.mem_cons.mp hx with rfl | hrest
          · exact absurd hslug hhost
          · exact hrest
        obtain ⟨before, y, after, rfl, hy, hbefore⟩ := ih ⟨x, hrest, hslug⟩
        refine ⟨host :: before, y, after, rfl, hy, fun z hz => ?_⟩
        rcases List.mem_cons.mp hz with rfl | hz
        · exact hhost
        · exact hbefore z hz

theorem firstOfSlug_unique {before before' after after' : List HostEntry} {host host' : HostEntry}
    (h : before ++ host :: after = before' ++ host' :: after') (hslug : host.slug = slug)
    (hfirst : ∀ x ∈ before, x.slug ≠ slug) (hslug' : host'.slug = slug)
    (hfirst' : ∀ x ∈ before', x.slug ≠ slug) : before = before' ∧
    host = host' ∧ after = after' := by
  induction before generalizing before' with
  | nil =>
      cases before' with
      | nil => simpa using h
      | cons x rest =>
          obtain ⟨rfl, _⟩ := List.cons.inj h
          exact absurd hslug (hfirst' host (by simp))
  | cons x rest ih =>
      cases before' with
      | nil =>
          obtain ⟨rfl, _⟩ := List.cons.inj h
          exact absurd hslug' (hfirst x (by simp))
      | cons y rest' =>
          obtain ⟨rfl, htail⟩ := List.cons.inj h
          obtain ⟨rfl, hsame⟩ := ih htail (fun z hz => hfirst z (by simp [hz]))
            (fun z hz => hfirst' z (by simp [hz]))
          exact ⟨rfl, hsame⟩

end FirstOfSlug

section Operations

variable (config : Config)

def addHost (entry : HostEntry) : Config := { config with hosts := config.hosts ++ [entry] }

def updateHost (slug name host : String) (user : Option String) (port : Option Int) : Config :=
  { config with hosts := changeHost slug (editedEntry name host user port) config.hosts }

def deleteHost (slug : String) : Config :=
  { config with hosts := config.hosts.filter (·.slug ≠ slug) }

def setDockerMonitoring (slug mode : String) (containers : Option (List String)) : Config :=
  { config with hosts := changeHost slug (monitoredEntry mode containers) config.hosts }

def setHostAutoUpdate (slug : String) (osEnabled : Bool) (osSchedule : String) (autoReboot : Bool) :
    Config :=
  { config with hosts := changeHost slug (scheduledEntry osEnabled
    osSchedule autoReboot) config.hosts }

/-- The container of a selection `slug:container` of a host. -/
def selectedFor (slug item : String) : Option String :=
  match item.toList.span (· ≠ ':') with
  | (_, []) => none
  | (owner, _ :: container) =>
      if String.ofList owner = slug then some (String.ofList container) else none

def saveWizardContainerSelection (selections : List String) : Config :=
  { config with hosts := config.hosts.map fun host =>
      let containers := selections.filterMap (selectedFor host.slug)
      if containers = [] then host
      else { host with
        dockerMode := some "selected"
        dockerContainers := some containers
        dockerStacks := none } }

end Operations

end Keepup.Config
