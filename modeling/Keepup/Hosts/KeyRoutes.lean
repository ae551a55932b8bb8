import Keepup.Credentials.Entry
import Keepup.Hosts.KeyFiles
import Keepup.Text.Lines

/-!
The routes to which the name of a key file is posted, and whether the paths that
come of the names stay in the directory of the keys, over any order of requests.
-/

namespace Keepup.Setup

open Lib Proxmox

/-- Test a login for the guests of a server: the host and the credentials to
connect with, or what the page answers without connecting. -/
def setupProxmoxTestSsh (env : Surroundings) (s : Settings) (form : LxcForm) :
    Except String (SshHost × Entry) :=
  match env.urlHostname ((proxmoxCfgFor s form.serverId).url.getD "") with
  | none => .error "Internal Server Error"
  | some hostname =>
      let pxHost := hostname.getD ""
      let key := Text.strip form.proxmoxSshKey
      let password := if form.proxmoxSshAuth = "password"
        then Text.strip form.proxmoxSshPassword else ""
      if pxHost = "" then .error "Proxmox not configured."
      else if form.proxmoxSshAuth = "key" ∧ keyPathOf form.proxmoxSshAuth key = none then
        .error "Select a key file first."
      else if form.proxmoxSshAuth = "password" ∧ password = "" then .error "Enter a password first."
      else .ok (⟨pxHost, some (.str (Text.orElse (some (Text.strip form.proxmoxSshUser)) "root")),
        none,
          keyPathOf form.proxmoxSshAuth key⟩,
        if password ≠ "" then (∅ : Entry).set "ssh_password" (.str password) else ∅)

/-- No entry of the store has a path of a key file. -/
def NoKeyPaths (store : Store) : Prop :=
  ∀ key entry, store.get? key = some entry → entry.get? "key_path" = none

/-- Nothing new names a key file by its path. -/
structure KeepsKeyPaths (s t : Settings) : Prop where
  hosts : ∀ host ∈ t.config.hosts, host.key = none ∨ ∃ old ∈ s.config.hosts, host.key = old.key
  store : NoKeyPaths s.store → NoKeyPaths t.store

/-- What any other route writes. -/
structure OtherWrite where
  run : Settings → Settings
  keeps : ∀ s, KeepsKeyPaths s (run s)

inductive KeyRequest where
  | addHost (form : AddForm) (connected : Bool) (containers : Nat)
  | confirmAddHost (i : ℕ) (enableDocker : String)
  | testSsh (form : LxcForm)
  | saveLxcs (form : LxcForm)
  | saveProxmox (form : SaveForm) (pinnedCertPem pinnedFingerprint : String)
      (nodes : Option (List String))
  | other (write : OtherWrite)

/-- The disk, and every host that waits in a session given out so far. -/
structure KeyWorld where
  installation : Installation
  pending : List PendingHost := []

section Steps

variable (dir : KeysDir) (env : Surroundings)

def keyStep (w : KeyWorld) : KeyRequest → KeyWorld
  | .addHost form connected containers =>
      let (s, pending) := setupAddHost w.installation form connected containers
      ⟨s, w.pending ++ pending.toList⟩
  | .confirmAddHost i enableDocker =>
      { w with installation := setupConfirmAddHost w.installation w.pending[i]? enableDocker }
  | .testSsh _ => w
  | .saveLxcs form =>
      { w with installation :=
          w.installation.withSettings (setupProxmoxSaveLxcs w.installation.settings form) }
  | .saveProxmox form pem fp nodes =>
      { w with installation :=
          ((setupSaveProxmox env w.installation.settings form pem fp nodes).map
            fun saved => w.installation.withSettings saved.1).getD w.installation }
  | .other write =>
      { w with installation := w.installation.withSettings (write.run w.installation.settings) }

/-- The connection that a request opens itself. -/
def opened (w : KeyWorld) : KeyRequest → Option Connection
  | .addHost form _ _ => if form.incomplete then none else connect form.hostEntry.sshHost form.creds
  | .testSsh form =>
      match setupProxmoxTestSsh env w.installation.settings form with
      | .ok (host, creds) => connect host creds
      | .error _ => none
  | _ => none

/-- The connections to the hosts of the configuration stay in the directory. -/
def HostsHeld (w : KeyWorld) : Prop :=
  ∀ host ∈ w.installation.config.hosts,
    ∀ c ∈ connections env w.installation.config.toConfig w.installation.store host, KeyHeld dir c

/-- A name posted to the wizard leads to a file in the directory. Elsewhere any
name may be posted. -/
def PostedHeld (w : KeyWorld) : KeyRequest → Prop
  | .addHost form _ _ => form.incomplete = false →
      ∀ path, keyPathOf form.authMethod form.keyFile = some path → dir.Holds path
  | .testSsh form =>
      (∃ hostname, env.urlHostname
        ((proxmoxCfgFor w.installation.settings form.serverId).url.getD "") =
        some (some hostname) ∧ hostname ≠ "") →
      ∀ path, keyPathOf form.proxmoxSshAuth (Text.strip form.proxmoxSshKey) = some path →
        dir.Holds path
  | _ => True

/-- Every path of a key file that is stored anywhere lies in the directory. -/
structure KeysHeld (w : KeyWorld) : Prop where
  hosts : ∀ host ∈ w.installation.config.hosts, ∀ path, host.key = some path → dir.Holds path
  pending : ∀ p ∈ w.pending, ∀ path, keyPathOf p.authMethod p.keyFile = some path → dir.Holds path
  store : NoKeyPaths w.installation.store

end Steps

namespace KeepsKeyPaths

variable {s t u : Settings}

theorem refl (s : Settings) : KeepsKeyPaths s s := ⟨fun host hhost => .inr ⟨host, hhost, rfl⟩, id⟩

theorem trans (h : KeepsKeyPaths s t) (h' : KeepsKeyPaths t u) : KeepsKeyPaths s u where
  hosts host hhost := by
    rcases h'.hosts host hhost with hnone | ⟨old, hold, hkey⟩
    · exact .inl hnone
    · rw [hkey]
      exact h.hosts old hold
  store := h'.store ∘ h.store

/-- The hosts and the store are as before. -/
theorem of_eq (hhosts : t.config.hosts = s.config.hosts) (hstore : t.store = s.store) :
    KeepsKeyPaths s t where
  hosts host hhost := .inr ⟨host, hhosts ▸ hhost, rfl⟩
  store h := hstore ▸ h

theorem addHosts {new : List HostEntry} (hnew : ∀ host ∈ new, host.key = none) :
    KeepsKeyPaths s { s with config := Proxmox.addHosts s.config new } where
  hosts host hhost := by
    rcases List.mem_append.mp hhost with hhost | hhost
    · exact .inr ⟨host, hhost, rfl⟩
    · exact .inl (hnew host (addNew_subset _ _ hhost))
  store := id

theorem saveUnder {key : String} {fields : CredFields}
    (hfields : ∀ value, ("key_path", some value) ∉ fields) :
    KeepsKeyPaths s { s with store := s.store.saveUnder key fields } where
  hosts host hhost := .inr ⟨host, hhost, rfl⟩
  store h k entry hget := by
    by_cases hk : k = key
    · subst hk
      obtain rfl := Option.some.inj ((Store.saveUnder_self fields).symm.trans hget)
      rw [Entry.get?_saveFields_of_not_posted hfields, Dict.getD]
      cases hold : s.store.get? k with
      | none => rfl
      | some old => exact h k old hold
    · rw [Store.saveUnder_other hk] at hget
      exact h k entry hget

theorem pop (key : String) : KeepsKeyPaths s { s with store := s.store.pop key } where
  hosts host hhost := .inr ⟨host, hhost, rfl⟩
  store h k entry hget := by
    rw [Dict.get?_pop] at hget
    split at hget
    · cases hget
    · exact h k entry hget

theorem popAll (keys : List String) :
    KeepsKeyPaths s { s with store := keys.foldl Store.deleteCredentials s.store } := by
  induction keys generalizing s with
  | nil => exact refl s
  | cons key keys ih => exact (pop key).trans ih

theorem deleteServer (serverId : String) : KeepsKeyPaths s (deleteProxmoxServer s serverId) := by
  unfold deleteProxmoxServer
  extract_lets servers dropped store config
  split
  · have hpopped : KeepsKeyPaths s { s with store := store } := pop _
    refine hpopped.trans
      ((popAll (s := { s with store := store }) (dropped.filter (· != ""))).trans ?_)
    refine ⟨fun host hhost => ?_, id⟩
    obtain ⟨old, hold, hkept⟩ := List.mem_filterMap.mp hhost
    refine .inr ⟨old, hold, ?_⟩
    rw [keepWithout] at hkept
    split at hkept
    · rw [← Option.some.inj hkept]
    · split at hkept
      · rw [← Option.some.inj hkept]
        rfl
      · cases hkept
  · exact refl s

theorem persisted {env : Surroundings} {serverId url id : String}
    (h : Persisted env s serverId url t id) :
    KeepsKeyPaths s t := by
  cases h with
  | firstDeleted first rest _ _ _ _ => exact deleteServer first.id
  | _ => exact of_eq rfl rfl

theorem saveCredentials {serverId : String} {fields : CredFields}
    (hfields : ∀ value, ("key_path", some value) ∉ fields) :
    KeepsKeyPaths s (Proxmox.saveCredentials s serverId fields) := by
  rw [Proxmox.saveCredentials]
  split
  · exact refl s
  · exact saveUnder hfields

theorem addNodes {env : Surroundings} {wizard : Bool} {url server : String}
    {nodes : Option (List String)} :
    KeepsKeyPaths s (Proxmox.addNodes env s wizard url server nodes) := by
  simp only [Proxmox.addNodes]
  split
  · split
    · exact refl s
    · apply addHosts
      intro host hhost
      obtain ⟨node, _, rfl⟩ := List.mem_map.mp hhost
      rfl
  · exact refl s

/-- The hosts that were there, each as it was or without a key. -/
theorem changeHost {slug : String} {change : HostEntry → HostEntry}
    (hchange : ∀ host, (change host).key = none ∨ (change host).key = host.key) :
    KeepsKeyPaths s { s with config := { s.config with
      hosts := Config.changeHost slug change s.config.hosts } } where
  hosts host hhost := by
    have hmem : host ∈ s.config.hosts ∨ ∃ old ∈ s.config.hosts, host = change old := by
      revert hhost
      generalize s.config.hosts = hosts
      induction hosts with
      | nil => simp [Config.changeHost]
      | cons first rest ih =>
          rw [Config.changeHost]
          split
          all_goals
            intro hhost
            rcases List.mem_cons.mp hhost with rfl | hhost
          · exact .inr ⟨first, by simp, rfl⟩
          · exact .inl (by simp [hhost])
          · exact .inl (by simp)
          · rcases ih hhost with hmem | ⟨old, hold, hsame⟩
            · exact .inl (by simp [hmem])
            · exact .inr ⟨old, by simp [hold], hsame⟩
    rcases hmem with hmem | ⟨old, hold, rfl⟩
    · exact .inr ⟨host, hmem, rfl⟩
    · exact (hchange old).imp id fun hkey => ⟨old, hold, hkey⟩
  store := id

end KeepsKeyPaths

namespace OtherWrite

/-- The edit of a host in the admin pages, which drops its key. -/
def updateHost (slug name host : String) (user : Option String) (port : Option Int) :
    OtherWrite where
  run s := { s with config := s.config.updateHost slug name host user port }
  keeps _ := .changeHost fun _ => .inl rfl

def setHostAutoUpdate (slug : String) (osEnabled : Bool) (osSchedule : String) (autoReboot : Bool) :
    OtherWrite where
  run s := { s with config := s.config.setHostAutoUpdate slug osEnabled osSchedule autoReboot }
  keeps _ := .changeHost fun _ => .inr rfl

/-- The credentials of a host, whose key is a text and not a path. -/
def saveCredentials (slug : String) (sshPassword sshKey sudoPassword : Option String) :
    OtherWrite where
  run s := { s with store := s.store.saveCredentials slug sshPassword sshKey sudoPassword }
  keeps _ := .saveUnder (by simp)

def deleteServer (serverId : String) : OtherWrite where
  run s := deleteProxmoxServer s serverId
  keeps _ := .deleteServer serverId

end OtherWrite

section Forms

variable {s t : Settings}

theorem saveForm_no_keyPath (form : SaveForm) (value : Scalar) :
    ("key_path", some value) ∉ form.credKwargs := by
  simp only [SaveForm.credKwargs, proxmoxSshCredKwargs]
  split <;> split <;> split <;> split <;> simp

theorem lxcForm_no_keyPath (form : LxcForm) (value : Scalar) :
    ("key_path", some value) ∉ form.credKwargs := by
  simp only [LxcForm.credKwargs]
  split <;> split <;> simp

theorem lxcHost_key {server entry : String} {host : HostEntry}
    (h : lxcHost server entry = some host) :
    host.key = none := by
  rw [lxcHost] at h
  split at h
  · split at h
    · cases h
    · obtain ⟨n, _, rfl⟩ := Option.map_eq_some_iff.mp h
      rfl
  · cases h

theorem setupProxmoxSaveLxcs_keeps (form : LxcForm) :
    KeepsKeyPaths s (setupProxmoxSaveLxcs s form) := by
  refine (KeepsKeyPaths.saveCredentials (lxcForm_no_keyPath form)).trans (.addHosts
    fun host hhost => ?_)
  obtain ⟨entry, _, hentry⟩ := List.mem_filterMap.mp hhost
  exact lxcHost_key hentry

theorem setupSaveProxmox_keeps {env : Surroundings} {form : SaveForm} {pem fp id : String}
    {nodes : Option (List String)} (h : setupSaveProxmox env s form pem fp nodes = some (t, id)) :
    KeepsKeyPaths s t := by
  obtain ⟨⟨saved, serverId⟩, hpersist, hpair⟩ := Option.map_eq_some_iff.mp h
  obtain ⟨rfl, rfl⟩ := Prod.mk.inj hpair
  have hcreds : KeepsKeyPaths saved (saveCredentials saved serverId form.credKwargs) :=
    .saveCredentials (saveForm_no_keyPath form)
  refine (KeepsKeyPaths.persisted (persistProxmoxServer_persisted hpersist)).trans (hcreds.trans ?_)
  split
  · exact .addNodes
  · exact .refl _

end Forms

section Recording

variable {s : Installation} {p : PendingHost} {dockerMode : Option String} {dir : KeysDir}

/-- A host is written with the path that its page has formed. -/
theorem recordHost_keys
    (hpath : ∀ path, keyPathOf p.authMethod p.keyFile = some path → dir.Holds path)
    (h : ∀ host ∈ s.config.hosts, ∀ path, host.key = some path → dir.Holds path) :
    ∀ host ∈ (recordHost s p dockerMode).config.hosts, ∀ path, host.key = some path →
      dir.Holds path := by
  have hadded : ∀ host ∈ (s.config.addHost (p.entry dockerMode)).hosts,
      ∀ path, host.key = some path → dir.Holds path := by
    intro host hhost path hkey
    rcases List.mem_append.mp hhost with hhost | hhost
    · exact h host hhost path hkey
    · rw [List.mem_singleton.mp hhost] at hkey
      exact hpath path (Option.eq_some_of_filter_eq_some hkey)
  rw [recordHost_config]
  split
  · intro host hhost path hkey
    have hscheduled := (OtherWrite.setHostAutoUpdate p.slug true "weekly" false).keeps
      ⟨s.config.addHost (p.entry dockerMode), s.store⟩
    rcases hscheduled.hosts host hhost with hnone | ⟨old, hold, hsame⟩
    · rw [hnone] at hkey
      cases hkey
    · exact hadded old hold path (hsame.symm.trans hkey)
  · exact hadded

theorem saveCredentials_noKeyPaths {store : Store} (h : NoKeyPaths store) (slug : String)
    (sshPassword sshKey sudoPassword : Option String) :
    NoKeyPaths (store.saveCredentials slug sshPassword sshKey sudoPassword) :=
  (KeepsKeyPaths.saveUnder (s := ⟨{}, store⟩) (by simp)).store h

theorem recordHost_store (h : NoKeyPaths s.store) :
    NoKeyPaths (recordHost s p dockerMode).store := by
  simp only [recordHost]
  split
  · split
    · exact saveCredentials_noKeyPaths h _ _ _ _
    · exact h
  · split
    · exact saveCredentials_noKeyPaths h _ _ _ _
    · exact h

end Recording

section Run

variable {dir : KeysDir} {checks : UrlSplit.Checks} {w : KeyWorld} {request : KeyRequest}

theorem KeysHeld.of_keeps (h : KeysHeld dir w) {t : Settings}
    (hkeeps : KeepsKeyPaths w.installation.settings t) :
    KeysHeld dir { w with installation := w.installation.withSettings t } where
  hosts host hhost path hkey := by
    rcases hkeeps.hosts host hhost with hnone | ⟨old, hold, hsame⟩
    · rw [hnone] at hkey
      cases hkey
    · exact h.hosts old hold path (hsame.symm.trans hkey)
  pending := h.pending
  store := hkeeps.store h.store

/-- One request keeps the stored paths in the directory if the posted name does. -/
theorem keyStep_held (h : KeysHeld dir w)
    (hposted : PostedHeld dir (surroundings dir checks) w request) :
    KeysHeld dir (keyStep (surroundings dir checks) w request) := by
  cases request with
  | addHost form connected containers =>
      simp only [keyStep, setupAddHost]
      split
      · exact ⟨h.hosts, by simpa using h.pending, h.store⟩
      · rename_i hcomplete
        rw [not_or, Bool.not_eq_true] at hcomplete
        have hpath := hposted hcomplete.1
        split
        · refine ⟨h.hosts, fun p hp => ?_, h.store⟩
          rcases List.mem_append.mp hp with hp | hp
          · exact h.pending p hp
          · obtain rfl : p = form.pending := by simpa using hp
            exact hpath
        · exact ⟨recordHost_keys hpath h.hosts, by simpa using h.pending, recordHost_store h.store⟩
  | confirmAddHost i enableDocker =>
      simp only [keyStep]
      cases hpending : w.pending[i]? with
      | none => exact ⟨h.hosts, h.pending, h.store⟩
      | some p =>
          have hpath := h.pending p (List.mem_of_getElem? hpending)
          exact ⟨recordHost_keys hpath h.hosts, h.pending, recordHost_store h.store⟩
  | testSsh form => exact h
  | saveLxcs form => exact h.of_keeps (setupProxmoxSaveLxcs_keeps form)
  | saveProxmox form pem fp nodes =>
      simp only [keyStep]
      cases hsave : setupSaveProxmox (surroundings dir checks)
        w.installation.settings form pem fp nodes with
      | none => exact h
      | some saved => exact h.of_keeps (setupSaveProxmox_keeps hsave)
  | other write => exact h.of_keeps (write.keeps _)

theorem hostsHeld_of_keysHeld (h : KeysHeld dir w) : HostsHeld dir (surroundings dir checks) w := by
  intro host hhost
  apply connections_held (h.hosts host hhost)
  rw [Store.getCredentials, Dict.getD]
  cases hget : w.installation.store.get? host.slug with
  | none => rfl
  | some entry => exact h.store _ entry hget

/-- A connection with a user and no other secret reads the key file of its host. -/
theorem connect_held_iff {host user : String} {port : Option Scalar} {key : Option String}
    {creds : Entry} (huser : Text.strip user ≠ "") (hkey : key.isSome → creds = ∅ ∧ key ≠ some "")
    (hcreds : creds.get? "key_path" = none) :
    KeyHeld dir (connect ⟨host, some (.str user), port, key⟩ creds) ↔
      ∀ path, key = some path → dir.Holds path := by
  constructor
  · rintro hheld path rfl
    obtain ⟨rfl, hpath⟩ := hkey rfl
    have hgiven : Text.given (some path) = true := by
      have hne : path ≠ "" := fun h => hpath (h ▸ rfl)
      simp [Text.given, Text.orElse, hne]
    have hauth : sshAuth ⟨host, some (.str user), port, some path⟩ ∅ = .keyFile (.str path) := by
      simp [sshAuth, Dict.getD, hgiven]
    have hconnect : connect ⟨host, some (.str user), port, some path⟩ ∅ =
        some ⟨host, port.getD (.int 22), Text.strip user, .keyFile (.str path)⟩ := by
      simp [connect, sshUser, huser, hauth]
    obtain ⟨s, hs, hholds⟩ := hheld _ hconnect _ rfl
    exact Scalar.str.inj hs ▸ hholds
  · intro hholds
    exact connect_held (fun path hpath => by simp [hcreds] at hpath) hholds

theorem keyPathOf_some {authMethod keyFile path : String}
    (h : keyPathOf authMethod keyFile = some path) :
    authMethod = "key" ∧ path ≠ "" := by
  rw [keyPathOf] at h
  split at h
  · rename_i hkey
    refine ⟨hkey.1, ?_⟩
    rintro rfl
    have hlist := congrArg String.toList (Option.some.inj h)
    simp at hlist
  · cases h

theorem testSsh_held_iff (form : LxcForm) :
    KeyHeld dir (opened (surroundings dir checks) w (.testSsh form)) ↔
      PostedHeld dir (surroundings dir checks) w (.testSsh form) := by
  unfold opened PostedHeld setupProxmoxTestSsh
  dsimp only
  have hnothing : KeyHeld dir none := nofun
  generalize (surroundings dir checks).urlHostname
    ((proxmoxCfgFor w.installation.settings form.serverId).url.getD "") = found
  cases found with
  | none => exact iff_of_true hnothing fun ⟨_, h, _⟩ => nomatch h
  | some hostname =>
      by_cases hhost : hostname.getD "" = ""
      · simp only [if_pos hhost]
        refine iff_of_true hnothing fun ⟨name, hname, hne⟩ => ?_
        obtain rfl := Option.some.inj hname
        exact absurd hhost hne
      · have hknown : ∃ name, some hostname = some (some name) ∧ name ≠ "" := by
          cases hostname with
          | none => exact absurd rfl hhost
          | some name => exact ⟨name, rfl, hhost⟩
        simp only [if_neg hhost, forall_prop_of_true hknown]
        by_cases hmissing : form.proxmoxSshAuth = "key" ∧
            keyPathOf form.proxmoxSshAuth (Text.strip form.proxmoxSshKey) = none
        · simp only [if_pos hmissing]
          exact iff_of_true hnothing fun path hpath => by simp [hmissing.2] at hpath
        · simp only [if_neg hmissing]
          by_cases hblank : form.proxmoxSshAuth = "password" ∧
              (if form.proxmoxSshAuth = "password" then Text.strip form.proxmoxSshPassword
                else "") = ""
          · simp only [if_pos hblank]
            refine iff_of_true hnothing fun path hpath => ?_
            have hkey := (keyPathOf_some hpath).1
            rw [hblank.1] at hkey
            exact absurd hkey (by decide)
          · simp only [if_neg hblank]
            have huser : Text.strip (Text.orElse (some (Text.strip form.proxmoxSshUser)) "root") ≠
                "" := by
              simp only [Text.orElse]
              split
              · decide
              · rwa [Text.strip_strip]
            apply connect_held_iff huser
            · intro hsome
              obtain ⟨path, hpath⟩ := Option.isSome_iff_exists.mp hsome
              obtain ⟨hmethod, hne⟩ := keyPathOf_some hpath
              exact ⟨by simp [hmethod], by simp [hpath, hne]⟩
            · generalize (if form.proxmoxSshAuth = "password"
                then Text.strip form.proxmoxSshPassword
                else "") = password
              split <;> simp

/-- What a request itself connects with is what was posted to it. -/
theorem opened_held_iff :
    KeyHeld dir (opened (surroundings dir checks) w request) ↔
      PostedHeld dir (surroundings dir checks) w request := by
  cases request with
  | addHost form connected containers =>
      cases hincomplete : form.incomplete with
      | true =>
          unfold opened PostedHeld
          simp only [hincomplete]
          exact iff_of_true (by simp [KeyHeld]) (by simp)
      | false =>
          have huser : Text.strip form.user ≠ "" := by
            intro hblank
            simp [AddForm.incomplete, hblank] at hincomplete
          have hentry : form.hostEntry.sshHost =
            ⟨Text.strip form.host, some (.str (Text.strip form.user)),
              form.hostEntry.port.map .int, keyPathOf form.authMethod form.keyFile⟩ := by
            simp [HostEntry.sshHost, AddForm.hostEntry, Option.filter, huser]
          have hkey : (keyPathOf form.authMethod form.keyFile).isSome →
              form.creds = ∅ ∧ keyPathOf form.authMethod form.keyFile ≠ some "" := by
            intro hsome
            obtain ⟨path, hpath⟩ := Option.isSome_iff_exists.mp hsome
            obtain ⟨hmethod, hne⟩ := keyPathOf_some hpath
            exact ⟨by simp [AddForm.creds, hmethod], by simp [hpath, hne]⟩
          have hcreds : form.creds.get? "key_path" = none := by
            simp only [AddForm.creds]
            split <;> simp
          unfold opened PostedHeld
          simp only [hincomplete, hentry, Bool.false_eq_true, if_false, forall_const]
          exact connect_held_iff (by rwa [Text.strip_strip]) hkey hcreds
  | testSsh form => exact testSsh_held_iff form
  | _ => exact iff_of_true (show KeyHeld dir none from nofun) trivial

end Run

/-- The first start, and no session given out. -/
def firstStart : KeyWorld := ⟨⟨{}, ∅⟩, []⟩

theorem firstStart_held {dir : KeysDir} : KeysHeld dir firstStart :=
  ⟨by simp [firstStart], by simp [firstStart], by simp [firstStart, NoKeyPaths]⟩

/-- Every connection of a run reads its key file in the directory exactly if each
name that is posted to the wizard leads there. -/
theorem keys_confined_iff (dir : KeysDir) (checks : UrlSplit.Checks) (requests : List KeyRequest) :
    let env := surroundings dir checks
    (Meets (keyStep env) (fun w request => KeyHeld dir (opened env w request)) firstStart requests ∧
        ∀ w ∈ reached (keyStep env) firstStart requests, HostsHeld dir env w) ↔
      Meets (keyStep env) (PostedHeld dir env) firstStart requests := by
  intro env
  have hopened : Meets (keyStep env) (fun w request =>
    KeyHeld dir (opened env w request)) firstStart requests ↔
      Meets (keyStep env) (PostedHeld dir env) firstStart requests := by
    have hsame : (fun w request => KeyHeld dir (opened env w request)) = PostedHeld dir env :=
      funext₂ fun w request => propext opened_held_iff
    rw [hsame]
  rw [hopened]
  refine and_iff_left_of_imp fun hposted w hw => ?_
  exact hostsHeld_of_keysHeld (reached_all (fun _ _ => keyStep_held) firstStart_held hposted w hw)

/-- With such names, whatever is done on a host in a state of the run, a check, an upgrade or a
Docker command, reads its key file in the directory. -/
theorem operations_confined (dir : KeysDir) (checks : UrlSplit.Checks)
    (requests : List KeyRequest) :
    let env := surroundings dir checks
    Meets (keyStep env) (PostedHeld dir env) firstStart requests →
      ∀ w ∈ reached (keyStep env) firstStart requests, ∀ host ∈ w.installation.config.hosts,
        let config := w.installation.config.toConfig
        let store := w.installation.store
        KeyHeld dir (scanHost env config store host (store.getCredentials host.slug)).connection ∧
          KeyHeld dir (runOsUpdate env config store host
            (store.getCredentials host.slug)).connection ∧
          KeyHeld dir (sshParamsFor env config store host).connection := by
  intro env hposted w hw host hhost config store
  have hheld : HostsHeld dir env w :=
    hostsHeld_of_keysHeld (reached_all (fun _ _ => keyStep_held) firstStart_held hposted w hw)
  have hall : ∀ c ∈ none :: connections env config store host, KeyHeld dir c := by
    intro c hc
    rcases List.mem_cons.mp hc with rfl | hc
    · exact nofun
    · exact hheld host hhost c hc
  obtain ⟨hscan, hupgrade, hdocker⟩ := reach_mem_connections env config store host
  exact ⟨hall _ hscan, hall _ hupgrade, hall _ hdocker⟩

def appKeys : KeysDir := ⟨["app".toList, "keys".toList], by decide⟩

/-- A key file beside the directory. -/
def outsideForm : AddForm where
  name := "nas"
  host := "192.168.1.30"
  user := "root"
  authMethod := "key"
  keyFile := "../data/id_rsa"

theorem wizard_key_leaves_dir : ¬ ∀ (dir : KeysDir) (checks : UrlSplit.Checks)
    (requests : List KeyRequest),
    let env := surroundings dir checks
    Meets (keyStep env) (fun w request => KeyHeld dir (opened env w request)) firstStart requests ∧
      ∀ w ∈ reached (keyStep env) firstStart requests, HostsHeld dir env w := by
  intro hall
  have hrun := hall appKeys .ascii [.addHost outsideForm true 0]
  have hposted := opened_held_iff.mp hrun.1.1
  have hcomplete : outsideForm.incomplete = false := by decide +kernel
  have hholds := hposted hcomplete "/app/keys/../data/id_rsa" (by decide +kernel)
  revert hholds
  decide +kernel

end Keepup.Setup
