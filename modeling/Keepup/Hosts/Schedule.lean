import Keepup.Hosts.Check
import Keepup.Hosts.Kernel

/-!
The two ways to an upgrade, by hand from the dashboard and by the schedule, and
the reboot that may follow a scheduled one. Both come down to one call of
`run_os_update`; the main theorem says for which hosts they make the same one.
-/

namespace Keepup.Ssh

open Lib Packages

/-- What becomes of a request for an upgrade: `run_os_update` is called with a host
and credentials, or it is not, for one of the reasons. -/
inductive Decision where
  | run (host : HostEntry) (creds : Entry)
  | notFound
  | notEnabled
  | noSudoPassword
deriving DecidableEq

section Decisions

variable (config : Config) (store : Store)

def sudoStored (creds : Entry) : Bool := Scalar.given (creds.get? "sudo_password")

/-- The dashboard's upgrade route, with its two form fields: the store after it, and
what its job runs. -/
def hostUpdate (slug sudoPassword saveSudo : String) : Store × Decision :=
  match config.findHost slug with
  | none => (store, .notFound)
  | some host =>
      if Text.given host.proxmoxNode then
        match host.proxmoxVmid with
        | none => (store, .run host (store.getCredentials slug))
        | some _ => (store, .run host ∅)
      else
        let creds := store.getCredentials slug
        if needsSudo host.sshHost then
          let typed := Text.strip sudoPassword
          if typed ≠ "" then
            (if saveSudo = "save" then store.saveSudoPassword slug typed else store,
              .run host (creds.set "sudo_password" (.str typed)))
          else
            match creds.get? "sudo_password" with
            | some value =>
                if value.truthy then (store, .run host (creds.set "sudo_password" value))
                else (store, .noSudoPassword)
            | none => (store, .noSudoPassword)
        else (store, .run host creds)

/-- The scheduled upgrade. -/
def scheduledUpdate (slug : String) : Decision :=
  match config.findHost slug with
  | none => .notFound
  | some host =>
      if (host.autoUpdate.getD {}).osEnabled then
        let creds := store.getCredentials slug
        if needsSudo host.sshHost && !sudoStored creds then .noSudoPassword else .run host creds
      else .notEnabled

/-- The host and the credentials that are handed to `run_os_update`. -/
def Decision.attempted : Decision → Option (HostEntry × Entry)
  | .run host creds => some (host, creds)
  | _ => none

/-- With a blank form, the dashboard and the schedule call `run_os_update` with the
same host and credentials, or neither of them does. -/
def UpgradesAgree (slug : String) : Prop :=
  ∀ sudoPassword saveSudo, Text.strip sudoPassword = "" →
    (hostUpdate config store slug sudoPassword saveSudo).2.attempted =
      (scheduledUpdate config store slug).attempted

/-- The hosts for which they agree. Where the schedule is on, these are the plain
hosts, the nodes that need no `sudo` or have a stored password, and the guests that
satisfy this too and have no credentials of their own. Where it is off, these are
the hosts that the dashboard does not upgrade either. -/
def AgreesFor (creds : Entry) (host : HostEntry) : Prop :=
  let ready := needsSudo host.sshHost = false ∨ sudoStored creds = true
  if (host.autoUpdate.getD {}).osEnabled then
    Text.given host.proxmoxNode = false ∨
      (ready ∧ (host.proxmoxVmid = none ∨ creds = ∅))
  else Text.given host.proxmoxNode = false ∧ ¬ ready

variable {config store} {slug : String}

theorem blank_update {host : HostEntry} (hhost : config.findHost slug = some host)
    {sudoPassword : String} (saveSudo : String) (hblank : Text.strip sudoPassword = "") :
    (hostUpdate config store slug sudoPassword saveSudo).2.attempted =
      if Text.given host.proxmoxNode then
        some (host, if host.proxmoxVmid = none then store.getCredentials slug else ∅)
      else if needsSudo host.sshHost && !sudoStored (store.getCredentials slug) then none
      else some (host, store.getCredentials slug) := by
  unfold hostUpdate
  rw [hhost]
  dsimp only
  split
  · cases host.proxmoxVmid <;> rfl
  · simp only [hblank, ne_eq, not_true_eq_false, if_false]
    cases hsudo : needsSudo host.sshHost
    · simp [Decision.attempted]
    · cases hvalue : (store.getCredentials slug).get? "sudo_password" with
      | none => simp [sudoStored, hvalue, Scalar.given, Decision.attempted]
      | some value =>
          have hsame : (store.getCredentials slug).set "sudo_password" value =
              store.getCredentials slug := Dict.set_get? hvalue
          cases htruthy : value.truthy <;>
            simp [sudoStored, hvalue, Scalar.given, Decision.attempted, htruthy, hsame]

theorem scheduled_attempt {host : HostEntry} (hhost : config.findHost slug = some host) :
    (scheduledUpdate config store slug).attempted =
      if (host.autoUpdate.getD {}).osEnabled then
        if needsSudo host.sshHost && !sudoStored (store.getCredentials slug) then none
        else some (host, store.getCredentials slug)
      else none := by
  unfold scheduledUpdate
  rw [hhost]
  dsimp only
  split
  · split <;> rfl
  · rfl

/-- The two decisions about a host side by side. -/
theorem attempts_eq_iff {host : HostEntry} {creds : Entry} :
    ((if Text.given host.proxmoxNode then
        some (host, if host.proxmoxVmid = none then creds else ∅)
      else if needsSudo host.sshHost && !sudoStored creds then none else some (host, creds)) =
      if (host.autoUpdate.getD {}).osEnabled then
        if needsSudo host.sshHost && !sudoStored creds then none else some (host, creds)
      else none) ↔ AgreesFor creds host := by
  unfold AgreesFor
  generalize (host.autoUpdate.getD {}).osEnabled = enabled
  generalize Text.given host.proxmoxNode = onNode
  generalize needsSudo host.sshHost = needs
  generalize sudoStored creds = stored
  -- A guest is upgraded without credentials from the dashboard.
  have hguest : (¬ host.proxmoxVmid = none → ∅ = creds) ↔ host.proxmoxVmid = none ∨ creds = ∅ := by
    rw [or_iff_not_imp_left, eq_comm (a := creds)]
  cases enabled <;> cases onNode <;> cases needs <;> cases stored <;> simp [hguest]

/-- The dashboard and the schedule agree on a slug exactly when its host, if there is
one, is one of those for which they agree. -/
theorem upgrades_agree_iff (config : Config) (store : Store) (slug : String) :
    UpgradesAgree config store slug ↔
      ∀ host, config.findHost slug = some host → AgreesFor (store.getCredentials slug) host := by
  have hone : ∀ host : HostEntry, config.findHost slug = some host →
      (UpgradesAgree config store slug ↔ AgreesFor (store.getCredentials slug) host) := by
    intro host hhost
    rw [← attempts_eq_iff, ← blank_update hhost "" Text.strip_empty, ← scheduled_attempt hhost]
    constructor
    · intro hagree
      exact hagree "" "" Text.strip_empty
    · intro hagree sudoPassword saveSudo hblank
      rw [blank_update hhost saveSudo hblank, ← blank_update hhost "" Text.strip_empty, hagree]
  constructor
  · intro hagree host hhost
    exact (hone host hhost).mp hagree
  · intro hall
    cases hhost : config.findHost slug with
    | none =>
        intro sudoPassword saveSudo _
        simp [hostUpdate, scheduledUpdate, hhost, Decision.attempted]
    | some host => exact (hone host hhost).mpr (hall host hhost)

end Decisions

section NodeSkipped

/-- A node as the integration adds it, without an SSH user, with its schedule on. -/
def scheduledNode : HostEntry where
  name := "pve"
  host := "10.0.0.2"
  proxmoxNode := some "pve"
  autoUpdate := some ⟨true, some "0 3 * * *", false⟩

/-- Its upgrade runs from the dashboard, and is skipped by the schedule. -/
theorem scheduled_node_skipped :
    ¬ UpgradesAgree { hosts := [scheduledNode] } ∅ "pve" := by
  intro hagree
  have hfound : Config.findHost { hosts := [scheduledNode] } "pve" = some scheduledNode := by
    decide +kernel
  have hblank := hagree "" "" Text.strip_empty
  rw [blank_update hfound "" Text.strip_empty, scheduled_attempt hfound] at hblank
  exact absurd hblank (by decide +kernel)

end NodeSkipped

end Keepup.Ssh
