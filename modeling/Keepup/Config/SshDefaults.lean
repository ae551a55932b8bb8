import Keepup.Config.Isolation
import Keepup.Lib.Runs

/-!
The migration of the SSH defaults, which every start runs. It copies the old default port to
the hosts that have none and takes the block of the defaults out of the file, but it saves the
file only when a host has changed. The main theorem says for which files one run is enough.
-/

namespace Keepup

open Lib

section Model

/-- The old `ssh` block. What it holds besides the port is read by nothing. -/
structure SshBlock where
  defaultPort : Option Int := none
  others : List String := []
deriving DecidableEq

/-- The files of an installation that may still have the block. -/
structure WithDefaults where
  installation : Installation
  ssh : Option SshBlock := none
deriving DecidableEq

def HostEntry.hasPort (host : HostEntry) : Bool := host.port.getD 0 != 0

def HostEntry.withPort (port : Int) (host : HostEntry) : HostEntry :=
  if host.hasPort then host else { host with port := some port }

/-- The hosts without a user, which can be neither checked nor updated. -/
def missingUsers (hosts : List HostEntry) : Nat := hosts.countP fun host => !Text.given host.user

namespace WithDefaults

variable (s : WithDefaults)

def hosts : List HostEntry := s.installation.config.hosts

def setHosts (hosts : List HostEntry) : WithDefaults :=
  { s with installation :=
      s.installation.withConfig { s.installation.config.toConfig with hosts := hosts } }

/-- The port that the block has for hosts without one. -/
def defaultPort : Option Int := (s.ssh.bind SshBlock.defaultPort).filter (· ≠ 0)

/-- The state of the files, and the number of hosts without a user. -/
def migrateSshConfig : WithDefaults × Nat :=
  if s.ssh.getD {} = {} then (s, missingUsers s.hosts)
  else
    match s.defaultPort with
    | none => (s, missingUsers s.hosts)
    | some port =>
        let hosts := s.hosts.map (HostEntry.withPort port)
        let changed := s.hosts.any fun host => !host.hasPort
        -- without a change the block is dropped in memory only, for it is not there any more when
        -- the code looks whether it has to be saved
        (if changed then { s.setHosts hosts with ssh := none } else s, missingUsers hosts)

end WithDefaults

/-- What may happen to the files of an installation. -/
inductive HostsEvent where
  | startup
  | change (change : HostChange)

def WithDefaults.after (s : WithDefaults) : HostsEvent → WithDefaults
  | .startup => s.migrateSshConfig.1
  | .change o => { s with installation := o.apply s.installation }

/-- One run moves the port to the hosts and the block out of the file, and no later run changes
a host, whatever is added and edited in between. -/
structure MigratedOnce (s : WithDefaults) : Prop where
  removed : s.migrateSshConfig.1.ssh = none
  filled : s.migrateSshConfig.1.hosts =
    s.hosts.map fun host => s.defaultPort.elim host fun port => host.withPort port
  settled : ∀ events, ∀ t ∈ reached WithDefaults.after s.migrateSshConfig.1 events,
    t.migrateSshConfig.1.hosts = t.hosts

end Model

section Once

variable {s : WithDefaults}

namespace WithDefaults

@[simp] theorem setHosts_hosts (hosts : List HostEntry) : (s.setHosts hosts).hosts = hosts := rfl

theorem migrateSshConfig_quiet (h : s.ssh = none) :
    s.migrateSshConfig = (s, missingUsers s.hosts) := by
  rw [migrateSshConfig, if_pos (by rw [h]; rfl)]

theorem after_ssh (h : s.ssh = none) (event : HostsEvent) : (s.after event).ssh = none := by
  cases event with
  | startup =>
      rw [after, migrateSshConfig_quiet h]
      exact h
  | change o => exact h

/-- The block is taken out of the file if and only if it moves a port to a host. -/
theorem migrateSshConfig_eq {port : Int} (hport : s.defaultPort = some port) :
    s.migrateSshConfig.1 = if s.hosts.any (fun host => !host.hasPort)
      then { s.setHosts (s.hosts.map (HostEntry.withPort port)) with ssh := none } else s := by
  have hblock : ¬ s.ssh.getD {} = {} := by
    intro hempty
    rw [defaultPort] at hport
    cases hssh : s.ssh with
    | none => simp [hssh] at hport
    | some block =>
        rw [hssh, Option.getD_some] at hempty
        simp [hssh, hempty] at hport
  rw [migrateSshConfig, if_neg hblock, hport]

theorem migrateSshConfig_noPort (hport : s.defaultPort = none) : s.migrateSshConfig.1 = s := by
  rw [migrateSshConfig]
  split
  · rfl
  · rw [hport]

end WithDefaults

/-- Without the block no run changes anything. -/
theorem settled_of_removed (h : s.ssh = none) (events : List HostsEvent) :
    ∀ t ∈ reached WithDefaults.after s events, t.migrateSshConfig.1.hosts = t.hosts := by
  intro t ht
  have hssh : t.ssh = none :=
    reached_all (P := fun t => t.ssh = none) (fun _ event hnone _ =>
      WithDefaults.after_ssh hnone event) h
      (meets_of_forall (Q := fun _ _ => True) fun _ _ _ => trivial) t ht
  rw [WithDefaults.migrateSshConfig_quiet hssh]

/-- One run is enough if and only if the block has a port and some host has none. -/
theorem migrated_once_iff (installation : Installation) (block : SshBlock) :
    MigratedOnce ⟨installation, some block⟩ ↔
      (∃ port, block.defaultPort = some port ∧ port ≠ 0) ∧
        ∃ host ∈ installation.config.hosts, host.hasPort = false := by
  constructor
  · intro honce
    have hremoved := honce.removed
    cases hport : WithDefaults.defaultPort ⟨installation, some block⟩ with
    | none =>
        rw [WithDefaults.migrateSshConfig_noPort hport] at hremoved
        cases hremoved
    | some port =>
        rw [WithDefaults.migrateSshConfig_eq hport] at hremoved
        rw [WithDefaults.defaultPort, Option.bind_some, Option.filter_eq_some_iff] at hport
        refine ⟨⟨port, hport.1, by simpa using hport.2⟩, ?_⟩
        split at hremoved
        · next hany =>
            obtain ⟨host, hhost, hnone⟩ := List.any_eq_true.mp hany
            exact ⟨host, hhost, by simpa using hnone⟩
        · cases hremoved
  · rintro ⟨⟨port, hblock, hport⟩, host, hhost, hnone⟩
    have hdefault : WithDefaults.defaultPort ⟨installation, some block⟩ = some port := by
      simp [WithDefaults.defaultPort, hblock, hport]
    have hany : (WithDefaults.hosts ⟨installation, some block⟩).any (fun host => !host.hasPort) =
        true :=
      List.any_eq_true.mpr ⟨host, hhost, by simp [hnone]⟩
    have hrun := WithDefaults.migrateSshConfig_eq hdefault
    rw [if_pos hany] at hrun
    refine ⟨by rw [hrun], ?_, settled_of_removed (by rw [hrun])⟩
    rw [hrun, hdefault]
    rfl

/-- A host with a port of its own, and one that is added later without a port. -/
def portedHost : HostEntry := { name := "nas", host := "192.0.2.10", port := some 22 }

def withPorts : WithDefaults where
  installation := { config := { hosts := [portedHost] } }
  ssh := some { defaultPort := some 2222, others := ["default_user"] }

def laterHost : HostsEvent :=
  .change (.addHost "web" "192.0.2.20" none none none none none none none none)

/-- The block stays, and the next start gives its port to the host that was added since. -/
theorem block_outlives_migration : ¬ MigratedOnce withPorts ∧
    (((withPorts.migrateSshConfig.1.after laterHost).after .startup).hosts.map HostEntry.port) =
      [some 22, some 2222] := by
  refine ⟨fun honce => ?_, by decide +kernel⟩
  have hremoved := honce.removed
  revert hremoved
  decide

end Once

end Keepup
