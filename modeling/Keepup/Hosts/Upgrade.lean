import Keepup.Hosts.Reach
import Keepup.Hosts.Session

/-!
What a reported upgrade stands for. A session that returns has opened a
connection and got an accepted status for each of its commands, but the command
that it takes for an unknown package manager upgrades nothing.
-/

namespace Keepup.Ssh

open Lib Packages

section Exec

variable {α β : Type} {replies : Nat → Call → Reply} {n : Nat} {log : Log}

/-- How a session goes on after a call. -/
theorem exec_call (call : Call) (next : Answer → Session α) :
    Remote.exec serve replies n (.call call next) log =
      Remote.exec serve replies (n + 1) (next ((replies n call).answer call))
        (log ++ [(call, replies n call)]) := rfl

/-- The host accepts the connection. -/
def Reply.Opens (connection : Connection) (reply : Reply) : Prop :=
  reply.answer (.connect connection) = .done

theorem connect_answer (connection : Connection) (reply : Reply) :
    (∃ error, reply.answer (.connect connection) = .failed error) ∨
      reply.answer (.connect connection) = .timedOut ∨ reply.Opens connection := by
  cases reply with
  | lost error => exact .inl ⟨error, rfl⟩
  | timedOut => exact .inr (.inl rfl)
  | done => exact .inr (.inr rfl)
  | flag value => exact .inr (.inr rfl)
  | refused refusal => exact .inr (.inr rfl)
  | killed stdout stderr signal => exact .inr (.inr rfl)
  | ran env stderr => exact .inr (.inr rfl)

variable {log' : Log} {a : α}

theorem exec_open_ok {name : String} {host : SshHost} {creds : Entry} {next : Unit → Session α} :
    Remote.exec serve replies n (openConnection name host creds >>= next) log = (log', .ok a) ↔
      ∃ connection, connect host creds = some connection ∧
        (replies n (.connect connection)).Opens connection ∧
        Remote.exec serve replies (n + 1) (next ())
          (log ++ [(.connect connection, replies n (.connect connection))]) = (log', .ok a) := by
  cases hconnect : connect host creds with
  | none =>
      have hraise : (openConnection name host creds >>= next) = .raise ⟨"Host " ++ Text.repr name ++
          " has no SSH user configured. " ++ "Set the SSH user in Admin › Hosts.", []⟩ := by
        rw [openConnection, hconnect]
        rfl
      simp [hraise]
  | some connection =>
      rw [openConnection, hconnect, Remote.call_bind, exec_call]
      rcases connect_answer connection (replies n (.connect connection)) with ⟨error, h⟩ | h | h
      · simp [Reply.Opens, h]
      · simp [Reply.Opens, h]
      · rw [Reply.Opens] at h
        simp [Reply.Opens, h]

theorem exec_run_ok {wrapper : Except Failure Wrapper} {script : Script} {onTimeout : Failure}
    {next : Completed → Session α} :
    Remote.exec serve replies n (run wrapper script onTimeout >>= next) log = (log', .ok a) ↔
      ∃ w result, wrapper = .ok w ∧
        (replies n (.run ⟨w, script⟩)).answer (.run ⟨w, script⟩) = .completed result ∧
        Remote.exec serve replies (n + 1) (next result)
          (log ++ [(.run ⟨w, script⟩, replies n (.run ⟨w, script⟩))]) = (log', .ok a) := by
  cases wrapper with
  | error error =>
      have hraise : (run (.error error) script onTimeout >>= next) = .raise error := rfl
      simp [hraise]
  | ok w =>
      rw [run, Remote.call_bind, exec_call]
      cases hanswer : (replies n (.run ⟨w, script⟩)).answer (.run ⟨w, script⟩) <;>
        simp [hanswer]

theorem exec_detect_ok {wrapper : Except Failure Wrapper} {next : PackageManager → Session α} :
    Remote.exec serve replies n (detectPm wrapper >>= next) log = (log', .ok a) ↔
      ∃ w detected, wrapper = .ok w ∧
        (replies n (.run ⟨w, detectScript⟩)).answer (.run ⟨w, detectScript⟩) =
          .completed detected ∧
        Remote.exec serve replies (n + 1) (next (getPackageManager (Text.strip detected.stdout)))
          (log ++ [(.run ⟨w, detectScript⟩, replies n (.run ⟨w, detectScript⟩))]) =
            (log', .ok a) := by
  have hdetect : detectPm wrapper >>= next = run wrapper detectScript ⟨"", []⟩ >>= fun detected =>
      next (getPackageManager (Text.strip detected.stdout)) := by
    rw [detectPm, Remote.bind_assoc]
    rfl
  rw [hdetect, exec_run_ok]

end Exec

section Accepted

variable {command : Command} {reply : Reply} {result : Completed}

/-- A script that was run has left its own status; no other reply has one that an
upgrade accepts. -/
theorem ran_of_accepted {codes : List Int} (hcodes : codes ⊆ [0, 102, 103])
    (hanswer : reply.answer (.run command) = .completed result)
    (haccepted : result.returncode.any codes.contains = true) :
    ∃ env stderr, reply = .ran env stderr ∧
      result.returncode = some ((command.script.outcome env).status : Int) := by
  cases reply with
  | ran env stderr =>
      cases hanswer
      exact ⟨env, stderr, rfl, rfl⟩
  | refused refusal =>
      cases hanswer
      have hfailed := refusal.failed
      have hok := hcodes (by simpa using haccepted)
      simp only [List.mem_cons, List.not_mem_nil, or_false] at hfailed hok
      omega
  | killed stdout stderr signal =>
      cases hanswer
      simp at haccepted
  | lost error => cases hanswer
  | timedOut => cases hanswer
  | done => cases hanswer
  | flag value => cases hanswer

theorem getPackageManager_known {name : String} {pm : PackageManager}
    (h : registry.lookup (Text.strip name) = some pm) :
    getPackageManager name = pm ∧ pm ∈ registry.map Prod.snd := by
  obtain ⟨before, after, hsplit, _⟩ := List.lookup_eq_some_iff.mp h
  refine ⟨by simp [getPackageManager, h], ?_⟩
  rw [hsplit]
  simp

theorem registry_okCodes {pm : PackageManager} (h : pm ∈ registry.map Prod.snd) :
    pm.upgradeOkCodes ⊆ [0, 102, 103] := by
  simp only [registry, List.map_cons, List.map_nil, List.mem_cons, List.not_mem_nil, or_false] at h
  rcases h with rfl | rfl | rfl | rfl | rfl | rfl <;>
    simp [aptPackageManager, dnfPackageManager, yumPackageManager, zypperPackageManager,
      pacmanPackageManager, apkPackageManager]

end Accepted

section Reported

variable (env : Surroundings) (config : Config) (store : Store)

/-- The address to which a target is connected. -/
def Target.address : Target → String
  | .direct _ host _ => host.host
  | .guest _ _ sshHost _ => sshHost

/-- A script in this wrapper runs on the target: on the connected machine itself, or
in the guest of that number. -/
def Target.Runs : Target → Wrapper → Prop
  | .direct _ _ _, .direct | .direct _ _ _, .sudo _ => True
  | .guest _ vmid _ _, .pctEnv number | .guest _ vmid _ _, .pctShell number => number = vmid
  | _, _ => False

/-- The upgrade command of a supported package manager has run on the target, and
has ended with a status which that manager accepts. -/
def Upgraded (target : Target) (log : Log) : Prop :=
  ∃ connection opened rest pm wrapper env stderr, log = (.connect connection, opened) :: rest ∧
    connection.host = target.address ∧ pm ∈ registry.map Prod.snd ∧ target.Runs wrapper ∧
    (Call.run ⟨wrapper, pm.upgradeScript⟩, Reply.ran env stderr) ∈ rest ∧
    ((pm.upgradeScript.outcome env).status : Int) ∈ pm.upgradeOkCodes

theorem connect_host {host : SshHost} {creds : Entry} {connection : Connection}
    (h : connect host creds = some connection) : connection.host = host.host := by
  obtain ⟨_, _, rfl⟩ := Option.map_eq_some_iff.mp h
  rfl

theorem rootWrapper_runs {name : String} {host : SshHost} {creds : Entry} {wrapper : Wrapper}
    (h : rootWrapper host creds = .ok wrapper) : (Target.direct name host creds).Runs wrapper := by
  unfold rootWrapper at h
  split at h
  · split at h
    · cases h
      trivial
    · split at h <;> cases h
      trivial
    · cases h
      trivial
  · cases h
    trivial

/-- What stands in for the upgrade of an unknown package manager. -/
def notSupported : Script := .echo "Package manager not supported"

theorem unknown_upgrade {name : String} (h : registry.lookup (Text.strip name) = none) :
    (getPackageManager name).upgradeScript = notSupported ∧
      (getPackageManager name).upgradeOkCodes = [0] := by
  simp [getPackageManager, h, unknownPackageManager, notSupported]

/-- The detection on a host names no supported package manager, and the host runs
what stands in for the upgrade. -/
def FallsBack (host : SshHost) (creds : Entry) (replies : Nat → Call → Reply) : Prop :=
  ∃ connection wrapper detected env stderr, connect host creds = some connection ∧
    (replies 0 (.connect connection)).Opens connection ∧ rootWrapper host creds = .ok wrapper ∧
    (replies 1 (.run ⟨wrapper, detectScript⟩)).answer (.run ⟨wrapper, detectScript⟩) =
      .completed detected ∧
    registry.lookup (Text.strip (Text.strip detected.stdout)) = none ∧
    replies 2 (.run ⟨wrapper, notSupported⟩) = .ran env stderr

variable {replies : Nat → Call → Reply} {log : Log} {lines : List String} {budget : Nat}

/-- What a direct upgrade has gone through when it returns. -/
theorem direct_ok_iff {name : String} {host : SshHost} {creds : Entry} :
    (runHostUpdateBuffered budget name host creds).outcome replies = (log, .ok lines) ↔
      ∃ connection wrapper detected result, connect host creds = some connection ∧
        (replies 0 (.connect connection)).Opens connection ∧ rootWrapper host creds = .ok wrapper ∧
        (replies 1 (.run ⟨wrapper, detectScript⟩)).answer (.run ⟨wrapper, detectScript⟩) =
          .completed detected ∧
        let pm := getPackageManager (Text.strip detected.stdout)
        let call := Call.run ⟨wrapper, pm.upgradeScript⟩
        (replies 2 call).answer call = .completed result ∧
        result.returncode.any pm.upgradeOkCodes.contains = true ∧
        lines = Text.splitLines result.stdout ∧
        log = [(.connect connection, replies 0 (.connect connection)),
          (.run ⟨wrapper, detectScript⟩, replies 1 (.run ⟨wrapper, detectScript⟩)),
          (call, replies 2 call)] := by
  rw [Session.outcome, runHostUpdateBuffered, exec_open_ok]
  simp only [exec_detect_ok, exec_run_ok]
  constructor
  · rintro ⟨connection, hconnect, hopens, wrapper, detected, hwrapper, hdetected, _, result, hw,
      hresult, hrest⟩
    cases hwrapper.symm.trans hw
    split at hrest
    case isFalse =>
      cases hrest
    case isTrue haccepted =>
      cases hrest
      exact ⟨connection, wrapper, detected, result, hconnect, hopens, hwrapper, hdetected, hresult,
        haccepted, rfl, rfl⟩
  · rintro ⟨connection, wrapper, detected, result, hconnect, hopens, hwrapper, hdetected, hresult,
      haccepted, rfl, rfl⟩
    refine ⟨connection, hconnect, hopens, wrapper, detected, hwrapper, hdetected, wrapper, result,
      hwrapper, hresult, ?_⟩
    rw [if_pos haccepted]
    rfl

/-- The upgrade of a guest is that of `apt`, whatever the guest has. -/
theorem guest_ok {node sshHost : String} {vmid : Int} {sshCreds : Entry}
    (h : (upgradeLxc budget node vmid sshHost sshCreds).outcome replies = (log, .ok lines)) :
    Upgraded (.guest node vmid sshHost sshCreds) log := by
  rw [Session.outcome, upgradeLxc, openNode] at h
  split at h
  case isTrue =>
    cases h
  case isFalse =>
    obtain ⟨connection, hconnect, _, h⟩ := exec_open_ok.mp h
    obtain ⟨wrapper, result, hwrapper, hresult, h⟩ := exec_run_ok.mp h
    cases hwrapper
    split at h
    case isFalse =>
      cases h
    case isTrue hzero =>
      have haccepted : result.returncode.any aptPackageManager.upgradeOkCodes.contains = true := by
        simp [hzero, aptPackageManager]
      have hapt : aptPackageManager ∈ registry.map Prod.snd := by simp [registry]
      obtain ⟨scriptEnv, stderr, hran, hstatus⟩ :=
        ran_of_accepted (registry_okCodes hapt) hresult haccepted
      cases h
      refine ⟨connection, _, _, aptPackageManager, .pctEnv vmid, scriptEnv, stderr, rfl,
        connect_host hconnect, hapt, rfl, by simp [hran], ?_⟩
      rw [hstatus] at haccepted
      simpa using haccepted

theorem upgradeScript_ne {pm : PackageManager} (h : pm ∈ registry.map Prod.snd) :
    pm.upgradeScript ≠ detectScript ∧ ∀ word, pm.upgradeScript ≠ .echo word := by
  simp only [registry, List.map_cons, List.map_nil, List.mem_cons, List.not_mem_nil, or_false] at h
  rcases h with rfl | rfl | rfl | rfl | rfl | rfl <;> exact ⟨nofun, nofun⟩

/-- A direct session that falls back returns without an upgrade. -/
theorem not_upgraded_of_fallsBack {name : String} {host : SshHost} {creds : Entry}
    (h : FallsBack host creds replies) :
    ∃ log lines, (runHostUpdateBuffered budget name host creds).outcome replies = (log, .ok lines) ∧
      ¬ Upgraded (.direct name host creds) log := by
  obtain ⟨connection, wrapper, detected, scriptEnv, stderr, hconnect, hopens, hwrapper, hdetected,
    hunknown, hran⟩ := h
  obtain ⟨hscript, hcodes⟩ := unknown_upgrade hunknown
  have hanswer : (replies 2 (.run ⟨wrapper, notSupported⟩)).answer (.run ⟨wrapper, notSupported⟩) =
      .completed ⟨"Package manager not supported\n", stderr, some 0, none⟩ := by
    rw [hran]
    rfl
  refine ⟨_, _, direct_ok_iff.mpr ⟨connection, wrapper, detected, _, hconnect, hopens, hwrapper,
    hdetected, by rw [hscript]; exact hanswer, by simp [hcodes], rfl, rfl⟩, ?_⟩
  rintro ⟨_, _, rest, pm, wrapper', scriptEnv', stderr', hlog, _, hmem, _, hrun, _⟩
  obtain ⟨hdetect, hecho⟩ := upgradeScript_ne hmem
  obtain ⟨_, rfl⟩ := List.cons.inj hlog
  rw [hscript] at hrun
  simp only [List.mem_cons, Prod.mk.injEq, Call.run.injEq, Command.mk.injEq,
    List.not_mem_nil, or_false] at hrun
  rcases hrun with ⟨⟨_, hsame⟩, _⟩ | ⟨⟨_, hsame⟩, _⟩
  · exact hdetect hsame
  · exact hecho _ hsame

/-- A direct session that returns has upgraded the host, unless it fell back. -/
theorem upgraded_of_not_fallsBack {name : String} {host : SshHost} {creds : Entry}
    (h : ¬ FallsBack host creds replies)
    (hok : (runHostUpdateBuffered budget name host creds).outcome replies = (log, .ok lines)) :
    Upgraded (.direct name host creds) log := by
  obtain ⟨connection, wrapper, detected, result, hconnect, hopens, hwrapper, hdetected, hresult,
    haccepted, _, rfl⟩ := direct_ok_iff.mp hok
  cases hlookup : registry.lookup (Text.strip (Text.strip detected.stdout)) with
  | none =>
      obtain ⟨hscript, hcodes⟩ := unknown_upgrade hlookup
      have hsubset : [0] ⊆ ([0, 102, 103] : List Int) := by simp
      rw [hscript] at hresult
      rw [hcodes] at haccepted
      obtain ⟨scriptEnv, stderr, hran, _⟩ := ran_of_accepted hsubset hresult haccepted
      exact absurd ⟨connection, wrapper, detected, scriptEnv, stderr, hconnect, hopens, hwrapper,
        hdetected, hlookup, hran⟩ h
  | some pm =>
      obtain ⟨hpm, hmem⟩ := getPackageManager_known hlookup
      rw [hpm] at hresult haccepted
      obtain ⟨scriptEnv, stderr, hran, hstatus⟩ :=
        ran_of_accepted (registry_okCodes hmem) hresult haccepted
      refine ⟨connection, _, _, pm, wrapper, scriptEnv, stderr, rfl, connect_host hconnect, hmem,
        rootWrapper_runs hwrapper, by simp [hpm, hran], ?_⟩
      rw [hstatus] at haccepted
      simpa using haccepted

/-- The host is upgraded directly, and its upgrade falls back. -/
def UpgradeFallsBack (host : HostEntry) (creds : Entry) (replies : Nat → Call → Reply) : Prop :=
  ∃ name entry entryCreds, updateTarget env config store host creds =
    .ok (.direct name entry entryCreds) ∧ FallsBack entry entryCreds replies

/-- An upgrade that returns has upgraded the host, exactly when it does not fall back. -/
theorem upgrade_ran_iff (budget : Nat) (host : HostEntry) (creds : Entry)
    (replies : Nat → Call → Reply) :
    (∀ log lines, (runOsUpdate env config store budget host creds).outcome replies =
        (log, .ok lines) →
      ∃ target, updateTarget env config store host creds = .ok target ∧ Upgraded target log) ↔
      ¬ UpgradeFallsBack env config store host creds replies := by
  unfold runOsUpdate UpgradeFallsBack
  cases htarget : updateTarget env config store host creds with
  | error error =>
      simp [Session.outcome]
  | ok target =>
      cases target with
      | guest node vmid sshHost sshCreds =>
          constructor
          · rintro _ ⟨_, _, _, hdirect, _⟩
            cases hdirect
          · exact fun _ log lines hok => ⟨_, rfl, guest_ok hok⟩
      | direct name entry entryCreds =>
          constructor
          · rintro hall ⟨_, _, _, hdirect, hfalls⟩
            cases hdirect
            obtain ⟨log, lines, hok, hnot⟩ := not_upgraded_of_fallsBack hfalls
            obtain ⟨_, htarget, hupgraded⟩ := hall log lines hok
            cases htarget
            exact hnot hupgraded
          · intro hnot log lines hok
            have hdirect : ¬ FallsBack entry entryCreds replies := fun hfalls =>
              hnot ⟨name, entry, entryCreds, rfl, hfalls⟩
            exact ⟨_, rfl, upgraded_of_not_fallsBack hdirect hok⟩

end Reported

section Nas

/-- A host that none of the package managers is installed on. -/
def nas : HostEntry where
  name := "nas"
  host := "10.0.0.9"
  user := some "root"

def nasReplies : Nat → Call → Reply
  | 0, _ => .done
  | _, _ => .ran (fun _ => ⟨"", 1⟩) ""

theorem upgrade_reported_on_nas :
    ¬ ∀ log lines, (runOsUpdate vmSurroundings {} ∅ 3600 nas ∅).outcome nasReplies =
      (log, .ok lines) →
      ∃ target, updateTarget vmSurroundings {} ∅ nas ∅ = .ok target ∧ Upgraded target log := by
  have hfalls : FallsBack nas.sshHost ∅ nasReplies := by
    refine ⟨⟨"10.0.0.9", .int 22, "root", .default⟩, .direct, ⟨"unknown\n", "", some 0, none⟩,
      fun _ => ⟨"", 1⟩, "", by decide, rfl, rfl, rfl, by decide, rfl⟩
  obtain ⟨log, lines, hok, hnot⟩ := not_upgraded_of_fallsBack hfalls
  intro hall
  obtain ⟨target, htarget, hupgraded⟩ := hall log lines hok
  cases htarget
  exact hnot hupgraded

end Nas

end Keepup.Ssh
