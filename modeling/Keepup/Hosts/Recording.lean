import Keepup.Hosts.Reboot

/-!
What a scheduled upgrade leaves in the activity log. The upgrade and the reboot
after it share one handler for what goes wrong, so a run can end in either of
them; the main theorem says when the records still tell which.
-/

namespace Keepup.Ssh

open Lib Packages

inductive RunStatus where
  | success
  | error
  | skipped
deriving DecidableEq

/-- The status of a record of the kind `os_upgrade`. -/
def RunRecord.upgradeStatus : RunRecord → Option RunStatus
  | .skipped _ _ => some .skipped
  | .upgraded _ => some .success
  | .rebooted _ => none
  | .failed _ _ => some .error

/-- The session from here on, against the replies to its calls. -/
def Session.resume {α : Type} (session : Session α) (replies : Nat → Call → Reply) (log : Log) :
    Log × Except Failure α := Remote.exec serve replies log.length session log

/-- The records tell how the upgrade went: there is one about it, with the status
that it had, and no reboot was called for if it failed. -/
structure Recorded (upgrade : Except Failure (List String)) (log : Log) (records : List RunRecord) :
    Prop where
  once : (records.filterMap RunRecord.upgradeStatus).length = 1
  success : .success ∈ records.filterMap RunRecord.upgradeStatus ↔ upgrade.isOk
  failure : .error ∈ records.filterMap RunRecord.upgradeStatus → ¬ upgrade.isOk
  noReboot : ¬ upgrade.isOk → ∀ entry ∈ log, ¬ entry.1.IsReboot

section Resume

variable {α β : Type}

@[simp] theorem resume_ret (a : α) (replies : Nat → Call → Reply) (log : Log) :
    Session.resume (.ret a) replies log = (log, .ok a) := rfl

/-- Every call makes one entry of the log, so that the log counts the calls. -/
theorem resume_call (c : Call) (next : Answer → Session α) (replies : Nat → Call → Reply)
    (log : Log) :
    Session.resume (.call c next) replies log =
      (next ((replies log.length c).answer c)).resume replies (log ++
        [(c, replies log.length c)]) := by
  have hserve : serve log c (replies log.length c) =
      (log ++ [(c, replies log.length c)], .ok ((replies log.length c).answer c)) := rfl
  rw [Session.resume, Remote.exec_call_ok hserve, Session.resume, List.length_append,
    List.length_singleton]

/-- An attempt hands its result over to the rest of the session. -/
theorem resume_attempt (prog : Session α) (k : Except Failure α → Session β)
    (replies : Nat → Call → Reply) (log : Log) :
    (prog.attempt >>= k : Session β).resume replies log =
      (k (prog.resume replies log).2).resume replies (prog.resume replies log).1 := by
  induction prog generalizing log with
  | ret a => rfl
  | raise e => rfl
  | call c next ih =>
      have hattempt : ((Remote.call c next).attempt >>= k : Session β) =
          .call c fun r => (next r).attempt >>= k := rfl
      rw [hattempt, resume_call, resume_call]
      exact ih _ _

end Resume

section Recording

variable (env : Surroundings) (selfNode : String) (config : Config) (store : Store) (budget : Nat)
  (refresh : Bool) (slug : String) (host : HostEntry) (creds : Entry)
  (replies : Nat → Call → Reply)

/-- How the upgrade ends. -/
def upgradeOutcome : Log × Except Failure (List String) :=
  (runOsUpdate env config store budget host creds).outcome replies

/-- How the stage after a successful upgrade ends: the check whether a reboot is
required, where one is wanted, and the reboot. -/
def rebootOutcome : Log × Except Failure (List RunRecord) :=
  (autoReboot env selfNode config store refresh host creds).resume replies
    (upgradeOutcome env config store budget host creds replies).1

/-- The records of the run tell how its upgrade went. -/
def RecordsUpgrade : Prop :=
  let run := (scheduledOsUpdate env selfNode config store budget refresh slug).outcome replies
  ∃ records, run.2 = .ok records ∧
    Recorded (upgradeOutcome env config store budget host creds replies).2 run.1 records

variable {env selfNode config store budget refresh slug host creds replies}

/-- A run is its upgrade, and when that returns the stage after it. -/
theorem scheduled_outcome (hattempt : scheduledUpdate config store slug = .run host creds) :
    (scheduledOsUpdate env selfNode config store budget refresh slug).outcome replies =
      match (upgradeOutcome env config store budget host creds replies).2 with
      | .error error =>
          ((upgradeOutcome env config store budget host creds replies).1, .ok [failedRun error])
      | .ok lines =>
          let stage := rebootOutcome env selfNode config store budget refresh host creds replies
          (stage.1, .ok (match stage.2 with
            | .error error => [.upgraded lines, failedRun error]
            | .ok reboots => .upgraded lines :: reboots)) := by
  have hsession : (scheduledOsUpdate env selfNode config store budget refresh slug).outcome
    replies =
      (scheduledOsUpdate env selfNode config store budget refresh slug).resume replies [] := rfl
  have hupgrade : (runOsUpdate env config store budget host creds).resume replies [] =
      upgradeOutcome env config store budget host creds replies := rfl
  rw [hsession, scheduledOsUpdate, hattempt]
  dsimp only
  rw [resume_attempt, hupgrade]
  cases hresult : (upgradeOutcome env config store budget host creds replies).2 with
  | error error => rfl
  | ok lines =>
      dsimp only
      rw [resume_attempt, ← rebootOutcome]
      cases hstage : (rebootOutcome env selfNode config store budget refresh host creds replies).2
        with
      | error error => rfl
      | ok reboots => rfl

/-- The reboot stage leaves no record of the kind `os_upgrade` when it returns. -/
theorem rebootOutcome_records {records : List RunRecord}
    (h : (rebootOutcome env selfNode config store budget refresh host creds replies).2 =
      .ok records) :
    records.filterMap RunRecord.upgradeStatus = [] := by
  refine Remote.exec_returns (P := fun records => records.filterMap RunRecord.upgradeStatus =
    []) ?_ h
  rw [autoReboot]
  split
  · refine Remote.returns_bind (fun required => ?_) _
    split
    · exact Remote.returns_bind (fun _ => by simp [Remote.Returns, RunRecord.upgradeStatus]) _
    · rfl
  · rfl

theorem isOk_error {α : Type} (error : Failure) :
    (Except.error error : Except Failure α).isOk = false :=
  rfl

theorem isOk_ok {α : Type} (a : α) : (Except.ok a : Except Failure α).isOk = true := rfl

/-- The records tell how the upgrade went exactly when it failed, or the stage after
it returned. -/
theorem records_upgrade_iff (env : Surroundings) (selfNode : String) (config : Config)
    (store : Store) (budget : Nat) (refresh : Bool) (slug : String) {host : HostEntry}
    {creds : Entry} (hattempt : scheduledUpdate config store slug = .run host creds)
    (replies : Nat → Call → Reply) :
    RecordsUpgrade env selfNode config store budget refresh slug host creds replies ↔
      ¬ (upgradeOutcome env config store budget host creds replies).2.isOk ∨
        (rebootOutcome env selfNode config store budget refresh host creds replies).2.isOk := by
  rw [RecordsUpgrade, scheduled_outcome hattempt]
  cases hresult : (upgradeOutcome env config store budget host creds replies).2 with
  | error error =>
      have hquiet := (quiet_runOsUpdate env config store host creds budget).noReboot
      refine iff_of_true ⟨_, rfl, rfl, ?_, ?_, fun _ =>
        hquiet replies⟩ (.inl (by simp [isOk_error]))
      · simp [failedRun, RunRecord.upgradeStatus, isOk_error]
      · simp [isOk_error]
  | ok lines =>
      cases hstage : (rebootOutcome env selfNode config store budget refresh host creds replies).2
        with
      | error error =>
          refine iff_of_false ?_ (by simp [isOk_ok, isOk_error])
          rintro ⟨records, hrecords, hrecorded⟩
          cases hrecords
          -- the shared handler makes a second record of the same kind
          have honce := hrecorded.once
          simp only [hstage, failedRun, List.filterMap_cons, List.filterMap_nil,
            RunRecord.upgradeStatus, List.length_cons, List.length_nil] at honce
          omega
      | ok reboots =>
          have hstatus : (RunRecord.upgraded lines :: reboots).filterMap RunRecord.upgradeStatus =
              [.success] := by
            rw [List.filterMap_cons, rebootOutcome_records hstage]
            rfl
          refine iff_of_true ⟨.upgraded lines :: reboots, by simp [hstage],
            ?_⟩ (.inr (by simp [isOk_ok]))
          exact ⟨by rw [hstatus, List.length_singleton], by simp [hstatus, isOk_ok],
            by simp [hstatus], fun h => absurd (isOk_ok lines) h⟩

end Recording

section LostCheck

/-- A host that is to be rebooted when its upgrade requires it. -/
def rebooting : HostEntry where
  name := "web"
  host := "10.0.0.3"
  user := some "root"
  autoUpdate := some { osEnabled := true, osSchedule := some "0 3 * * *", autoReboot := true }

/-- The upgrade goes well, and the connection for the check after it is lost. -/
def lostCheck : Nat → Call → Reply
  | _ + 1, .connect _ => .lost ⟨"Connection lost", []⟩
  | _, _ => .ran (fun _ => ⟨"", 0⟩) ""

theorem records_upgrade_lostCheck :
    RecordsUpgrade vmSurroundings ""
      { hosts := [rebooting] } ∅ 3600 true "web" rebooting ∅ lostCheck ↔
      ¬ (upgradeOutcome vmSurroundings
        { hosts := [rebooting] } ∅ 3600 rebooting ∅ lostCheck).2.isOk ∨
        (rebootOutcome vmSurroundings "" { hosts := [rebooting] } ∅ 3600 true rebooting ∅
          lostCheck).2.isOk :=
  records_upgrade_iff vmSurroundings "" { hosts := [rebooting] } ∅ 3600 true "web"
    (by decide +kernel) lostCheck

theorem lost_check_recorded_twice :
    ¬ RecordsUpgrade vmSurroundings "" { hosts := [rebooting] } ∅ 3600 true "web" rebooting ∅
      lostCheck := by
  rintro ⟨records, hrecords, hrecorded⟩
  have hcount : ((scheduledOsUpdate vmSurroundings "" { hosts := [rebooting] } ∅ 3600 true
      "web").outcome lostCheck).2.toOption.map
        (fun records => (records.filterMap RunRecord.upgradeStatus).length) = some 2 := by
    decide +kernel
  simp only [hrecords, Except.toOption, Option.map_some, Option.some_inj, hrecorded.once] at hcount
  omega

end LostCheck

end Keepup.Ssh
