import Keepup.Lib.Runs
import Keepup.Schedules.StackJobs

/-!
How often the background check runs. The setting is one number of hours, which the admin card and
the wizard both write; a file from before has the cron string of the wizard instead. The job has the
hours from when it was last applied, and the wizard does not apply what it saves. In the process
with all its jobs and with all that it saves, the check behaves as these two records do.
-/

namespace Keepup.CheckInterval

open Lib

section Source

/-- The hours that are offered. With zero the check is off. -/
abbrev Interval := { hours : Nat // hours ∈ ConfigFile.updateCheckIntervals }

theorem zero_offered : 0 ∈ ConfigFile.updateCheckIntervals := by decide

theorem one_offered : 1 ∈ ConfigFile.updateCheckIntervals := by decide

theorem six_offered : 6 ∈ ConfigFile.updateCheckIntervals := by decide

theorem twelve_offered : 12 ∈ ConfigFile.updateCheckIntervals := by decide

theorem twentyFour_offered : 24 ∈ ConfigFile.updateCheckIntervals := by decide

def defaultHours : Interval := ⟨6, six_offered⟩

/-- What can stand for the hours in the file. A truth value is not a number here. -/
inductive Raw where
  | int (n : Int)
  | other
deriving DecidableEq

/-- The part of the file with the setting: `update_checks`, which has the hours, and the cron string
from before, where it is there, `none` in it where it is no text. -/
structure File where
  intervalHours : Option Raw := none
  updateCheckSchedule : Option (Option String) := none
deriving DecidableEq

def validInterval : Raw → Option Interval
  | .int n => if h : n.toNat ∈ ConfigFile.updateCheckIntervals ∧
  0 ≤ n then some ⟨n.toNat, h.1⟩ else none
  | .other => none

def legacyScheduleHours : List (String × Interval) :=
  [("0 */6 * * *", ⟨6, six_offered⟩), ("0 */12 * * *", ⟨12, twelve_offered⟩),
    ("0 2 * * *", ⟨24, twentyFour_offered⟩)]

/-- A cron string that is no interval is not taken for one that turns the check off. -/
def legacyHours (cron : Option String) : Interval :=
  (cron.bind fun cron => legacyScheduleHours.lookup cron).getD defaultHours

/-- The hours, and the file, which is migrated on the first read. -/
def getUpdateCheckIntervalHours (file : File) : File × Interval :=
  let hours := file.intervalHours.bind validInterval
  match file.updateCheckSchedule with
  | none => (file, hours.getD defaultHours)
  | some cron =>
      let migrated := hours.getD (legacyHours cron)
      (⟨some (.int migrated.val), none⟩, migrated)

def offered (hours : Int) : Interval := (validInterval (.int hours)).getD defaultHours

def saveUpdateCheckIntervalHours (hours : Int) : File := ⟨some (.int (offered hours).val), none⟩

def updateCheckSchedules : List (String × Interval) :=
  [("manual", ⟨0, zero_offered⟩), ("1h", ⟨1, one_offered⟩), ("6h", ⟨6, six_offered⟩),
    ("12h", ⟨12, twelve_offered⟩),
    ("24h", ⟨24, twentyFour_offered⟩)]

def scheduleHours (key : String) : Interval := (updateCheckSchedules.lookup key).getD defaultHours

def scheduleKey (hours : Interval) : String :=
  ((updateCheckSchedules.find? fun entry => entry.2 = hours).map Prod.fst).getD "manual"

def getUpdateCheckSchedule (file : File) : File × String :=
  let read := getUpdateCheckIntervalHours file
  (read.1, scheduleKey read.2)

def saveUpdateCheckSchedule (key : String) :
    File := saveUpdateCheckIntervalHours (scheduleHours key).val

/-- The file, and the hours of the job, if there is one. -/
structure Process where
  file : File
  job : Option Interval := none
deriving DecidableEq

def jobFor (hours : Interval) : Option Interval := if hours.val = 0 then none else some hours

def applyUpdateCheckSchedule (file : File) : Process :=
  let read := getUpdateCheckIntervalHours file
  ⟨read.1, jobFor read.2⟩

inductive Op where
  | start
  /-- The admin card, with the number that is posted, if it is one. -/
  | saveCheckInterval (intervalHours : Option Int)
  /-- The wizard. -/
  | setupSaveSchedule (updateSchedule : String)
  /-- A page that shows the setting. -/
  | visit

def step (p : Process) : Op → Process
  | .start => applyUpdateCheckSchedule p.file
  | .saveCheckInterval intervalHours =>
      let read := getUpdateCheckIntervalHours p.file
      applyUpdateCheckSchedule (saveUpdateCheckIntervalHours (intervalHours.getD read.2.val))
  -- the job is left as it is
  | .setupSaveSchedule updateSchedule => { p with file := saveUpdateCheckSchedule updateSchedule }
  | .visit => { p with file := (getUpdateCheckIntervalHours p.file).1 }

end Source

section Setting

/-- The hours that every page shows. -/
def File.setting (file : File) : Interval := (getUpdateCheckIntervalHours file).2

/-- What an operation makes of the setting. -/
def Op.chosen (current : Interval) : Op → Interval
  | .start => current
  | .saveCheckInterval intervalHours => intervalHours.elim current offered
  | .setupSaveSchedule updateSchedule => scheduleHours updateSchedule
  | .visit => current

theorem validInterval_val (hours : Interval) : validInterval (.int hours.val) = some hours := by
  have h : (hours.val : Int).toNat ∈ ConfigFile.updateCheckIntervals ∧ 0 ≤ (hours.val : Int) := by
    simpa using hours.property
  rw [validInterval, dif_pos h]
  exact congrArg some (Subtype.ext (Int.toNat_natCast hours.val))

@[simp] theorem offered_val (hours : Interval) : offered hours.val = hours := by
  rw [offered, validInterval_val, Option.getD_some]

theorem setting_saved (hours : Interval) :
    (File.mk (some (.int hours.val)) none).setting = hours := by
  simp [File.setting, getUpdateCheckIntervalHours, validInterval_val]

theorem setting_save (hours : Int) : (saveUpdateCheckIntervalHours hours).setting = offered hours :=
  setting_saved (offered hours)

/-- Reading migrates the file, and that is not seen. -/
theorem setting_read (file : File) :
    (getUpdateCheckIntervalHours file).1.setting = file.setting := by
  obtain ⟨intervalHours, updateCheckSchedule⟩ := file
  cases updateCheckSchedule with
  | none => rfl
  | some cron => exact setting_saved _

theorem setting_apply (file : File) : (applyUpdateCheckSchedule file).file.setting = file.setting :=
  setting_read file

theorem setting_step (p : Process) (o : Op) :
    (step p o).file.setting = o.chosen p.file.setting := by
  cases o with
  | start => exact setting_apply p.file
  | saveCheckInterval intervalHours =>
      rw [step, setting_apply, setting_save]
      cases intervalHours with
      | none => exact offered_val p.file.setting
      | some hours => rfl
  | setupSaveSchedule updateSchedule =>
      rw [step, saveUpdateCheckSchedule, setting_save, offered_val]
      rfl
  | visit => exact setting_read p.file

theorem setting_run (p : Process) (ops : List Op) :
    (ops.foldl step p).file.setting = ops.foldl Op.chosen p.file.setting := by
  induction ops generalizing p with
  | nil => rfl
  | cons o ops ih => rw [List.foldl_cons, List.foldl_cons, ih, setting_step]

/-- The wizard saves back what it has shown. -/
theorem scheduleHours_key (hours : Interval) : scheduleHours (scheduleKey hours) = hours := by
  obtain ⟨hours, hoffered⟩ := hours
  simp only [ConfigFile.updateCheckIntervals, List.mem_cons, List.not_mem_nil, or_false] at hoffered
  rcases hoffered with rfl | rfl | rfl | rfl | rfl <;> rfl

end Setting

section InForce

/-- The job runs as often as the pages say. -/
def Process.InForce (p : Process) : Prop := p.job = jobFor p.file.setting

/-- The wizard saves only what is set already. -/
def KeepsInForce (p : Process) : Op → Prop
  | .setupSaveSchedule updateSchedule => scheduleHours updateSchedule = p.file.setting
  | .start | .saveCheckInterval _ | .visit => True

theorem jobFor_injective : Function.Injective jobFor := by
  intro a b h
  rw [jobFor, jobFor] at h
  split at h
  · rename_i ha
    split at h
    · rename_i hb
      exact Subtype.ext (ha.trans hb.symm)
    · cases h
  · split at h
    · cases h
    · exact Option.some.inj h

theorem apply_inForce (file : File) : (applyUpdateCheckSchedule file).InForce := by
  rw [Process.InForce, setting_apply]
  rfl

theorem step_inForce_iff (p : Process) (o : Op) (h : p.InForce) :
    (step p o).InForce ↔ KeepsInForce p o := by
  cases o with
  | start => exact iff_of_true (apply_inForce _) trivial
  | saveCheckInterval intervalHours => exact iff_of_true (apply_inForce _) trivial
  | setupSaveSchedule updateSchedule =>
      have hset := setting_step p (.setupSaveSchedule updateSchedule)
      rw [Process.InForce, hset, step, KeepsInForce, h]
      exact jobFor_injective.eq_iff.trans eq_comm
  | visit =>
      rw [Process.InForce, step, setting_read]
      exact iff_of_true h trivial

theorem step_migrated (p : Process) (o : Op) : (step p o).file.updateCheckSchedule = none := by
  have hread : ∀ file : File, (getUpdateCheckIntervalHours file).1.updateCheckSchedule = none := by
    rintro ⟨intervalHours, updateCheckSchedule⟩
    cases updateCheckSchedule <;> rfl
  cases o with
  | start => exact hread _
  | saveCheckInterval intervalHours => exact hread _
  | setupSaveSchedule updateSchedule => rfl
  | visit => exact hread _

/-- From whatever file a process starts, the setting is what was last saved, and before that what
the file had, also in the old form, which is gone from the start on. The job keeps to the setting in
every state exactly if the wizard saves nothing but what is set already. -/
theorem check_interval_followed (p : Process) (ops : List Op) :
    (ops.foldl step p).file.setting = ops.foldl Op.chosen p.file.setting ∧
    (∀ t ∈ reached step (step p .start) ops, t.file.updateCheckSchedule = none) ∧
    ((∀ t ∈ reached step (step p .start) ops, t.job = jobFor t.file.setting) ↔
      Meets step KeepsInForce (step p .start) ops) ∧
    ∀ t : Process, KeepsInForce t (.setupSaveSchedule (getUpdateCheckSchedule t.file).2) := by
  refine ⟨setting_run p ops, ?_, ?_, fun t => scheduleHours_key t.file.setting⟩
  · exact reached_all (P := fun t => t.file.updateCheckSchedule = none) (Q := fun _ _ => True)
      (fun t o _ _ => step_migrated t o) (step_migrated p .start)
      (meets_of_forall fun _ _ _ => trivial)
  · exact reached_all_iff (P := Process.InForce) step_inForce_iff (apply_inForce p.file) ops

end InForce

section Scheduler

open Schedules

variable {crontab : Crontab} {env : Surroundings} {s : Schedules.Process} {p : Process}

/-- The file and the job of the check are those of a process with all its jobs. -/
structure Shows (s : Schedules.Process) (p : Process) : Prop where
  setting : s.disk.config.updateCheckHours = p.file.setting.val
  job : s.jobs.get? updateCheckJobId = p.job.map fun hours => ⟨.runUpdateCheck, .interval hours.val⟩

/-- What an operation of the process is to the check. The rest is to it like a
page that is shown. -/
def checkOp : ProcessOp → Op
  | .restart => .start
  | .saveCheckInterval hours => .saveCheckInterval (some hours)
  | .write (.saveUpdateCheckIntervalHours hours) _ =>
      .setupSaveSchedule (scheduleKey (offered hours))
  | .saveStackAutoUpdate .. | .applyStackSchedule _ | .saveHostAutoUpdate .. | .write .. => .visit

theorem offered_natCast (hours : Nat) :
    (offered hours).val = if hours ∈ ConfigFile.updateCheckIntervals then hours else 6 := by
  by_cases hin : hours ∈ ConfigFile.updateCheckIntervals
  · rw [if_pos hin]
    exact congrArg Subtype.val (offered_val ⟨hours, hin⟩)
  · rw [if_neg hin, offered, validInterval, dif_neg fun h => hin (by simpa using h.1)]
    rfl

theorem updateCheckJob_of_setting {config : ConfigFile} {hours : Interval}
    (h : config.updateCheckHours = hours.val) :
    updateCheckJob config = (jobFor hours).map
      fun hours => ⟨.runUpdateCheck, .interval hours.val⟩ := by
  rw [updateCheckJob, jobFor, h]
  split <;> rfl

/-- After it has been applied the job is that of the setting, whatever jobs there are. -/
theorem shows_applied {disk : Installation} {jobs : Jobs} {file : File}
    (h : disk.config.updateCheckHours = file.setting.val) :
    Shows ⟨disk, Schedules.applyUpdateCheckSchedule disk.config jobs⟩
      (applyUpdateCheckSchedule file) where
  setting := h.trans (congrArg Subtype.val (setting_apply file).symm)
  job := by
    rw [Schedules.applyUpdateCheckSchedule, Dict.get?_put, if_pos rfl]
    exact updateCheckJob_of_setting h

theorem shows_started {disk : Installation} {file : File}
    (h : disk.config.updateCheckHours = file.setting.val) :
    Shows (started crontab disk) (applyUpdateCheckSchedule file) := by
  rw [started, startup, applyAllSchedules]
  exact shows_applied h

theorem Shows.visited (h : Shows s p) : Shows s (step p .visit) :=
  ⟨h.setting.trans (congrArg Subtype.val (setting_read p.file).symm), h.job⟩

/-- A change of another job, with the setting as it was. -/
theorem Shows.put (h : Shows s p) {disk : Installation}
    (hsetting : disk.config.updateCheckHours = s.disk.config.updateCheckHours) {id : String}
    (hid : id ≠ updateCheckJobId) (job : Option Job) : Shows ⟨disk, s.jobs.put id job⟩ p :=
  ⟨hsetting.trans h.setting, by rw [Dict.get?_put, if_neg hid.symm, h.job]⟩

theorem save_updateCheckHours (env : Surroundings) (disk : Installation) {op : SaveOp}
    (hother : ∀ hours, op ≠ .saveUpdateCheckIntervalHours hours) :
    (disk.save env op).config.updateCheckHours = disk.config.updateCheckHours := by
  cases op with
  | saveUpdateCheckIntervalHours hours => exact absurd rfl (hother hours)
  | saveProxmoxConfig url pem fp verify =>
      rw [Installation.save]
      cases Proxmox.saveProxmoxConfig env disk.settings url pem fp verify <;> rfl
  | addProxmoxServer url verify pem fp =>
      rw [Installation.save]
      cases Proxmox.addProxmoxServer env disk.settings url verify pem fp <;> rfl
  | _ => rfl

theorem setting_saveHours (env : Surroundings) (disk : Installation) (hours : Nat) :
    (disk.save env (.saveUpdateCheckIntervalHours hours)).config.updateCheckHours =
      (saveUpdateCheckIntervalHours hours).setting.val := by
  rw [setting_save, offered_natCast]
  rfl

/-- What the whole process does is to the check what the two records do. -/
theorem step_shows (h : Shows s p) (o : ProcessOp) :
    Shows (processStep crontab env s o) (step p (checkOp o)) := by
  cases o with
  | restart => exact shows_started h.setting
  | saveCheckInterval hours => exact shows_applied (setting_saveHours env s.disk hours)
  | applyStackSchedule updatePath =>
      exact h.visited.put rfl (stackJobId_ne_updateCheckJobId updatePath) _
  | saveStackAutoUpdate updatePath stackName enabled schedule =>
      rw [processStep, saveStackAutoUpdate]
      split
      · exact h.visited
      · refine h.visited.put ?_ (stackJobId_ne_updateCheckJobId updatePath) _
        rfl
  | saveHostAutoUpdate slug enabled osSchedule reboot =>
      rw [processStep]
      split
      · exact h.visited
      · refine h.visited.put ?_ (osJobId_ne_updateCheckJobId slug) _
        rw [saveHostAutoUpdate]
        split <;> rfl
  | write op hop =>
      by_cases hhours : ∃ hours, op = .saveUpdateCheckIntervalHours hours
      · obtain ⟨hours, rfl⟩ := hhours
        refine ⟨(setting_saveHours env s.disk hours).trans ?_, h.job⟩
        rw [setting_save, checkOp, setting_step, Op.chosen, scheduleHours_key]
      · have hkept := save_updateCheckHours env s.disk fun hours hsame => hhours ⟨hours, hsame⟩
        have hvisit : checkOp (.write op hop) = .visit := by
          cases op with
          | saveUpdateCheckIntervalHours hours => exact absurd ⟨hours, rfl⟩ hhours
          | _ => rfl
        rw [hvisit]
        exact ⟨hkept.trans h.visited.setting, h.job⟩

/-- From a start on, over whatever the process saves and with all its jobs, the setting and the job
of the check are those of the two records. -/
theorem run_shows {disk : Installation} {file : File}
    (h : disk.config.updateCheckHours = file.setting.val) (ops : List ProcessOp) :
    Shows (ops.foldl (processStep crontab env) (started crontab disk))
      ((ops.map checkOp).foldl step (applyUpdateCheckSchedule file)) := by
  have hrun : ∀ (s : Schedules.Process) (p : Process), Shows s p →
      Shows (ops.foldl (processStep crontab env) s) ((ops.map checkOp).foldl step p) := by
    induction ops with
    | nil => exact fun _ _ h => h
    | cons o ops ih => exact fun _ _ h => ih _ _ (step_shows h o)
  exact hrun _ _ (shows_started h)

end Scheduler

end Keepup.CheckInterval
