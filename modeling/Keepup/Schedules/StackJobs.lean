import Keepup.Schedules.HostJobs
import Keepup.Schedules.UpdatePaths

/-!
The running application: the files, and the jobs in the memory of the process.
The routes that save a schedule apply it at once; the other writes leave the
jobs alone. The main theorem says for which sets of update paths every enabled
stack keeps a job of its own.
-/

namespace Keepup.Schedules

open Lib

structure Process where
  disk : Installation
  jobs : Jobs

def setsNoStackSchedule : SaveOp → Bool
  | .setStackAutoUpdate .. => false
  | _ => true

/-- What happens to the files and the jobs while the process runs, and its restart. -/
inductive ProcessOp where
  | saveStackAutoUpdate (updatePath stackName : String) (enabled : Bool) (schedule : String)
  | applyStackSchedule (updatePath : String)
  | saveHostAutoUpdate (slug : String) (enabled : Bool) (osSchedule : String) (reboot : Bool)
  | saveCheckInterval (hours : Nat)
  | write (op : SaveOp) (h : setsNoStackSchedule op = true)
  | restart

section Operations

variable (crontab : Crontab) (env : Surroundings)

/-- A process that has just started. -/
def started (disk : Installation) : Process := ⟨disk, startup crontab disk.config⟩

variable (s : Process)

def cleanSchedule (schedule : String) :
    String := Text.orElse (some (Text.strip schedule)) "0 4 * * *"

/-- The route that saves the schedule of a stack. -/
def saveStackAutoUpdate (updatePath stackName : String) (enabled : Bool) (schedule : String) :
    Process :=
  if refused crontab enabled (cleanSchedule schedule) then s
  else
    let config :=
      s.disk.config.setStackAutoUpdate updatePath stackName enabled (cleanSchedule schedule)
    ⟨{ s.disk with config }, applyStackSchedule crontab config s.jobs updatePath⟩

def processStep : ProcessOp → Process
  | .saveStackAutoUpdate updatePath stackName enabled schedule =>
      saveStackAutoUpdate crontab s updatePath stackName enabled schedule
  | .applyStackSchedule updatePath =>
      { s with jobs := applyStackSchedule crontab s.disk.config s.jobs updatePath }
  | .saveHostAutoUpdate slug enabled osSchedule reboot =>
      if refused crontab enabled (osScheduleOf osSchedule) then s
      else
        let disk := saveHostAutoUpdate crontab s.disk slug enabled osSchedule reboot
        ⟨disk, applyHostSchedule crontab disk.config s.jobs slug⟩
  | .saveCheckInterval hours =>
      let disk := s.disk.save env (.saveUpdateCheckIntervalHours hours)
      ⟨disk, applyUpdateCheckSchedule disk.config s.jobs⟩
  | .write op _ => { s with disk := s.disk.save env op }
  | .restart => started crontab s.disk

end Operations

section Writes

variable {crontab : Crontab} {env : Surroundings}

/-- Only a factory reset removes the schedules of the stacks. -/
theorem save_stackAutoUpdate {disk : Installation} {op : SaveOp} (h : setsNoStackSchedule op = true)
    (hreset : op ≠ .factoryReset) :
    (disk.save env op).config.stackAutoUpdate = disk.config.stackAutoUpdate := by
  cases op with
  | setStackAutoUpdate updatePath stackName enabled schedule => cases h
  | factoryReset => exact absurd rfl hreset
  | saveProxmoxConfig url pem fp verify =>
      rw [Installation.save]
      cases Proxmox.saveProxmoxConfig env disk.settings url pem fp verify <;> rfl
  | addProxmoxServer url verify pem fp =>
      rw [Installation.save]
      cases Proxmox.addProxmoxServer env disk.settings url verify pem fp <;> rfl
  | _ => rfl

theorem saveHostAutoUpdate_stackAutoUpdate {disk : Installation} {slug osSchedule : String}
    {enabled reboot : Bool} :
    (saveHostAutoUpdate crontab disk slug enabled osSchedule reboot).config.stackAutoUpdate =
      disk.config.stackAutoUpdate := by
  rw [saveHostAutoUpdate]
  split <;> rfl

theorem stackJob_congr {config config' : ConfigFile} {updatePath : String}
    (h : config'.stackAutoUpdate.get? updatePath = config.stackAutoUpdate.get? updatePath) :
    stackJob crontab config' updatePath = stackJob crontab config updatePath := by
  rw [stackJob, stackJob, h]

theorem get?_setStackAutoUpdate {config : ConfigFile} {path path' name schedule : String}
    {enabled : Bool} :
    (config.setStackAutoUpdate path name enabled schedule).stackAutoUpdate.get? path' =
      if path' = path then (if enabled then some ⟨true, schedule, name⟩ else none)
      else config.stackAutoUpdate.get? path' := by
  cases enabled with
  | true => simp [ConfigFile.setStackAutoUpdate, Dict.get?_set]
  | false => simp [ConfigFile.setStackAutoUpdate, Dict.get?_pop]

end Writes

section OwnJobs

variable (crontab : Crontab) (env : Surroundings) (S : Set UpdatePath)

/-- Every enabled stack has the job that redeploys it. -/
def OwnJobs (s : Process) : Prop :=
  ∀ path cfg, s.disk.config.stackAutoUpdate.get? path = some cfg → cfg.enabled = true →
    ∃ job, s.jobs.get? (stackJobId path) = some job ∧ job.task = .runStackUpdate path cfg.name

/-- The path whose schedule an operation applies. -/
def ProcessOp.applied : ProcessOp → Option String
  | .saveStackAutoUpdate updatePath .. => some updatePath
  | .applyStackSchedule updatePath => some updatePath
  | _ => none

/-- Only schedules of the set are saved and applied. -/
def ProcessOp.Within (o : ProcessOp) :
    Prop := ∀ path, o.applied = some path → ∃ p ∈ S, p.text = path

/-- Applying the schedule of one path does nothing to the job of another. -/
def Undisturbed (s : Process) : Prop :=
  ∀ o : ProcessOp, ∀ p ∈ S, o.applied = some p.text → ∀ q ∈ S, q ≠ p →
    (processStep crontab env s o).jobs.get? (stackJobId q.text) = s.jobs.get? (stackJobId q.text)

/-- No two paths of the set differ only in how the names of a project and of a
container are joined. -/
def Unmixed : Prop := ∀ p ∈ S, ∀ q ∈ S, p.joined = q.joined → p = q

/-- What a run with schedules of an unmixed set keeps: every stack entry is one of
the set, can be scheduled when it is enabled, and has its job. -/
structure InSync (s : Process) : Prop where
  within : ∀ path cfg, s.disk.config.stackAutoUpdate.get? path = some cfg → ∃ p ∈ S, p.text = path
  valid : ∀ path cfg, s.disk.config.stackAutoUpdate.get? path = some cfg → cfg.enabled = true →
    cfg.schedule ≠ "" ∧ crontab.valid cfg.schedule = true
  applied : ∀ path cfg, s.disk.config.stackAutoUpdate.get? path = some cfg →
    s.jobs.get? (stackJobId path) = stackJob crontab s.disk.config path

variable {crontab env S} {s : Process}

theorem InSync.ownJobs (h : InSync crontab S s) : OwnJobs s := by
  intro path cfg hcfg henabled
  obtain ⟨hschedule, hvalid⟩ := h.valid path cfg hcfg henabled
  have hjob := stackJob_eq_some.mpr ⟨cfg, hcfg, henabled, hschedule, hvalid, rfl⟩
  exact ⟨_, (h.applied path cfg hcfg).trans hjob, rfl⟩

theorem Unmixed.jobId_ne (hS : Unmixed S) {p q : UpdatePath} (hp : p ∈ S) (hq : q ∈ S)
    (hne : q.text ≠ p.text) : stackJobId q.text ≠ stackJobId p.text := by
  intro hsame
  exact hne (congrArg UpdatePath.text (hS q hq p hp ((stackJobId_eq_iff q p).mp hsame)))

/-- The same files and the same stack jobs are as much in step. -/
theorem InSync.congr {s' : Process} (h : InSync crontab S s)
    (hstacks : s'.disk.config.stackAutoUpdate = s.disk.config.stackAutoUpdate)
    (hjobs : ∀ path, s'.jobs.get? (stackJobId path) = s.jobs.get? (stackJobId path)) :
    InSync crontab S s' where
  within path cfg hcfg := h.within path cfg (hstacks ▸ hcfg)
  valid path cfg hcfg := h.valid path cfg (hstacks ▸ hcfg)
  applied path cfg hcfg := by
    have hsame : stackJob crontab s'.disk.config path = stackJob crontab s.disk.config path :=
      stackJob_congr (by rw [hstacks])
    rw [hjobs, hsame]
    exact h.applied path cfg (hstacks ▸ hcfg)

theorem InSync.apply (hS : Unmixed S) (h : InSync crontab S s) {p : UpdatePath} (hp : p ∈ S) :
    InSync crontab S { s with jobs := applyStackSchedule crontab s.disk.config s.jobs p.text } where
  within := h.within
  valid := h.valid
  applied path cfg hcfg := by
    obtain ⟨q, hq, rfl⟩ := h.within path cfg hcfg
    rw [applyStackSchedule, Dict.get?_put]
    by_cases hsame : q.text = p.text
    · rw [hsame, if_pos rfl]
    · rw [if_neg (hS.jobId_ne hp hq hsame)]
      exact h.applied q.text cfg hcfg

theorem InSync.save (hS : Unmixed S) (h : InSync crontab S s) {p : UpdatePath} (hp : p ∈ S)
    (stackName : String) (enabled : Bool) (schedule : String) :
    InSync crontab S (saveStackAutoUpdate crontab s p.text stackName enabled schedule) := by
  rw [saveStackAutoUpdate]
  split
  · exact h
  · rename_i hchecked
    have hschedule : cleanSchedule schedule ≠ "" := Text.orElse_ne_empty (by decide) _
    constructor
    · intro path cfg hcfg
      rw [get?_setStackAutoUpdate] at hcfg
      split at hcfg
      · rename_i hpath
        exact ⟨p, hp, hpath.symm⟩
      · exact h.within path cfg hcfg
    · intro path cfg hcfg henabled
      rw [get?_setStackAutoUpdate] at hcfg
      split at hcfg
      · rw [Option.ite_none_right_eq_some] at hcfg
        obtain ⟨hon, hcfg⟩ := hcfg
        rw [← Option.some.inj hcfg]
        dsimp only
        refine ⟨hschedule, ?_⟩
        simpa [refused, hon] using hchecked
      · exact h.valid path cfg hcfg henabled
    · intro path cfg hcfg
      simp only [applyStackSchedule, Dict.get?_put]
      by_cases hpath : path = p.text
      · rw [hpath, if_pos rfl]
      · rw [get?_setStackAutoUpdate, if_neg hpath] at hcfg
        obtain ⟨q, hq, rfl⟩ := h.within path cfg hcfg
        rw [if_neg (hS.jobId_ne hp hq hpath), h.applied q.text cfg hcfg]
        apply Eq.symm
        apply stackJob_congr
        rw [get?_setStackAutoUpdate, if_neg hpath]

theorem InSync.restart (hS : Unmixed S) (h : InSync crontab S s) :
    InSync crontab S (started crontab s.disk) where
  within := h.within
  valid := h.valid
  applied path cfg hcfg := by
    obtain ⟨p, hp, rfl⟩ := h.within path cfg hcfg
    refine startup_stackJob ?_ fun other hother hsame => ?_
    · exact List.mem_map.mpr ⟨(p.text, cfg), Dict.mem_entries_iff.mpr hcfg, rfl⟩
    · obtain ⟨⟨_, cfg'⟩, hentry, rfl⟩ := List.mem_map.mp hother
      obtain ⟨q, hq, hqtext⟩ := h.within _ cfg' (Dict.mem_entries_iff.mp hentry)
      dsimp only at hqtext hsame ⊢
      rw [← hqtext] at hsame ⊢
      by_contra hne
      exact hS.jobId_ne hp hq hne hsame

/-- The jobs of the stacks are not those of the hosts or of the update check. -/
theorem InSync.put (h : InSync crontab S s) {disk : Installation} {id : String} (job : Option Job)
    (hstacks : disk.config.stackAutoUpdate = s.disk.config.stackAutoUpdate)
    (hid : ∀ path, stackJobId path ≠ id) : InSync crontab S ⟨disk, s.jobs.put id job⟩ :=
  h.congr hstacks fun path => by rw [Dict.get?_put, if_neg (hid path)]

theorem processStep_inSync (hS : Unmixed S) (h : InSync crontab S s) {o : ProcessOp}
    (ho : o.Within S) : InSync crontab S (processStep crontab env s o) := by
  cases o with
  | saveStackAutoUpdate updatePath stackName enabled schedule =>
      obtain ⟨p, hp, rfl⟩ := ho updatePath rfl
      exact h.save hS hp stackName enabled schedule
  | applyStackSchedule updatePath =>
      obtain ⟨p, hp, rfl⟩ := ho updatePath rfl
      exact h.apply hS hp
  | saveHostAutoUpdate slug enabled osSchedule reboot =>
      rw [processStep]
      split
      · exact h
      · exact h.put _ saveHostAutoUpdate_stackAutoUpdate fun path =>
          (osJobId_ne_stackJobId slug path).symm
  | saveCheckInterval hours => exact h.put _ rfl fun path => stackJobId_ne_updateCheckJobId path
  | write op hop =>
      by_cases hreset : op = .factoryReset
      · subst hreset
        exact ⟨nofun, nofun, nofun⟩
      · exact h.congr (save_stackAutoUpdate hop hreset) fun _ => rfl
  | restart => exact h.restart hS

theorem undisturbed_of_unmixed (hS : Unmixed S) (s : Process) : Undisturbed crontab env S s := by
  intro o p hp happlied q hq hne
  have hid : stackJobId q.text ≠ stackJobId p.text :=
    hS.jobId_ne hp hq fun hsame => hne (UpdatePath.text_injective hsame)
  cases o with
  | saveStackAutoUpdate updatePath stackName enabled schedule =>
      cases happlied
      rw [processStep, saveStackAutoUpdate]
      split
      · rfl
      · simp only [applyStackSchedule, Dict.get?_put, if_neg hid]
  | applyStackSchedule updatePath =>
      cases happlied
      rw [processStep, applyStackSchedule, Dict.get?_put, if_neg hid]
  | saveHostAutoUpdate slug enabled osSchedule reboot => cases happlied
  | saveCheckInterval hours => cases happlied
  | write op hop => cases happlied
  | restart => cases happlied

/-- A process in which nothing has been set up. -/
def freshProcess (crontab : Crontab) : Process := started crontab Installation.fresh

/-- Saving an enabled schedule leaves its job under the id of the path. -/
theorem save_daily (crontab : Crontab) (s : Process) (path name : String) :
    let s' := saveStackAutoUpdate crontab s path name true "0 4 * * *"
    s'.disk.config.stackAutoUpdate = s.disk.config.stackAutoUpdate.set path ⟨true,
      "0 4 * * *", name⟩ ∧
      s'.jobs.get? (stackJobId path) = some ⟨.runStackUpdate path name, .cron "0 4 * * *"⟩ := by
  have hclean : cleanSchedule "0 4 * * *" = "0 4 * * *" := by decide +kernel
  simp only [saveStackAutoUpdate, hclean, refused, crontab.daily, Bool.not_true, Bool.and_false,
    Bool.false_eq_true, if_false]
  refine ⟨by simp [ConfigFile.setStackAutoUpdate], ?_⟩
  rw [applyStackSchedule, Dict.get?_put, if_pos rfl, stackJob_eq_some]
  exact ⟨_, by rw [get?_setStackAutoUpdate, if_pos rfl, if_pos rfl], rfl,
    (by decide : ("0 4 * * *" : String) ≠ ""), crontab.daily, rfl⟩

/-- The enabled stacks of a set keep their own jobs, and none disturbs another, in
every run with schedules of the set. -/
def JobsKeptApart (crontab : Crontab) (env : Surroundings) (S : Set UpdatePath) : Prop :=
  ∀ ops : List ProcessOp, (∀ o ∈ ops, o.Within S) →
    ∀ s ∈ reached (processStep crontab env) (freshProcess crontab) ops,
      OwnJobs s ∧ Undisturbed crontab env S s

/-- Of two paths with the same job id, only the one enabled last has a job. -/
theorem not_jobsKeptApart {p q : UpdatePath} (hp : p ∈ S) (hq : q ∈ S)
    (hjoined : p.joined = q.joined) (hne : p ≠ q) : ¬ JobsKeptApart crontab env S := by
  intro hown
  have hid : stackJobId q.text = stackJobId p.text := ((stackJobId_eq_iff p q).mpr hjoined).symm
  have htext : q.text ≠ p.text := fun hsame => hne (UpdatePath.text_injective hsame).symm
  let s₁ := saveStackAutoUpdate crontab (freshProcess crontab) p.text "" true "0 4 * * *"
  let s₂ := saveStackAutoUpdate crontab s₁ q.text "" true "0 4 * * *"
  obtain ⟨hconfig₁, _⟩ := save_daily crontab (freshProcess crontab) p.text ""
  obtain ⟨hconfig₂, hjob₂⟩ := save_daily crontab s₁ q.text ""
  have hwithin : ∀ o ∈ [ProcessOp.saveStackAutoUpdate p.text "" true "0 4 * * *",
      .saveStackAutoUpdate q.text "" true "0 4 * * *"], o.Within S := by
    intro o ho path hpath
    simp only [List.mem_cons, List.not_mem_nil, or_false] at ho
    rcases ho with rfl | rfl
    · exact ⟨p, hp, Option.some.inj hpath⟩
    · exact ⟨q, hq, Option.some.inj hpath⟩
  have hlast := (hown _ hwithin s₂ (by simp [reached, processStep, s₁, s₂])).1
  obtain ⟨job, hjob, htask⟩ := hlast p.text ⟨true, "0 4 * * *", ""⟩ (by
    rw [hconfig₂, hconfig₁, Dict.get?_set_ne _ _ htext.symm, Dict.get?_set_self]) rfl
  rw [← hid, hjob₂] at hjob
  cases hjob
  exact htext (Task.runStackUpdate.inj htask).1

/-- The paths of a set keep their jobs exactly if the set is unmixed. -/
theorem stackJobs_own_iff (crontab : Crontab) (env : Surroundings) (S : Set UpdatePath) :
    JobsKeptApart crontab env S ↔ Unmixed S := by
  constructor
  · intro hown p hp q hq hjoined
    by_contra hne
    exact not_jobsKeptApart hp hq hjoined hne hown
  · intro hS ops hops s hs
    have hstart : InSync crontab S (freshProcess crontab) := ⟨nofun, nofun, nofun⟩
    have hsteps : Meets (processStep crontab env) (fun _ o => o.Within S)
        (freshProcess crontab) ops :=
      meets_of_forall fun o ho _ => hops o ho
    have hsync := reached_all (P := InSync crontab S) (fun t o ht ho => processStep_inSync hS ht ho)
      hstart hsteps s hs
    exact ⟨hsync.ownJobs, undisturbed_of_unmixed hS s⟩

def webSlug : HostSlug := ⟨"web", "web", by decide +kernel⟩

/-- Two containers of one host, in the projects `shop` and `shop_api`. -/
def mixedPaths : Set UpdatePath :=
  {.ssh webSlug (.compose "shop" "api_db"), .ssh webSlug (.compose "shop_api" "db")}

theorem mixed_paths_share_job :
    ¬ JobsKeptApart plainCrontab Proxmox.plainSurroundings mixedPaths := by
  refine not_jobsKeptApart (.inl rfl) (.inr rfl) ?_ ?_
  · simp only [UpdatePath.joined, ContainerRef.joined]
    rfl
  · simp

end OwnJobs

end Keepup.Schedules
