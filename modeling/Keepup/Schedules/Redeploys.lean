import Keepup.Schedules.StackJobs
import Keepup.Text.Lines

/-!
The firing of a stack job. It hands its update path to a backend without a look
at the configuration, so the jobs have to be those of the configuration at that
moment; only a factory reset can make them differ.
-/

namespace Keepup.Schedules

open Lib

section Firing

/-- The update path that the firing of a job hands to a backend, when one of the
loaded backends is that of the path. -/
def redeployed (backends : List String) (s : Process) (id : String) : Option String := do
  let job ← s.jobs.get? id
  match job.task with
  | .runStackUpdate updatePath _ => do
      let (backendKey, _) ← Text.cut "/" updatePath
      if backendKey ∈ backends then some updatePath else none
  | _ => none

/-- The configuration lists an update path, enabled. -/
def Listed (s : Process) (updatePath : String) : Prop :=
  ∃ cfg, s.disk.config.stackAutoUpdate.get? updatePath = some cfg ∧ cfg.enabled = true

/-- Whatever fires, with whatever backends loaded, only listed stacks are redeployed. -/
def Obeys (s : Process) : Prop :=
  ∀ backends id updatePath, redeployed backends s id = some updatePath → Listed s updatePath

/-- No job can redeploy anything when everything is reset. -/
def ResetsIdle (s : Process) : ProcessOp → Prop
  | .write .factoryReset _ => ∀ backends id, redeployed backends s id = none
  | _ => True

/-- The jobs of stacks are under the ids of their paths. -/
def WellKeyed (jobs : Jobs) : Prop :=
  ∀ id job path name, jobs.get? id = some job → job.task = .runStackUpdate path name →
    id = stackJobId path

end Firing

section Steps

variable {crontab : Crontab} {env : Surroundings} {s : Process}

theorem redeployed_eq_some {backends : List String} {id updatePath : String} :
    redeployed backends s id = some updatePath ↔
      ∃ job name backendKey ref, s.jobs.get? id = some job ∧
      job.task = .runStackUpdate updatePath name ∧
      Text.cut "/" updatePath = some (backendKey, ref) ∧
      backendKey ∈ backends := by
  constructor
  · intro h
    simp only [redeployed, Option.bind_eq_bind, Option.bind_eq_some_iff] at h
    obtain ⟨job, hjob, h⟩ := h
    split at h
    · rename_i path name htask
      simp only [Option.bind_eq_some_iff, Option.ite_none_right_eq_some] at h
      obtain ⟨⟨backendKey, ref⟩, hcut, hloaded, hpath⟩ := h
      obtain rfl := Option.some.inj hpath
      exact ⟨job, name, backendKey, ref, hjob, htask, hcut, hloaded⟩
    · cases h
  · rintro ⟨job, name, backendKey, ref, hjob, htask, hcut, hloaded⟩
    simp [redeployed, hjob, htask, hcut, hloaded]

/-- The jobs that count are those with a path that names a backend. -/
theorem obeys_iff : Obeys s ↔ ∀ id job path name, s.jobs.get? id = some job →
    job.task = .runStackUpdate path name → (Text.cut "/" path).isSome → Listed s path := by
  constructor
  · intro hobeys id job path name hjob htask hcut
    obtain ⟨⟨backendKey, ref⟩, hparts⟩ := Option.isSome_iff_exists.mp hcut
    exact hobeys [backendKey] id path
      (redeployed_eq_some.mpr ⟨job, name, backendKey, ref, hjob, htask, hparts, by simp⟩)
  · intro hall backends id path hfires
    obtain ⟨job, name, backendKey, ref, hjob, htask, hparts, _⟩ := redeployed_eq_some.mp hfires
    exact hall id job path name hjob htask (Option.isSome_of_eq_some hparts)

theorem listed_of_stackJob {path : String} {job : Job}
    (h : stackJob crontab s.disk.config path = some job) :
    (∃ name, job.task = .runStackUpdate path name) ∧ Listed s path := by
  obtain ⟨cfg, hcfg, henabled, _, _, rfl⟩ := stackJob_eq_some.mp h
  exact ⟨⟨cfg.name, rfl⟩, cfg, hcfg, henabled⟩

/-- A job that is no stack job changes nothing. -/
theorem WellKeyed.put {jobs : Jobs} (h : WellKeyed jobs) {id : String} {job : Option Job}
    (hjob : ∀ j path name, job = some j → j.task = .runStackUpdate path name →
      id = stackJobId path) :
    WellKeyed (jobs.put id job) := by
  intro id' j path name hget htask
  rw [Dict.get?_put] at hget
  split at hget
  · rename_i hid
    exact hid.trans (hjob j path name hget htask)
  · exact h id' j path name hget htask

theorem osJob_not_stack {slug path name : String} {job : Job}
    (h : osJob crontab s.disk.config slug = some job) : job.task ≠ .runStackUpdate path name := by
  rw [osJob_some h]
  nofun

theorem updateCheckJob_not_stack {path name : String} {job : Job}
    (h : updateCheckJob s.disk.config = some job) : job.task ≠ .runStackUpdate path name := by
  rw [updateCheckJob, Option.ite_none_left_eq_some] at h
  rw [← Option.some.inj h.2]
  intro htask
  cases htask

theorem wellKeyed_startup (crontab : Crontab) (config : ConfigFile) :
    WellKeyed (startup crontab config) := by
  intro id job path name hjob htask
  let s : Process := ⟨⟨config, ∅⟩, ∅⟩
  rcases startup_get?_cases hjob with ⟨slug, rfl, hos⟩ | ⟨other, rfl, hstack⟩ | ⟨rfl, hcheck⟩
  · exact absurd htask (osJob_not_stack (s := s) hos)
  · obtain ⟨⟨_, hother⟩, _⟩ := listed_of_stackJob (s := s) hstack
    rw [(Task.runStackUpdate.inj (hother.symm.trans htask)).1]
  · exact absurd htask (updateCheckJob_not_stack (s := s) hcheck)

theorem obeys_started (crontab : Crontab) (disk : Installation) : Obeys (started crontab disk) := by
  rw [obeys_iff]
  intro id job path name hjob htask _
  let s : Process := ⟨disk, ∅⟩
  rcases startup_get?_cases hjob with ⟨slug, rfl, hos⟩ | ⟨other, rfl, hstack⟩ | ⟨rfl, hcheck⟩
  · exact absurd htask (osJob_not_stack (s := s) hos)
  · obtain ⟨⟨_, hother⟩, hlisted⟩ := listed_of_stackJob (s := s) hstack
    obtain ⟨rfl, _⟩ := Task.runStackUpdate.inj (hother.symm.trans htask)
    exact hlisted
  · exact absurd htask (updateCheckJob_not_stack (s := s) hcheck)

theorem processStep_wellKeyed (hkeyed : WellKeyed s.jobs) (o : ProcessOp) :
    WellKeyed (processStep crontab env s o).jobs := by
  have hstack : ∀ config path, WellKeyed (applyStackSchedule crontab config s.jobs path) := by
    intro config path
    refine hkeyed.put fun job other name hjob htask => ?_
    obtain ⟨⟨_, hpath⟩, _⟩ := listed_of_stackJob (s := ⟨⟨config, ∅⟩, ∅⟩) hjob
    rw [(Task.runStackUpdate.inj (hpath.symm.trans htask)).1]
  cases o with
  | saveStackAutoUpdate updatePath stackName enabled schedule =>
      rw [processStep, saveStackAutoUpdate]
      split
      · exact hkeyed
      · exact hstack _ updatePath
  | applyStackSchedule updatePath => exact hstack _ updatePath
  | saveHostAutoUpdate slug enabled osSchedule reboot =>
      rw [processStep]
      split
      · exact hkeyed
      · let disk := saveHostAutoUpdate crontab s.disk slug enabled osSchedule reboot
        exact hkeyed.put fun job path name hjob htask =>
          absurd htask (osJob_not_stack (s := ⟨disk, ∅⟩) hjob)
  | saveCheckInterval hours =>
      let disk := s.disk.save env (.saveUpdateCheckIntervalHours hours)
      exact hkeyed.put fun job path name hjob htask =>
        absurd htask (updateCheckJob_not_stack (s := ⟨disk, ∅⟩) hjob)
  | write op hop => exact hkeyed
  | restart => exact wellKeyed_startup crontab _

/-- Applying a schedule keeps the other stack jobs as they are, and its own is
there only if the stack is listed. -/
theorem obeys_apply {s' : Process} {path : String} (hkeyed : WellKeyed s.jobs) (hobeys : Obeys s)
    (hothers : ∀ other, other ≠ path →
      s'.disk.config.stackAutoUpdate.get? other = s.disk.config.stackAutoUpdate.get? other)
    (hjobs : s'.jobs = applyStackSchedule crontab s'.disk.config s.jobs path) : Obeys s' := by
  rw [obeys_iff] at hobeys ⊢
  intro id job other name hjob htask hcut
  rw [hjobs, applyStackSchedule, Dict.get?_put] at hjob
  split at hjob
  · obtain ⟨⟨_, hpath⟩, hlisted⟩ := listed_of_stackJob (s := s') hjob
    obtain ⟨rfl, _⟩ := Task.runStackUpdate.inj (hpath.symm.trans htask)
    exact hlisted
  · rename_i hid
    have hne : other ≠ path := by
      rintro rfl
      exact hid (hkeyed id job other name hjob htask)
    obtain ⟨cfg, hcfg, henabled⟩ := hobeys id job other name hjob htask hcut
    exact ⟨cfg, (hothers other hne).trans hcfg, henabled⟩

/-- A change that concerns no stack keeps everything as it is. -/
theorem obeys_put {disk : Installation} {id : String} {job : Option Job} (hobeys : Obeys s)
    (hstacks : disk.config.stackAutoUpdate = s.disk.config.stackAutoUpdate)
    (hjob : ∀ j path name, job = some j → j.task ≠ .runStackUpdate path name) :
    Obeys ⟨disk, s.jobs.put id job⟩ := by
  rw [obeys_iff] at hobeys ⊢
  intro id' j path name hget htask hcut
  rw [Dict.get?_put] at hget
  split at hget
  · exact absurd htask (hjob j path name hget)
  · obtain ⟨cfg, hcfg, henabled⟩ := hobeys id' j path name hget htask hcut
    exact ⟨cfg, hstacks ▸ hcfg, henabled⟩

/-- What fires depends on the jobs alone. -/
theorem redeployed_congr {s' : Process} {backends : List String} {id : String}
    (h : s'.jobs = s.jobs) : redeployed backends s' id = redeployed backends s id := by
  rw [redeployed, redeployed, h]

theorem obeys_factoryReset_iff :
    Obeys { s with disk := s.disk.factoryReset } ↔
      ∀ backends id, redeployed backends s id = none := by
  constructor
  · intro hobeys backends id
    cases hfires : redeployed backends s id with
    | none => rfl
    | some path =>
        obtain ⟨cfg, hcfg, _⟩ := hobeys backends id path ((redeployed_congr rfl).trans hfires)
        cases hcfg
  · intro hnone backends id path hfires
    cases (hnone backends id).symm.trans ((redeployed_congr rfl).trans hfires)

theorem processStep_obeys_iff (hkeyed : WellKeyed s.jobs) (hobeys : Obeys s) (o : ProcessOp) :
    Obeys (processStep crontab env s o) ↔ ResetsIdle s o := by
  cases o with
  | saveStackAutoUpdate updatePath stackName enabled schedule =>
      refine iff_of_true ?_ trivial
      rw [processStep, saveStackAutoUpdate]
      split
      · exact hobeys
      · exact obeys_apply hkeyed hobeys
          (fun other hne => by rw [get?_setStackAutoUpdate, if_neg hne]) rfl
  | applyStackSchedule updatePath =>
      exact iff_of_true (obeys_apply hkeyed hobeys (fun _ _ => rfl) rfl) trivial
  | saveHostAutoUpdate slug enabled osSchedule reboot =>
      refine iff_of_true ?_ trivial
      rw [processStep]
      split
      · exact hobeys
      · let disk := saveHostAutoUpdate crontab s.disk slug enabled osSchedule reboot
        exact obeys_put hobeys saveHostAutoUpdate_stackAutoUpdate
          fun j path name hj => osJob_not_stack (s := ⟨disk, ∅⟩) hj
  | saveCheckInterval hours =>
      let disk := s.disk.save env (.saveUpdateCheckIntervalHours hours)
      exact iff_of_true (obeys_put hobeys rfl
        fun j path name hj => updateCheckJob_not_stack (s := ⟨disk, ∅⟩) hj) trivial
  | write op hop =>
      by_cases hreset : op = .factoryReset
      · subst hreset
        exact obeys_factoryReset_iff
      · have hcondition : ResetsIdle s (.write op hop) := by
          cases op with
          | factoryReset => exact absurd rfl hreset
          | _ => trivial
        refine iff_of_true (fun backends id path hfires => ?_) hcondition
        obtain ⟨cfg, hcfg, henabled⟩ :=
          hobeys backends id path ((redeployed_congr rfl).symm.trans hfires)
        exact ⟨cfg, (congrArg (Dict.get? · path) (save_stackAutoUpdate hop hreset)).trans hcfg,
          henabled⟩
  | restart => exact iff_of_true (obeys_started crontab _) trivial

/-- Only listed stacks are redeployed, in every state of a run from a start of the
application, exactly if no factory reset of the run finds a job that could redeploy
something. -/
theorem redeploys_obey_iff (crontab : Crontab) (env : Surroundings) (disk : Installation)
    (ops : List ProcessOp) :
    (∀ s ∈ reached (processStep crontab env) (started crontab disk) ops, Obeys s) ↔
      Meets (processStep crontab env) ResetsIdle (started crontab disk) ops := by
  have hkeyed := wellKeyed_startup crontab disk.config
  have hsteps : Meets (processStep crontab env) (fun _ _ => True) (started crontab disk) ops :=
    meets_of_forall fun _ _ _ => trivial
  have hall := reached_all (P := fun s : Process => WellKeyed s.jobs)
    (fun s o h _ => processStep_wellKeyed h o) hkeyed hsteps
  rw [← reached_all_iff (P := fun s : Process => WellKeyed s.jobs ∧ Obeys s)
    (fun s o hkept => (and_iff_right (processStep_wellKeyed hkept.1 o)).trans
      (processStep_obeys_iff hkept.1 hkept.2 o)) ⟨hkeyed, obeys_started crontab disk⟩]
  exact forall₂_congr fun s hs => (and_iff_right (hall s hs)).symm

/-- A stack is scheduled, then everything is reset. -/
def scheduledThenReset : List ProcessOp :=
  [.saveStackAutoUpdate "portainer/3:1" "media" true "0 4 * * *", .write .factoryReset rfl]

theorem reset_leaves_redeploy : ¬ ∀ s ∈ reached (processStep plainCrontab Proxmox.plainSurroundings)
    (started plainCrontab Installation.fresh) scheduledThenReset, Obeys s := by
  intro hobeys
  let s := scheduledThenReset.foldl (processStep plainCrontab Proxmox.plainSurroundings)
    (started plainCrontab Installation.fresh)
  have hlast : s ∈ reached (processStep plainCrontab Proxmox.plainSurroundings)
      (started plainCrontab Installation.fresh) scheduledThenReset := by
    simp [s, scheduledThenReset, reached]
  have hfires : redeployed ["portainer"] s "auto_stack_portainer_3_1" = some "portainer/3:1" := by
    decide +kernel
  obtain ⟨cfg, hcfg, _⟩ := hobeys s hlast ["portainer"] _ _ hfires
  cases hcfg

end Steps

end Keepup.Schedules
