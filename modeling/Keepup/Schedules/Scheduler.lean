import Keepup.Config.File

/-!
The jobs of the scheduler and the functions that derive them from the
configuration. The library's cron parser is a parameter: the expressions that
it accepts.
-/

namespace Keepup.Schedules

open Lib

/-- What the cron parser of the scheduler accepts: five fields, and the daily
expressions that the forms offer. -/
structure Crontab where
  valid : String → Bool
  five_fields : ∀ expr, valid expr = true → (Text.split expr).length = 5
  daily : valid "0 4 * * *" = true

inductive Trigger where
  | cron (expr : String)
  | interval (hours : Nat)
deriving DecidableEq

inductive Task where
  | runOsUpdate (slug : String)
  | runStackUpdate (updatePath stackName : String)
  | runUpdateCheck
deriving DecidableEq

structure Job where
  task : Task
  trigger : Trigger
deriving DecidableEq

/-- The jobs under their ids. -/
abbrev Jobs := Dict String Job

section Ids

def osJobId (slug : String) : String := "auto_os_" ++ slug

/-- What the id of a job has for a character of the update path. -/
def safeChar (c : Char) : Char := if c = '/' ∨ c = ':' then '_' else c

def stackJobId (updatePath : String) : String :=
  "auto_stack_" ++ String.ofList (updatePath.toList.map safeChar)

def updateCheckJobId : String := "update_check"

theorem osJobId_injective : Function.Injective osJobId := by
  intro slug slug' h
  have hlist := congrArg String.toList h
  simp only [osJobId, String.toList_append] at hlist
  exact String.toList_inj.mp (List.append_cancel_left hlist)

theorem osJobId_ne_stackJobId (slug updatePath : String) :
    osJobId slug ≠ stackJobId updatePath := by
  intro h
  have hlist := congrArg (fun s => s.toList.take 6) h
  simp [osJobId, stackJobId, String.toList_append] at hlist

theorem osJobId_ne_updateCheckJobId (slug : String) : osJobId slug ≠ updateCheckJobId := by
  intro h
  have hlist := congrArg (fun s => s.toList.take 1) h
  simp [osJobId, updateCheckJobId, String.toList_append] at hlist

theorem stackJobId_ne_updateCheckJobId (updatePath : String) :
    stackJobId updatePath ≠ updateCheckJobId := by
  intro h
  have hlist := congrArg (fun s => s.toList.take 1) h
  simp [stackJobId, updateCheckJobId, String.toList_append] at hlist

end Ids

section Apply

variable (crontab : Crontab) (config : ConfigFile)

/-- The job that a host is to have. An expression that the parser refuses is
logged and leads to none. -/
def osJob (slug : String) : Option Job := do
  let host ← config.findHost slug
  let au ← host.autoUpdate
  let schedule ← au.osSchedule
  if au.osEnabled = true ∧ schedule ≠ "" ∧ crontab.valid schedule = true then
    some ⟨.runOsUpdate slug, .cron schedule⟩
  else none

def stackJob (updatePath : String) : Option Job := do
  let cfg ← config.stackAutoUpdate.get? updatePath
  if cfg.enabled = true ∧ cfg.schedule ≠ "" ∧ crontab.valid cfg.schedule = true then
    some ⟨.runStackUpdate updatePath cfg.name, .cron cfg.schedule⟩
  else none

def updateCheckJob : Option Job :=
  if config.updateCheckHours = 0 then none
  else some ⟨.runUpdateCheck, .interval config.updateCheckHours⟩

def applyHostSchedule (jobs : Jobs) (slug : String) : Jobs :=
  jobs.put (osJobId slug) (osJob crontab config slug)

def applyStackSchedule (jobs : Jobs) (updatePath : String) : Jobs :=
  jobs.put (stackJobId updatePath) (stackJob crontab config updatePath)

def applyUpdateCheckSchedule (jobs : Jobs) : Jobs :=
  jobs.put updateCheckJobId (updateCheckJob config)

def applyAllSchedules (jobs : Jobs) : Jobs :=
  let forHosts := (config.getHosts.map HostEntry.slug).foldl (applyHostSchedule crontab config) jobs
  let forStacks := config.stackAutoUpdate.keys.foldl (applyStackSchedule crontab config) forHosts
  applyUpdateCheckSchedule config forStacks

/-- The jobs after a start of the application. -/
def startup : Jobs := applyAllSchedules crontab config ∅

end Apply

section Startup

variable {crontab : Crontab} {config : ConfigFile} {jobs : Jobs} {id : String} {job : Job}

theorem osJob_some {slug : String} (h : osJob crontab config slug = some job) :
    job.task = .runOsUpdate slug := by
  simp only [osJob, Option.bind_eq_bind, Option.bind_eq_some_iff,
    Option.ite_none_right_eq_some] at h
  obtain ⟨_, _, _, _, _, _, _, hjob⟩ := h
  rw [← Option.some.inj hjob]

theorem stackJob_eq_some {updatePath : String} :
    stackJob crontab config updatePath = some job ↔
      ∃ cfg, config.stackAutoUpdate.get? updatePath = some cfg ∧ cfg.enabled = true ∧
        cfg.schedule ≠ "" ∧ crontab.valid cfg.schedule = true ∧
        job = ⟨.runStackUpdate updatePath cfg.name, .cron cfg.schedule⟩ := by
  simp only [stackJob, Option.bind_eq_bind, Option.bind_eq_some_iff, Option.ite_none_right_eq_some,
    Option.some_inj, and_assoc]
  exact exists_congr fun cfg => by rw [eq_comm (a := job)]

/-- Where the jobs of a start come from. -/
theorem startup_get?_cases (h : (startup crontab config).get? id = some job) :
    (∃ slug, id = osJobId slug ∧ osJob crontab config slug = some job) ∨
      (∃ updatePath, id = stackJobId updatePath ∧ stackJob crontab config updatePath = some job) ∨
      id = updateCheckJobId ∧ updateCheckJob config = some job := by
  rw [startup, applyAllSchedules, applyUpdateCheckSchedule, Dict.get?_put] at h
  split at h
  · rename_i hid
    exact .inr (.inr ⟨hid, h⟩)
  · rcases Dict.get?_putAll_cases stackJobId (stackJob crontab config)
      ((config.getHosts.map HostEntry.slug).foldl (applyHostSchedule crontab config) ∅)
      config.stackAutoUpdate.keys id with ⟨path, _, hid, hvalue⟩ | hkept
    · exact .inr (.inl ⟨path, hid.symm, hvalue.symm.trans h⟩)
    · replace h := hkept.symm.trans h
      rcases Dict.get?_putAll_cases osJobId (osJob crontab config) ∅
        (config.getHosts.map HostEntry.slug) id with ⟨slug, _, hid, hvalue⟩ | hnone
      · exact .inl ⟨slug, hid.symm, hvalue.symm.trans h⟩
      · cases (hnone.symm.trans h)

/-- A host has the job that the configuration gives it. -/
theorem startup_osJob (crontab : Crontab) (config : ConfigFile) (slug : String) :
    (startup crontab config).get? (osJobId slug) = osJob crontab config slug := by
  rw [startup, applyAllSchedules, applyUpdateCheckSchedule, Dict.get?_put,
    if_neg (osJobId_ne_updateCheckJobId slug)]
  refine (Dict.get?_putAll_of_not_mem fun path _ => (osJobId_ne_stackJobId slug path).symm).trans ?_
  by_cases hslug : slug ∈ config.getHosts.map HostEntry.slug
  · exact Dict.get?_putAll_of_mem hslug fun other _ hsame => osJobId_injective hsame
  · have hnone : config.findHost slug = none := by
      rw [Config.findHost, List.find?_eq_none]
      intro host hhost hsame
      exact hslug (List.mem_map.mpr ⟨host, hhost, by simpa using hsame⟩)
    refine (Dict.get?_putAll_of_not_mem fun other hother hsame => ?_).trans ?_
    · exact hslug (osJobId_injective hsame ▸ hother)
    · simp [osJob, hnone]

/-- A stack has the job that the configuration gives it, unless another path with
the same job id is configured. -/
theorem startup_stackJob {updatePath : String} (hmem : updatePath ∈ config.stackAutoUpdate.keys)
    (hkey : ∀ other ∈ config.stackAutoUpdate.keys, stackJobId other = stackJobId updatePath →
      other = updatePath) :
    (startup crontab config).get? (stackJobId updatePath) = stackJob crontab config updatePath := by
  rw [startup, applyAllSchedules, applyUpdateCheckSchedule, Dict.get?_put,
    if_neg (stackJobId_ne_updateCheckJobId updatePath)]
  exact Dict.get?_putAll_of_mem hmem hkey

end Startup

/-- A cron parser for runs on concrete expressions: five fields of digits, stars
and what stands between them. -/
def plainCrontab : Crontab where
  valid expr := (Text.split expr).length == 5 &&
    expr.toList.all fun c => c.isDigit || c ∈ "*/,- ".toList
  five_fields expr h := by
    rw [Bool.and_eq_true, beq_iff_eq] at h
    exact h.1
  daily := by decide +kernel

end Keepup.Schedules
