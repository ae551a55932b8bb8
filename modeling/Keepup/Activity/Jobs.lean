import Keepup.Activity.Crash
import Keepup.Hosts.Reboot

/-!
The jobs that are started by hand. Six runners do the operation of a job, leave in
the job what came of it, and hand it to the activity log, whichever way they end.
-/

namespace Keepup.Jobs

open Lib Activity

section Source

/-- An exception: its text, the name of its class, and the output that some carry. -/
structure Exn where
  message : String
  className : String
  lines : List String := []
  named : className ≠ ""

def excText (exc : Exn) : String := if exc.message = "" then exc.className else exc.message

inductive JobType where
  | osUpgrade
  | osRestart
  | containerRedeploy
deriving DecidableEq

/-- `_JOB_KINDS`. A restart is a reboot in the activity log. -/
def JobType.kind : JobType → String
  | .osUpgrade => "os_upgrade"
  | .osRestart => "reboot"
  | .containerRedeploy => "container_redeploy"

inductive JobStatus where
  | running
  | done
  | error
deriving DecidableEq

structure Job where
  done : Bool
  status : JobStatus
  error : Option String
  lines : List String
  type : JobType
  label : String
  target : String
  sub : String
  startedAt : String
  activityId : String

def newJob (type : JobType) (label target sub startedAt : String) : Job where
  done := false
  status := .running
  error := none
  lines := []
  type := type
  label := label
  target := target
  sub := sub
  startedAt := startedAt
  activityId := ""

/-- What `record_run` draws and reads of the clock, and whether it could save. -/
structure Drawn where
  runId : String
  finished : ℚ
  saved : Bool

/-- The call of `record_run` for a job. -/
def Job.run (job : Job) (drawn : Drawn) : Run where
  runId := drawn.runId
  finished := drawn.finished
  kind := job.type.kind
  target := if job.target = "" then job.label else job.target
  targetName := job.label
  trigger := "manual"
  status := if job.status = .done then "success" else "error"
  output := job.lines
  startedAt := job.startedAt
  error := job.error.getD ""

/-- The body of a runner: it works on its job, and may raise. -/
abbrev Running := ExceptT Exn (StateM Job)

/-- An operation that is awaited. -/
def call {α : Type} (outcome : Except Exn α) : Running α := ExceptT.mk (pure outcome)

def update (change : Job → Job) : Running Unit := ExceptT.mk do
  modify change
  pure (.ok ())

def appendLine (line : String) :
    Running Unit := update fun job => { job with lines := job.lines ++ [line] }

def setLines (lines : List String) : Running Unit := update fun job => { job with lines }

def setLabel (label : String) : Running Unit := update fun job => { job with label }

def setDone : Running Unit := update fun job => { job with status := .done }

def setError (text : String) : Running Unit := update fun job =>
  { job with status := .error, error := some text }

/-- The handler of the runners whose exceptions may carry output. -/
def keepLines (exc : Exn) (job : Job) : Job :=
  { job with
    lines := if exc.lines = [] then [excText exc] else exc.lines
    status := .error
    error := some (excText exc) }

/-- The handler of the restarts, which leaves the lines as they are. -/
def keepError (exc : Exn) (job : Job) :
    Job := { job with status := .error, error := some (excText exc) }

/-- `try`, `except` and the first half of `finally`. -/
def guarded (handle : Exn → Job → Job) (body : Running Unit) (job : Job) : Job :=
  match body.run.run job with
  | (.ok (), job) => { job with done := true }
  | (.error exc, job) => { handle exc job with done := true }

structure Backend where
  backendKey : String
  describeRef : String → Except Exn (Option String)
  updateStack : String → Except Exn (Option (List String))

/-- What the runners call, each operation with what it returns or raises. -/
structure Operations where
  selfNode : String
  getHosts : Except Exn (List HostEntry)
  getCredentials : String → Except Exn Entry
  runOsUpdate : HostEntry → Entry → Except Exn (List String)
  rebootHostTyped : HostEntry → Entry → Except Exn (List String)
  proxmoxClientFromConfig : Option HostEntry → Except Exn ProxmoxClient
  rebootNode : ProxmoxClient → String → Except Exn Unit
  waitForNode : ProxmoxClient → String → Except Exn Bool
  getNodeKernel : ProxmoxClient → String → Except Exn String
  getBackends : Except Exn (List Backend)

variable (ops : Operations)

def getHost (slug : String) : Except Exn HostEntry := do
  let hosts ← ops.getHosts
  match hosts.find? fun h => h.slug == slug with
  | some host => pure host
  | none => .error { message := Text.repr ("Host " ++ Text.repr slug ++ " not in config"),
                     className := "KeyError", named := by simp }

/-- An upgrade: its lines, or why there are none. -/
def jobRunUpgrade (lines : Except Exn (List String)) : Job → Job := guarded keepLines do
  setLines (← call lines)
  setDone

def jobRunHostUpdate (host : HostEntry) (creds : Entry) : Job → Job :=
  jobRunUpgrade (ops.runOsUpdate host creds)

/-- The lines of a node upgrade. The host is looked up when the job runs. -/
def nodeUpgradeLines (slug : String) : Except Exn (List String) := do
  let host ← getHost ops slug
  let creds ← ops.getCredentials slug
  ops.runOsUpdate host creds

def jobRunProxmoxNodeUpgrade (slug : String) :
    Job → Job := jobRunUpgrade (nodeUpgradeLines ops slug)

def jobRunLxcUpgrade (host : HostEntry) : Job → Job := jobRunUpgrade (ops.runOsUpdate host ∅)

def jobRunHostRestart (host : HostEntry) (creds : Entry) : Job → Job := guarded keepError do
  setLines (← call (ops.rebootHostTyped host creds))
  setDone

def selfRebootRefused (node : String) : String :=
  "Refusing to reboot Proxmox node " ++ Text.repr node ++ ": Keepup is running on it."

/-- What a node restart does once its node answers again. -/
def nodeReturned (client : ProxmoxClient) (proxmoxNode : String) : Running Unit := do
  let kernel ← call (ops.getNodeKernel client proxmoxNode)
  appendLine ("Node up — kernel now " ++ kernel)
  setDone

def rebootAndWait (client : ProxmoxClient) (proxmoxNode : String) : Running Unit := do
  appendLine ("Issuing reboot to node " ++ proxmoxNode ++ "…")
  call (ops.rebootNode client proxmoxNode)
  appendLine "Waiting for node to return…"
  let up ← call (ops.waitForNode client proxmoxNode)
  if up then
    nodeReturned ops client proxmoxNode
  else
    appendLine "Node did not come back within 10 minutes."
    setError "Node did not come back within 10 minutes"

def jobRunProxmoxNodeRestart (proxmoxNode : String) (host : Option HostEntry) : Job → Job :=
  guarded keepError do
    if Ssh.isSelfOnProxmoxNode ops.selfNode proxmoxNode then
      appendLine (selfRebootRefused proxmoxNode)
      setError (selfRebootRefused proxmoxNode)
    else
      let client ← call (ops.proxmoxClientFromConfig host)
      rebootAndWait ops client proxmoxNode

def findBackend (backendKey : String) : Except Exn Backend := do
  let backends ← ops.getBackends
  match backends.find? fun b => b.backendKey == backendKey with
  | some backend => pure backend
  | none => .error { message := "Backend " ++ Text.repr backendKey ++ " not available",
                     className := "ValueError", named := by simp }

/-- A run never fails over its own name. -/
def resolveLabel (name : Except Exn (Option String)) : Running Unit :=
  match name with
  | .ok (some name) => if name = "" then pure () else setLabel name
  | .ok none | .error _ => pure ()

def jobRunStackUpdate (backendKey ref : String) : Job → Job := guarded keepLines do
  let backend ← call (findBackend ops backendKey)
  resolveLabel (backend.describeRef ref)
  let lines ← call (backend.updateStack ref)
  setLines (if lines.getD [] = [] then ["Stack updated — containers restarted with new images."]
    else lines.getD [])
  setDone

/-- The runners, each with its arguments. -/
inductive Runner where
  | hostUpdate (host : HostEntry) (creds : Entry)
  | proxmoxNodeUpgrade (slug : String)
  | lxcUpgrade (host : HostEntry)
  | hostRestart (host : HostEntry) (creds : Entry)
  | proxmoxNodeRestart (proxmoxNode : String) (host : Option HostEntry)
  | stackUpdate (backendKey ref : String)

/-- The type of the job that a route makes for a runner. -/
def Runner.jobType : Runner → JobType
  | .hostUpdate .. | .proxmoxNodeUpgrade _ | .lxcUpgrade _ => .osUpgrade
  | .hostRestart .. | .proxmoxNodeRestart .. => .osRestart
  | .stackUpdate .. => .containerRedeploy

/-- What a runner makes of its job before it records it. -/
def Runner.run : Runner → Job → Job
  | .hostUpdate host creds => jobRunHostUpdate ops host creds
  | .proxmoxNodeUpgrade slug => jobRunProxmoxNodeUpgrade ops slug
  | .lxcUpgrade host => jobRunLxcUpgrade ops host
  | .hostRestart host creds => jobRunHostRestart ops host creds
  | .proxmoxNodeRestart proxmoxNode host => jobRunProxmoxNodeRestart ops proxmoxNode host
  | .stackUpdate backendKey ref => jobRunStackUpdate ops backendKey ref

/-- The jobs that are known, and the calls of `record_run` so far. -/
structure Desk where
  jobs : Dict String Job
  recorded : List Run

def Job.withActivityId (job : Job) (activityId : String) : Job := { job with activityId }

def Desk.recordJob (desk : Desk) (drawn : Drawn) (jobId : String) : Desk :=
  match desk.jobs.get? jobId with
  | none => desk
  | some job =>
      { jobs := desk.jobs.set jobId (job.withActivityId (if drawn.saved then drawn.runId else ""))
        recorded := desk.recorded ++ [job.run drawn] }

/-- A route makes a job, and its runner runs in the background. A job is never removed. -/
def Desk.runJob (desk : Desk) (drawn : Drawn) (jobId : String) (job : Job) (runner : Runner) :
    Desk :=
  Desk.recordJob { desk with jobs := desk.jobs.set jobId (runner.run ops job) } drawn jobId

end Source

section Bodies

variable {handle : Exn → Job → Job} {job : Job}

@[simp] theorem guarded_call_ok {α : Type} (a : α) (next : α → Running Unit) :
    guarded handle (call (.ok a) >>= next) job = guarded handle (next a) job := rfl

@[simp] theorem guarded_update (change : Job → Job) (next : Unit → Running Unit) :
    guarded handle (update change >>= next) job = guarded handle (next ()) (change job) := rfl

@[simp] theorem guarded_last (change : Job → Job) :
    guarded handle (update change) job = { change job with done := true } := rfl

theorem excText_ne (exc : Exn) : excText exc ≠ "" := by
  rw [excText]
  split
  · exact exc.named
  · assumption

theorem selfRebootRefused_ne (node : String) : selfRebootRefused node ≠ "" := by
  unfold selfRebootRefused
  generalize Text.repr node = name
  simp

end Bodies

section Ends

variable (ops : Operations)

/-- The node went down and answered again. -/
def CameBack (proxmoxNode : String) (host : Option HostEntry) (client : ProxmoxClient) : Prop :=
  Ssh.isSelfOnProxmoxNode ops.selfNode proxmoxNode = false ∧
    ops.proxmoxClientFromConfig host = .ok client ∧ ops.rebootNode client proxmoxNode = .ok () ∧
    ops.waitForNode client proxmoxNode = .ok true

/-- The operation under a job comes to its end. -/
def Runner.Completes : Runner → Prop
  | .hostUpdate host creds => ∃ lines, ops.runOsUpdate host creds = .ok lines
  | .proxmoxNodeUpgrade slug => ∃ host creds lines, getHost ops slug = .ok host ∧
      ops.getCredentials slug = .ok creds ∧ ops.runOsUpdate host creds = .ok lines
  | .lxcUpgrade host => ∃ lines, ops.runOsUpdate host ∅ = .ok lines
  | .hostRestart host creds => ∃ lines, ops.rebootHostTyped host creds = .ok lines
  | .proxmoxNodeRestart proxmoxNode host => ∃ client, CameBack ops proxmoxNode host client
  | .stackUpdate backendKey ref => ∃ backend lines, findBackend ops backendKey = .ok backend ∧
      backend.updateStack ref = .ok lines

/-- A node that came back can be asked for its kernel. -/
def Runner.KernelKnown : Runner → Prop
  | .proxmoxNodeRestart proxmoxNode host => ∀ client, CameBack ops proxmoxNode host client →
      ∃ kernel, ops.getNodeKernel client proxmoxNode = .ok kernel
  | _ => True

/-- A job that has ended says whether its operation did, and why not. -/
structure Ends (completes : Prop) (type : JobType) (job : Job) : Prop where
  done : job.done = true
  type : job.type = type
  completed : job.status = .done ↔ completes
  failed : job.status = .error ↔ ¬ completes
  text : job.error.getD "" ≠ "" ↔ job.status = .error

variable {ops} {completes : Prop} {type : JobType} {job : Job}

theorem ends_done (h : completes) (hdone : job.done = true) (htype : job.type = type)
    (hstatus : job.status = .done) (herror : job.error = none) : Ends completes type job where
  done := hdone
  type := htype
  completed := iff_of_true hstatus h
  failed := by simp [hstatus, h]
  text := by simp [hstatus, herror]

theorem ends_error (h : ¬ completes) (hdone : job.done = true) (htype : job.type = type)
    (hstatus : job.status = .error) {text : String} (herror : job.error = some text)
    (htext : text ≠ "") :
    Ends completes type job where
  done := hdone
  type := htype
  completed := by simp [hstatus, h]
  failed := iff_of_true hstatus h
  text := by simp [hstatus, herror, htext]

theorem jobRunUpgrade_ends (outcome : Except Exn (List String)) (hnew : job.error = none) :
    Ends (∃ lines, outcome = .ok lines) job.type (jobRunUpgrade outcome job) := by
  cases outcome with
  | ok lines => exact ends_done ⟨lines, rfl⟩ rfl rfl rfl hnew
  | error exc => exact ends_error nofun rfl rfl rfl rfl (excText_ne exc)

theorem nodeUpgradeLines_ok {slug : String} : (∃ lines, nodeUpgradeLines ops slug = .ok lines) ↔
    (Runner.proxmoxNodeUpgrade slug).Completes ops := by
  simp only [nodeUpgradeLines, Runner.Completes]
  cases getHost ops slug with
  | error exc => simp [bind, Except.bind]
  | ok host =>
      cases ops.getCredentials slug with
      | error exc => simp [bind, Except.bind]
      | ok creds => simp [bind, Except.bind]

theorem jobRunHostRestart_ends (host : HostEntry) (creds : Entry) (hnew : job.error = none) :
    Ends ((Runner.hostRestart host creds).Completes ops) job.type
      (jobRunHostRestart ops host creds job) := by
  rw [jobRunHostRestart, Runner.Completes]
  cases ops.rebootHostTyped host creds with
  | ok lines => exact ends_done ⟨lines, rfl⟩ rfl rfl rfl hnew
  | error exc => exact ends_error nofun rfl rfl rfl rfl (excText_ne exc)

/-- A restart whose node did not come back says so. -/
theorem rebootAndWait_lost {client : ProxmoxClient} {proxmoxNode : String} (hfails : ¬ completes)
    (h : ops.rebootNode client proxmoxNode = .ok () →
      ops.waitForNode client proxmoxNode ≠ .ok true) :
    Ends completes job.type (guarded keepError (rebootAndWait ops client proxmoxNode) job) := by
  rw [rebootAndWait, appendLine, guarded_update]
  cases hreboot : ops.rebootNode client proxmoxNode with
  | error exc => exact ends_error hfails rfl rfl rfl rfl (excText_ne exc)
  | ok _ =>
      rw [guarded_call_ok, appendLine, guarded_update]
      cases hwait : ops.waitForNode client proxmoxNode with
      | error exc => exact ends_error hfails rfl rfl rfl rfl (excText_ne exc)
      | ok up =>
          cases up with
          | true => exact absurd hwait (h hreboot)
          | false => exact ends_error hfails rfl rfl rfl rfl (by simp)

/-- Once its node is back, a restart only asks for the kernel. -/
theorem nodeRestart_back {proxmoxNode : String} {host : Option HostEntry} {client : ProxmoxClient}
    (h : CameBack ops proxmoxNode host client) (job : Job) :
    ∃ lines, jobRunProxmoxNodeRestart ops proxmoxNode host job =
      guarded keepError (nodeReturned ops client proxmoxNode) { job with lines := lines } := by
  obtain ⟨hself, hclient, hreboot, hwait⟩ := h
  rw [jobRunProxmoxNodeRestart, hself, hclient, if_neg Bool.false_ne_true,
    guarded_call_ok, rebootAndWait,
    hreboot, hwait]
  exact ⟨_, rfl⟩

theorem nodeRestart_lost {proxmoxNode : String} {host : Option HostEntry}
    (h : ∀ client, ¬ CameBack ops proxmoxNode host client) :
    Ends ((Runner.proxmoxNodeRestart proxmoxNode host).Completes ops) job.type
      (jobRunProxmoxNodeRestart ops proxmoxNode host job) := by
  have hlost : ¬ (Runner.proxmoxNodeRestart proxmoxNode host).Completes ops := not_exists.mpr h
  rw [jobRunProxmoxNodeRestart]
  cases hself : Ssh.isSelfOnProxmoxNode ops.selfNode proxmoxNode with
  | true =>
      rw [if_pos rfl, appendLine, guarded_update, setError, guarded_last]
      exact ends_error hlost rfl rfl rfl rfl (selfRebootRefused_ne proxmoxNode)
  | false =>
      cases hclient : ops.proxmoxClientFromConfig host with
      | error exc => exact ends_error hlost rfl rfl rfl rfl (excText_ne exc)
      | ok client =>
          exact rebootAndWait_lost hlost fun hreboot hwait =>
            h client ⟨hself, hclient, hreboot, hwait⟩

/-- A restart whose node came back ends as its kernel look-up does. -/
theorem nodeRestart_ends_iff {proxmoxNode : String} {host : Option HostEntry}
    (hnew : job.error = none) :
    Ends ((Runner.proxmoxNodeRestart proxmoxNode host).Completes ops) job.type
        (jobRunProxmoxNodeRestart ops proxmoxNode host job) ↔
      (Runner.proxmoxNodeRestart proxmoxNode host).KernelKnown ops := by
  by_cases hback : (Runner.proxmoxNodeRestart proxmoxNode host).Completes ops
  · obtain ⟨client, h⟩ := id hback
    obtain ⟨lines, hrun⟩ := nodeRestart_back h job
    rw [hrun, nodeReturned]
    constructor
    · intro hends client' h'
      obtain rfl : client = client' := Except.ok.inj (h.2.1.symm.trans h'.2.1)
      cases hkernel : ops.getNodeKernel client proxmoxNode with
      | ok kernel => exact ⟨kernel, rfl⟩
      | error exc =>
          rw [hkernel] at hends
          exact absurd hback (hends.failed.mp rfl)
    · intro hknown
      obtain ⟨kernel, hkernel⟩ := hknown client h
      rw [hkernel]
      exact ends_done hback rfl rfl rfl hnew
  · exact iff_of_true (nodeRestart_lost (not_exists.mp hback)) fun client h =>
      absurd ⟨client, h⟩ hback

/-- The name of a run changes no more than the label of its job. -/
theorem guarded_resolveLabel (handle : Exn → Job → Job) (name : Except Exn (Option String))
    (next : Unit → Running Unit) (job : Job) : ∃ label,
    guarded handle (resolveLabel name >>= next) job =
      guarded handle (next ()) { job with label := label } := by
  match name with
  | .error _ | .ok none => exact ⟨job.label, rfl⟩
  | .ok (some name) =>
      rw [resolveLabel]
      split
      · exact ⟨job.label, rfl⟩
      · exact ⟨name, rfl⟩

theorem jobRunStackUpdate_ends (backendKey ref : String) (hnew : job.error = none) :
    Ends ((Runner.stackUpdate backendKey ref).Completes ops) job.type
      (jobRunStackUpdate ops backendKey ref job) := by
  rw [jobRunStackUpdate, Runner.Completes]
  cases findBackend ops backendKey with
  | error exc => exact ends_error nofun rfl rfl rfl rfl (excText_ne exc)
  | ok backend =>
      rw [guarded_call_ok]
      obtain ⟨label, hlabel⟩ := guarded_resolveLabel keepLines (backend.describeRef ref) _ job
      rw [hlabel]
      cases hupdate : backend.updateStack ref with
      | error exc =>
          refine ends_error ?_ rfl rfl rfl rfl (excText_ne exc)
          rintro ⟨_, lines, ⟨⟩, hlines⟩
          simp [hupdate] at hlines
      | ok lines => exact ends_done ⟨backend, lines, rfl, hupdate⟩ rfl rfl rfl hnew

theorem Runner.ends_iff (runner : Runner) (job : Job) (hnew : job.error = none) :
    Ends (runner.Completes ops) job.type (runner.run ops job) ↔ runner.KernelKnown ops := by
  cases runner with
  | hostUpdate host creds => exact iff_of_true (jobRunUpgrade_ends _ hnew) trivial
  | proxmoxNodeUpgrade slug =>
      rw [← nodeUpgradeLines_ok]
      exact iff_of_true (jobRunUpgrade_ends _ hnew) trivial
  | lxcUpgrade host => exact iff_of_true (jobRunUpgrade_ends _ hnew) trivial
  | hostRestart host creds => exact iff_of_true (jobRunHostRestart_ends host creds hnew) trivial
  | proxmoxNodeRestart proxmoxNode host => exact nodeRestart_ends_iff hnew
  | stackUpdate backendKey ref =>
      exact iff_of_true (jobRunStackUpdate_ends backendKey ref hnew) trivial

end Ends

section Desk

variable (ops : Operations)

/-- What is to be seen of a job that has run, in the job and in its record. -/
structure Settled (runner : Runner) (job : Job) (run : Run) : Prop where
  done : job.done = true
  final : job.status = .done ∨ job.status = .error
  kind : run.kind = runner.jobType.kind
  status : run.status = "success" ∨ run.status = "error"
  success : run.status = "success" ↔ runner.Completes ops
  error : run.error ≠ "" ↔ job.status = .error

variable {ops} {runner : Runner} {job : Job}

theorem JobType.kind_injective : Function.Injective JobType.kind := by
  intro a b h
  cases a <;> cases b <;> first | rfl | simp [JobType.kind] at h

theorem Job.run_status (job : Job) (drawn : Drawn) :
    (job.run drawn).status = if job.status = .done then "success" else "error" := rfl

theorem Job.run_success (job : Job) (drawn : Drawn) :
    (job.run drawn).status = "success" ↔ job.status = .done := by
  rw [Job.run_status]
  split <;> simp_all

theorem settled_iff_ends (drawn : Drawn) (activityId : String) :
    Settled ops runner (job.withActivityId activityId) (job.run drawn) ↔
      Ends (runner.Completes ops) runner.jobType job := by
  constructor
  · intro h
    have hcompleted : job.status = .done ↔ runner.Completes ops :=
      (job.run_success drawn).symm.trans h.success
    refine ⟨h.done, JobType.kind_injective h.kind, hcompleted, ?_, h.error⟩
    rcases h.final with hdone | herror
    · have hdone : job.status = .done := hdone
      simp [hdone, hcompleted.mp hdone]
    · have herror : job.status = .error := herror
      simp [herror, ← hcompleted]
  · intro h
    refine ⟨h.done, ?_, congrArg JobType.kind h.type, ?_,
      (job.run_success drawn).trans h.completed, h.text⟩
    · by_cases hcompletes : runner.Completes ops
      · exact .inl (h.completed.mpr hcompletes)
      · exact .inr (h.failed.mpr hcompletes)
    · rw [Job.run_status]
      split
      · exact .inl rfl
      · exact .inr rfl

/-- A job that has run stands on the desk, and one record of it is made. -/
theorem runJob_desk (desk : Desk) (drawn : Drawn) (jobId : String) (job : Job) (runner : Runner) :
    desk.runJob ops drawn jobId job runner =
      { jobs := (desk.jobs.set jobId (runner.run ops job)).set jobId
          ((runner.run ops job).withActivityId (if drawn.saved then drawn.runId else ""))
        recorded := desk.recorded ++ [(runner.run ops job).run drawn] } := by
  rw [Desk.runJob, Desk.recordJob, Dict.get?_set_self]

theorem runJob_other (desk : Desk) (drawn : Drawn) {jobId jobId' : String} (h : jobId' ≠ jobId)
    (job : Job) (runner : Runner) : (desk.runJob ops drawn jobId job runner).jobs.get? jobId' =
      desk.jobs.get? jobId' := by
  rw [runJob_desk, Dict.get?_set_ne _ _ h, Dict.get?_set_ne _ _ h]

/-- A job and its one record tell the truth unless it is the restart of a node
that came back and then could not be asked for its kernel. -/
theorem job_settled_iff (ops : Operations) (desk : Desk) (drawn : Drawn) (jobId : String)
    (runner : Runner) (label target sub startedAt : String) :
    (∃ job run,
      (desk.runJob ops drawn jobId (newJob runner.jobType label target sub startedAt)
        runner).jobs.get? jobId =
        some job ∧
      (desk.runJob ops drawn jobId (newJob runner.jobType label target sub startedAt)
        runner).recorded =
        desk.recorded ++ [run] ∧
      Settled ops runner job run) ↔ runner.KernelKnown ops := by
  have hends : Ends (runner.Completes ops) runner.jobType
      (runner.run ops (newJob runner.jobType label target sub startedAt)) ↔
          runner.KernelKnown ops :=
    runner.ends_iff (newJob runner.jobType label target sub startedAt) rfl
  rw [runJob_desk, Dict.get?_set_self, ← hends, ← settled_iff_ends drawn]
  constructor
  · rintro ⟨job, run, hjob, hrun, h⟩
    obtain rfl := Option.some.inj hjob
    obtain rfl := List.singleton_inj.mp (List.append_cancel_left hrun)
    exact h
  · exact fun h => ⟨_, _, rfl, rfl, h⟩

/-- Where every step on disk is taken, the record of a job is the one new record
of the index. -/
theorem job_logged (env : Activity.Surroundings) (dates : Dates) (moment : Moment) (job : Job)
    (drawn : Drawn) {d : Activity.Disk} (hlegacy : d.legacy = none)
    (hwhole : d.index ≠ some .torn) :
    Done (recordRun env dates moment (job.run drawn)) d fun d' =>
      ∃ record ∈ entriesOf d', record.kind = job.type.kind ∧
        record.status = (if job.status = .done then "success" else "error") ∧
        record.error = job.error.getD "" ∧ ∀ other ∈ entriesOf d', other = record ∨
          other ∈ entriesOf d := by
  intro n
  have hindex := recordRun_done env dates moment (job.run drawn) hlegacy hwhole n
  let count := (job.run drawn).lineCount env moment.store
  rw [entriesOf, hindex]
  exact ⟨(job.run drawn).record dates count, record_kept dates moment.now (job.run drawn) count _,
    rfl, rfl, rfl,
    fun other hother => List.mem_cons.mp (selectKept_sublist.subset hother)⟩

/-- A server that lets a node be restarted and is not ready to tell its kernel. -/
def hurriedServer : Operations where
  selfNode := ""
  getHosts := .ok []
  getCredentials _ := .ok ∅
  runOsUpdate _ _ := .ok []
  rebootHostTyped _ _ := .ok []
  proxmoxClientFromConfig _ := .ok ⟨"https://pve:8006", .str "root@pam!keepup=secret", "", false⟩
  rebootNode _ _ := .ok ()
  waitForNode _ _ := .ok true
  getNodeKernel _ _ := .error ⟨"Server error '595'", "HTTPStatusError", [], by simp⟩
  getBackends := .ok []

/-- The restart of a node that came back is recorded as a failure. -/
theorem returned_node_recorded_failed :
    (Runner.proxmoxNodeRestart "pve" none).Completes hurriedServer ∧
      ((Desk.runJob hurriedServer ⟨∅, []⟩ ⟨"0a1b2c3d", 0, true⟩ "12345678"
          (newJob .osRestart "pve" "pve" "pve" "1970-01-01T00:00:00+00:00")
          (.proxmoxNodeRestart "pve" none)).recorded.map fun run =>
            (run.kind, run.status, run.error)) =
        [("reboot", "error", "Server error '595'")] :=
  ⟨⟨⟨"https://pve:8006", .str "root@pam!keepup=secret", "", false⟩, rfl, rfl, rfl, rfl⟩, rfl⟩

end Desk

end Keepup.Jobs
