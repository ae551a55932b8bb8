import Keepup.Hosts.Schedule

/-!
Reboots: of a host on request, and of a host whose scheduled upgrade wants one.
A host says by its Proxmox fields whether it is the node that Keepup runs on, and
the main theorem says when such a host is never rebooted.
-/

namespace Keepup.Ssh

open Lib Packages

section Source

def isSelfOnProxmoxNode (selfNode node : String) : Bool := selfNode != "" && selfNode == node

/-- The kernel check of a node. -/
def nodeRebootRequired (name : String) (host : SshHost) (creds : Entry) : Session Bool := do
  openConnection name host creds
  let result ← run (rootWrapper host creds) Kernel.nodeKernelProbe ⟨"", []⟩
  match Kernel.nodeRebootRequired result.stdout with
  | .ok required => pure required
  | .error message => .raise ⟨message, []⟩

def rebootScript : Script := .tool "nohup sh -c 'sleep 2 && reboot' >/dev/null 2>&1 &" .none

def rebootHost (name : String) (host : SshHost) (creds : Entry) : Session (List String) := do
  openConnection name host creds
  let _ ← run (rootWrapper host creds) rebootScript ⟨"", []⟩
  pure ["Reboot initiated — server will be back in ~30 seconds."]

variable (env : Surroundings) (selfNode : String) (config : Config) (store : Store)

def buildProxmoxClient (host : HostEntry) : Session ProxmoxClient :=
  match clientFromConfig config store host with
  | .ok client => pure client
  | .error message => .raise ⟨message, []⟩

/-- A request to the server of a host. The answer matters to the kernel check only. -/
def request (client : ProxmoxClient) (req : Request) : Session Bool :=
  .call (.api client req) fun
    | .failed error => .raise error
    | .timedOut => .raise ⟨"", []⟩
    | .flag value => .ret value
    | _ => .ret false

def rebootRequiredTyped (refresh : Bool) (host : HostEntry) (creds : Entry) : Session Bool :=
  match resolveKind config host with
  | .node => do
      let context ← ((nodeSshContext env config store host).elim (.raise ⟨"", []⟩) .ret :
        Session (SshHost × Entry))
      let checked ← (if context.1.host = "" then .ret (.error ⟨"", []⟩)
        else (nodeRebootRequired host.name context.1 context.2).attempt :
        Session (Except Failure Bool))
      match checked with
      | .ok required => pure required
      | .error _ => do
          let client ← buildProxmoxClient config store host
          request client (.nodeRebootRequired (host.proxmoxNode.getD ""))
  | .lxc => pure false
  | .plain | .vm => do
      let check ← checkHostUpdates host.name host.sshHost creds refresh
      pure check.rebootRequired

def rebootHostTyped (host : HostEntry) (creds : Entry) : Session (List String) :=
  let node := host.proxmoxNode.getD ""
  match resolveKind config host, host.proxmoxVmid with
  | .node, _ =>
      if isSelfOnProxmoxNode selfNode node then
        .raise ⟨"Refusing self-reboot: Keepup runs on Proxmox node " ++ Text.repr node, []⟩
      else do
        let client ← buildProxmoxClient config store host
        let _ ← request client (.rebootNode node)
        pure ["Reboot initiated via Proxmox API — guests are stopped first."]
  | .lxc, some vmid => do
      let client ← buildProxmoxClient config store host
      let _ ← request client (.rebootLxc node vmid)
      pure ["LXC reboot initiated via Proxmox API."]
  | _, _ => rebootHost host.name host.sshHost creds

/-- The entries of the activity log that a scheduled upgrade leaves. -/
inductive RunRecord where
  | skipped (output : List String) (error : String)
  | upgraded (output : List String)
  | rebooted (output : List String)
  | failed (output : List String) (error : String)

/-- An exception explains itself by its output, else by its text. -/
def failedRun (error : Failure) : RunRecord :=
  .failed (if error.lines = [] then [error.message] else error.lines) error.message

/-- The reboot after a scheduled upgrade, where one is wanted and required. -/
def autoReboot (refresh : Bool) (host : HostEntry) (creds : Entry) : Session (List RunRecord) :=
  if (host.autoUpdate.getD {}).autoReboot then do
    let required ← rebootRequiredTyped env config store refresh host creds
    if required then do
      let lines ← rebootHostTyped selfNode config store host creds
      pure [.rebooted (lines ++
        ["Auto-reboot triggered — reboot-required flag was set after update."])]
    else pure []
  else pure []

def scheduledOsUpdate (budget : Nat) (refresh : Bool) (slug : String) : Session (List RunRecord) :=
  match scheduledUpdate config store slug with
  | .run host creds => do
      match ← (runOsUpdate env config store budget host creds).attempt with
      | .error error => pure [failedRun error]
      | .ok lines => do
          match ← (autoReboot env selfNode config store refresh host creds).attempt with
          | .error error => pure [.upgraded lines, failedRun error]
          | .ok reboots => pure (.upgraded lines :: reboots)
  | .noSudoPassword => pure [.skipped ["Auto-update skipped: sudo password not stored." ++
      " Save it via Admin → Hosts → Credentials."] "sudo password not stored"]
  | .notFound | .notEnabled => pure []

end Source

section Quiet

variable {α β : Type}

def Call.IsReboot : Call → Prop
  | .run command => command.script = rebootScript
  | .api _ (.rebootNode _) | .api _ (.rebootLxc _ _) => True
  | _ => False

/-- Whatever is replied, no reboot is called for. -/
def NoReboot (session : Session α) : Prop :=
  ∀ replies, ∀ entry ∈ (session.outcome replies).1, ¬ entry.1.IsReboot

/-- No call that the session could make is a reboot. -/
abbrev Quiet (session : Session α) : Prop := Remote.Only (fun call => ¬ call.IsReboot) session

theorem Quiet.noReboot {session : Session α} (h : Quiet session) : NoReboot session := by
  intro replies
  refine Remote.exec_only (I := fun log : Log => ∀ entry ∈ log, ¬ entry.1.IsReboot) ?_ h replies 0
    (by simp)
  intro log call reply hcall hlog entry hentry
  rcases List.mem_append.mp hentry with hold | hnew
  · exact hlog entry hold
  · obtain rfl := List.mem_singleton.mp hnew
    exact hcall

theorem quiet_open (name : String) (host : SshHost) (creds : Entry) :
    Quiet (openConnection name host creds) := by
  unfold openConnection
  cases connect host creds with
  | none => trivial
  | some connection =>
      refine ⟨id, fun answer => ?_⟩
      cases answer <;> trivial

theorem quiet_run {script : Script} (h : script ≠ rebootScript) (wrapper : Except Failure Wrapper)
    (onTimeout : Failure) : Quiet (run wrapper script onTimeout) := by
  cases wrapper with
  | error error => trivial
  | ok wrapper =>
      refine ⟨h, fun answer => ?_⟩
      cases answer <;> trivial

/-- No package manager that is found reboots by its own commands. -/
theorem scripts_quiet (name : String) :
    (getPackageManager name).upgradeScript ≠ rebootScript ∧
      ∀ refresh, (getPackageManager name).listScript refresh ≠ rebootScript := by
  cases hlookup : registry.lookup (Text.strip name) with
  | none =>
      rw [(unknown_upgrade hlookup).1]
      refine ⟨by simp [notSupported, rebootScript], fun refresh => ?_⟩
      rw [(unknown_listing refresh hlookup).1]
      simp [notSupported, rebootScript]
  | some manager =>
      obtain ⟨pm, rfl⟩ := registry_lookup_some hlookup
      rw [(getPackageManager_known hlookup).1]
      refine ⟨?_, fun refresh => ?_⟩
      · cases pm <;> simp [Supported.manager, aptPackageManager, dnfPackageManager,
          yumPackageManager, zypperPackageManager, pacmanPackageManager, apkPackageManager,
          rebootScript]
      · cases pm <;> cases refresh <;> simp [Supported.manager, aptPackageManager,
          dnfPackageManager, yumPackageManager, zypperPackageManager, pacmanPackageManager,
          apkPackageManager, aptListScript, dnfListScript, zypperListScript, pacmanListScript,
          apkListScript, refreshed, Script.chain, rebootScript]

theorem probe_quiet : Kernel.nodeKernelProbe ≠ rebootScript := by
  intro h
  have hhead := congrArg (fun script : Script => script.text.toList.head?) h
  simp only [Kernel.nodeKernelProbe, rebootScript, Script.text, String.toList_append] at hhead
  exact absurd hhead (by decide)

theorem quiet_detect {wrapper : Except Failure Wrapper} {next : PackageManager → Session α}
    (hnext : ∀ name, Quiet (next (getPackageManager name))) :
    Quiet (detectPm wrapper >>= next) := by
  rw [detectPm, Remote.bind_assoc]
  apply Remote.only_bind (quiet_run (by simp [detectScript, Script.chain, rebootScript]) _ _)
  intro detected
  exact hnext _

theorem quiet_upgrade (budget : Nat) (target : Target) : Quiet (target.upgrade budget) := by
  cases target with
  | direct name host creds =>
      refine Remote.only_bind (quiet_open _ _ _) fun _ => quiet_detect fun name => ?_
      refine Remote.only_bind (quiet_run (scripts_quiet name).1 _ _) fun result => ?_
      split <;> trivial
  | guest node vmid sshHost sshCreds =>
      refine Remote.only_bind ?_ fun _ => ?_
      · unfold openNode
        split
        · trivial
        · exact quiet_open _ _ _
      · refine Remote.only_bind (quiet_run ?_ _ _) fun result => ?_
        · simp [aptPackageManager, rebootScript]
        · split <;> trivial

variable (env : Surroundings) (selfNode : String) (config : Config) (store : Store)
variable (host : HostEntry) (creds : Entry)

theorem quiet_client : Quiet (buildProxmoxClient config store host) := by
  unfold buildProxmoxClient
  cases clientFromConfig config store host <;> trivial

theorem quiet_required (refresh : Bool) :
    Quiet (rebootRequiredTyped env config store refresh host creds) := by
  unfold rebootRequiredTyped
  cases resolveKind config host
  case lxc => trivial
  case node =>
      refine Remote.only_bind ?_ fun context => Remote.only_bind ?_ fun checked => ?_
      · cases nodeSshContext env config store host <;> trivial
      · split
        · trivial
        · refine Remote.only_attempt (Remote.only_bind (quiet_open _ _ _) fun _ => ?_)
          refine Remote.only_bind (quiet_run probe_quiet _ _) fun result => ?_
          cases Kernel.nodeRebootRequired result.stdout <;> trivial
      · cases checked with
        | ok required => trivial
        | error error =>
            refine Remote.only_bind (quiet_client _ _ _) fun client => ⟨id, fun answer => ?_⟩
            cases answer <;> trivial
  all_goals
    refine Remote.only_bind (Remote.only_bind (quiet_open _ _ _) fun _ => ?_) fun _ => trivial
    refine quiet_detect fun name => ?_
    exact Remote.only_bind (quiet_run ((scripts_quiet name).2 refresh) _ _) fun _ => trivial

theorem quiet_runOsUpdate (budget : Nat) :
    Quiet (runOsUpdate env config store budget host creds) := by
  unfold runOsUpdate
  cases updateTarget env config store host creds with
  | error error => trivial
  | ok target => exact quiet_upgrade budget target

end Quiet

section OwnNode

/-- A host that is the node on which Keepup runs, by its Proxmox fields. -/
structure OwnNode (selfNode : String) (host : HostEntry) : Prop where
  known : selfNode ≠ ""
  node : host.proxmoxNode = some selfNode
  noGuest : host.proxmoxVmid = none

/-- Where the user needs `sudo`, a password for it is a text. -/
def TextPassword (host : SshHost) (creds : Entry) : Prop :=
  needsSudo host = true → ∀ value, creds.get? "sudo_password" = some value →
    value.truthy = true → ∃ password, value = .str password

/-- Its reboot is that of a plain host, and can be sent: its server is not
configured, it has an SSH user, and a password for `sudo` is a text. -/
def PlainReboot (config : Config) (host : HostEntry) (creds : Entry) : Prop :=
  isOrphaned config host = true ∧ (sshUser host.sshHost.user).isSome = true ∧
    TextPassword host.sshHost creds

/-- Its upgrade is scheduled, and a reboot after it. -/
def RebootScheduled (host : HostEntry) (creds : Entry) : Prop :=
  (host.autoUpdate.getD {}).osEnabled = true ∧ (host.autoUpdate.getD {}).autoReboot = true ∧
    (needsSudo host.sshHost = true → sudoStored creds = true)

variable {env : Surroundings} {selfNode : String} {config : Config} {store : Store}
variable {host : HostEntry} {creds : Entry}

theorem textPassword_iff {address : SshHost} :
    TextPassword address creds ↔ ∃ wrapper, rootWrapper address creds = .ok wrapper := by
  unfold TextPassword rootWrapper
  cases needsSudo address
  · simp
  · cases hstored : creds.get? "sudo_password" with
    | none => simp
    | some value =>
        cases value with
        | str password => simp
        | bool b => cases b <;> simp [Scalar.truthy]
        | int n =>
            cases htruthy : (Scalar.int n).truthy <;> simp [htruthy]

theorem OwnNode.kind (config : Config) (hown : OwnNode selfNode host) :
    resolveKind config host = if isOrphaned config host then .plain else .node := by
  simp [resolveKind, classifyHost, hown.node, hown.noGuest, Text.given, Text.orElse, hown.known]

theorem OwnNode.reboot (hown : OwnNode selfNode host) :
    rebootHostTyped selfNode config store host creds =
      if isOrphaned config host then rebootHost host.name host.sshHost creds
      else .raise ⟨"Refusing self-reboot: Keepup runs on Proxmox node " ++ Text.repr selfNode,
        []⟩ := by
  unfold rebootHostTyped
  rw [hown.kind]
  cases isOrphaned config host <;> simp [hown.node, isSelfOnProxmoxNode, hown.known]

theorem quiet_rebootHost (h : ¬ PlainReboot config host creds) (hown : OwnNode selfNode host) :
    Quiet (rebootHostTyped selfNode config store host creds) := by
  rw [hown.reboot]
  cases horphaned : isOrphaned config host
  case false => trivial
  case true =>
    cases huser : sshUser host.sshHost.user with
    | none =>
        have hraise : openConnection host.name host.sshHost creds = .raise ⟨"Host " ++
            Text.repr host.name ++ " has no SSH user configured. " ++
            "Set the SSH user in Admin › Hosts.", []⟩ := by
          rw [openConnection, connect, huser]
          rfl
        simp only [if_true, rebootHost, hraise]
        trivial
    | some user =>
        cases hwrapper : rootWrapper host.sshHost creds with
        | ok wrapper =>
            exact absurd ⟨horphaned, by simp [huser], textPassword_iff.mpr ⟨wrapper, hwrapper⟩⟩ h
        | error error =>
            refine Remote.only_bind (quiet_open _ _ _) fun _ => ?_
            rw [hwrapper]
            trivial

/-- Every call is answered: each command of a script prints nothing and succeeds. -/
def allWell : Nat → Call → Reply := fun _ _ => .ran (fun _ => ⟨"", 0⟩) ""

def wellDone (script : Script) : Completed :=
  ⟨(script.outcome fun _ => ⟨"", 0⟩).out, "", some (script.outcome fun _ => ⟨"", 0⟩).status, none⟩

section AllWell

variable {α : Type} {name : String} {address : SshHost} {connection : Connection}
variable {login : Except Failure Wrapper} {wrapper : Wrapper}

theorem allWell_open (hconnect : connect address creds = some connection) (n : Nat)
    (next : Unit → Session α) (log : Log) :
    Remote.exec serve allWell n (openConnection name address creds >>= next) log =
      Remote.exec serve allWell (n + 1) (next ())
        (log ++ [(.connect connection, allWell n (.connect connection))]) := by
  rw [openConnection, hconnect]
  rfl

theorem allWell_run (hwrapper : login = .ok wrapper) (script : Script) (onTimeout : Failure)
    (n : Nat) (next : Completed → Session α) (log : Log) :
    Remote.exec serve allWell n (run login script onTimeout >>= next) log =
      Remote.exec serve allWell (n + 1) (next (wellDone script))
        (log ++ [(.run ⟨wrapper, script⟩, allWell n (.run ⟨wrapper, script⟩))]) := by
  rw [hwrapper]
  rfl

/-- The host has `apt` then. -/
theorem allWell_detect (hwrapper : login = .ok wrapper) (n : Nat)
    (next : PackageManager → Session α) (log : Log) :
    Remote.exec serve allWell n (detectPm login >>= next) log =
      Remote.exec serve allWell (n + 1) (next aptPackageManager)
        (log ++ [(.run ⟨wrapper, detectScript⟩, allWell n (.run ⟨wrapper, detectScript⟩))]) := by
  have hprinted : Text.strip (Text.strip (wellDone detectScript).stdout) = "apt" := by
    decide +kernel
  have hapt : getPackageManager (Text.strip (wellDone detectScript).stdout) =
      aptPackageManager := by
    refine (getPackageManager_known ?_).1
    rw [hprinted]
    rfl
  rw [detectPm, Remote.bind_assoc, allWell_run hwrapper, Remote.pure_eq, Remote.ret_bind, hapt]

theorem allWell_upgrade (name : String) (hconnect : connect address creds = some connection)
    (hwrapper : rootWrapper address creds = .ok wrapper) (budget n : Nat) (log : Log) :
    ∃ log' lines, Remote.exec serve allWell n
      (runHostUpdateBuffered budget name address creds) log =
      (log', .ok lines) := by
  have hok : (wellDone aptPackageManager.upgradeScript).returncode.any
      aptPackageManager.upgradeOkCodes.contains = true := by
    simp [wellDone, aptPackageManager, Script.outcome]
  rw [runHostUpdateBuffered, allWell_open hconnect, allWell_detect hwrapper, allWell_run hwrapper]
  simp only [hok, if_true, Remote.pure_eq, Remote.exec_ret]
  exact ⟨_, _, rfl⟩

theorem allWell_check (name : String) (hconnect : connect address creds = some connection)
    (hwrapper : rootWrapper address creds = .ok wrapper) (refresh : Bool) (n : Nat) (log : Log) :
    ∃ log' check, Remote.exec serve allWell n (checkHostUpdates name address creds refresh) log =
      (log', .ok check) ∧ check.rebootRequired = true := by
  have hflag : (aptPackageManager.parse
      (wellDone (aptPackageManager.listScript refresh)).stdout).2 = true := by
    cases refresh <;> decide +kernel
  rw [checkHostUpdates, allWell_open hconnect, allWell_detect hwrapper, allWell_run hwrapper]
  simp only [Remote.pure_eq, Remote.exec_ret]
  refine ⟨_, _, rfl, ?_⟩
  dsimp only
  exact hflag

theorem allWell_reboot (hconnect : connect address creds = some connection)
    (hwrapper : rootWrapper address creds = .ok wrapper) (n : Nat) (log : Log) :
    ∃ log' lines, Remote.exec serve allWell n (rebootHost name address creds) log =
      (log', .ok lines) ∧ ∃ entry ∈ log', entry.1.IsReboot := by
  rw [rebootHost, allWell_open hconnect, allWell_run hwrapper]
  refine ⟨_, _, rfl, (.run ⟨wrapper, rebootScript⟩, allWell (n + 1) (.run ⟨wrapper, rebootScript⟩)),
    ?_, rfl⟩
  simp

end AllWell

theorem serve_answers (log : Log) (call : Call) (reply : Reply) :
    ∃ log' answer, serve log call reply = (log', .ok answer) := ⟨_, _, rfl⟩

theorem PlainReboot.opens (hplain : PlainReboot config host creds) :
    ∃ connection wrapper, connect host.sshHost creds = some connection ∧
      rootWrapper host.sshHost creds = .ok wrapper := by
  obtain ⟨_, huser, hpassword⟩ := hplain
  obtain ⟨user, huser⟩ := Option.isSome_iff_exists.mp huser
  obtain ⟨wrapper, hwrapper⟩ := textPassword_iff.mp hpassword
  exact ⟨_, wrapper, by rw [connect, huser, Option.map_some], hwrapper⟩

/-- Where nothing goes wrong, the plain reboot is called for. -/
theorem plain_rebooted (store : Store) (hown : OwnNode selfNode host)
    (hplain : PlainReboot config host creds) (n : Nat) (log : Log) :
    ∃ log' lines,
      Remote.exec serve allWell n (rebootHostTyped selfNode config store host creds) log =
        (log', .ok lines) ∧ ∃ entry ∈ log', entry.1.IsReboot := by
  obtain ⟨connection, wrapper, hconnect, hwrapper⟩ := hplain.opens
  rw [hown.reboot, hplain.1, if_pos rfl]
  exact allWell_reboot hconnect hwrapper n log

/-- And so it is where an upgrade is followed by a reboot. -/
theorem auto_rebooted (env : Surroundings) (store : Store) (hown : OwnNode selfNode host)
    (hplain : PlainReboot config host creds) (hreboot : (host.autoUpdate.getD {}).autoReboot = true)
    (refresh : Bool) (n : Nat) (log : Log) :
    ∃ log' records,
      Remote.exec serve allWell n (autoReboot env selfNode config store refresh host creds) log =
        (log', .ok records) ∧ ∃ entry ∈ log', entry.1.IsReboot := by
  obtain ⟨connection, wrapper, hconnect, hwrapper⟩ := hplain.opens
  have hkind : resolveKind config host = .plain := by simp [hown.kind config, hplain.1]
  obtain ⟨log₁, check, hcheck, hrequired⟩ :=
    allWell_check host.name hconnect hwrapper refresh n log
  choose m hm using fun k => Remote.exec_bind (β := List RunRecord) hcheck k
  obtain ⟨log₂, lines, hrebooted, hentry⟩ := plain_rebooted store hown hplain
    (m _) log₁
  choose m' hm' using fun k => Remote.exec_bind (β := List RunRecord) hrebooted k
  refine ⟨log₂, [.rebooted (lines ++
    ["Auto-reboot triggered — reboot-required flag was set after update."])], ?_, hentry⟩
  rw [autoReboot, if_pos hreboot, rebootRequiredTyped, hkind]
  dsimp only
  rw [Remote.bind_assoc, hm]
  simp only [Remote.pure_eq, Remote.ret_bind, hrequired, if_true]
  rw [hm']
  rfl

/-- A scheduled upgrade of the host runs to its reboot. -/
theorem schedule_rebooted (env : Surroundings) {slug : String} (hown : OwnNode selfNode host)
    (hhost : config.findHost slug = some host)
    (hplain : PlainReboot config host (store.getCredentials slug))
    (hscheduled : RebootScheduled host (store.getCredentials slug)) (budget : Nat)
    (refresh : Bool) :
    ∃ entry ∈ ((scheduledOsUpdate env selfNode config store budget refresh slug).outcome allWell).1,
      entry.1.IsReboot := by
  obtain ⟨hon, hreboot, hstored⟩ := hscheduled
  obtain ⟨connection, wrapper, hconnect, hwrapper⟩ := hplain.opens
  have hdecision : scheduledUpdate config store slug = .run host (store.getCredentials slug) := by
    simp only [scheduledUpdate, hhost, hon, if_true]
    cases hneeds : needsSudo host.sshHost
    · simp
    · simp [hstored hneeds]
  generalize store.getCredentials slug = creds at *
  have hkind : resolveKind config host = .plain := by simp [hown.kind config, hplain.1]
  have hupdate : runOsUpdate env config store budget host creds =
      runHostUpdateBuffered budget host.name host.sshHost creds := by
    rw [runOsUpdate, updateTarget, hkind]
    rfl
  obtain ⟨log₁, lines, hupgraded⟩ :=
    allWell_upgrade host.name hconnect hwrapper budget 0 []
  choose m hm using fun k => Remote.exec_attempt (β := List RunRecord) allWell serve_answers
    (runHostUpdateBuffered budget host.name host.sshHost creds) 0 [] k
  choose m' hm' using fun n k => Remote.exec_attempt (β := List RunRecord) allWell serve_answers
    (autoReboot env selfNode config store refresh host creds) n log₁ k
  rw [Session.outcome, scheduledOsUpdate, hdecision]
  dsimp only
  rw [hupdate, hm, hupgraded]
  dsimp only
  rw [hm']
  obtain ⟨log₂, records, hrebooted, hentry⟩ := auto_rebooted env store hown hplain
    hreboot refresh (m _) log₁
  rw [hrebooted]
  exact hentry

/-- A scheduled upgrade makes no other calls than those of its upgrade, its check and
its reboot. -/
theorem quiet_schedule {slug : String} (hown : OwnNode selfNode host)
    (hhost : config.findHost slug = some host)
    (h : ¬ (PlainReboot config host (store.getCredentials slug) ∧
      RebootScheduled host (store.getCredentials slug))) (budget : Nat) (refresh : Bool) :
    Quiet (scheduledOsUpdate env selfNode config store budget refresh slug) := by
  unfold scheduledOsUpdate
  cases hdecision : scheduledUpdate config store slug
  case run found creds =>
    have hfound : found = host ∧ creds = store.getCredentials slug ∧
        (host.autoUpdate.getD {}).osEnabled = true ∧
        (needsSudo host.sshHost && !sudoStored (store.getCredentials slug)) = false := by
      simp only [scheduledUpdate, hhost] at hdecision
      split at hdecision
      · next hon =>
          split at hdecision
          · cases hdecision
          · next hready =>
              cases hdecision
              exact ⟨rfl, rfl, hon, by simpa using hready⟩
      · cases hdecision
    obtain ⟨rfl, rfl, hon, hready⟩ := hfound
    refine Remote.only_bind (Remote.only_attempt (quiet_runOsUpdate _ _ _ _ _ _)) fun upgraded => ?_
    cases upgraded with
    | error error => trivial
    | ok lines =>
        refine Remote.only_bind (Remote.only_attempt ?_) fun rebooted => ?_
        · unfold autoReboot
          split
          · next hreboot =>
              have hplain : ¬ PlainReboot config found (store.getCredentials slug) := by
                intro hplain
                refine h ⟨hplain, hon, hreboot, fun hneeds => ?_⟩
                simpa [hneeds] using hready
              refine Remote.only_bind (quiet_required _ _ _ _ _ _) fun required => ?_
              split
              · exact Remote.only_bind (quiet_rebootHost hplain hown) fun _ => trivial
              · trivial
          · trivial
        · cases rebooted <;> trivial
  all_goals trivial

/-- The node on which Keepup runs is not rebooted, on request or after a scheduled
upgrade, exactly when neither of the two gets to the reboot of a plain host. -/
theorem own_node_kept_iff (env : Surroundings) (selfNode : String) (config : Config) (store : Store)
    (budget : Nat) (refresh : Bool) (host : HostEntry) (creds : Entry) :
    (OwnNode selfNode host →
      NoReboot (rebootHostTyped selfNode config store host creds) ∧
        ∀ slug, config.findHost slug = some host →
          NoReboot (scheduledOsUpdate env selfNode config store budget refresh slug)) ↔
      (OwnNode selfNode host →
        ¬ PlainReboot config host creds ∧
          ∀ slug, config.findHost slug = some host →
            ¬ (PlainReboot config host (store.getCredentials slug) ∧
              RebootScheduled host (store.getCredentials slug))) := by
  refine forall_congr' fun hown => and_congr ?_ ?_
  · constructor
    · intro hkept hplain
      obtain ⟨log, lines, hrun, entry, hentry, hreboot⟩ :=
        plain_rebooted store hown hplain 0 []
      refine hkept allWell entry ?_ hreboot
      rw [Session.outcome, hrun]
      exact hentry
    · intro hplain
      exact (quiet_rebootHost hplain hown).noReboot
  · refine forall_congr' fun slug => forall_congr' fun hhost => ?_
    constructor
    · rintro hkept ⟨hplain, hscheduled⟩
      obtain ⟨entry, hentry, hreboot⟩ :=
        schedule_rebooted env hown hhost hplain hscheduled budget refresh
      exact hkept allWell entry hentry hreboot
    · intro h
      exact (quiet_schedule hown hhost h budget refresh).noReboot

end OwnNode

section Orphaned

/-- The node on which Keepup runs, with an SSH user and a server that was deleted. -/
def orphanedNode : HostEntry where
  name := "pve"
  host := "10.0.0.2"
  user := some "root"
  proxmoxNode := some "pve"
  proxmoxServer := some "10-0-0-2"

theorem orphaned_node_rebooted :
    ¬ (OwnNode "pve" orphanedNode →
      NoReboot (rebootHostTyped "pve" { hosts := [orphanedNode] } ∅ orphanedNode ∅) ∧
        ∀ slug, Config.findHost { hosts := [orphanedNode] } slug = some orphanedNode →
          NoReboot (scheduledOsUpdate vmSurroundings "pve" { hosts := [orphanedNode] } ∅ 3600 true
            slug)) := by
  intro hkept
  have hown : OwnNode "pve" orphanedNode := ⟨by simp, rfl, rfl⟩
  have hplain : PlainReboot { hosts := [orphanedNode] } orphanedNode ∅ :=
    ⟨by decide, by decide, by simp [TextPassword]⟩
  obtain ⟨log, lines, hrun, entry, hentry, hreboot⟩ :=
    plain_rebooted ∅ hown hplain 0 []
  refine (hkept hown).1 allWell entry ?_ hreboot
  rw [Session.outcome, hrun]
  exact hentry

end Orphaned

end Keepup.Ssh
