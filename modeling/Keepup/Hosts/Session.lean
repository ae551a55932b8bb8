import Keepup.Hosts.Dispatch
import Keepup.Lib.Remote
import Keepup.Packages.Managers

/-!
Sessions with a host: the connection, the commands that are sent over it, each
in the wrapper that its user needs, and what can come back. The check and the
upgrade of a host are programs over these.
-/

namespace Keepup.Ssh

open Lib Packages

structure Completed where
  stdout : String
  stderr : String
  returncode : Option Int
  exitSignal : Option String := none

/-- An exception: its text, and the output that explains it. -/
structure Failure where
  message : String
  lines : List String := []

/-- How a script gets to the shell that runs it: as it is, through a shell under
`sudo`, or through `pct exec` with or without a shell in the guest. -/
inductive Wrapper where
  | direct
  | sudo (password : Option String)
  | pctShell (vmid : Int)
  | pctEnv (vmid : Int)

structure Command where
  wrapper : Wrapper
  script : Script

/-- The text that is sent. -/
def Command.text (command : Command) : String :=
  match command.wrapper with
  | .direct => command.script.text
  | .sudo (some _) => "sudo -S sh -c " ++ Shell.quote command.script.text
  | .sudo none => "sudo -n sh -c " ++ Shell.quote command.script.text
  | .pctShell vmid => "pct exec " ++ toString vmid ++ " -- sh -c '" ++ command.script.text ++ "'"
  | .pctEnv vmid => "pct exec " ++ toString vmid ++ " -- env " ++ command.script.text

/-- The requests to the API of a Proxmox server. -/
inductive Request where
  | rebootNode (node : String)
  | rebootLxc (node : String) (vmid : Int)
  | nodeRebootRequired (node : String)

inductive Call where
  | connect (connection : Connection)
  | run (command : Command)
  | api (client : ProxmoxClient) (request : Request)

/-- A wrapper that does not run the script: `sudo` refuses the user, `pct` has no
running guest of that number, or there is no shell. -/
structure Refusal where
  status : Int
  stdout : String
  stderr : String
  failed : status ∈ [1, 126, 127, 255]

/-- What can come back for a call. -/
inductive Reply where
  | lost (error : Failure)
  | timedOut
  | done
  | flag (value : Bool)
  | refused (refusal : Refusal)
  | killed (stdout stderr : String) (signal : Option String)
  | ran (env : Script.Env) (stderr : String)

inductive Answer where
  | failed (error : Failure)
  | timedOut
  | done
  | flag (value : Bool)
  | completed (result : Completed)

/-- What the caller sees of a reply. -/
def Reply.answer (call : Call) (reply : Reply) : Answer :=
  match call, reply with
  | _, .lost error => .failed error
  | _, .timedOut => .timedOut
  | .run command, .ran env stderr =>
      let outcome := command.script.outcome env
      .completed ⟨outcome.out, stderr, some outcome.status, none⟩
  | .run _, .killed stdout stderr signal => .completed ⟨stdout, stderr, none, signal⟩
  | .run _, .refused refusal =>
      .completed ⟨refusal.stdout, refusal.stderr, some refusal.status, none⟩
  | .run _, _ => .failed ⟨"", []⟩
  | .api _ _, .flag value => .flag value
  | _, _ => .done

/-- The calls so far, with the replies to them. -/
abbrev Log := List (Call × Reply)

/-- A host keeps a log, and decides nothing by itself. Its failures are answers, as a
session may handle them. -/
def serve : Server Log Call Answer Failure Reply :=
  fun log call reply => (log ++ [(call, reply)], .ok (reply.answer call))

abbrev Session (α : Type) := Remote Call Answer Failure α

/-- The session against these replies: the log at its end, and its result. -/
def Session.outcome {α : Type} (session : Session α) (replies : Nat → Call → Reply) :
    Log × Except Failure α := Remote.exec serve replies 0 session []

def needsSudo (host : SshHost) : Bool := host.user != some (.str "root")

/-- Under `sudo` where the user needs it. A password that is no text cannot be sent. -/
def rootWrapper (host : SshHost) (creds : Entry) : Except Failure Wrapper :=
  if needsSudo host then
    match creds.get? "sudo_password" with
    | some (.str password) => .ok (.sudo (if password = "" then none else some password))
    | some value =>
        if value.truthy then .error ⟨"unsupported operand type(s) for +", []⟩ else .ok (.sudo none)
    | none => .ok (.sudo none)
  else .ok .direct

def openConnection (name : String) (host : SshHost) (creds : Entry) : Session Unit :=
  match connect host creds with
  | none => .raise ⟨"Host " ++ Text.repr name ++ " has no SSH user configured. " ++
      "Set the SSH user in Admin › Hosts.", []⟩
  | some connection => .call (.connect connection) fun
      | .failed error => .raise error
      | .timedOut => .raise ⟨"", []⟩
      | _ => .ret ()

def run (wrapper : Except Failure Wrapper) (script : Script) (onTimeout : Failure) :
    Session Completed :=
  match wrapper with
  | .error error => .raise error
  | .ok wrapper => .call (.run ⟨wrapper, script⟩) fun
      | .completed result => .ret result
      | .failed error => .raise error
      | .timedOut => .raise onTimeout
      | _ => .raise ⟨"", []⟩

def detectPm (wrapper : Except Failure Wrapper) : Session PackageManager := do
  let result ← run wrapper detectScript ⟨"", []⟩
  pure (getPackageManager (Text.strip result.stdout))

/-- The machine that a check or an upgrade runs on: one with SSH of its own, or a
guest of a Proxmox node. -/
inductive Target where
  | direct (name : String) (host : SshHost) (creds : Entry)
  | guest (node : String) (vmid : Int) (sshHost : String) (sshCreds : Entry)

section Upgrade

def errorPrefixes : List String := ["E:", "error", "Error", "ERROR", "dpkg:", "sudo:"]

def endsSentence (message : String) : Bool :=
  message.toList.getLast?.any fun c => ['.', '?', '!'].contains c

/-- The exception for an upgrade that did not end with an accepted status. -/
def upgradeFailure (target tool : String) (result : Completed) (lines : List String)
    (hint : String) : Failure :=
  let ended :=
    match result.returncode, result.exitSignal with
    | none, some signal => tool ++ " was killed by signal " ++ signal
    | none, none => tool ++ " exited with status None"
    | some status, _ => tool ++ " exited with status " ++ toString status
  let printed := (lines.map Text.strip).filter (· ≠ "")
  let errors := printed.filter fun line => errorPrefixes.any (Text.startsWith line)
  let message :=
    match (if errors = [] then printed else errors).getLast? with
    | some cause => "Upgrade failed on " ++ target ++ " (" ++ ended ++ "): " ++ cause
    | none => "Upgrade failed on " ++ target ++ ": " ++ ended ++ " and printed nothing"
  ⟨(if endsSentence message then message else message ++ ".") ++ " " ++ hint, lines⟩

/-- The exception for an upgrade that exceeds its budget of seconds. -/
def upgradeTimeout (budget : Nat) (place hint : String) : Failure :=
  ⟨"Upgrade timed out after " ++ toString budget ++ "s. The package transaction may still be " ++
    "running " ++ place ++ " — do not re-run it blindly. " ++ hint, []⟩

def runHostUpdateBuffered (budget : Nat) (name : String) (host : SshHost) (creds : Entry) :
    Session (List String) := do
  openConnection name host creds
  let wrapper := rootWrapper host creds
  let pm ← detectPm wrapper
  let result ← run wrapper pm.upgradeScript
    (upgradeTimeout budget ("on " ++ host.host) pm.recoveryHint)
  let lines := Text.splitLines result.stdout
  if result.returncode.any pm.upgradeOkCodes.contains then pure lines
  else .raise (upgradeFailure host.host pm.name result
    (lines ++ Text.splitLines result.stderr) pm.recoveryHint)

def noPctCredentials : Failure :=
  ⟨"No SSH credentials configured for Proxmox host. " ++
    "Set SSH user and key/password in Admin → Integrations → Proxmox VE.", []⟩

/-- Connect to the node of a guest. -/
def openNode (sshHost : String) (sshCreds : Entry) : Session Unit :=
  if (sshCreds.getD "key_path" (.str "")).truthy = false ∧
      (sshCreds.getD "ssh_password" (.str "")).truthy = false then .raise noPctCredentials
  else openConnection sshHost ⟨sshHost, some (sshCreds.getD "user" (.str "root")),
    some (sshCreds.getD "port" (.int 22)), none⟩ sshCreds

def upgradeLxc (budget : Nat) (node : String) (vmid : Int) (sshHost : String) (sshCreds : Entry) :
    Session (List String) := do
  openNode sshHost sshCreds
  let target := "LXC " ++ toString vmid
  let hint := "Run `pct exec " ++ toString vmid ++ " -- dpkg --configure -a` on " ++ node ++
    " to finish any interrupted package configuration, then re-run the upgrade."
  let result ← run (.ok (.pctEnv vmid)) aptPackageManager.upgradeScript
    (upgradeTimeout budget ("in " ++ target) hint)
  let lines := (Text.splitLines result.stdout).filter fun line => Text.strip line ≠ ""
  if result.returncode = some 0 then pure lines
  else .raise (upgradeFailure target "apt" result lines hint)

def Target.upgrade (budget : Nat) : Target → Session (List String)
  | .direct name host creds => runHostUpdateBuffered budget name host creds
  | .guest node vmid sshHost sshCreds => upgradeLxc budget node vmid sshHost sshCreds

end Upgrade

section Dispatch

variable (env : Surroundings) (config : Config) (store : Store)

/-- The machine on which the upgrade of a host runs. An address or a key path that
cannot be resolved raises an error of its own. -/
def updateTarget (host : HostEntry) (creds : Entry) : Except Failure Target :=
  match resolveKind config host, host.proxmoxVmid with
  | .lxc, some vmid => do
      let _ ← (clientFromConfig config store host).mapError fun message => ⟨message, []⟩
      let (sshHost, sshCreds) ← ((lxcSshContext env config store host).elim
        (.error ⟨"", []⟩) .ok : Except Failure (String × Entry))
      pure (.guest (host.proxmoxNode.getD "") vmid sshHost sshCreds)
  | .node, _ => do
      let (entry, sshCreds) ← ((nodeSshContext env config store host).elim
        (.error ⟨"", []⟩) .ok : Except Failure (SshHost × Entry))
      pure (.direct host.name entry sshCreds)
  | _, _ => pure (.direct host.name host.sshHost creds)

def runOsUpdate (budget : Nat) (host : HostEntry) (creds : Entry) : Session (List String) :=
  match updateTarget env config store host creds with
  | .error error => .raise error
  | .ok target => target.upgrade budget

end Dispatch

end Keepup.Ssh
