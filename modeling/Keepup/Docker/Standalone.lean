import Keepup.Docker.Daemon
import Keepup.Lib.Remote

/-!
The update of a standalone container over SSH: pull, rename the live container
aside, stop it, recreate it under its name, verify the replacement, then drop
the backup or roll back. The program below sends the command texts of the
source; the theorems about texts say what a Docker host reads from each.
-/

namespace Keepup.Docker

open Lib Remote

/-- The remote calls, one for each place in the code. -/
inductive Site where
  | connect
  | inspect
  | pull
  | rename
  | stop
  | run
  | verify
  | rmForce
  | renameBack
  | start
  | rmBackup
deriving DecidableEq

structure Call where
  site : Site
  text : String

inductive UpdateError where
  | connection
  | runtimeError (message : String)
  | valueError (message : String)
  | decodeError
  | stackUpdateError (message : String) (lines : List String)
deriving DecidableEq

/-- How a call ends: with its effect, with a non-zero exit status, or with the
connection lost. The last two say whether the command took effect after all. -/
inductive Fate where
  | done
  | exit (code : Option Int) (hcode : code ≠ some 0) (effect : Bool)
  | lost (effect : Bool)
deriving DecidableEq

structure Outcome where
  fate : Fate
  chance : Chance

/-- The state and the answer after a command that the host takes or refuses. A
refused command exits with status 1. -/
def answer (h : Host) (taken : Option (Host × Stdout)) (o : Outcome) :
    Host × Except UpdateError Completed :=
  match o.fate with
  | .done => (taken.elim h Prod.fst,
      .ok (taken.elim ⟨some 1, .text o.chance.output⟩ fun r => ⟨some 0, r.2⟩))
  | .exit code _ takes =>
      (if takes then taken.elim h Prod.fst else h, .ok ⟨code, .text o.chance.output⟩)
  | .lost takes => (if takes then taken.elim h Prod.fst else h, .error .connection)

/-- A Docker host behind an SSH connection. -/
def serve (resolve : Resolver) : Server Host Call Completed UpdateError Outcome := fun h call o =>
  if call.site = .connect then
    match o.fate with
    | .done => (h, .ok ⟨some 0, .text ""⟩)
    | _ => (h, .error .connection)
  else answer h ((readCommand call.text).bind (effect resolve h o.chance)) o

/-- Where the containers of a configured host run: the address, the Proxmox
guest when commands go through `pct exec`, and the own container id. -/
structure Target where
  address : String
  vmid : Option Nat
  selfId : Option String

namespace Target

def wrap (t : Target) (cmd : String) : String :=
  match t.vmid with
  | none => cmd
  | some vmid => "pct exec " ++ toString vmid ++ " -- sh -c " ++ Shell.quote cmd

/-- The id is the one of the container that runs this program. -/
def isSelf (t : Target) (id : String) : Bool :=
  match t.selfId with
  | some selfId => selfId != "" && Text.take 12 id == selfId
  | none => false

end Target

namespace Stdout

def isBlank : Stdout → Bool
  | .text s => Text.strip s == ""
  | .documents _ => false

/-- `json.loads(stdout)[0]`, `none` where that raises. -/
def firstDocument : Stdout → Option Inspect
  | .text _ => none
  | .documents docs => docs.head?

/-- The text of a command whose output is text. -/
def toText : Stdout → String
  | .text s => s
  | .documents _ => ""

end Stdout

/-- Append a command label and its output to the captured run log. -/
def capture (lines : List String) (label : String) (result : Completed) : List String :=
  let text := Text.rstrip result.stdout.toText
  let code :=
    match result.returncode with
    | some code => if code ≠ 0 then ["[exit " ++ toString code ++ "]"] else []
    | none => []
  lines ++ ["$ " ++ label] ++ (if text ≠ "" then Text.splitOn '\n' text else []) ++ code

def recreateSettleSeconds : Nat := 3

section Texts

open Shell (quote)

def inspectText (name : String) : String := "docker inspect " ++ quote name

def pullText (image : String) : String := "docker pull " ++ quote image ++ " 2>&1"

def renameText (name newName : String) : String :=
  "docker rename " ++ quote name ++ " " ++ quote newName

def stopText (name : String) : String := "docker stop " ++ quote name

def runText (doc : Inspect) : String := buildDockerRunCmd doc ++ " 2>&1"

def verifyText (name : String) : String :=
  "docker inspect -f '" ++ stateFormat ++ "' " ++ quote name

def rmForceText (name : String) : String := "docker rm -f " ++ quote name

def startText (name : String) : String := "docker start " ++ quote name

def rmText (name : String) : String := "docker rm " ++ quote name

end Texts

def backupName (containerName : String) : String := containerName ++ "__keepup_old"

/-- The output of the verification reports a container that runs and has not
been restarted. -/
def settled (verify : Completed) : Bool :=
  let fields := Text.split (Text.strip verify.stdout.toText)
  verify.returncode == some 0 && fields == ["true", "0"]

def verifiedLine (verify : Completed) : String :=
  let fields := Text.split (Text.strip verify.stdout.toText)
  "Verified after " ++ toString recreateSettleSeconds ++ "s:" ++
    " running=" ++ fields.headD "unknown" ++
    " restarts=" ++ (if fields.length = 2 then fields.getD 1 "unknown" else "unknown")

abbrev Update := Remote Call Completed UpdateError (List String)

variable (t : Target) (containerName : String)

/-- A command sent to the host, wrapped for its guest. -/
def send (site : Site) (cmd : String) : Remote Call Completed UpdateError Completed :=
  perform ⟨site, t.wrap cmd⟩

def rolledBack (run : Completed) (lines : List String) : UpdateError :=
  .stackUpdateError ("docker run failed; rolled back to previous container:\n" ++ run.stdout.toText)
    (lines ++ ["Rolled back to the previous container."])

/-- Give the backup its name back and start it. -/
def restoreBackup (run : Completed) (lines : List String) : Update := do
  let _ ← send t .renameBack (renameText (backupName containerName) containerName)
  let _ ← send t .start (startText containerName)
  .raise (rolledBack run lines)

/-- Clear any partial new container, then restore the backup. -/
def rollBack (run : Completed) (lines : List String) : Update := do
  let _ ← send t .rmForce (rmForceText containerName)
  restoreBackup t containerName run lines

def droppedBackup (lines : List String) : List String :=
  lines ++ ["Replacement is still running with no restarts — removed backup " ++
    backupName containerName ++ "."]

/-- The replacement is healthy, drop the backup. -/
def dropBackup (lines : List String) : Update := do
  let backup := backupName containerName
  let _ ← send t .rmBackup (rmText backup)
  pure (droppedBackup containerName lines)

def conclude (running : Bool) (run : Completed) (lines : List String) : Update :=
  if running then dropBackup t containerName lines else rollBack t containerName run lines

/-- Put a new container in place, and see whether it stays up. -/
def runReplacement (doc : Inspect) (lines : List String) : Update := do
  let run ← send t .run (runText doc)
  let lines := capture lines ("docker run (recreating " ++ containerName ++ ")") run
  if run.returncode = some 0 then do
    let verify ← send t .verify (verifyText containerName)
    conclude t containerName (settled verify) run (lines ++ [verifiedLine verify])
  else conclude t containerName false run lines

/-- Stop the container that was renamed aside, which frees its ports. -/
def recreate (doc : Inspect) (lines : List String) : Update := do
  let backup := backupName containerName
  let stop ← send t .stop (stopText backup)
  runReplacement t containerName doc (capture lines ("docker stop " ++ backup) stop)

def renameAside (doc : Inspect) (lines : List String) : Update := do
  let backup := backupName containerName
  let rename ← send t .rename (renameText containerName backup ++ " 2>&1")
  let lines := capture lines ("docker rename " ++ containerName ++ " " ++ backup) rename
  if rename.returncode ≠ some 0 then
    .raise (.stackUpdateError
      ("docker rename failed (original left untouched):\n" ++ rename.stdout.toText) lines)
  else recreate t containerName doc lines

def pullImage (doc : Inspect) (lines : List String) : Update := do
  let image := doc.config.image
  let pull ← send t .pull (pullText image)
  let lines := capture lines ("docker pull " ++ image) pull
  if pull.returncode ≠ some 0 then
    .raise (.stackUpdateError ("docker pull failed:\n" ++ pull.stdout.toText) lines)
  else renameAside t containerName doc lines

def updateStandaloneContainer : Update := do
  let lines := ["Updating standalone container " ++ Text.repr containerName ++ " on " ++ t.address]
  let _ ← perform ⟨.connect, ""⟩
  let inspect ← send t .inspect (inspectText containerName)
  if inspect.returncode ≠ some 0 ∨ inspect.stdout.isBlank then
    .raise (.runtimeError ("Container " ++ Text.repr containerName ++ " not found"))
  else
    match inspect.stdout.firstDocument with
    | none => .raise .decodeError
    | some doc =>
        if t.isSelf doc.id then
          .raise (.valueError ("Self-update refused: Keepup is standalone container " ++
            Text.repr containerName ++ " on " ++ t.address))
        else pullImage t containerName doc lines

section Reading

theorem toString_safe (n : Nat) : (toString n).toList.all Shell.isSafe = true := by
  rw [List.all_eq_true]
  intro c hc
  simp [Shell.isSafe, Char.isAlphanum, Text.toString_digits n c hc]

/-- A command inside a Proxmox guest is one word to the host. -/
theorem words_pct (vmid : Nat) (cmd : String) :
    Shell.words ("pct exec " ++ toString vmid ++ " -- sh -c " ++ Shell.quote cmd) =
      some ["pct", "exec", toString vmid, "--", "sh", "-c", cmd] := by
  have htext : "pct exec " ++ toString vmid ++ " -- sh -c " ++ Shell.quote cmd =
      "pct exec " ++ (toString vmid ++ (" " ++ ("-- sh -c " ++ Shell.quote cmd))) := by
    rw [show " -- sh -c " = " " ++ "-- sh -c " from rfl]
    simp only [String.append_assoc]
  have hlead : Shell.spells "pct exec " ["pct", "exec"] = true := by decide
  have hshell : Shell.spells "-- sh -c " ["--", "sh", "-c"] = true := by decide
  rw [htext, Shell.words_lead hlead,
    Shell.words_safe_blank (Text.toString_ne_nil vmid) (toString_safe vmid),
    Shell.words_lead hshell, Shell.words_quote]
  rfl

/-- A host reads a command the same way with and without `pct exec` around it. -/
theorem readCommand_wrap {cmd : String} {args : List String}
    (hwords : Shell.words cmd = some ("docker" :: args)) :
    readCommand (t.wrap cmd) = readArgs ("docker" :: args) := by
  unfold Target.wrap
  split
  · simp [readCommand, hwords]
  · simp only [readCommand, words_pct, hwords, Option.bind_some]

variable (name newName : String)

theorem words_inspectText : Shell.words (inspectText name) = some ["docker", "inspect", name] := by
  have hlead : Shell.spells "docker inspect " ["docker", "inspect"] = true := by decide
  delta inspectText
  rw [Shell.words_lead hlead, Shell.words_quote]
  rfl

theorem read_inspectText : readCommand (t.wrap (inspectText name)) = some (.inspect name) := by
  rw [readCommand_wrap t (words_inspectText name)]
  rfl

theorem words_pullText (image : String) :
    Shell.words (pullText image) = some ["docker", "pull", image] := by
  have hlead : Shell.spells "docker pull " ["docker", "pull"] = true := by decide
  delta pullText
  rw [String.append_assoc, Shell.words_lead hlead,
    show " 2>&1" = " " ++ "2>&1" from rfl, Shell.words_quote_blank, Shell.words_redirect]
  rfl

theorem read_pullText (image : String) :
    readCommand (t.wrap (pullText image)) = some (.pull image) := by
  rw [readCommand_wrap t (words_pullText image)]
  rfl

theorem words_renameText :
    Shell.words (renameText name newName) = some ["docker", "rename", name, newName] := by
  have hlead : Shell.spells "docker rename " ["docker", "rename"] = true := by decide
  delta renameText
  rw [String.append_assoc, String.append_assoc, Shell.words_lead hlead,
    Shell.words_quote_blank, Shell.words_quote]
  rfl

theorem read_renameText :
    readCommand (t.wrap (renameText name newName)) = some (.rename name newName) := by
  rw [readCommand_wrap t (words_renameText name newName)]
  rfl

theorem words_renameText_redirect :
    Shell.words (renameText name newName ++ " 2>&1") =
      some ["docker", "rename", name, newName] := by
  have hlead : Shell.spells "docker rename " ["docker", "rename"] = true := by decide
  delta renameText
  rw [show " 2>&1" = " " ++ "2>&1" from rfl]
  simp only [String.append_assoc]
  rw [Shell.words_lead hlead, Shell.words_quote_blank, Shell.words_quote_blank,
    Shell.words_redirect]
  rfl

theorem read_renameText_redirect :
    readCommand (t.wrap (renameText name newName ++ " 2>&1")) = some (.rename name newName) := by
  rw [readCommand_wrap t (words_renameText_redirect name newName)]
  rfl

theorem words_stopText : Shell.words (stopText name) = some ["docker", "stop", name] := by
  have hlead : Shell.spells "docker stop " ["docker", "stop"] = true := by decide
  delta stopText
  rw [Shell.words_lead hlead, Shell.words_quote]
  rfl

theorem read_stopText : readCommand (t.wrap (stopText name)) = some (.stop name) := by
  rw [readCommand_wrap t (words_stopText name)]
  rfl

theorem words_runText (doc : Inspect) : Shell.words (runText doc) = some (runParts doc) := by
  have hne : runParts doc ≠ [] := by simp [runParts]
  delta runText
  rw [buildDockerRunCmd, show " 2>&1" = " " ++ "2>&1" from rfl,
    Shell.words_join_blank _ hne, Shell.words_redirect]
  simp

/-- A format between single quotes is a word of its own. -/
private theorem format_text (format quoted rest : String)
    (hquoted : quoted = "'" ++ format ++ "'") :
    "docker inspect -f '" ++ format ++ "' " ++ rest =
      "docker inspect -f " ++ (quoted ++ (" " ++ rest)) := by
  apply String.toList_inj.mp
  simp [hquoted]

theorem words_verifyText :
    Shell.words (verifyText name) = some ["docker", "inspect", "-f", stateFormat, name] := by
  have hlead : Shell.spells "docker inspect -f " ["docker", "inspect", "-f"] = true := by decide
  have hquoted : Shell.quote stateFormat = "'" ++ stateFormat ++ "'" :=
    Shell.quote_plain (by decide) (by decide)
  calc Shell.words (verifyText name) = Shell.words ("docker inspect -f " ++
          (Shell.quote stateFormat ++ (" " ++ Shell.quote name))) :=
        congrArg Shell.words (format_text _ _ _ hquoted)
    _ = some ["docker", "inspect", "-f", stateFormat, name] := by
        rw [Shell.words_lead hlead, Shell.words_quote_blank, Shell.words_quote]
        rfl

theorem read_verifyText : readCommand (t.wrap (verifyText name)) = some (.inspectState name) := by
  rw [readCommand_wrap t (words_verifyText name)]
  rfl

theorem words_rmForceText : Shell.words (rmForceText name) = some ["docker", "rm", "-f", name] := by
  have hlead : Shell.spells "docker rm -f " ["docker", "rm", "-f"] = true := by decide
  delta rmForceText
  rw [Shell.words_lead hlead, Shell.words_quote]
  rfl

theorem read_rmForceText : readCommand (t.wrap (rmForceText name)) = some (.rmForce name) := by
  rw [readCommand_wrap t (words_rmForceText name)]
  rfl

theorem words_startText : Shell.words (startText name) = some ["docker", "start", name] := by
  have hlead : Shell.spells "docker start " ["docker", "start"] = true := by decide
  delta startText
  rw [Shell.words_lead hlead, Shell.words_quote]
  rfl

theorem read_startText : readCommand (t.wrap (startText name)) = some (.start name) := by
  rw [readCommand_wrap t (words_startText name)]
  rfl

theorem words_rmText : Shell.words (rmText name) = some ["docker", "rm", name] := by
  have hlead : Shell.spells "docker rm " ["docker", "rm"] = true := by decide
  delta rmText
  rw [Shell.words_lead hlead, Shell.words_quote]
  rfl

theorem read_rmText : readCommand (t.wrap (rmText name)) = some (.rm name) := by
  rw [readCommand_wrap t (words_rmText name)]
  simp [readArgs]

/-- What the verification makes of the state that a host reports. -/
theorem settled_stateText (running : Bool) (restarts : Nat) :
    settled ⟨some 0, .text (stateText running restarts)⟩ = (running && restarts == 0) := by
  have hsplit : Text.split (Text.strip (stateText running restarts)) =
      [if running then "true" else "false", toString restarts] := by
    have hword : (if running then "true" else "false").toList.all
        (fun c => !Text.isSpace c) = true := by
      cases running <;> decide
    apply Text.split_strip_pair
    · cases running <;> decide
    · exact Text.toString_ne_nil restarts
    · simpa using hword
    · exact fun c hc => Text.digit_not_space (Text.toString_digits restarts c hc)
  have hzero : restarts.repr = "0" ↔ restarts = 0 := by
    constructor
    · intro h
      have hdigits : Nat.ofDigitChars 10 restarts.repr.toList 0 = Nat.ofDigitChars 10 ['0'] 0 := by
        rw [h]
        rfl
      rwa [Nat.toList_repr, Nat.ofDigitChars_ten_toDigits] at hdigits
    · rintro rfl
      rfl
  simp only [settled, Stdout.toText, hsplit]
  cases running <;> simp [hzero, Bool.beq_eq_decide_eq]

/-- A command sent to the host is served as the command the host reads. -/
theorem serve_read {resolve : Resolver} {h : Host} {o : Outcome} {site : Site} {text : String}
    {c : Cmd} (hsite : site ≠ .connect) (hread : readCommand text = some c) :
    serve resolve h ⟨site, text⟩ o = answer h (effect resolve h o.chance c) o := by
  simp [serve, hsite, hread]

end Reading

end Keepup.Docker
