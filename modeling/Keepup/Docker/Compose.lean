import Keepup.Docker.SelfIdentity
import Keepup.Docker.Standalone
import Keepup.Hosts.Dispatch
import Keepup.Text.Lines

/-!
The update of a Compose project over SSH, and the references by which an update
is asked for. The containers of a host are known here by what `docker ps` lists.
-/

namespace Keepup.Docker.Compose

open Lib Remote

/-- The id and the labels of a container, as `docker ps` lists them. -/
structure PsRow where
  id : String
  labels : String
deriving DecidableEq

/-- The remote calls, one for each place in the code. -/
inductive Site where
  | connect
  | ps
  | probe
  | configPs
  | testFile
  | stacks
  | pull
  | up
deriving DecidableEq

structure Call where
  site : Site
  text : String

/-- What comes back: the result of a command, a listing of the containers, or the
stacks of Portainer by id and name, if it can be asked. -/
inductive Reply where
  | completed (result : Completed)
  | listed (returncode : Option Int) (rows : List PsRow)
  | stacks (known : Option (List (Int × String)))

def Reply.result : Reply → Completed
  | .completed result => result
  | .listed returncode _ => ⟨returncode, .text ""⟩
  | .stacks _ => ⟨none, .text ""⟩

/-- The containers in an output, none where it is not JSON. -/
def Reply.parseJsonOutput : Reply → List PsRow
  | .listed _ rows => rows
  | _ => []

inductive Fate where
  | ended (reply : Reply)
  | lost

/-- A Docker host by its containers: a listing that succeeds lists them all. A Portainer
that cannot be asked does not end the update. -/
def serve : Server (List PsRow) Call Reply UpdateError Fate := fun rows call fate =>
  match fate with
  | .lost => (rows, if call.site = .stacks then .ok (.stacks none) else .error .connection)
  | .ended reply =>
      if (call.site = .ps ∨ call.site = .configPs) ∧ reply.result.returncode = some 0 then
        (rows, .ok (.listed (some 0) rows))
      else (rows, .ok reply)

section Labels

def projectLabel : String := "com.docker.compose.project"

def parseDockerPsLabels (labels : String) : Dict String String :=
  (Text.splitOn ',' labels).foldl (fun result part =>
    match Text.cut "=" part with
    | some (k, v) => result.set (Text.strip k) (Text.strip v)
    | none => result) ∅

def PsRow.project (row : PsRow) : String := (parseDockerPsLabels row.labels).getD projectLabel ""

/-- The first configuration file of a container's project, as an absolute path. -/
def PsRow.configFile (row : PsRow) : String :=
  let labels := parseDockerPsLabels row.labels
  let cf := Text.strip (Text.before ',' (labels.getD (projectLabel ++ ".config_files") ""))
  if cf ≠ "" ∧ Text.startsWith cf "/" = false then
    let wd := Text.rstripChar '/' (Text.strip (labels.getD (projectLabel ++ ".working_dir") ""))
    if wd ≠ "" then wd ++ "/" ++ cf else ""
  else cf

/-- The projects with their configuration files, empty where none is known. -/
def composeProjectsFromPs (rows : List PsRow) : Dict String String :=
  rows.foldl (fun byProject row =>
    let name := row.project
    let cf := row.configFile
    if name = "" then byProject
    else
      match byProject.get? name with
      | none => byProject.set name cf
      | some known => if cf ≠ "" ∧ known = "" then byProject.set name cf else byProject) ∅

end Labels

section Update

variable (lower : String → String)

/-- The stack id in a path of Portainer's data volume. -/
def portainerStackId (path : String) : Option Int :=
  let lead := "/data/compose/".toList
  let rest := path.toList.drop lead.length
  let digits := rest.takeWhile Char.isDigit
  if lead.isPrefixOf path.toList ∧ digits ≠ [] ∧ (rest.drop digits.length).head? = some '/' then
    ((String.ofList digits).toNat?).map Int.ofNat
  else none

def isListedStack (configFile project : String) (knownStacks : List (Int × String)) : Bool :=
  (portainerStackId configFile).any fun id =>
    (knownStacks.map fun stack => (stack.1, lower stack.2)).contains (id, lower project)

def portainerIntegrationActive (config : Config) (store : Store) : Bool :=
  Text.given ((config.portainer.getD {}).url) &&
    Scalar.given ((store.getIntegrationCredentials config "portainer").get? "api_key")

def composeProbe : String :=
  "docker compose version >/dev/null 2>&1 && echo v2 " ++
    "|| \x7b docker-compose --version >/dev/null 2>&1 && echo v1 || echo none; \x7d"

def psText : String := "docker ps -a --format '\x7b\x7bjson .\x7d\x7d'"

abbrev Update (α : Type) := Remote Call Reply UpdateError α

variable (t : Target) (projectName : String)

def send (site : Site) (cmd : String) : Update Reply := perform ⟨site, t.wrap cmd⟩

def detectComposeBinary : Update String := do
  let result ← send t .probe composeProbe
  let lines := Text.splitLines (Text.strip result.result.stdout.toText)
  let flavour := Text.strip (lines.getLastD "")
  if flavour = "v2" then pure "docker compose"
  else if flavour = "v1" then pure "docker-compose"
  else .raise (.runtimeError ("Neither 'docker compose' (v2) nor 'docker-compose' (v1) " ++
    "is available on " ++ t.address))

/-- The compose file that `docker ps` names for the project. -/
def getConfigFile : Update String := do
  let result ← send t .configPs psText
  pure ((composeProjectsFromPs result.parseJsonOutput).getD projectName "")

/-- The stacks that Portainer lists, where there is a Portainer and it answers. -/
def portainerStacks (connected : Bool) : Update (Option (List (Int × String))) :=
  if connected then .call ⟨.stacks, "/api/stacks"⟩ fun
    | .stacks known => .ret known
    | _ => .ret none
  else pure none

/-- A compose file under `/data/compose/` that is not on the host. -/
def refusePortainerStack (connected active : Bool) (configFile : String) :
    Update (String × List String) := do
  let stack := "Stack " ++ Text.repr projectName
  let knownStacks ← portainerStacks connected
  if knownStacks.any fun known => !isListedStack lower configFile projectName known then
    .raise (.runtimeError (stack ++ " can't be updated from Keepup: its compose file " ++
      configFile ++ " is not on " ++ t.address ++ ", and Portainer no longer lists the stack. " ++
      "Re-create the stack in Portainer, or put its compose file on " ++ t.address ++ "."))
  else if active then
    .raise (.runtimeError (stack ++ " was deployed via Portainer; redeploy it from its " ++
      "Portainer entry in the dashboard, not over SSH."))
  else
    .raise (.runtimeError (stack ++ " was deployed via Portainer (its compose file lives in " ++
      "Portainer's data volume, not on " ++ t.address ++ "). Connect the Portainer integration " ++
      "to redeploy it."))

/-- The compose file to be used, empty where there is none on the host. -/
def checkConfigFile (connected active : Bool) (configFile : String) (lines : List String) :
    Update (String × List String) :=
  if configFile = "" then pure ("", lines)
  else do
    let check ← send t .testFile ("test -f " ++ Shell.quote configFile ++ " && echo exists")
    if Text.isIn "exists" check.result.stdout.toText then
      pure (configFile, lines ++ ["Using compose file: " ++ configFile])
    else if Text.startsWith configFile "/data/compose/" then
      refusePortainerStack lower t projectName connected active configFile
    else
      pure ("", lines ++ ["Compose config " ++ Text.repr configFile ++ " not found on " ++
        t.address ++ " — falling back to project name"])

/-- One command of Compose, which has to succeed. -/
def compose (site : Site) (binary args action : String) (lines : List String) :
    Update (List String) := do
  let command := binary ++ " " ++ args ++ " " ++ action
  let reply ← send t site (command ++ " 2>&1")
  let lines := capture lines command reply.result
  if reply.result.returncode ≠ some 0 then
    .raise (.stackUpdateError
      (binary ++ " " ++ action ++ " failed:\n" ++ reply.result.stdout.toText) lines)
  else pure lines

def pullAndUp (connected active : Bool) (lines : List String) : Update (List String) := do
  let binary ← detectComposeBinary t
  let lines := lines ++ ["Using compose binary: " ++ binary]
  let configFile ← getConfigFile t projectName
  let (configFile, lines) ← checkConfigFile lower t projectName connected active configFile lines
  let args := "-p " ++ Shell.quote projectName ++
    (if configFile ≠ "" then " -f " ++ Shell.quote configFile else "")
  let lines ← compose t .pull binary args "pull" lines
  let lines ← compose t .up binary args "up -d" lines
  pure (lines ++ ["Compose update complete."])

def updateComposeProject (connected active : Bool) : Update (List String) := do
  let lines := ["Updating compose project " ++ Text.repr projectName ++ " on " ++ t.address]
  let _ ← perform ⟨.connect, ""⟩
  if Text.given t.selfId then do
    let ps ← send t .ps psText
    if ps.parseJsonOutput.any fun row => t.isSelf row.id && row.project == projectName then
      .raise (.valueError ("Self-update refused: Keepup is part of compose project " ++
        Text.repr projectName ++ " on " ++ t.address))
    else pullAndUp lower t projectName connected active lines
  else pullAndUp lower t projectName connected active lines

end Update

section Reference

/-- What an update is asked for. -/
inductive Job where
  | standalone (containerName : String)
  | project (name : String)

/-- What a reference asks for, and on which host. `unquote` decodes the percent-encoding. -/
def updateStack (unquote : String → String) (config : Config) (ref : String) :
    Except UpdateError (HostEntry × Job) :=
  match Text.cut "/" ref with
  | none => .error (.valueError "not enough values to unpack (expected 2, got 1)")
  | some (slug, encoded) =>
      let rest := unquote encoded
      let dockerHosts := config.getHosts.filter fun host => Text.given host.dockerMode
      match dockerHosts.find? fun host => host.slug == slug with
      | none => .error (.valueError ("No Docker-enabled host with slug " ++ Text.repr slug))
      | some host =>
          if Text.startsWith rest "~" then
            .ok (host, .standalone (String.ofList (rest.toList.drop 1)))
          else
            match Text.cut ":" rest with
            | some (projectName, _) => .ok (host, .project projectName)
            | none => .ok (host, .project rest)

/-- Where the containers of a host run. -/
def target (env : SelfEnvironment) (host : HostEntry) : Target where
  address := host.host
  vmid :=
    if Text.given host.proxmoxNode ∧ Text.orElse host.proxmoxType "lxc" = "lxc" then
      host.proxmoxVmid.map Int.toNat
    else none
  selfId := getSelfContainerId env

end Reference

end Keepup.Docker.Compose
