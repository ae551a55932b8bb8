import Keepup.Lib.CommandLine
import Keepup.Lib.Dict
import Keepup.Lib.Shell
import Keepup.Text
import Mathlib.Algebra.Ring.Nat

/-!
The `docker run` command that recreates a container from its `docker inspect`
document. The document has the fields the function reads, at the types Docker
gives them: a list or an object that may be null is an `Option`, and a text or
a number that may be missing is empty or zero, which the function reads alike.
-/

namespace Keepup.Docker

open Lib Lib.CommandLine

structure RestartPolicy where
  name : String := ""
  maximumRetryCount : Int := 0
deriving DecidableEq

structure Ulimit where
  name : String
  soft : Int
  hard : Int
deriving DecidableEq

structure Device where
  pathOnHost : String := ""
  pathInContainer : String := ""
  cgroupPermissions : Option String := none
deriving DecidableEq

structure PortBinding where
  hostIp : String := ""
  hostPort : String := ""
deriving DecidableEq

structure LogConfig where
  type : String := ""
  config : Option (Dict String String) := none
deriving DecidableEq

structure IpamConfig where
  ipv4Address : String := ""
  ipv6Address : String := ""
deriving DecidableEq

structure EndpointSettings where
  ipamConfig : Option IpamConfig := none
deriving DecidableEq

/-- Durations are nanoseconds, which Docker refuses below zero. -/
structure Healthcheck where
  test : Option (List String) := none
  interval : Nat := 0
  timeout : Nat := 0
  retries : Int := 0
  startPeriod : Nat := 0
deriving DecidableEq

structure ContainerConfig where
  hostname : String := ""
  user : String := ""
  workingDir : String := ""
  stopSignal : String := ""
  stopTimeout : Int := 0
  healthcheck : Option Healthcheck := none
  env : Option (List String) := none
  labels : Option (Dict String String) := none
  entrypoint : Option (List String) := none
  cmd : Option (List String) := none
  image : String := ""
deriving DecidableEq

structure HostConfig where
  restartPolicy : Option RestartPolicy := none
  networkMode : String := ""
  privileged : Bool := false
  memory : Int := 0
  nanoCpus : Nat := 0
  cpuShares : Int := 0
  ulimits : Option (List Ulimit) := none
  sysctls : Option (Dict String String) := none
  securityOpt : Option (List String) := none
  capAdd : Option (List String) := none
  capDrop : Option (List String) := none
  pidMode : String := ""
  ipcMode : String := ""
  binds : Option (List String) := none
  tmpfs : Option (Dict String String) := none
  portBindings : Option (Dict String (Option (List PortBinding))) := none
  devices : Option (List Device) := none
  dns : Option (List String) := none
  extraHosts : Option (List String) := none
  logConfig : Option LogConfig := none
deriving DecidableEq

structure Inspect where
  id : String := ""
  name : String := ""
  config : ContainerConfig := {}
  hostConfig : HostConfig := {}
  networks : Option (Dict String (Option EndpointSettings)) := none
deriving DecidableEq

/-- The entries of an object that may be null. -/
def items {α : Type} (d : Option (Dict String α)) : List (String × α) :=
  (d.map Dict.entries).getD []

section Numbers

/-- The integer nearest to a quotient, ties to even. -/
def roundHalfEven (num den : Nat) : Nat :=
  let q := num / den
  if 2 * (num % den) < den then q
  else if den < 2 * (num % den) then q + 1
  else q + q % 2

/-- Python's `num / den`: the quotient rounded to 53 significant bits, as a
fraction whose denominator is a power of two. -/
def trueDiv (num den : Nat) : Nat × Nat :=
  let shift := 53 + Nat.log2 den - Nat.log2 num
  let shift := if 2 ^ 53 ≤ num * 2 ^ shift / den then shift - 1 else shift
  (roundHalfEven (num * 2 ^ shift) den, 2 ^ shift)

/-- A Docker nanosecond duration as a CLI string (e.g. 30s, 500ms). -/
def nsToDuration (ns : Nat) : String :=
  let seconds := trueDiv ns 1000000000
  if seconds.2 ≤ seconds.1 ∧ seconds.1 % seconds.2 = 0 then
    toString (seconds.1 / seconds.2) ++ "s"
  else
    let ms := trueDiv ns 1000000
    if ms.1 % ms.2 = 0 then toString (ms.1 / ms.2) ++ "ms" else toString ns ++ "ns"

/-- The quotient of `nanoCpus` and 10^9 with nine decimals, less the zeros at
the end and then the point. -/
def cpusText (nanoCpus : Nat) : String :=
  let cpus := trueDiv nanoCpus 1000000000
  let units := roundHalfEven (cpus.1 * 1000000000) cpus.2
  let decimals := (toString (units % 1000000000)).toList
  let padded := List.replicate (9 - decimals.length) '0' ++ decimals
  Text.rstripChar '.' (Text.rstripChar '0'
    (toString (units / 1000000000) ++ "." ++ String.ofList padded))

end Numbers

section Options

/-- An option that is left out when its value is empty. -/
def textOpt (name val : String) : List Opt := if val ≠ "" then [.value name val] else []

/-- An option that is left out when its value is zero. -/
def intOpt (name : String) (val : Int) : List Opt :=
  if val ≠ 0 then [.value name (toString val)] else []

/-- One option for each element, none for null. -/
def eachOpt {α : Type} (name : String) (render : α → String) (elems : List α) : List Opt :=
  elems.map fun elem => .value name (render elem)

def pairText (pair : String × String) : String := pair.1 ++ "=" ++ pair.2

def ulimitText (ul : Ulimit) : String :=
  ul.name ++ "=" ++ toString ul.soft ++ ":" ++ toString ul.hard

def containerName (doc : Inspect) : String := Text.lstripChar '/' doc.name

def restartOpts (host : HostConfig) : List Opt :=
  let restart := host.restartPolicy.getD {}
  if restart.name ≠ "" ∧ restart.name ≠ "no" then
    if restart.name = "on-failure" ∧ restart.maximumRetryCount ≠ 0 then
      [.value "--restart" ("on-failure:" ++ toString restart.maximumRetryCount)]
    else [.value "--restart" restart.name]
  else []

/-- The network named on the command line, and the network whose address is
restored: the mode when it is a custom one, else the first custom network. -/
def primaryNetwork (doc : Inspect) : Option String × Option String :=
  let names := (items doc.networks).map Prod.fst
  let mode := doc.hostConfig.networkMode
  if mode ≠ "" ∧ mode ∉ ["default", "bridge", ""] then
    (some mode, if mode ∈ names ∧ mode ≠ "" then some mode else none)
  else
    let custom := names.find? fun net => net ∉ ["bridge", "host", "none"]
    (custom, custom.filter (· ≠ ""))

def networkOpts (doc : Inspect) : List Opt :=
  let primary := primaryNetwork doc
  let ipam := (primary.2.bind fun net => (items doc.networks).lookup net).bind fun endpoint =>
    endpoint.bind EndpointSettings.ipamConfig
  [eachOpt "--network" id primary.1.toList,
    textOpt "--ip" (ipam.getD {}).ipv4Address,
    textOpt "--ip6" (ipam.getD {}).ipv6Address].flatten

def hostnameOpts (doc : Inspect) : List Opt :=
  let hostname := doc.config.hostname
  if hostname ≠ "" ∧ hostname ≠ Text.take 12 doc.id ∧ hostname ≠ containerName doc then
    [.value "--hostname" hostname]
  else []

/-- An option that is left out when its duration is zero. -/
def durationOpt (name : String) (ns : Nat) : List Opt :=
  if ns ≠ 0 then [.value name (nsToDuration ns)] else []

def healthTimings (hc : Healthcheck) : List Opt :=
  [durationOpt "--health-interval" hc.interval,
    durationOpt "--health-timeout" hc.timeout,
    intOpt "--health-retries" hc.retries,
    durationOpt "--health-start-period" hc.startPeriod].flatten

def healthOpts (hc : Healthcheck) : List Opt :=
  match hc.test.getD [] with
  | [] => []
  | kind :: args =>
      if kind = "NONE" then [.flag "--no-healthcheck"]
      else if kind = "CMD-SHELL" then .value "--health-cmd" (args.headD "") :: healthTimings hc
      else if kind = "CMD" then .value "--health-cmd" (Shell.join args) :: healthTimings hc
      else []

def cpusOpts (host : HostConfig) : List Opt :=
  if host.nanoCpus ≠ 0 then [.value "--cpus" (cpusText host.nanoCpus)] else []

def ipcOpts (host : HostConfig) : List Opt :=
  if host.ipcMode ≠ "" ∧ host.ipcMode ∉ ["", "shareable", "private"] then
    [.value "--ipc" host.ipcMode]
  else []

def portText (containerPort : String) (binding : PortBinding) : String :=
  if binding.hostIp ≠ "" ∧ binding.hostIp ∉ ["0.0.0.0", "::"] then
    binding.hostIp ++ ":" ++ binding.hostPort ++ ":" ++ containerPort
  else if binding.hostPort ≠ "" then binding.hostPort ++ ":" ++ containerPort
  else containerPort

def portTexts (host : HostConfig) : List String :=
  (items host.portBindings).flatMap fun port => (port.2.getD []).map (portText port.1)

/-- A device with both paths; the other ones are skipped. -/
def Device.specified (device : Device) : Bool :=
  device.pathOnHost != "" && device.pathInContainer != ""

def deviceText (device : Device) : String :=
  device.pathOnHost ++ ":" ++ device.pathInContainer ++ ":" ++ device.cgroupPermissions.getD "rwm"

/-- Labels that Docker or Compose sets itself. -/
def skipPrefixes : List String := ["com.docker.compose.", "org.opencontainers.", "desktop.docker."]

def keptLabels (config : ContainerConfig) : List (String × String) :=
  (items config.labels).filter fun label => !skipPrefixes.any (Text.startsWith label.1)

def logOpts (host : HostConfig) : List Opt :=
  let log := host.logConfig.getD {}
  if log.type ≠ "" ∧ log.type ≠ "json-file" then
    .value "--log-driver" log.type :: eachOpt "--log-opt" pairText (items log.config)
  else []

/-- Every option before the image, in the order of the source. -/
def runOpts (doc : Inspect) : List Opt :=
  let config := doc.config
  let host := doc.hostConfig
  [[.flag "-d"],
    textOpt "--name" (containerName doc),
    restartOpts host,
    networkOpts doc,
    hostnameOpts doc,
    if host.privileged then [.flag "--privileged"] else [],
    textOpt "--user" config.user,
    textOpt "--workdir" config.workingDir,
    intOpt "--memory" host.memory,
    cpusOpts host,
    intOpt "--cpu-shares" host.cpuShares,
    eachOpt "--ulimit" ulimitText (host.ulimits.getD []),
    eachOpt "--sysctl" pairText (items host.sysctls),
    eachOpt "--security-opt" id (host.securityOpt.getD []),
    textOpt "--stop-signal" config.stopSignal,
    intOpt "--stop-timeout" config.stopTimeout,
    healthOpts (config.healthcheck.getD {}),
    eachOpt "--cap-add" id (host.capAdd.getD []),
    eachOpt "--cap-drop" id (host.capDrop.getD []),
    textOpt "--pid" host.pidMode,
    ipcOpts host,
    eachOpt "-e" id (config.env.getD []),
    eachOpt "-v" id (host.binds.getD []),
    eachOpt "--tmpfs" Prod.fst (items host.tmpfs),
    eachOpt "-p" id (portTexts host),
    eachOpt "--device" deviceText ((host.devices.getD []).filter Device.specified),
    eachOpt "-l" pairText (keptLabels config),
    eachOpt "--dns" id (host.dns.getD []),
    eachOpt "--add-host" id (host.extraHosts.getD []),
    logOpts host,
    eachOpt "--entrypoint" id (config.entrypoint.getD []).head?.toList].flatten

end Options

/-- The argument list before quoting. -/
def runParts (doc : Inspect) : List String :=
  ["docker", "run"] ++ flatten (runOpts doc) ++ doc.config.image ::
    ((doc.config.entrypoint.getD []).tail ++ doc.config.cmd.getD [])

def buildDockerRunCmd (doc : Inspect) : String := Shell.join ((runParts doc).map Shell.quote)

end Keepup.Docker
