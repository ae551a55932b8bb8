import Keepup.Docker.RunCommand

/-!
What the shell and then `docker run` read from the recreate command. Every
value goes through quoting, splitting and option parsing unchanged, also one
that looks like an option or holds quotes, because a valued option takes the
next argument whatever it is and reading stops at the image.
-/

namespace Keepup.Docker

open Lib Lib.CommandLine

/-- The `docker run` options in use here. -/
def dockerRun : Grammar where
  flags := ["-d", "--privileged", "--no-healthcheck"]
  valued := ["--name", "--restart", "--network", "--ip", "--ip6", "--hostname", "--user",
    "--workdir", "--memory", "--cpus", "--cpu-shares", "--ulimit", "--sysctl", "--security-opt",
    "--stop-signal", "--stop-timeout", "--health-cmd", "--health-interval", "--health-timeout",
    "--health-retries", "--health-start-period", "--cap-add", "--cap-drop", "--pid", "--ipc",
    "-e", "-v", "--tmpfs", "-p", "--device", "-l", "--dns", "--add-host", "--log-driver",
    "--log-opt", "--entrypoint"]
  dashed := by decide
  disjoint := by decide

/-- A parsed `docker run`: options, image, and the arguments after the image. -/
structure Invocation where
  opts : List Opt
  image : String
  args : List String
deriving DecidableEq

namespace Invocation

def values (inv : Invocation) (name : String) : List String := valuesOf name inv.opts

/-- The process to start: the entrypoint override, then the arguments. -/
def argv (inv : Invocation) : List String := (inv.values "--entrypoint").getLast?.toList ++ inv.args

end Invocation

/-- `args` is what follows `docker run`. -/
def readRun (args : List String) : Option Invocation :=
  match dockerRun.read args with
  | some (opts, image :: rest) => some ⟨opts, image, rest⟩
  | _ => none

section Known

private theorem known_text {name : String} (val : String)
    (h : name ∈ dockerRun.valued := by decide) :
    dockerRun.KnowsAll (textOpt name val) :=
  dockerRun.knowsAll_ite (by simpa [Grammar.Knows] using h) dockerRun.knowsAll_nil

private theorem known_int {name : String} (val : Int) (h : name ∈ dockerRun.valued := by decide) :
    dockerRun.KnowsAll (intOpt name val) :=
  dockerRun.knowsAll_ite (by simpa [Grammar.Knows] using h) dockerRun.knowsAll_nil

private theorem known_duration {name : String} (ns : Nat)
    (h : name ∈ dockerRun.valued := by decide) :
    dockerRun.KnowsAll (durationOpt name ns) :=
  dockerRun.knowsAll_ite (by simpa [Grammar.Knows] using h) dockerRun.knowsAll_nil

private theorem known_each {α : Type} {name : String} (render : α → String) (elems : List α)
    (h : name ∈ dockerRun.valued := by decide) : dockerRun.KnowsAll (eachOpt name render elems) :=
  dockerRun.knowsAll_map h render elems

private theorem known_flag {name : String} (h : name ∈ dockerRun.flags := by decide) :
    dockerRun.KnowsAll [.flag name] := by
  simpa [Grammar.Knows] using h

private theorem known_value {name : String} (val : String)
    (h : name ∈ dockerRun.valued := by decide) :
    dockerRun.KnowsAll [.value name val] := by
  simpa [Grammar.Knows] using h

private theorem known_restart (host : HostConfig) : dockerRun.KnowsAll (restartOpts host) :=
  dockerRun.knowsAll_ite
    (dockerRun.knowsAll_ite (known_value _) (known_value _))
    dockerRun.knowsAll_nil

private theorem known_network (doc : Inspect) : dockerRun.KnowsAll (networkOpts doc) := by
  simp only [networkOpts, Grammar.knowsAll_flatten, List.forall_mem_cons]
  exact ⟨known_each _ _, known_text _, known_text _, by simp⟩

private theorem known_timings (hc : Healthcheck) : dockerRun.KnowsAll (healthTimings hc) := by
  simp only [healthTimings, Grammar.knowsAll_flatten, List.forall_mem_cons]
  exact ⟨known_duration _, known_duration _, known_int _,
    known_duration _, by simp⟩

private theorem known_health (hc : Healthcheck) : dockerRun.KnowsAll (healthOpts hc) := by
  have hcmd : "--health-cmd" ∈ dockerRun.valued := by decide
  unfold healthOpts
  split
  · exact dockerRun.knowsAll_nil
  · refine dockerRun.knowsAll_ite (known_flag) ?_
    refine dockerRun.knowsAll_ite ?_ (dockerRun.knowsAll_ite ?_ dockerRun.knowsAll_nil)
    all_goals exact (dockerRun.knowsAll_cons _ _).mpr ⟨hcmd, known_timings hc⟩

private theorem known_log (host : HostConfig) : dockerRun.KnowsAll (logOpts host) := by
  have hdriver : "--log-driver" ∈ dockerRun.valued := by decide
  refine dockerRun.knowsAll_ite ?_ dockerRun.knowsAll_nil
  exact (dockerRun.knowsAll_cons _ _).mpr ⟨hdriver, known_each _ _⟩

private theorem known_if {name : String} (c : Prop) [Decidable c] (val : String)
    (h : name ∈ dockerRun.valued := by decide) :
    dockerRun.KnowsAll (if c then [.value name val] else []) :=
  dockerRun.knowsAll_ite (known_value _ h) dockerRun.knowsAll_nil

/-- `docker run` knows every option the command uses. -/
theorem runOpts_known (doc : Inspect) : dockerRun.KnowsAll (runOpts doc) := by
  simp only [runOpts, Grammar.knowsAll_flatten, List.forall_mem_cons]
  exact ⟨known_flag,
    known_text _,
    known_restart _,
    known_network _,
    known_if _ _,
    dockerRun.knowsAll_ite (known_flag) dockerRun.knowsAll_nil,
    known_text _,
    known_text _,
    known_int _,
    known_if _ _,
    known_int _,
    known_each _ _,
    known_each _ _,
    known_each _ _,
    known_text _,
    known_int _,
    known_health _,
    known_each _ _,
    known_each _ _,
    known_text _,
    known_if _ _,
    known_each _ _,
    known_each _ _,
    known_each _ _,
    known_each _ _,
    known_each _ _,
    known_each _ _,
    known_each _ _,
    known_each _ _,
    known_log _,
    known_each _ _,
    by simp⟩

end Known

section Values

variable {wanted : String}

@[simp] private theorem values_text (name val : String) :
    valuesOf wanted (textOpt name val) = if val ≠ "" ∧ name = wanted then [val] else [] := by
  by_cases hval : val = "" <;> simp [textOpt, hval]

@[simp] private theorem values_each {α : Type} (name : String) (render : α → String)
    (elems : List α) :
    valuesOf wanted (eachOpt name render elems) =
      if name = wanted then elems.map render else [] :=
  valuesOf_map wanted name render elems

@[simp] private theorem values_int {name : String} (hne : name ≠ wanted) (val : Int) :
    valuesOf wanted (intOpt name val) = [] := by
  simp [intOpt, hne]

@[simp] private theorem values_duration {name : String} (hne : name ≠ wanted) (ns : Nat) :
    valuesOf wanted (durationOpt name ns) = [] := by
  simp [durationOpt, hne]

@[simp] private theorem values_restart (hne : "--restart" ≠ wanted) (host : HostConfig) :
    valuesOf wanted (restartOpts host) = [] := by
  simp [restartOpts, hne]

@[simp] private theorem values_network (hnet : "--network" ≠ wanted) (hip : "--ip" ≠ wanted)
    (hip6 : "--ip6" ≠ wanted) (doc : Inspect) : valuesOf wanted (networkOpts doc) = [] := by
  simp [networkOpts, hnet, hip, hip6]

@[simp] private theorem values_hostname (hne : "--hostname" ≠ wanted) (doc : Inspect) :
    valuesOf wanted (hostnameOpts doc) = [] := by
  simp [hostnameOpts, hne]

@[simp] private theorem values_cpus (hne : "--cpus" ≠ wanted) (host : HostConfig) :
    valuesOf wanted (cpusOpts host) = [] := by
  simp [cpusOpts, hne]

@[simp] private theorem values_ipc (hne : "--ipc" ≠ wanted) (host : HostConfig) :
    valuesOf wanted (ipcOpts host) = [] := by
  simp [ipcOpts, hne]

@[simp] private theorem values_health (hcmd : "--health-cmd" ≠ wanted)
    (hinterval : "--health-interval" ≠ wanted) (htimeout : "--health-timeout" ≠ wanted)
    (hretries : "--health-retries" ≠ wanted) (hstart : "--health-start-period" ≠ wanted)
    (hc : Healthcheck) : valuesOf wanted (healthOpts hc) = [] := by
  have htimings : valuesOf wanted (healthTimings hc) = [] := by
    simp [healthTimings, hinterval, htimeout, hretries, hstart]
  have hcons : ∀ val, valuesOf wanted (.value "--health-cmd" val :: healthTimings hc) = [] :=
    fun val => (valuesOf_value_cons_of_ne wanted hcmd val _).trans htimings
  unfold healthOpts
  split
  · rfl
  · simp [hcons]

@[simp] private theorem values_log (hdriver : "--log-driver" ≠ wanted)
    (hopt : "--log-opt" ≠ wanted) (host : HostConfig) : valuesOf wanted (logOpts host) = [] := by
  have hcons : ∀ val opts, valuesOf wanted (.value "--log-driver" val :: opts) =
      valuesOf wanted opts := valuesOf_value_cons_of_ne wanted hdriver
  simp [logOpts, hcons, hopt]

theorem runOpts_entrypoint (doc : Inspect) :
    valuesOf "--entrypoint" (runOpts doc) = (doc.config.entrypoint.getD []).head?.toList := by
  simp [runOpts]

theorem runOpts_name (doc : Inspect) :
    valuesOf "--name" (runOpts doc) = if containerName doc ≠ ""
      then [containerName doc] else [] := by
  simp [runOpts]

theorem runOpts_tmpfs (doc : Inspect) :
    valuesOf "--tmpfs" (runOpts doc) = (items doc.hostConfig.tmpfs).map Prod.fst := by
  simp [runOpts]

theorem runOpts_ports (doc : Inspect) : valuesOf "-p" (runOpts doc) = portTexts doc.hostConfig := by
  simp [runOpts]

theorem runOpts_healthCmd (doc : Inspect) : valuesOf "--health-cmd" (runOpts doc) =
    valuesOf "--health-cmd" (healthOpts (doc.config.healthcheck.getD {})) := by
  simp [runOpts]

@[simp] private theorem isSet_each {α : Type} (name : String) (render : α → String)
    (elems : List α) :
    isSet wanted (eachOpt name render elems) = false :=
  isSet_map wanted name render elems

theorem runOpts_noHealthcheck (doc : Inspect) : isSet "--no-healthcheck" (runOpts doc) =
    isSet "--no-healthcheck" (healthOpts (doc.config.healthcheck.getD {})) := by
  simp [runOpts, textOpt, intOpt, restartOpts, networkOpts, hostnameOpts,
    cpusOpts, ipcOpts, logOpts]

end Values

/-- Split a rendered pair at its first equals sign. -/
def splitPair (text : String) : String × String :=
  let cs := text.toList
  (String.ofList (cs.takeWhile (· ≠ '=')), String.ofList ((cs.dropWhile (· ≠ '=')).drop 1))

theorem splitPair_pairText {pair : String × String} (hkey : '=' ∉ pair.1.toList) :
    splitPair (pairText pair) = pair := by
  have hall : ∀ c ∈ pair.1.toList, decide (c ≠ '=') = true := by
    intro c hc
    simpa using fun h : c = '=' => hkey (h ▸ hc)
  have htext : (pairText pair).toList = pair.1.toList ++ '=' :: pair.2.toList := by
    simp [pairText]
  simp only [splitPair, htext]
  rw [List.takeWhile_append_of_pos hall, List.dropWhile_append_of_pos hall]
  simp

theorem map_splitPair {pairs : List (String × String)}
    (hkeys : ∀ pair ∈ pairs, '=' ∉ pair.1.toList) : (pairs.map pairText).map splitPair = pairs := by
  rw [List.map_map]
  calc pairs.map (splitPair ∘ pairText) = pairs.map id :=
        List.map_congr_left fun pair hpair => splitPair_pairText (hkeys pair hpair)
    _ = pairs := List.map_id _

/-- The three parts of a device, as the command line gives them. -/
def Device.parts (device : Device) : List String :=
  [device.pathOnHost, device.pathInContainer, device.cgroupPermissions.getD "rwm"]

theorem splitOn_deviceText {device : Device} (hparts : ∀ part ∈ device.parts, ':' ∉ part.toList) :
    Text.splitOn ':' (deviceText device) = device.parts := by
  have hfree : ∀ part ∈ device.parts, ∀ c ∈ part.toList, (c == ':') = false := by
    intro part hpart c hc
    exact beq_eq_false_iff_ne.mpr fun h => hparts part hpart (h ▸ hc)
  have htext : (deviceText device).toList = device.pathOnHost.toList ++
      ':' :: (device.pathInContainer.toList ++ ':' ::
          (device.cgroupPermissions.getD "rwm").toList) := by
    simp [deviceText]
  rw [Text.splitOn, htext,
    Text.splitChars_append (hfree _ (by simp [Device.parts])) (by simp),
    Text.splitChars_append (hfree _ (by simp [Device.parts])) (by simp),
    Text.splitChars_single (hfree _ (by simp [Device.parts]))]
  simp [Device.parts]

/-- What an invocation must agree on with the document it recreates. Pairs and
devices are given rendered, and also taken apart again where their parts do not
hold the character that joins them. -/
structure Invocation.Recreates (inv : Invocation) (doc : Inspect) : Prop where
  image : inv.image = doc.config.image
  argv : inv.argv = doc.config.entrypoint.getD [] ++ doc.config.cmd.getD []
  env : inv.values "-e" = doc.config.env.getD []
  binds : inv.values "-v" = doc.hostConfig.binds.getD []
  capAdd : inv.values "--cap-add" = doc.hostConfig.capAdd.getD []
  capDrop : inv.values "--cap-drop" = doc.hostConfig.capDrop.getD []
  devices : inv.values "--device" =
    ((doc.hostConfig.devices.getD []).filter Device.specified).map deviceText
  deviceParts : ∀ device ∈ (doc.hostConfig.devices.getD []).filter Device.specified,
    (∀ part ∈ device.parts, ':' ∉ part.toList) →
      Text.splitOn ':' (deviceText device) = device.parts
  securityOpt : inv.values "--security-opt" = doc.hostConfig.securityOpt.getD []
  sysctls : inv.values "--sysctl" = (items doc.hostConfig.sysctls).map pairText
  sysctlPairs : (∀ pair ∈ items doc.hostConfig.sysctls, '=' ∉ pair.1.toList) →
    (inv.values "--sysctl").map splitPair = items doc.hostConfig.sysctls
  dns : inv.values "--dns" = doc.hostConfig.dns.getD []
  extraHosts : inv.values "--add-host" = doc.hostConfig.extraHosts.getD []
  labels : inv.values "-l" = (keptLabels doc.config).map pairText
  labelPairs : (∀ pair ∈ keptLabels doc.config, '=' ∉ pair.1.toList) →
    (inv.values "-l").map splitPair = keptLabels doc.config

/-- The shell gives back the argument list that was quoted. -/
theorem run_cmd_words (doc : Inspect) : Shell.words (buildDockerRunCmd doc) = some (runParts doc) :=
  Shell.words_join _

/-- The invocation that the argument list stands for. -/
def recreation (doc : Inspect) : Invocation where
  opts := runOpts doc
  image := doc.config.image
  args := (doc.config.entrypoint.getD []).tail ++ doc.config.cmd.getD []

/-- `docker run` reads the options that were written and stops at the image. -/
theorem run_parts_read (doc : Inspect) (himage : isOption doc.config.image = false) :
    ∃ args, runParts doc = "docker" :: "run" :: args ∧ readRun args = some (recreation doc) := by
  refine ⟨flatten (runOpts doc) ++ doc.config.image ::
    ((doc.config.entrypoint.getD []).tail ++ doc.config.cmd.getD []), rfl, ?_⟩
  rw [readRun, dockerRun.read_flatten _ (runOpts_known doc) himage]
  rfl

/-- What the shell and then `docker run` read from the built command. -/
def Reads (doc : Inspect) (inv : Invocation) : Prop :=
  ∃ args, Shell.words (buildDockerRunCmd doc) = some ("docker" :: "run" :: args) ∧
    readRun args = some inv

theorem isOption_image {doc : Inspect} (hdash : Text.startsWith doc.config.image "-" = false) :
    isOption doc.config.image = false := by
  have hlead : ['-'].isPrefixOf doc.config.image.toList = false := hdash
  simp [isOption, hlead]

theorem reads_iff {doc : Inspect} (hdash : Text.startsWith doc.config.image "-" = false)
    (inv : Invocation) :
    Reads doc inv ↔ inv = recreation doc := by
  obtain ⟨args, hparts, hread⟩ := run_parts_read doc (isOption_image hdash)
  have hwords : Shell.words (buildDockerRunCmd doc) = some ("docker" :: "run" :: args) :=
    (run_cmd_words doc).trans (by rw [hparts])
  constructor
  · rintro ⟨args', hwords', hread'⟩
    rw [hwords, Option.some_inj, List.cons_inj_right, List.cons_inj_right] at hwords'
    rw [← hwords', hread] at hread'
    exact (Option.some.inj hread').symm
  · rintro rfl
    exact ⟨args, hwords, hread⟩

/-- A property of what is read is one of the invocation that was built. -/
theorem exists_reads_iff {doc : Inspect} (hdash : Text.startsWith doc.config.image "-" = false)
    (P : Invocation → Prop) : (∃ inv, Reads doc inv ∧ P inv) ↔ P (recreation doc) := by
  simp only [reads_iff hdash, exists_eq_left]

theorem recreation_recreates (doc : Inspect) : (recreation doc).Recreates doc := by
  have hsysctls : (recreation doc).values "--sysctl" =
      (items doc.hostConfig.sysctls).map pairText := by
    simp [recreation, Invocation.values, runOpts]
  have hlabels : (recreation doc).values "-l" = (keptLabels doc.config).map pairText := by
    simp [recreation, Invocation.values, runOpts]
  exact {
    image := rfl
    argv := by
      simp only [Invocation.argv, Invocation.values, recreation, runOpts_entrypoint]
      cases doc.config.entrypoint.getD [] <;> rfl
    env := by simp [recreation, Invocation.values, runOpts]
    binds := by simp [recreation, Invocation.values, runOpts]
    capAdd := by simp [recreation, Invocation.values, runOpts]
    capDrop := by simp [recreation, Invocation.values, runOpts]
    devices := by simp [recreation, Invocation.values, runOpts]
    deviceParts := fun _ _ hparts => splitOn_deviceText hparts
    securityOpt := by simp [recreation, Invocation.values, runOpts]
    sysctls := hsysctls
    sysctlPairs := fun hkeys => by rw [hsysctls, map_splitPair hkeys]
    dns := by simp [recreation, Invocation.values, runOpts]
    extraHosts := by simp [recreation, Invocation.values, runOpts]
    labels := hlabels
    labelPairs := fun hkeys => by rw [hlabels, map_splitPair hkeys] }

/-- An image with a value that looks like an option and one that holds quotes. -/
def quotedDoc : Inspect where
  name := "/web"
  config := { image := "nginx:1", env := some ["--privileged", "A=it's $(id)"], cmd := some ["-d"] }

end Keepup.Docker
