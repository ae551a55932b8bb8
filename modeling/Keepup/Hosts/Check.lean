import Keepup.Hosts.Upgrade
import Keepup.Packages.Listings

/-!
What a check that returns stands for. No exit status is looked at on the way, so a
check that was refused, or whose listing failed, returns what it could read, and an
empty list where that is nothing. The main theorem says with which replies every
failure is an error.
-/

namespace Keepup.Packages

/-- The command that lists the pending packages. -/
def Supported.query : Supported → String
  | .apt => "apt list --upgradable"
  | .dnf => "dnf check-update -q"
  | .yum => "yum check-update -q"
  | .zypper => "zypper -q lu"
  | .pacman => "pacman -Qu"
  | .apk => "apk version -q -l '<'"

/-- The statuses with which that command succeeds: `dnf` and `yum` report updates
with 100, and `pacman` reports with 1 that there are none. -/
def Supported.querySuccess : Supported → List Nat
  | .dnf | .yum => [0, 100]
  | .pacman => [0, 1]
  | _ => [0]

end Keepup.Packages

namespace Keepup.Ssh

open Lib Packages

section Source

/-- The result of a check over SSH. -/
structure Check where
  packages : List Package
  rebootRequired : Bool
  packageManager : String

def checkHostUpdates (name : String) (host : SshHost) (creds : Entry) (refresh : Bool) :
    Session Check := do
  openConnection name host creds
  let wrapper := rootWrapper host creds
  let pm ← detectPm wrapper
  let result ← run wrapper (pm.listScript refresh) ⟨"", []⟩
  let parsed := pm.parse result.stdout
  pure ⟨parsed.1, parsed.2, pm.name⟩

def lxcListScript (refresh : Bool) : Script :=
  refreshed refresh "apt-get update -qq" (.tool "apt list -qq --upgradable" .dropErrors)
    [.echo "__APPLY__", .tool "apt-get -s upgrade" .dropErrors, .echo "__FULL__",
      .tool "apt-get -s full-upgrade" .dropErrors]

/-- What follows the last occurrence of a text, or the whole. -/
def afterLast (part s : String) : String :=
  String.ofList (((s.toList.tails.filter part.toList.isPrefixOf).getLast?.map
    (·.drop part.toList.length)).getD s.toList)

def lxcPackage (plans : Plans) (line : String) : Option Package :=
  let line := Text.strip line
  if line = "" ∨ Text.startsWith line "Listing" then none
  else
    match Text.split line with
    | first :: newVer :: _ =>
        let pkgName := Text.before '/' first
        let oldVer :=
          if Text.isIn "upgradable from:" line then
            Text.rstripChar ']' (Text.strip (afterLast "upgradable from:" line))
          else ""
        some ⟨pkgName, oldVer, newVer, some (plans.heldBack pkgName), plans.reason pkgName⟩
    | _ => none

def lxcParse (stdout : String) : List Package :=
  let (listPart, plans) := aptPlans stdout
  (Text.splitLines listPart).filterMap (lxcPackage plans)

def getLxcUpdates (vmid : Int) (sshHost : String) (sshCreds : Entry) (refresh : Bool) :
    Session (List Package) := do
  openNode sshHost sshCreds
  let result ← run (.ok (.pctShell vmid)) (lxcListScript refresh) ⟨"", []⟩
  pure (lxcParse result.stdout)

/-- The update list of a check. -/
def Target.check (refresh : Bool) : Target → Session (List Package)
  | .direct name host creds => do
      let check ← checkHostUpdates name host creds refresh
      pure check.packages
  | .guest _ vmid sshHost sshCreds => getLxcUpdates vmid sshHost sshCreds refresh

end Source

section Listed

/-- The listing of a target, the command in it that names the packages, and the
statuses with which that one reports success. A guest is asked as `apt` is. -/
def Target.listScript (pm : Supported) (refresh : Bool) : Target → Script
  | .direct _ _ _ => pm.manager.listScript refresh
  | .guest _ _ _ _ => lxcListScript refresh

def Target.query (pm : Supported) : Target → String
  | .direct _ _ _ => pm.query
  | .guest _ _ _ _ => "apt list -qq --upgradable"

def Target.querySuccess (pm : Supported) : Target → List Nat
  | .direct _ _ _ => pm.querySuccess
  | .guest _ _ _ _ => Supported.apt.querySuccess

/-- The listing of a supported package manager has run on the target, and its query
has ended with a status that means success. -/
def Listed (target : Target) (refresh : Bool) (log : Log) : Prop :=
  ∃ connection opened rest pm wrapper env stderr, log = (.connect connection, opened) :: rest ∧
    connection.host = target.address ∧ target.Runs wrapper ∧
    (Call.run ⟨wrapper, target.listScript pm refresh⟩, Reply.ran env stderr) ∈ rest ∧
    (env (target.query pm)).status ∈ target.querySuccess pm

/-- The reply is that of a script that ran to its end. -/
def Reply.Ran (reply : Reply) : Prop := ∃ env stderr, reply = .ran env stderr

/-- The reply is that of a listing that ran, and whose query succeeded. -/
def Reply.Succeeds (query : String) (success : List Nat) (reply : Reply) : Prop :=
  ∃ env stderr, reply = .ran env stderr ∧ (env query).status ∈ success

/-- The reply is that of a detection that names no supported package manager. -/
def Reply.NamesNone (reply : Reply) : Prop :=
  ∃ env stderr, reply = .ran env stderr ∧
    registry.lookup (Text.strip (detectScript.outcome env).out) = none

/-- Some command of a check has failed: its script did not run, because `sudo` or `pct`
refused it or it was killed, or the detection names no supported package manager, or
the query of a listing has ended with a status that means failure. -/
def Failed (target : Target) (refresh : Bool) (log : Log) : Prop :=
  ∃ command reply, (Call.run command, reply) ∈ log ∧
    (¬ reply.Ran ∨ (command.script = detectScript ∧ reply.NamesNone) ∨
      ∃ pm, command.script = target.listScript pm refresh ∧
        ¬ reply.Succeeds (target.query pm) (target.querySuccess pm))

/-- An empty list comes from a listing that worked, and a check in which a command
fails is an error. -/
structure TellsFailures (target : Target) (refresh : Bool) (replies : Nat → Call → Reply) :
    Prop where
  empty : ∀ log, (target.check refresh).outcome replies = (log, .ok []) → Listed target refresh log
  failed : ∀ log result, (target.check refresh).outcome replies = (log, result) →
    Failed target refresh log → ∃ error, result = .error error

/-- Where a direct check gets its answers, the detection has run and names a supported
package manager, and the query of its listing has succeeded. -/
def DirectAnswersAreGood (host : SshHost) (creds : Entry) (refresh : Bool)
    (replies : Nat → Call → Reply) : Prop :=
  ∀ connection wrapper detected listing, connect host creds = some connection →
    (replies 0 (.connect connection)).Opens connection → rootWrapper host creds = .ok wrapper →
    (replies 1 (.run ⟨wrapper, detectScript⟩)).answer (.run ⟨wrapper, detectScript⟩) =
      .completed detected →
    let call := Call.run ⟨wrapper,
      (getPackageManager (Text.strip detected.stdout)).listScript refresh⟩
    (replies 2 call).answer call = .completed listing →
    (replies 1 (.run ⟨wrapper, detectScript⟩)).Ran ∧
      ∃ pm : Supported, registry.lookup (Text.strip (Text.strip detected.stdout)) =
        some pm.manager ∧
        (replies 2 call).Succeeds pm.query pm.querySuccess

/-- Where the check of a guest gets its answer, the query of the listing has succeeded. -/
def GuestAnswerIsGood (vmid : Int) (sshHost : String) (sshCreds : Entry) (refresh : Bool)
    (replies : Nat → Call → Reply) : Prop :=
  ∀ connection listing, pctConnect sshHost sshCreds = some connection →
    (replies 0 (.connect connection)).Opens connection →
    let call := Call.run ⟨.pctShell vmid, lxcListScript refresh⟩
    (replies 1 call).answer call = .completed listing →
    (replies 1 call).Succeeds "apt list -qq --upgradable" Supported.apt.querySuccess

def Target.AnswersAreGood (refresh : Bool) (replies : Nat → Call → Reply) : Target → Prop
  | .direct _ host creds => DirectAnswersAreGood host creds refresh replies
  | .guest _ vmid sshHost sshCreds => GuestAnswerIsGood vmid sshHost sshCreds refresh replies

end Listed

section Returned

variable {replies : Nat → Call → Reply} {log : Log} {refresh : Bool}

/-- What a direct check has gone through when it returns. -/
theorem direct_check_iff {name : String} {host : SshHost} {creds : Entry}
    {packages : List Package} :
    ((Target.direct name host creds).check refresh).outcome replies = (log, .ok packages) ↔
      ∃ connection wrapper detected listing, connect host creds = some connection ∧
        (replies 0 (.connect connection)).Opens connection ∧ rootWrapper host creds = .ok wrapper ∧
        (replies 1 (.run ⟨wrapper, detectScript⟩)).answer (.run ⟨wrapper, detectScript⟩) =
          .completed detected ∧
        let pm := getPackageManager (Text.strip detected.stdout)
        let call := Call.run ⟨wrapper, pm.listScript refresh⟩
        (replies 2 call).answer call = .completed listing ∧
        packages = (pm.parse listing.stdout).1 ∧
        log = [(.connect connection, replies 0 (.connect connection)),
          (.run ⟨wrapper, detectScript⟩, replies 1 (.run ⟨wrapper, detectScript⟩)),
          (call, replies 2 call)] := by
  rw [Session.outcome, Target.check, checkHostUpdates, Remote.bind_assoc, exec_open_ok]
  simp only [Remote.bind_assoc, exec_detect_ok, exec_run_ok, Remote.pure_eq, Remote.ret_bind,
    Remote.exec_ret, Prod.mk.injEq, Except.ok.injEq]
  constructor
  · rintro ⟨connection, hconnect, hopens, wrapper, detected, hwrapper, hdetected, _, listing, hw,
      hlisting, hlog, hpackages⟩
    cases hwrapper.symm.trans hw
    exact ⟨connection, wrapper, detected, listing, hconnect, hopens, hwrapper, hdetected, hlisting,
      hpackages.symm, hlog.symm⟩
  · rintro ⟨connection, wrapper, detected, listing, hconnect, hopens, hwrapper, hdetected, hlisting,
      hpackages, hlog⟩
    exact ⟨connection, hconnect, hopens, wrapper, detected, hwrapper, hdetected, wrapper, listing,
      hwrapper, hlisting, hlog.symm, hpackages.symm⟩

/-- What the check of a guest has gone through when it returns. -/
theorem guest_check_iff {node sshHost : String} {vmid : Int} {sshCreds : Entry}
    {packages : List Package} :
    ((Target.guest node vmid sshHost sshCreds).check refresh).outcome replies =
      (log, .ok packages) ↔
      ∃ connection listing, pctConnect sshHost sshCreds = some connection ∧
        (replies 0 (.connect connection)).Opens connection ∧
        let call := Call.run ⟨.pctShell vmid, lxcListScript refresh⟩
        (replies 1 call).answer call = .completed listing ∧
        packages = lxcParse listing.stdout ∧
        log = [(.connect connection, replies 0 (.connect connection)), (call, replies 1 call)] := by
  rw [Session.outcome, Target.check, getLxcUpdates, openNode, pctConnect]
  split
  case isTrue =>
    have hraise : ∀ next : Unit → Session (List Package),
        ((.raise noPctCredentials : Session Unit) >>= next) = .raise noPctCredentials :=
          fun _ => rfl
    simp [hraise]
  case isFalse =>
    simp only [exec_open_ok, exec_run_ok, Remote.pure_eq, Remote.exec_ret,
      Prod.mk.injEq, Except.ok.injEq]
    constructor
    · rintro ⟨connection, hconnect, hopens, wrapper, listing, hwrapper, hlisting, hlog, hpackages⟩
      cases hwrapper
      exact ⟨connection, listing, hconnect, hopens, hlisting, hpackages.symm, hlog.symm⟩
    · rintro ⟨connection, listing, hconnect, hopens, hlisting, hpackages, hlog⟩
      exact ⟨connection, hconnect, hopens, _, listing, rfl, hlisting, hlog.symm, hpackages.symm⟩

theorem listScript_inj {pm pm' : Supported}
    (h : pm.manager.listScript refresh = pm'.manager.listScript refresh) : pm = pm' := by
  cases pm <;> cases pm' <;> first
    | rfl
    | cases refresh <;> simp [Supported.manager, aptPackageManager, dnfPackageManager,
        yumPackageManager, zypperPackageManager, pacmanPackageManager, apkPackageManager,
        aptListScript, dnfListScript, zypperListScript, pacmanListScript, apkListScript, refreshed,
        Script.chain, Script.answer] at h

theorem listScript_ne_detect (pm : Supported) : pm.manager.listScript refresh ≠ detectScript := by
  cases pm <;> cases refresh <;> exact nofun

theorem registry_lookup_some {name : String} {manager : PackageManager}
    (h : registry.lookup name = some manager) : ∃ pm : Supported, manager = pm.manager := by
  obtain ⟨before, after, hsplit, _⟩ := List.lookup_eq_some_iff.mp h
  have hmem : (name, manager) ∈ registry := by rw [hsplit]; simp
  obtain ⟨pm, hpm, _⟩ := (mem_registry name manager).mp hmem
  exact ⟨pm, hpm.symm⟩

theorem unknown_listing (refresh : Bool) {name : String}
    (h : registry.lookup (Text.strip name) = none) :
    (getPackageManager name).listScript refresh = notSupported ∧
      ∀ stdout, (getPackageManager name).parse stdout = ([], false) := by
  simp [getPackageManager, h, unknownPackageManager, notSupported]

theorem pctConnect_host {sshHost : String} {sshCreds : Entry} {connection : Connection}
    (h : pctConnect sshHost sshCreds = some connection) : connection.host = sshHost := by
  unfold pctConnect at h
  split at h
  · cases h
  · exact connect_host h

theorem lxcListScript_ne_detect : lxcListScript refresh ≠ detectScript := by
  cases refresh <;> exact nofun

theorem Reply.Succeeds.ran {query : String} {success : List Nat} {reply : Reply}
    (h : reply.Succeeds query success) : reply.Ran := by
  obtain ⟨env, stderr, hran, _⟩ := h
  exact ⟨env, stderr, hran⟩

theorem answer_ran {script : Script} {wrapper : Wrapper} {reply : Reply} {result : Completed}
    {env : Script.Env} {stderr : String} (hran : reply = .ran env stderr)
    (h : reply.answer (.run ⟨wrapper, script⟩) = .completed result) :
    result.stdout = (script.outcome env).out := by
  subst hran
  cases h
  rfl

end Returned

section Direct

variable {replies : Nat → Call → Reply} {refresh : Bool} {name : String}
  {host : SshHost} {creds : Entry}

/-- A direct check that returns has listed the packages, if its answers are good. -/
theorem direct_listed (hgood : DirectAnswersAreGood host creds refresh replies) {log : Log}
    {packages : List Package}
    (hok : ((Target.direct name host creds).check refresh).outcome replies = (log, .ok packages)) :
    Listed (.direct name host creds) refresh log ∧
    ¬ Failed (.direct name host creds) refresh log := by
  obtain ⟨connection, wrapper, detected, listing, hconnect, hopens, hwrapper, hdetected, hlisting,
    _, rfl⟩ := direct_check_iff.mp hok
  obtain ⟨hran, pm, hpm, hsucceeds⟩ :=
    hgood connection wrapper detected listing hconnect hopens hwrapper hdetected hlisting
  have hscript : (getPackageManager (Text.strip detected.stdout)).listScript refresh =
      pm.manager.listScript refresh := by
    rw [(getPackageManager_known hpm).1]
  rw [hscript] at hsucceeds ⊢
  constructor
  · obtain ⟨scriptEnv, stderr, hreply, hstatus⟩ := hsucceeds
    exact ⟨connection, _, _, pm, wrapper, scriptEnv, stderr, rfl, connect_host hconnect,
      rootWrapper_runs hwrapper, by simp [Target.listScript, hreply], hstatus⟩
  · rintro ⟨command, reply, hmem, hfailed⟩
    simp only [List.mem_cons, Prod.mk.injEq, reduceCtorEq, false_and, false_or, Call.run.injEq,
      List.not_mem_nil, or_false] at hmem
    rcases hmem with ⟨rfl, rfl⟩ | ⟨rfl, rfl⟩
    · -- the detection has run, and named this package manager
      rcases hfailed with hstopped | ⟨_, scriptEnv, stderr, hreply, hnone⟩ | ⟨pm', hsame, _⟩
      · exact hstopped hran
      · rw [answer_ran hreply hdetected] at hpm
        rw [Text.strip_strip] at hpm
        cases hnone.symm.trans hpm
      · exact listScript_ne_detect pm' hsame.symm
    · rcases hfailed with hstopped | ⟨hsame, _⟩ | ⟨pm', hsame, hbad⟩
      · exact hstopped hsucceeds.ran
      · exact listScript_ne_detect pm hsame
      · obtain rfl := listScript_inj hsame
        exact hbad hsucceeds

/-- The answers to a direct check that tells its failures are good. -/
theorem direct_good (h : TellsFailures (.direct name host creds) refresh replies) :
    DirectAnswersAreGood host creds refresh replies := by
  intro connection wrapper detected listing hconnect hopens hwrapper hdetected call hlisting
  have hok : ((Target.direct name host creds).check refresh).outcome replies = (_, .ok _) :=
    direct_check_iff.mpr ⟨connection, wrapper, detected, listing, hconnect, hopens, hwrapper,
      hdetected, hlisting, rfl, rfl⟩
  have hnone : ¬ Failed (.direct name host creds) refresh _ := fun hfailed => by
    obtain ⟨error, herror⟩ := h.failed _ _ hok hfailed
    cases herror
  have hran : (replies 1 (.run ⟨wrapper, detectScript⟩)).Ran :=
    by_contra fun hstopped => hnone ⟨_, _, .tail _ (.head _), .inl hstopped⟩
  refine ⟨hran, ?_⟩
  cases hlookup : registry.lookup (Text.strip (Text.strip detected.stdout)) with
  | none =>
      obtain ⟨scriptEnv, stderr, hreply⟩ := hran
      rw [answer_ran hreply hdetected, Text.strip_strip] at hlookup
      exact absurd ⟨_, _, .tail _ (.head _),
        .inr (.inl ⟨rfl, scriptEnv, stderr, hreply, hlookup⟩)⟩ hnone
  | some manager =>
      obtain ⟨pm, rfl⟩ := registry_lookup_some hlookup
      have hscript : (getPackageManager (Text.strip detected.stdout)).listScript refresh =
          (Target.direct name host creds).listScript pm refresh := by
        rw [(getPackageManager_known hlookup).1, Target.listScript]
      refine ⟨pm, rfl, by_contra fun hbad => hnone ?_⟩
      refine ⟨_, _, .tail _ (.tail _ (.head _)), .inr (.inr ⟨pm, ?_, hbad⟩)⟩
      dsimp only
      exact hscript

end Direct

section Guest

variable {replies : Nat → Call → Reply} {refresh : Bool} {node sshHost : String} {vmid : Int}
  {sshCreds : Entry}

theorem guest_listed (hgood : GuestAnswerIsGood vmid sshHost sshCreds refresh replies) {log : Log}
    {packages : List Package}
    (hok : ((Target.guest node vmid sshHost sshCreds).check refresh).outcome replies =
      (log, .ok packages)) :
    Listed (.guest node vmid sshHost sshCreds) refresh log ∧
      ¬ Failed (.guest node vmid sshHost sshCreds) refresh log := by
  obtain ⟨connection, listing, hconnect, hopens, hlisting, _, rfl⟩ := guest_check_iff.mp hok
  have hsucceeds := hgood connection listing hconnect hopens hlisting
  constructor
  · obtain ⟨scriptEnv, stderr, hreply, hstatus⟩ := hsucceeds
    exact ⟨connection, _, _, .apt, .pctShell vmid, scriptEnv, stderr, rfl, pctConnect_host hconnect,
      rfl, by simp [Target.listScript, hreply], hstatus⟩
  · rintro ⟨command, reply, hmem, hfailed⟩
    simp only [List.mem_cons, Prod.mk.injEq, reduceCtorEq, false_and, false_or, Call.run.injEq,
      List.not_mem_nil, or_false] at hmem
    obtain ⟨rfl, rfl⟩ := hmem
    rcases hfailed with hstopped | ⟨hsame, _⟩ | ⟨pm, _, hbad⟩
    · exact hstopped hsucceeds.ran
    · exact lxcListScript_ne_detect hsame
    · exact hbad hsucceeds

theorem guest_good (h : TellsFailures (.guest node vmid sshHost sshCreds) refresh replies) :
    GuestAnswerIsGood vmid sshHost sshCreds refresh replies := by
  intro connection listing hconnect hopens call hlisting
  have hok : ((Target.guest node vmid sshHost sshCreds).check refresh).outcome replies =
      (_, .ok _) :=
    guest_check_iff.mpr ⟨connection, listing, hconnect, hopens, hlisting, rfl, rfl⟩
  by_contra hbad
  obtain ⟨error, herror⟩ :=
    h.failed _ _ hok ⟨_, _, .tail _ (.head _), .inr (.inr ⟨.apt, rfl, hbad⟩)⟩
  cases herror

end Guest

/-- An empty list comes from a listing that worked and every failure is an error,
exactly when what the check gets for an answer is never that of a failed command. -/
theorem tells_failures_iff (target : Target) (refresh : Bool) (replies : Nat → Call → Reply) :
    TellsFailures target refresh replies ↔ target.AnswersAreGood refresh replies := by
  have hof : (∀ log packages, (target.check refresh).outcome replies = (log, .ok packages) →
      Listed target refresh log ∧ ¬ Failed target refresh log) →
          TellsFailures target refresh replies := by
    refine fun hlisted => ⟨fun log hok => (hlisted log [] hok).1,
      fun log result hresult hfailed => ?_⟩
    cases result with
    | error error => exact ⟨error, rfl⟩
    | ok packages => exact absurd hfailed (hlisted log packages hresult).2
  cases target with
  | direct name host creds =>
      exact ⟨direct_good, fun hgood => hof fun _ _ hok => direct_listed hgood hok⟩
  | guest node vmid sshHost sshCreds =>
      exact ⟨guest_good, fun hgood => hof fun _ _ hok => guest_listed hgood hok⟩

section RefusedSudo

/-- A host whose user is not `root`. -/
def web : Target := .direct "web" ⟨"10.0.0.8", some (.str "admin"), none, none⟩ ∅

/-- Its `sudo` asks for a password that is not stored. -/
def sudoRefused : Nat → Call → Reply
  | 0, _ => .done
  | _, _ => .refused ⟨1, "", "sudo: a password is required\n", by simp⟩

theorem refused_sudo_reads_empty : ¬ TellsFailures web true sudoRefused := by
  intro h
  obtain ⟨⟨_, _, hran⟩, _⟩ := direct_good h ⟨"10.0.0.8", .int 22, "admin", .default⟩ (.sudo none)
    ⟨"", "sudo: a password is required\n", some 1, none⟩
    ⟨"", "sudo: a password is required\n", some 1, none⟩ (by decide) rfl rfl rfl rfl
  cases hran

/-- The listing breaks off after a line. -/
def brokenListing : Nat → Call → Reply
  | 0, _ => .done
  | 1, _ => .ran (fun command => if command = "command -v apt-get" then ⟨"", 0⟩ else ⟨"", 1⟩) ""
  | _, _ => .ran (fun command => if command = "apt list --upgradable" then
      ⟨"bash/stable 5.2-3 amd64 [upgradable from: 5.2-2]\n", 100⟩ else ⟨"", 0⟩) ""

/-- What was listed until then is returned for the whole. -/
theorem broken_listing_reads_whole : ¬ TellsFailures web true brokenListing := by
  intro h
  have hapt : registry.lookup (Text.strip (Text.strip "apt\n")) = some Supported.apt.manager := rfl
  obtain ⟨_, pm, hpm, scriptEnv, stderr, hran, hstatus⟩ := direct_good h
    ⟨"10.0.0.8", .int 22, "admin", .default⟩ (.sudo none) ⟨"apt\n",
      "", some 0, none⟩ _ (by decide) rfl rfl
    rfl rfl
  obtain rfl : Supported.apt = pm := by
    rw [hapt, Option.some_inj] at hpm
    exact listScript_inj (congrArg (PackageManager.listScript · true) hpm)
  cases hran
  exact absurd hstatus (by decide)

end RefusedSudo

end Keepup.Ssh
