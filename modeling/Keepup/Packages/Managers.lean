import Keepup.Lib.Script
import Keepup.Text.Lines

/-!
The package managers. Each one has a script that lists the pending updates, a
script that installs them, and a parser for what the first one prints.
-/

namespace Keepup.Packages

open Lib

/-- One pending update. Only APT tells whether it is held back, and why. -/
structure Package where
  name : String
  current : String
  available : String
  heldBack : Option Bool := none
  heldBackReason : Option String := none
deriving DecidableEq

def aptConffileOpts : String :=
  "-o Dpkg::Options::=--force-confdef -o Dpkg::Options::=--force-confold"

def kernelNames : List String := ["linux", "linux-lts", "linux-zen", "linux-hardened"]

def isKernelPackage (name : String) : Bool :=
  kernelNames.contains name || Text.startsWith name "kernel" ||
    Text.startsWith name "linux-image" || Text.startsWith name "linux-headers"

def kernelUpdateIn (packages : List Package) : Bool := packages.any fun p => isKernelPackage p.name

/-- The package that a line of `apt-get -s upgrade` installs. -/
def instName (line : String) : Option String :=
  if Text.startsWith (Text.strip line) "Inst " then (Text.split (Text.strip line))[1]? else none

def aptApplicableNames (simulateStdout : String) : List String :=
  (Text.splitLines simulateStdout).filterMap instName

/-- What is known of the plans of `upgrade` and of `full-upgrade`. -/
structure Plans where
  applicable : Option (List String) := none
  fullNames : Option (List String) := none

def Plans.heldBack (plans : Plans) (name : String) : Bool :=
  plans.applicable.elim false fun names => !names.contains name

/-- Why a package is held back, where both plans are known. -/
def Plans.reason (plans : Plans) (name : String) : Option String :=
  if plans.heldBack name then
    plans.fullNames.map fun names => if names.contains name then "needs_full_upgrade" else "phased"
  else none

structure PackageManager where
  name : String
  upgradeOkCodes : List Int := [0]
  listScript : Bool → Script
  upgradeScript : Script
  parse : String → List Package × Bool
  recoveryHint : String := "SSH into the host and check the package database before retrying."

def PackageManager.listCmd (pm : PackageManager) (refresh : Bool) : String :=
  (pm.listScript refresh).text

def PackageManager.upgradeCmd (pm : PackageManager) : String := pm.upgradeScript.text

/-- A listing after a refresh of the package database, unless that is skipped. -/
def refreshed (refresh : Bool) (sync : String) (query : Script) (rest : List Script) : Script :=
  if refresh then Script.chain (.tool sync .dropErrors) (query :: rest) else Script.chain query rest

section Apt

def aptListScript (refresh : Bool) : Script :=
  refreshed refresh "apt-get update -qq" (.tool "apt list --upgradable" .dropErrors)
    [.echo "__APPLY__", .tool "apt-get -s upgrade" .dropErrors, .echo "__FULL__",
      .tool "apt-get -s full-upgrade" .dropErrors, .echo "__REBOOT__",
      .answer (.tool "[ -f /var/run/reboot-required ]" .none)]

def aptUpgrade : String :=
  "DEBIAN_FRONTEND=noninteractive apt-get " ++ aptConffileOpts ++ " upgrade -y"

/-- The listing and the plans in the part of the output before the reboot flag. -/
def aptPlans (body : String) : String × Plans :=
  match Text.cut "__APPLY__" body with
  | none => (body, {})
  | some (listPart, applyPart) =>
      match Text.cut "__FULL__" applyPart with
      | none => (listPart, { applicable := some (aptApplicableNames applyPart) })
      | some (applyPart, fullPart) =>
          (listPart, ⟨some (aptApplicableNames applyPart), some (aptApplicableNames fullPart)⟩)

def aptPackage (plans : Plans) (line : String) : Option Package :=
  if Text.isIn "[upgradable from:" line then
    let name := Text.before '/' line
    let parts := Text.split line
    some {
      name
      available := parts.getD 1 "?"
      current := if 3 < parts.length then Text.rstripChar ']' (parts.getLastD "?") else "?"
      heldBack := some (plans.heldBack name)
      heldBackReason := plans.reason name }
  else none

/-- The output without its last section, and whether that one begins with `yes`. -/
def rebootSection (stdout : String) : String × Bool :=
  match Text.cut "__REBOOT__" stdout with
  | some (body, rebootPart) => (body, Text.startsWith (Text.strip rebootPart) "yes")
  | none => (stdout, false)

def aptParse (stdout : String) : List Package × Bool :=
  let (body, rebootRequired) := rebootSection stdout
  let (listPart, plans) := aptPlans body
  let packages := (Text.splitLines listPart).filterMap (aptPackage plans)
  let applicablePackages := packages.filter fun p => !p.heldBack.getD false
  (packages, rebootRequired || kernelUpdateIn applicablePackages)

def aptPackageManager : PackageManager where
  name := "apt"
  listScript := aptListScript
  upgradeScript := .tool aptUpgrade .merge
  parse := aptParse
  recoveryHint := "SSH into the host and run `sudo dpkg --configure -a` to finish any " ++
    "interrupted package configuration, then re-run the upgrade."

end Apt

section Dnf

/-- The listing of `dnf`, and of `yum`, which takes the same commands. -/
def dnfListScript (tool : String) : Script :=
  Script.chain (.tool (tool ++ " check-update -q") .dropErrors)
    [.echoStatus "__EXIT__", .echo "__REBOOT__", .tool "needs-restarting -r" .dropAll,
      .echoStatus ""]

def dnfPackage (line : String) : Option Package :=
  let line := Text.strip line
  if line = "" ∨ Text.startsWith line "Last metadata" ∨ Text.startsWith line "Obsoleting" then none
  else
    match Text.split line with
    | nameArch :: available :: _ :: _ =>
        some { name := Text.beforeLast '.' nameArch, current := "installed", available }
    | _ => none

/-- The second piece of the output between its `__EXIT__` markers. -/
def dnfRebootBlock (afterExit : String) : String :=
  match Text.cut "__REBOOT__" (((Text.cut "__EXIT__" afterExit).map Prod.fst).getD afterExit) with
  | some (_, block) => Text.strip block
  | none => ""

def dnfParse (stdout : String) : List Package × Bool :=
  let (updateBlock, rebootRequired) :=
    match Text.cut "__EXIT__" stdout with
    | some (updateBlock, afterExit) =>
        (updateBlock, Text.startsWith (Text.strip (dnfRebootBlock afterExit)) "1")
    | none => (stdout, false)
  let packages := (Text.splitLines updateBlock).filterMap dnfPackage
  (packages, rebootRequired || kernelUpdateIn packages)

/-- The hint after an interrupted transaction of `dnf` or `yum`. -/
def historyHint (tool : String) : String :=
  "SSH into the host and run `" ++ tool ++ " history` to inspect the interrupted " ++
    "transaction; complete or undo it before re-running the upgrade."

def dnfPackageManager : PackageManager where
  name := "dnf"
  listScript := fun _ => dnfListScript "dnf"
  upgradeScript := .tool "dnf upgrade -y" .merge
  parse := dnfParse
  recoveryHint := historyHint "dnf"

def yumPackageManager : PackageManager where
  name := "yum"
  listScript := fun _ => dnfListScript "yum"
  upgradeScript := .tool "yum upgrade -y" .merge
  parse := dnfParse
  recoveryHint := historyHint "yum"

end Dnf

section Zypper

def zypperListScript (refresh : Bool) : Script :=
  refreshed refresh "zypper -q refresh" (.tool "zypper -q lu" .dropErrors)
    [.echo "__REBOOT__", .answer (.tool "zypper needs-rebooting" .dropAll)]

def zypperPackage (line : String) : Option Package :=
  match (Text.splitOn '|' line).map Text.strip with
  | status :: _ :: name :: current :: available :: _ :: _ =>
      if (status = "v" ∨ status = "i" ∨ status = ">") ∧ name ≠ "" ∧ available ≠ "" then
        some { name, current, available }
      else none
  | _ => none

def zypperParse (stdout : String) : List Package × Bool :=
  let (zypperPart, rebootRequired) := rebootSection stdout
  let packages := (Text.splitLines zypperPart).filterMap zypperPackage
  (packages, rebootRequired || kernelUpdateIn packages)

def zypperPackageManager : PackageManager where
  name := "zypper"
  upgradeOkCodes := [0, 102, 103]
  listScript := zypperListScript
  upgradeScript := .cond
    (.tool "grep -qiE 'tumbleweed|slowroll' /etc/os-release" .dropErrors)
    (.tool "zypper --non-interactive dup" .merge) (.tool "zypper --non-interactive up" .merge)
  parse := zypperParse
  recoveryHint := "SSH into the host and run `zypper verify` to check for broken " ++
    "dependencies before re-running the upgrade."

end Zypper

section Pacman

def pacmanListScript (refresh : Bool) : Script :=
  refreshed refresh "pacman -Sy -q" (.tool "pacman -Qu" .dropErrors) []

def pacmanPackage (line : String) : Option Package :=
  let line := Text.strip line
  if line = "" ∨ Text.startsWith line "::" ∨ Text.isIn "->" line = false then none
  else
    match Text.split line with
    | name :: current :: _ :: available :: _ => some { name, current, available }
    | _ => none

def pacmanParse (stdout : String) : List Package × Bool :=
  let packages := (Text.splitLines stdout).filterMap pacmanPackage
  (packages, kernelUpdateIn packages)

def pacmanPackageManager : PackageManager where
  name := "pacman"
  listScript := pacmanListScript
  upgradeScript := .tool "pacman -Syu --noconfirm" .merge
  parse := pacmanParse
  recoveryHint := "SSH into the host; if `/var/lib/pacman/db.lck` remains, remove it, " ++
    "then run `pacman -Su` to complete the partial upgrade."

end Pacman

section Apk

def apkListScript (refresh : Bool) : Script :=
  refreshed refresh "apk update -q" (.tool "apk version -q -l '<'" .dropErrors) []

/-- The first `-` after the first character that has a digit behind it: what
stands before it, and what stands behind it. -/
def splitVersion : List Char → Option (List Char × List Char)
  | c :: '-' :: d :: cs =>
      if d.isDigit then some ([c], d :: cs)
      else (splitVersion ('-' :: d :: cs)).map fun parts => (c :: parts.1, parts.2)
  | c :: cs => (splitVersion cs).map fun parts => (c :: parts.1, parts.2)
  | [] => none

/-- Name and version of an entry such as `bash-5.1.16-r2`. -/
def nameVersion (pkgVer : String) : String × String :=
  match splitVersion pkgVer.toList with
  | some (name, current) => (String.ofList name, String.ofList current)
  | none => (pkgVer, "?")

def apkPackage (line : String) : Option Package :=
  let line := Text.strip line
  if Text.isIn "<" line = false ∨ Text.startsWith line "fetch" ∨ Text.startsWith line "OK" then none
  else
    match Text.split line with
    | pkgVer :: sign :: available :: _ =>
        if sign = "<" then
          let (name, current) := nameVersion pkgVer
          some { name, current, available }
        else none
    | _ => none

def apkParse (stdout : String) : List Package × Bool :=
  let packages := (Text.splitLines stdout).filterMap apkPackage
  (packages, kernelUpdateIn packages)

def apkPackageManager : PackageManager where
  name := "apk"
  listScript := apkListScript
  upgradeScript := .tool "apk upgrade" .merge
  parse := apkParse
  recoveryHint := "SSH into the host and run `apk fix` to repair any partially " ++
    "installed packages before re-running the upgrade."

end Apk

def unknownPackageManager (name : String) : PackageManager where
  name := name
  listScript := fun _ => .echo "Package manager not supported"
  upgradeScript := .echo "Package manager not supported"
  parse := fun _ => ([], false)

def registry : List (String × PackageManager) :=
  [("apt", aptPackageManager), ("dnf", dnfPackageManager), ("yum", yumPackageManager),
    ("zypper", zypperPackageManager), ("pacman", pacmanPackageManager), ("apk", apkPackageManager)]

def getPackageManager (name : String) : PackageManager :=
  (registry.lookup (Text.strip name)).getD (unknownPackageManager (Text.strip name))

/-- Print the name of the first package manager that the host has. -/
def detectScript : Script :=
  let probe (command name : String) : Script :=
    .both (.both (.tool ("command -v " ++ command) .dropAll) (.echo name)) .exit
  Script.chain (probe "apt-get" "apt") [probe "dnf   " "dnf", probe "yum   " "yum",
    probe "zypper" "zypper", probe "pacman" "pacman", probe "apk   " "apk", .echo "unknown"]

end Keepup.Packages
