import Keepup.Lib.Script
import Keepup.Text.Lines

/-!
The reboot check of a Proxmox node: what its probe asks, how the answer is read,
and which kernel the node will boot next.
-/

namespace Keepup.Kernel

open Lib

def nodeKernelProbe :
    Script := .tool ("echo \"RUNNING $(uname -r)\"; echo \"GRUBDEFAULT $(sed -n " ++
    "'s/^[[:space:]]*GRUB_DEFAULT=//p' /etc/default/grub 2>/dev/null | head " ++
    "-1 | tr -d '\\\"')\"; echo \"SAVEDENTRY $(sed -n 's/^saved_entry=//p' " ++
    "/boot/grub/grubenv 2>/dev/null)\"; echo \"PIN $(timeout -k 2 10 " ++
    "proxmox-boot-tool kernel list 2>/dev/null | awk '/Manually selected " ++
    "kernels:/\x7bm=1;next\x7d /Automatically selected/\x7bm=0\x7d m && $1 && " ++
    "$1!=\\\"None.\\\"\x7bprint $1; exit\x7d')\"; for k in /boot/vmlinuz-*; do [ -e " ++
    "\"$k\" ] && echo \"KERNEL $\x7bk#/boot/vmlinuz-\x7d\"; done") .none

/-- What the probe found out. -/
structure Facts where
  running : String := ""
  grubDefault : String := ""
  savedEntry : String := ""
  pin : String := ""
  kernels : List String := []
deriving DecidableEq

/-- The first word of a line and the rest of it, when there are both. -/
def keyValue (line : String) : Option (String × String) :=
  let rest := line.toList.dropWhile Text.isSpace
  let value := Text.strip (String.ofList (rest.dropWhile fun c => !Text.isSpace c))
  if value = "" then none
  else some (String.ofList (rest.takeWhile fun c => !Text.isSpace c), value)

def readFact (facts : Facts) (line : String) : Facts :=
  match keyValue line with
  | none => facts
  | some (key, value) =>
      if key = "RUNNING" then { facts with running := value }
      else if key = "GRUBDEFAULT" then { facts with grubDefault := value }
      else if key = "SAVEDENTRY" then { facts with savedEntry := value }
      else if key = "PIN" then { facts with pin := value }
      else if key = "KERNEL" then { facts with kernels := facts.kernels ++ [value] }
      else facts

def parseKernelProbe (stdout : String) : Facts := (Text.splitLines stdout).foldl readFact {}

section Version

/-- The text without every occurrence of a part. -/
def deleteChars (part : List Char) (fuel : Nat) (cs : List Char) : List Char :=
  match fuel, Text.cutChars part cs with
  | fuel + 1, some (before, after) => before ++ deleteChars part fuel after
  | _, _ => cs

/-- Digits with single underscores between them. -/
def digitsOf : List Char → Option (List Char)
  | [] => none
  | [c] => if c.isDigit then some [c] else none
  | c :: '_' :: cs => if c.isDigit then (digitsOf cs).map (c :: ·) else none
  | c :: cs => if c.isDigit then (digitsOf cs).map (c :: ·) else none

def natOf (digits : List Char) : Nat := digits.foldl (fun n c => 10 * n + (c.toNat - 48)) 0

/-- `int(s)`, `none` where it raises. -/
def intOf (s : String) : Option Int :=
  match (Text.strip s).toList with
  | '-' :: cs => (digitsOf cs).map fun ds => -(natOf ds : Int)
  | '+' :: cs => (digitsOf cs).map fun ds => (natOf ds : Int)
  | cs => (digitsOf cs).map fun ds => (natOf ds : Int)

/-- A release as numbers, `[0]` where it cannot be parsed. -/
def kernelVersionTuple (release : String) : List Int :=
  let plain := String.ofList (deleteChars "-pve".toList release.toList.length release.toList)
  let main := Text.before '-' plain
  let build := (Text.cut "-" plain).map Prod.snd
  match (Text.splitOn '.' main).mapM intOf, build.elim (some 0) intOf with
  | some nums, some n => nums ++ [n]
  | _, _ => [0]

/-- The newest of the releases, the first one of equal releases. -/
def newest : List String → String
  | [] => ""
  | kernel :: kernels => kernels.foldl (fun best k =>
      if kernelVersionTuple best < kernelVersionTuple k then k else best) kernel

end Version

section NextBoot

/-- A number and what follows it. -/
def number (cs : List Char) : Option (List Char × List Char) :=
  let digits := cs.takeWhile Char.isDigit
  if digits = [] then none else some (digits, cs.dropWhile Char.isDigit)

/-- A release of the form `6.17.13-3-pve` at the beginning of a text. -/
def matchRelease (cs : List Char) : Option (List Char × List Char) := do
  let (major, cs) ← number cs
  let cs ← if cs.head? = some '.' then some (cs.drop 1) else none
  let (minor, cs) ← number cs
  let cs ← if cs.head? = some '.' then some (cs.drop 1) else none
  let (patch, cs) ← number cs
  let cs ← if cs.head? = some '-' then some (cs.drop 1) else none
  let (build, cs) ← number cs
  if "-pve".toList.isPrefixOf cs then
    some (major ++ '.' :: minor ++ '.' :: patch ++ '-' :: build ++ "-pve".toList, cs.drop 4)
  else none

/-- The releases that are named in a text, from left to right. -/
def findReleases : Nat → List Char → List String
  | 0, _ => []
  | _ + 1, [] => []
  | fuel + 1, c :: cs =>
      match matchRelease (c :: cs) with
      | some (release, rest) => String.ofList release :: findReleases fuel rest
      | none => findReleases fuel cs

/-- The release that the bootloader will select, empty if it is not known. -/
def resolveNextBootKernel (facts : Facts) : String :=
  let saved := if facts.grubDefault = "saved"
    then (findReleases facts.savedEntry.toList.length facts.savedEntry.toList).getLast? else none
  if facts.pin ≠ "" then facts.pin else saved.getD (newest facts.kernels)

/-- Whether a node needs a reboot, or the error that the probe failed. -/
def nodeRebootRequired (stdout : String) : Except String Bool :=
  let facts := parseKernelProbe stdout
  if facts.running = "" then .error "Node kernel probe returned no running kernel"
  else
    let nextBoot := resolveNextBootKernel facts
    .ok (nextBoot != "" && decide (kernelVersionTuple facts.running < kernelVersionTuple nextBoot))

example :
    nodeRebootRequired "RUNNING 6.8.4-2-pve\nPIN \nKERNEL 6.8.4-2-pve\nKERNEL 6.8.12-1-pve\n" =
    .ok true := by decide +kernel

end NextBoot

end Keepup.Kernel
