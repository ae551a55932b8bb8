import Keepup.Packages.Managers

/-!
What the package managers print: one line for each pending package, in the
format that the parser of that manager documents, and other lines around them.
A machine is a list of pending packages together with the status of every
command, the reboot probes included.
-/

namespace Keepup.Packages

open Lib

def markers : List String := ["__EXIT__", "__REBOOT__", "__APPLY__", "__FULL__"]

/-- A text that holds none of the markers between the sections of a listing. -/
def Unmarked (cs : List Char) : Prop := ∀ m ∈ markers, ¬ m.toList <:+: cs

instance (cs : List Char) : Decidable (Unmarked cs) :=
  inferInstanceAs (Decidable (∀ m ∈ markers, ¬ m.toList <:+: cs))

def isTokenChar (c : Char) : Bool := c.isAlphanum || "+-._~:^@,=%/".toList.contains c

/-- A name, a version, a repository or an architecture. -/
structure Token where
  text : String
  nonempty : text ≠ ""
  plain : ∀ c ∈ text.toList, isTokenChar c = true
  unmarked : Unmarked text.toList

/-- A line that no parser takes for a package: progress, a heading, a warning. -/
structure Notice where
  text : String
  plain : ∀ c ∈ text.toList, Text.isLineBreak c = false ∧ c ∉ ['[', '|', '<', '>']
  unmarked : Unmarked text.toList
  notInst : Text.startsWith (Text.strip text) "Inst " = false

section Token

theorem alphanum_toNat {c : Char} (h : c.isAlphanum = true) :
    (48 ≤ c.toNat ∧ c.toNat ≤ 57) ∨ (65 ≤ c.toNat ∧ c.toNat ≤ 90) ∨
      (97 ≤ c.toNat ∧ c.toNat ≤ 122) := by
  have hletter : c.isAlpha = (decide (c.val ≥ 'A'.val ∧ c.val ≤ 'Z'.val) ||
      (decide (c.val ≥ 'a'.val) && decide (c.val ≤ 'z'.val))) := rfl
  simp only [Char.isAlphanum, hletter, Char.isDigit, Bool.or_eq_true, Bool.and_eq_true,
    decide_eq_true_eq, ge_iff_le, UInt32.le_iff_toNat_le] at h
  have hval : c.val.toNat = c.toNat := rfl
  simp only [hval] at h
  simpa [or_assoc, or_comm, or_left_comm] using h

theorem tokenChar_toNat {c : Char} (h : isTokenChar c = true) : 33 ≤ c.toNat ∧ c.toNat ≤ 126 := by
  rcases Bool.or_eq_true_iff.mp h with halnum | hpunct
  · have := alphanum_toNat halnum
    omega
  · have hall : "+-._~:^@,=%/".toList.all (fun c => decide (33 ≤ c.toNat ∧ c.toNat ≤ 126)) =
        true := by
      decide
    simpa using List.all_eq_true.mp hall c (by simpa using hpunct)

theorem Token.isWord (t : Token) : Text.IsWord t.text := by
  refine ⟨t.nonempty, fun c hc => ?_⟩
  have hrange := tokenChar_toNat (t.plain c hc)
  simp only [Text.isSpace, Bool.or_eq_false_iff, Bool.and_eq_false_iff, decide_eq_false_iff_not,
    beq_eq_false_iff_ne]
  omega

end Token

/-- One line, with none of the markers in it. -/
structure IsLine (line : String) : Prop where
  unbroken : ∀ c ∈ line.toList, Text.isLineBreak c = false
  unmarked : Unmarked line.toList

/-- A character that ends no line and stands in no marker. -/
def isGap (c : Char) : Bool := !Text.isLineBreak c && markers.all fun m => !m.toList.contains c

/-- A text that can stand between two others. -/
def isSeparator (s : String) : Bool := s != "" && s.toList.all isGap

namespace IsLine

variable {a b : String} {l rest : List Char} {e : Char}

theorem unmarked_append (he : isGap e = true) (hl : Unmarked l) (hrest : Unmarked rest) :
    Unmarked (l ++ e :: rest) := by
  intro m hm h
  have hnot : e ∉ m.toList := by
    have hall := List.all_eq_true.mp (Bool.and_eq_true_iff.mp he).2 m hm
    simpa using hall
  rcases Text.infix_append_cons hnot h with hin | hin
  · exact hl m hm hin
  · exact hrest m hm hin

theorem unmarked_nil : Unmarked [] := by
  have hall : markers.all (fun m => !m.toList.isEmpty) = true := by decide
  intro m hm h
  have hne := List.all_eq_true.mp hall m hm
  simp [List.eq_nil_of_infix_nil h] at hne

theorem token (t : Token) : IsLine t.text := by
  refine ⟨fun c hc => ?_, t.unmarked⟩
  have hrange := tokenChar_toNat (t.plain c hc)
  simp only [Text.isLineBreak, Bool.or_eq_false_iff, Bool.and_eq_false_iff, decide_eq_false_iff_not,
    beq_eq_false_iff_ne]
  omega

theorem notice (n : Notice) : IsLine n.text := ⟨fun c hc => (n.plain c hc).1, n.unmarked⟩

theorem unmarked_lead {es : List Char} (hes : ∀ c ∈ es, isGap c = true) (h : Unmarked l) :
    Unmarked (es ++ l) := by
  induction es with
  | nil => exact h
  | cons c es ih =>
      have htail := ih fun d hd => hes d (by simp [hd])
      exact unmarked_append (l := []) (hes c (by simp)) unmarked_nil htail

theorem gap_unbroken {es : List Char} (hes : ∀ c ∈ es, isGap c = true) :
    ∀ c ∈ es, Text.isLineBreak c = false := by
  intro c hc
  simpa using (Bool.and_eq_true_iff.mp (hes c hc)).1

/-- A gap before a line. -/
theorem lead (sep : String) (hsep : sep.toList.all isGap = true) (hb : IsLine b) :
    IsLine (sep ++ b) := by
  have hgap := List.all_eq_true.mp hsep
  constructor
  · intro c hc
    rw [String.toList_append, List.mem_append] at hc
    exact hc.elim (gap_unbroken hgap c) (hb.unbroken c)
  · rw [String.toList_append]
    exact unmarked_lead hgap hb.unmarked

/-- Two lines with a separator between them are one line. -/
theorem join (ha : IsLine a) (sep : String) (hsep : isSeparator sep = true) (hb : IsLine b) :
    IsLine (a ++ (sep ++ b)) := by
  obtain ⟨hne, hall⟩ := Bool.and_eq_true_iff.mp hsep
  have hgap := List.all_eq_true.mp hall
  constructor
  · intro c hc
    rw [String.toList_append, List.mem_append] at hc
    exact hc.elim (ha.unbroken c) ((lead sep hall hb).unbroken c)
  · obtain ⟨e, es, hcs⟩ := List.exists_cons_of_ne_nil (by simpa using hne : sep.toList ≠ [])
    rw [hcs] at hgap
    have hes : ∀ c ∈ es, isGap c = true := fun c hc => hgap c (by simp [hc])
    have hrest := unmarked_lead hes hb.unmarked
    rw [String.toList_append, String.toList_append, hcs, List.cons_append]
    exact unmarked_append (hgap e (by simp)) ha.unmarked hrest

theorem empty : IsLine "" := ⟨by simp, unmarked_nil⟩

/-- A separator at the end of a line. -/
theorem close (ha : IsLine a) (sep : String) (hsep : isSeparator sep = true) :
    IsLine (a ++ sep) := by
  have hline := join ha sep hsep empty
  rwa [String.append_empty] at hline

end IsLine

instance (s : String) : Decidable (IsLine s) :=
  decidable_of_iff ((s.toList.all (fun c => !Text.isLineBreak c) &&
      markers.all fun m => !decide (m.toList <:+: s.toList)) = true)
    ⟨fun h => ⟨by simp_all, by simpa [Unmarked] using (Bool.and_eq_true_iff.mp h).2⟩,
      fun h => by simpa using ⟨h.unbroken, h.unmarked⟩⟩

theorem isSeparator_blanks (n : Nat) : isSeparator (Text.blanks (n + 1)) = true := by
  have hblank : isGap ' ' = true := by decide
  simp [isSeparator, Text.blanks, List.replicate_succ, hblank]

section Apt

variable {native name suite version arch old label : String}

/-- A line of `apt list --upgradable`, which has no architecture at the name. -/
def aptLine (name suite version arch old : String) : String :=
  name ++ ("/" ++ suite ++ " " ++ version ++ " " ++ arch ++ " [upgradable from: " ++ old ++ "]")

/-- Packages for every architecture count as native. -/
def isForeign (native arch : String) : Bool := arch != native && arch != "all"

/-- A package as a simulation writes it. -/
def aptLabel (native name arch : String) : String :=
  if isForeign native arch then name ++ (":" ++ arch) else name

/-- A line of a simulation that installs a package. -/
def instLine (native name suite version arch old : String) : String :=
  "Inst" ++ (" " ++ (aptLabel native name arch ++ (" " ++ ("[" ++ old ++ "] (" ++ version ++ " " ++
    suite ++ " [" ++ arch ++ "])"))))

theorem aptLine_isLine (h : ∀ field ∈ [name, suite, version, arch, old], IsLine field) :
    IsLine (aptLine name suite version arch old) := by
  have hold := (h old (by simp)).close "]" (by decide)
  have harch := (h arch (by simp)).join " [upgradable from: " (by decide) hold
  have hversion := (h version (by simp)).join " " (by decide) harch
  have hsuite := (h suite (by simp)).join " " (by decide) hversion
  have hname := (h name (by simp)).join "/" (by decide) hsuite
  simpa [aptLine, String.append_assoc] using hname

theorem aptLabel_isLine (hname : IsLine name) (harch : IsLine arch) :
    IsLine (aptLabel native name arch) := by
  rw [aptLabel]
  split
  · exact hname.join ":" (by decide) harch
  · exact hname

theorem instLine_isLine (h : ∀ field ∈ [name, suite, version, arch, old], IsLine field) :
    IsLine (instLine native name suite version arch old) := by
  have harch := (h arch (by simp)).close "])" (by decide)
  have hsuite := (h suite (by simp)).join " [" (by decide) harch
  have hversion := (h version (by simp)).join " " (by decide) hsuite
  have hold := (h old (by simp)).join "] (" (by decide) hversion
  have hopen := IsLine.lead "[" (by decide) hold
  have hlabel := (aptLabel_isLine (h name (by simp)) (h arch (by simp)) :
    IsLine (aptLabel native name arch)).join " " (by decide) hopen
  have hword : IsLine "Inst" := by decide
  have hinst := hword.join " " (by decide) hlabel
  simpa [instLine, String.append_assoc] using hinst

/-- The label of a package is a name without a `:` exactly for the native one. -/
theorem aptLabel_eq_iff {other : String} (hother : ':' ∉ other.toList) :
    aptLabel native name arch = other ↔ isForeign native arch = false ∧ name = other := by
  rw [aptLabel]
  cases isForeign native arch with
  | false => simp
  | true =>
      have hne : name ++ (":" ++ arch) ≠ other := by
        rintro rfl
        exact hother (by simp)
      simp [hne]

end Apt

/-- A package with an update. `applies` says whether the upgrade will install it,
and `planned` whether a full upgrade would; `gap` is the room between columns. -/
structure Pending where
  name : Token
  current : Token
  available : Token
  origin : Token
  arch : Token
  name_plain : '/' ∉ name.text.toList
  arch_plain : '.' ∉ arch.text.toList
  applies : Bool
  planned : Bool
  gap : Nat

namespace Pending

variable (p : Pending)

def aptRow : String :=
  aptLine p.name.text p.origin.text p.available.text p.arch.text p.current.text

def instRow (native : String) : String :=
  instLine native p.name.text p.origin.text p.available.text p.arch.text p.current.text

def dnfRow : String :=
  (p.name.text ++ "." ++ p.arch.text) ++
    (Text.blanks (p.gap + 1) ++ (p.available.text ++ (Text.blanks (p.gap + 1) ++ p.origin.text)))

def cell (text : Token) : String := " " ++ text.text ++ Text.blanks (p.gap + 1)

def zypperRow : String :=
  "v |" ++ p.cell p.origin ++ "|" ++ p.cell p.name ++ "|" ++ p.cell p.current ++ "|" ++
    p.cell p.available ++ "|" ++ p.cell p.arch

def pacmanRow : String :=
  p.name.text ++ (" " ++ (p.current.text ++ (" " ++ ("->" ++ (" " ++ (p.available.text ++
    if p.applies then "" else " [ignored]"))))))

def apkRow : String :=
  (p.name.text ++ "-" ++ p.current.text) ++
    (Text.blanks (p.gap + 1) ++ ("<" ++ (Text.blanks (p.gap + 1) ++ p.available.text)))

end Pending

namespace Pending

variable (p : Pending)

theorem field_isLine : ∀ field ∈ [p.name.text, p.origin.text, p.available.text, p.arch.text,
    p.current.text], IsLine field := by
  intro field hfield
  simp only [List.mem_cons, List.not_mem_nil, or_false] at hfield
  rcases hfield with rfl | rfl | rfl | rfl | rfl
  all_goals exact IsLine.token _

theorem aptRow_isLine : IsLine p.aptRow := aptLine_isLine p.field_isLine

theorem instRow_isLine (native : String) :
    IsLine (p.instRow native) := instLine_isLine p.field_isLine

theorem dnfRow_isLine : IsLine p.dnfRow := by
  have hgap := isSeparator_blanks p.gap
  have havailable := (IsLine.token p.available).join _ hgap (IsLine.token p.origin)
  have harch := (IsLine.token p.arch).join _ hgap havailable
  have hname := (IsLine.token p.name).join "." (by decide) harch
  simpa [dnfRow, String.append_assoc] using hname

theorem cell_isLine (t : Token) : IsLine (p.cell t) := by
  have hend := (IsLine.token t).close _ (isSeparator_blanks p.gap)
  have hcell := IsLine.lead " " (by decide) hend
  simpa [cell, String.append_assoc] using hcell

theorem zypperRow_isLine : IsLine p.zypperRow := by
  have hbar : isSeparator "|" = true := by decide
  have havailable := (p.cell_isLine p.available).join "|" hbar (p.cell_isLine p.arch)
  have hcurrent := (p.cell_isLine p.current).join "|" hbar havailable
  have hname := (p.cell_isLine p.name).join "|" hbar hcurrent
  have horigin := (p.cell_isLine p.origin).join "|" hbar hname
  have hrow := IsLine.lead "v |" (by decide) horigin
  simpa [zypperRow, String.append_assoc] using hrow

theorem pacmanRow_isLine : IsLine p.pacmanRow := by
  have hignored : IsLine (p.available.text ++ if p.applies then "" else " [ignored]") := by
    cases p.applies
    · exact (IsLine.token p.available).close _ (by decide)
    · simpa using IsLine.token p.available
  have hblank := IsLine.lead " " (by decide) hignored
  have harrow := IsLine.lead "->" (by decide) hblank
  have hcurrent := (IsLine.token p.current).join " " (by decide) harrow
  exact (IsLine.token p.name).join " " (by decide) hcurrent

theorem apkRow_isLine : IsLine p.apkRow := by
  have hgap := isSeparator_blanks p.gap
  have sign : IsLine "<" := by decide
  have hsign := sign.join _ hgap (IsLine.token p.available)
  have hcurrent := (IsLine.token p.current).join _ hgap hsign
  have hname := (IsLine.token p.name).join "-" (by decide) hcurrent
  simpa [apkRow, String.append_assoc] using hname

end Pending

inductive Supported where
  | apt
  | dnf
  | yum
  | zypper
  | pacman
  | apk
deriving DecidableEq

def Supported.manager : Supported → PackageManager
  | apt => aptPackageManager
  | dnf => dnfPackageManager
  | yum => yumPackageManager
  | zypper => zypperPackageManager
  | pacman => pacmanPackageManager
  | apk => apkPackageManager

/-- The supported package managers are those of the registry. -/
theorem mem_registry (name : String) (manager : PackageManager) :
    (name, manager) ∈ registry ↔ ∃ pm : Supported, pm.manager = manager ∧ manager.name = name := by
  constructor
  · intro h
    simp only [registry, List.mem_cons, List.not_mem_nil, or_false, Prod.mk.injEq] at h
    rcases h with ⟨rfl, rfl⟩ | ⟨rfl, rfl⟩ | ⟨rfl, rfl⟩ | ⟨rfl, rfl⟩ | ⟨rfl, rfl⟩ | ⟨rfl, rfl⟩
    · exact ⟨.apt, rfl, rfl⟩
    · exact ⟨.dnf, rfl, rfl⟩
    · exact ⟨.yum, rfl, rfl⟩
    · exact ⟨.zypper, rfl, rfl⟩
    · exact ⟨.pacman, rfl, rfl⟩
    · exact ⟨.apk, rfl, rfl⟩
  · rintro ⟨pm, rfl, rfl⟩
    cases pm <;> simp [Supported.manager, registry, aptPackageManager, dnfPackageManager,
      yumPackageManager, zypperPackageManager, pacmanPackageManager, apkPackageManager]

def zypperHeading : List String :=
  ["S | Repository | Name | Current Version | Available Version | Arch",
    "--+------------+------+-----------------+-------------------+-----"]

/-- A host with this package manager, and an architecture of its own. The name of a
Debian package holds no `:`, and an installed version of Alpine begins with a
digit. -/
structure Machine (pm : Supported) where
  native : String
  pending : List Pending
  notices : List Notice
  status : String → Nat
  names : pm = .apt → ∀ p ∈ pending, ':' ∉ p.name.text.toList
  versions : pm = .apk → ∀ p ∈ pending, ∃ d cs, p.current.text.toList = d :: cs ∧ d.isDigit = true

namespace Machine

variable {pm : Supported} (m : Machine pm)

def plan (install : Pending → Bool) : List String :=
  m.notices.map Notice.text ++ (m.pending.filter install).map fun p => p.instRow m.native

/-- The lines that a command prints. -/
def printed (command : String) : List String :=
  if command = "apt list --upgradable" then "Listing..." :: m.pending.map Pending.aptRow
  else if command = "apt-get -s upgrade" then m.plan Pending.applies
  else if command = "apt-get -s full-upgrade" then m.plan Pending.planned
  else if command = "dnf check-update -q" ∨ command = "yum check-update -q" then
    "" :: m.pending.map Pending.dnfRow
  else if command = "zypper -q lu" then
    if m.pending = [] then ["No updates found."] else zypperHeading ++
      m.pending.map Pending.zypperRow
  else if command = "pacman -Qu" then m.pending.map Pending.pacmanRow
  else if command = "apk version -q -l '<'" then m.pending.map Pending.apkRow
  else if command ∈ ["apt-get update -qq", "zypper -q refresh",
      "pacman -Sy -q", "apk update -q"] then
    m.notices.map Notice.text
  else []

theorem plan_isLine (install : Pending → Bool) : ∀ l ∈ m.plan install, IsLine l := by
  intro l hl
  rcases List.mem_append.mp hl with h | h
  · obtain ⟨notice, _, rfl⟩ := List.mem_map.mp h
    exact IsLine.notice notice
  · obtain ⟨p, _, rfl⟩ := List.mem_map.mp h
    exact p.instRow_isLine m.native

theorem rows_isLine {row : Pending → String} (hrow : ∀ p, IsLine (row p)) :
    ∀ l ∈ m.pending.map row, IsLine l := by
  intro l hl
  obtain ⟨p, _, rfl⟩ := List.mem_map.mp hl
  exact hrow p

theorem notices_isLine : ∀ l ∈ m.notices.map Notice.text, IsLine l := by
  intro l hl
  obtain ⟨notice, _, rfl⟩ := List.mem_map.mp hl
  exact IsLine.notice notice

def env : Script.Env := fun command => ⟨Text.unlines (m.printed command), m.status command⟩

/-- What `list_cmd` prints on this machine. -/
def listing (refresh : Bool) : String := (Script.outcome m.env (pm.manager.listScript refresh)).out

/-- What the reboot probe says by its own convention. -/
def probeSays : Bool :=
  match pm with
  | .apt => m.status "[ -f /var/run/reboot-required ]" = 0
  | .dnf | .yum => m.status "needs-restarting -r" = 1
  | .zypper => m.status "zypper needs-rebooting" = 102
  | .pacman | .apk => false

def kernelApplied : Bool := m.pending.any fun p => p.applies && isKernelPackage p.name.text

/-- A simulation writes the name of a native package alone. -/
def nativeKernelApplied : Bool :=
  m.pending.any fun p => p.applies && !isForeign m.native p.arch.text && isKernelPackage p.name.text

def kernelListed : Bool := m.pending.any fun p => isKernelPackage p.name.text

end Machine

end Keepup.Packages
