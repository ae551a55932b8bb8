import Keepup.Packages.RebootFlag

/-!
The listing of `dnf check-update`, and of `yum`. Its rows come in two sections, the updates and,
below a header, the packages that obsolete others together with those they replace. The parser
passes over the header, and reads the rows of both sections.
-/

namespace Keepup.Packages

open Lib

section Listing

/-- A row `name.arch version repo`. The columns may be padded, and the row indented. -/
structure UpdateRow where
  name : String
  arch : String
  version : String
  repo : String
  indent : Nat := 0
  gap : Nat := 0
  repoGap : Nat := 0
  name_word : Text.IsWord name
  arch_solid : ∀ c ∈ arch.toList, Text.isSpace c = false ∧ c ≠ '.'
  version_word : Text.IsWord version
  repo_word : Text.IsWord repo

namespace UpdateRow

variable (r : UpdateRow)

def nameArch : String := r.name ++ ("." ++ r.arch)

def text : String :=
  Text.blanks r.indent ++ (r.nameArch ++
    (Text.blanks (r.gap + 1) ++ (r.version ++ (Text.blanks (r.repoGap + 1) ++ r.repo))))

def package : Package where
  name := r.name
  current := "installed"
  available := r.version

end UpdateRow

/-- A line of a section. -/
inductive CheckLine where
  | row (row : UpdateRow)
  | blank (text : String) (spaces : ∀ c ∈ text.toList, Text.isSpace c = true)
      (unbroken : ∀ c ∈ text.toList, Text.isLineBreak c = false)
  | metadata (text : String) (lead : Text.startsWith (Text.strip text) "Last metadata" = true)
      (unbroken : ∀ c ∈ text.toList, Text.isLineBreak c = false)

def CheckLine.text : CheckLine → String
  | .row r => r.text
  | .blank text _ _ => text
  | .metadata text _ _ => text

def CheckLine.row? : CheckLine → Option UpdateRow
  | .row r => some r
  | .blank _ _ _ | .metadata _ _ _ => none

def rowsOf (lines : List CheckLine) : List UpdateRow := lines.filterMap CheckLine.row?

/-- What `check-update` prints, with its status and that of the reboot probe. -/
structure CheckUpdate where
  updates : List CheckLine
  obsoleting : Option (List CheckLine)
  status : Nat
  probe : Nat

namespace CheckUpdate

variable (check : CheckUpdate)

def lines : List String :=
  check.updates.map CheckLine.text ++
    check.obsoleting.elim [] fun lines => "Obsoleting Packages" :: lines.map CheckLine.text

/-- The rows of both sections, from top to bottom. -/
def rows : List UpdateRow := rowsOf check.updates ++ rowsOf (check.obsoleting.getD [])

def env : Script.Env := fun command =>
  if command = "needs-restarting -r" then ⟨"", check.probe⟩
    else ⟨Text.unlines check.lines, check.status⟩

/-- The output of the whole script, for `dnf` or `yum`. -/
def output (tool : String) : String := (Script.outcome check.env (dnfListScript tool)).out

end CheckUpdate

end Listing

section Reading

variable {r : UpdateRow}

theorem UpdateRow.nameArch_isWord : Text.IsWord r.nameArch := by
  refine ⟨Text.append_ne_empty r.name_word.nonempty _, fun c hc => ?_⟩
  simp only [nameArch, String.toList_append, List.mem_append] at hc
  rcases hc with hc | hc | hc
  · exact r.name_word.solid c hc
  · have hdot : ∀ c ∈ ".".toList, Text.isSpace c = false := by decide
    exact hdot c hc
  · exact (r.arch_solid c hc).1

/-- The row without its indentation. -/
theorem UpdateRow.strip_text : Text.strip r.text =
    r.nameArch ++ (Text.blanks (r.gap + 1) ++
      (r.version ++ (Text.blanks (r.repoGap + 1) ++ r.repo))) := by
  have hbetween := Text.strip_between r.nameArch_isWord
    (Text.blanks (r.gap + 1) ++ (r.version ++ Text.blanks (r.repoGap + 1))) r.repo_word
  rw [text, Text.strip_blanks]
  simpa [String.append_assoc] using hbetween

theorem UpdateRow.startsWith_strip {lead : String} (hlead : '.' ∉ lead.toList) :
    Text.startsWith (Text.strip r.text) lead = Text.startsWith r.name lead := by
  have hlist : (Text.strip r.text).toList = r.name.toList ++ '.' ::
    (r.arch ++ (Text.blanks (r.gap + 1) ++
      (r.version ++ (Text.blanks (r.repoGap + 1) ++ r.repo)))).toList := by
    simp only [r.strip_text, nameArch, String.toList_append, List.append_assoc]
    rfl
  rw [Bool.eq_iff_iff, Text.startsWith, Text.startsWith, List.isPrefixOf_iff_prefix,
    List.isPrefixOf_iff_prefix, hlist]
  exact ⟨Text.prefix_of_prefix_append hlead, fun h => h.trans (List.prefix_append _ _)⟩

/-- A row is read as its package, unless its name begins as the header does. -/
theorem dnfPackage_row (r : UpdateRow) : dnfPackage r.text =
    if Text.startsWith r.name "Obsoleting" = true then none else some r.package := by
  have hsplit : Text.split (Text.strip r.text) = [r.nameArch, r.version, r.repo] := by
    rw [r.strip_text, Text.split_column _ r.nameArch_isWord, Text.split_column _ r.version_word,
      Text.split_last r.repo_word]
  have hempty : Text.strip r.text ≠ "" := by
    rw [r.strip_text]
    exact Text.append_ne_empty r.nameArch_isWord.nonempty _
  have hmetadata : Text.startsWith r.name "Last metadata" = false := by
    rw [← Bool.not_eq_true, Text.startsWith, List.isPrefixOf_iff_prefix]
    intro hlead
    exact absurd (r.name_word.solid ' ' (hlead.subset (by decide))) (by decide)
  have hname : Text.beforeLast '.' r.nameArch = r.name :=
    Text.beforeLast_append fun h => (r.arch_solid '.' h).2 rfl
  rw [dnfPackage, r.startsWith_strip (by decide), r.startsWith_strip (by decide), hmetadata, hsplit]
  simp [hempty, hname, UpdateRow.package]

theorem dnfPackage_line (line : CheckLine) : dnfPackage line.text = (line.row?).bind fun r =>
    if Text.startsWith r.name "Obsoleting" = true then none else some r.package := by
  cases line with
  | row r => exact dnfPackage_row r
  | blank text spaces unbroken =>
      have hstrip : Text.strip text = "" := Text.strip_spaces spaces
      simp [CheckLine.text, CheckLine.row?, dnfPackage, hstrip]
  | metadata text lead unbroken => simp [CheckLine.text, CheckLine.row?, dnfPackage, lead]

theorem UpdateRow.unbroken (r : UpdateRow) : ∀ c ∈ r.text.toList, Text.isLineBreak c = false := by
  have hblanks : ∀ n, ∀ c ∈ (Text.blanks n).toList, Text.isLineBreak c = false := by
    intro n c hc
    rw [Text.blanks, String.toList_ofList, List.mem_replicate] at hc
    rw [hc.2]
    rfl
  have hrepo := Text.unbroken_append (hblanks (r.repoGap + 1)) r.repo_word.unbroken
  have hversion := Text.unbroken_append (hblanks (r.gap + 1))
    (Text.unbroken_append r.version_word.unbroken hrepo)
  exact Text.unbroken_append (hblanks r.indent)
    (Text.unbroken_append r.nameArch_isWord.unbroken hversion)

theorem CheckLine.unbroken (line : CheckLine) :
    ∀ c ∈ line.text.toList, Text.isLineBreak c = false := by
  cases line with
  | row r => exact r.unbroken
  | blank text spaces unbroken => exact unbroken
  | metadata text lead unbroken => exact unbroken

end Reading

section Exact

variable (check : CheckUpdate)

theorem lines_unbroken : ∀ l ∈ check.lines, ∀ c ∈ l.toList, Text.isLineBreak c = false := by
  have hsection : ∀ lines : List CheckLine, ∀ l ∈ lines.map CheckLine.text, ∀ c ∈ l.toList,
      Text.isLineBreak c = false := by
    intro lines l hl
    obtain ⟨line, _, rfl⟩ := List.mem_map.mp hl
    exact line.unbroken
  intro l hl
  rcases List.mem_append.mp hl with hl | hl
  · exact hsection _ l hl
  · cases hobsoleting : check.obsoleting with
    | none => simp [hobsoleting] at hl
    | some lines =>
        rw [hobsoleting, Option.elim_some, List.mem_cons] at hl
        rcases hl with rfl | hl
        · decide
        · exact hsection lines l hl

/-- A section is read as its rows, but for those that are taken for a header. -/
theorem section_read (lines : List CheckLine) : (lines.map CheckLine.text).filterMap dnfPackage =
    ((rowsOf lines).filter
      fun r => !Text.startsWith r.name "Obsoleting").map UpdateRow.package := by
  induction lines with
  | nil => rfl
  | cons line lines ih =>
      have hread := dnfPackage_line line
      rw [rowsOf, List.map_cons]
      cases hrow : line.row? with
      | none =>
          rw [hrow, Option.bind_none] at hread
          rw [List.filterMap_cons_none hread, List.filterMap_cons_none hrow, ih, rowsOf]
      | some r =>
          rw [hrow, Option.bind_some] at hread
          rw [List.filterMap_cons_some hrow, List.filter_cons]
          cases hlead : Text.startsWith r.name "Obsoleting" with
          | false =>
              rw [hlead, if_neg Bool.false_ne_true] at hread
              rw [List.filterMap_cons_some hread, ih]
              rfl
          | true =>
              rw [hlead, if_pos rfl] at hread
              rw [List.filterMap_cons_none hread, ih]
              rfl

/-- Each row is read once and in its place, unless its name begins as the header does. -/
theorem packages_of_rows {tool : String} (htool : tool ∈ ["dnf", "yum"])
    (hmark : ∀ l ∈ check.lines, ¬ "__EXIT__".toList <:+: l.toList) :
    (dnfParse (check.output tool)).1 =
      (check.rows.filter fun r => !Text.startsWith r.name "Obsoleting").map UpdateRow.package := by
  have hout : (check.env (tool ++ " check-update -q")).out = Text.unlines check.lines := by
    simp only [List.mem_cons, List.not_mem_nil, or_false] at htool
    rcases htool with rfl | rfl <;> exact congrArg Lib.Outcome.out (if_neg (by decide))
  have hheader : dnfPackage "Obsoleting Packages" = none := by decide
  have hparse : (dnfParse (check.output tool)).1 = check.lines.filterMap dnfPackage := by
    rw [CheckUpdate.output, dnf_listing hout, dnfParse,
      Text.cut_unlines (by decide) (by decide) hmark]
    simp only [Text.splitLines_unlines (lines_unbroken check)]
  rw [hparse, CheckUpdate.lines, CheckUpdate.rows, List.filterMap_append,
    section_read, List.filter_append,
    List.map_append]
  cases check.obsoleting with
  | none => rfl
  | some lines =>
      rw [Option.elim_some, List.filterMap_cons_none hheader, section_read, Option.getD_some]

/-- The check lists the rows of the updates, and below them those of the obsoleting section. -/
theorem both_sections_listed (check : CheckUpdate) (tool : String) (htool : tool ∈ ["dnf", "yum"])
    (hnames : ∀ r ∈ check.rows, Text.startsWith r.name "Obsoleting" = false)
    (hmark : ∀ l ∈ check.lines, ¬ "__EXIT__".toList <:+: l.toList) :
    (dnfParse (check.output tool)).1 = check.rows.map UpdateRow.package := by
  have hall : check.rows.filter (fun r => !Text.startsWith r.name "Obsoleting") = check.rows :=
    List.filter_eq_self.mpr fun r hr => by rw [hnames r hr, Bool.not_false]
  rw [packages_of_rows check htool hmark, hall]

def bashRow : UpdateRow where
  name := "bash"
  arch := "x86_64"
  version := "5.1.8-9.el9"
  repo := "baseos"
  gap := 3
  repoGap := 8
  name_word := by decide
  arch_solid := by decide
  version_word := by decide
  repo_word := by decide

def grubRow : UpdateRow where
  name := "grub2-tools"
  arch := "x86_64"
  version := "1:2.06-70.el9"
  repo := "baseos"
  gap := 3
  repoGap := 8
  name_word := by decide
  arch_solid := by decide
  version_word := by decide
  repo_word := by decide

def replacedRow : UpdateRow :=
  { grubRow with
    indent := 4
    version := "1:2.06-46.el9"
    repo := "@baseos"
    version_word := by decide
    repo_word := by decide }

/-- An update, and a package that obsoletes its older version. -/
def grubObsoletes : CheckUpdate where
  updates := [.blank "" (by decide) (by decide), .row bashRow]
  obsoleting := some [.row grubRow, .row replacedRow]
  status := 100
  probe := 0

theorem grub_listed :
    (dnfParse (grubObsoletes.output "dnf")).1 = grubObsoletes.rows.map UpdateRow.package :=
  both_sections_listed grubObsoletes "dnf" (by decide) (by decide) (by decide +kernel)

/-- Where no name begins as the header does, the obsoleting section has to be empty for the check
to list the updates alone. -/
theorem updates_alone_iff {tool : String} (htool : tool ∈ ["dnf", "yum"])
    (hnames : ∀ r ∈ check.rows, Text.startsWith r.name "Obsoleting" = false)
    (hmark : ∀ l ∈ check.lines, ¬ "__EXIT__".toList <:+: l.toList) :
    (dnfParse (check.output tool)).1 = (rowsOf check.updates).map UpdateRow.package ↔
      rowsOf (check.obsoleting.getD []) = [] := by
  have hall : check.rows.filter (fun r => !Text.startsWith r.name "Obsoleting") = check.rows :=
    List.filter_eq_self.mpr fun r hr => by rw [hnames r hr, Bool.not_false]
  rw [packages_of_rows check htool hmark, hall, CheckUpdate.rows, List.map_append,
    List.append_right_eq_self, List.map_eq_nil_iff]

/-- The rows of an obsoleting section are listed as updates. -/
theorem obsoleting_listed : (dnfParse (grubObsoletes.output "dnf")).1 ≠
    (rowsOf grubObsoletes.updates).map UpdateRow.package := by
  rw [packages_of_rows grubObsoletes (by decide) (by decide +kernel)]
  decide

end Exact

end Keepup.Packages
