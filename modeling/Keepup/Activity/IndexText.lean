import Keepup.Activity.Log
import Mathlib.Algebra.Order.Floor.Ring
import Mathlib.Data.Rat.Floor

/-!
The text of the index file: `json.dumps(entries, indent=2)`, line by line. Every
field of a record is on a line of its own, with its key.
-/

namespace Keepup.Activity

open Lib

section Source

def hex4 (n : ℕ) : List Char :=
  [n / 4096, n / 256, n / 16, n].map fun m => Text.hexDigit (m % 16)

/-- A character of a JSON string. What is not printable ASCII is written by its number,
beyond the first plane as two. -/
def jsonChar (c : Char) : List Char :=
  let n := c.toNat
  if c = '"' ∨ c = '\\' then ['\\', c]
  else if c = '\n' then ['\\', 'n']
  else if c = '\r' then ['\\', 'r']
  else if c = '\t' then ['\\', 't']
  else if n = 8 then ['\\', 'b']
  else if n = 12 then ['\\', 'f']
  else if 32 ≤ n ∧ n ≤ 126 then [c]
  else if n < 0x10000 then '\\' :: 'u' :: hex4 n
  else '\\' :: 'u' :: hex4 (0xd800 + (n - 0x10000) / 0x400) ++
    '\\' :: 'u' :: hex4 (0xdc00 + (n - 0x10000) % 0x400)

def jsonString (s : String) : String := String.ofList ('"' :: (s.toList.flatMap jsonChar ++ ['"']))

/-- A number of seconds that was rounded to tenths. -/
def jsonTenths (seconds : ℚ) : String :=
  let tenths := ⌊seconds * 10⌋.toNat
  toString (tenths / 10) ++ "." ++ toString (tenths % 10)

/-- The fields of a record, as they come in the dictionary. -/
def Record.fields (e : Record) : List (String × String) :=
  [("id", jsonString e.id), ("kind", jsonString e.kind), ("target", jsonString e.target),
    ("target_name", jsonString e.targetName), ("trigger", jsonString e.trigger),
      ("status", jsonString e.status),
    ("started_at", jsonString e.startedAt), ("finished_at", jsonString e.finishedAt),
    ("duration_s", jsonTenths e.durationS), ("error", jsonString e.error),
      ("line_count", toString e.lineCount)]

def fieldLine (field : String × String) : String := "    \"" ++ field.1 ++ "\": " ++ field.2

/-- Every line but the last has a comma at its end. -/
def commaLines : List String → List String
  | [] => []
  | [line] => [line]
  | line :: lines => (line ++ ",") :: commaLines lines

def Record.fieldLines (e : Record) : List String := commaLines (e.fields.map fieldLine)

def recordLines : List Record → List String
  | [] => []
  | [e] => "  \x7b" :: (e.fieldLines ++ ["  \x7d"])
  | e :: entries => "  \x7b" :: (e.fieldLines ++ "  \x7d," :: recordLines entries)

def indexLines (entries : List Record) : List String :=
  if entries = [] then ["[]"] else "[" :: (recordLines entries ++ ["]"])

def indexText (entries : List Record) : String := "\n".intercalate (indexLines entries)

end Source

/-- The lines that are the same in every index. -/
def frameLines : List String := ["[]", "[", "  \x7b", "  \x7d,", "  \x7d", "]"]

/-- A line of an index whose records are of one kind. -/
def IndexLine (P : Record → Prop) (line : List Char) : Prop :=
  ∃ text, (text ∈ frameLines ∨ ∃ e, P e ∧ text ∈ e.fieldLines) ∧ text.toList = line

section Lines

variable {P : Record → Prop} {entries : List Record} {line : String}

theorem recordLines_of (hline : line ∈ recordLines entries) :
    line ∈ frameLines ∨ ∃ e ∈ entries, line ∈ e.fieldLines := by
  fun_induction recordLines entries with
  | case1 => cases hline
  | case2 e =>
      rcases List.mem_cons.mp hline with rfl | hrest
      · exact .inl (by decide)
      rcases List.mem_append.mp hrest with hfield | hend
      · exact .inr ⟨e, List.mem_cons_self, hfield⟩
      · obtain rfl := List.mem_singleton.mp hend
        exact .inl (by decide)
  | case3 e entries _ ih =>
      rcases List.mem_cons.mp hline with rfl | hrest
      · exact .inl (by decide)
      rcases List.mem_append.mp hrest with hfield | hend
      · exact .inr ⟨e, List.mem_cons_self, hfield⟩
      rcases List.mem_cons.mp hend with rfl | hnext
      · exact .inl (by decide)
      · refine (ih hnext).imp_right ?_
        rintro ⟨other, hother, hfield⟩
        exact ⟨other, List.mem_cons_of_mem e hother, hfield⟩

theorem indexLines_of (hline : line ∈ indexLines entries) :
    line ∈ frameLines ∨ ∃ e ∈ entries, line ∈ e.fieldLines := by
  rw [indexLines] at hline
  split at hline
  · obtain rfl := List.mem_singleton.mp hline
    exact .inl (by decide)
  rcases List.mem_cons.mp hline with rfl | hrest
  · exact .inl (by decide)
  rcases List.mem_append.mp hrest with hrecord | hend
  · exact recordLines_of hrecord
  · obtain rfl := List.mem_singleton.mp hend
    exact .inl (by decide)

theorem fieldLine_mem {e : Record} (he : e ∈ entries) (hline : line ∈ e.fieldLines) :
    line ∈ recordLines entries := by
  fun_induction recordLines entries with
  | case1 => cases he
  | case2 other =>
      obtain rfl := List.mem_singleton.mp he
      exact List.mem_cons_of_mem _ (List.mem_append_left _ hline)
  | case3 other entries _ ih =>
      refine List.mem_cons_of_mem _ ?_
      rcases List.mem_cons.mp he with rfl | hrest
      · exact List.mem_append_left _ hline
      · exact List.mem_append_right _ (List.mem_cons_of_mem _ (ih hrest))

theorem fieldLine_mem_indexLines {e : Record} (he : e ∈ entries) (hline : line ∈ e.fieldLines) :
    line ∈ indexLines entries := by
  rw [indexLines, if_neg (List.ne_nil_of_mem he)]
  exact List.mem_cons_of_mem _ (List.mem_append_left _ (fieldLine_mem he hline))

theorem indexLines_ne_nil (entries : List Record) : indexLines entries ≠ [] := by
  rw [indexLines]
  split <;> exact List.cons_ne_nil _ _

/-- A text that is in an index is pieced together from the lines that an index of such
records can have. -/
theorem pieced_of_indexText (hentries : ∀ e ∈ entries, P e) {part : String}
    (h : Text.isIn part (indexText entries) = true) :
    Masking.Pieced '\n' (IndexLine P) part.toList := by
  rw [Text.isIn_iff, indexText, String.toList_intercalate] at h
  have hsome : (indexLines entries).map String.toList ≠ [] := fun hnil =>
    indexLines_ne_nil entries (List.map_eq_nil_iff.mp hnil)
  refine (Masking.pieced_of_infix hsome h).mono fun piece hpiece => ?_
  obtain ⟨text, htext, rfl⟩ := List.mem_map.mp hpiece
  refine ⟨text, (indexLines_of htext).imp_right ?_, rfl⟩
  rintro ⟨e, he, hline⟩
  exact ⟨e, hentries e he, hline⟩

/-- A line of a record shows in the index. -/
theorem isIn_indexText {e : Record} (he : e ∈ entries) (hline : line ∈ e.fieldLines) {part : String}
    (h : part.toList <:+: line.toList) : Text.isIn part (indexText entries) = true := by
  rw [Text.isIn_iff, indexText, String.toList_intercalate]
  refine h.trans (Masking.infix_intercalate ?_)
  exact List.mem_map_of_mem (fieldLine_mem_indexLines he hline)

end Lines

end Keepup.Activity
