import Mathlib.Data.List.Basic

/-!
Absolute paths and their lexical normal form: empty parts and dots fall away,
two dots remove the part before them, and the root has nothing above it.
-/

namespace Keepup.Lib.Path

abbrev Part := List Char

/-- The parts of a directory, and one more part of a path to go on with. -/
def push (parts : List Part) (part : Part) : List Part :=
  if part = [] ∨ part = ['.'] then parts
  else if part = ['.', '.'] then parts.dropLast
  else parts ++ [part]

def normalise (path : List Char) : List Part := (path.splitOn '/').foldl push []

def render (parts : List Part) : List Char := '/' :: ['/'].intercalate parts

/-- A part that names an entry of a directory. -/
structure Proper (part : Part) : Prop where
  ne_nil : part ≠ []
  ne_dot : part ≠ ['.']
  ne_dots : part ≠ ['.', '.']
  no_slash : '/' ∉ part

instance (part : Part) : Decidable (Proper part) :=
  decidable_of_iff (part ≠ [] ∧ part ≠ ['.'] ∧ part ≠ ['.', '.'] ∧ '/' ∉ part)
    ⟨fun h => ⟨h.1, h.2.1, h.2.2.1, h.2.2.2⟩, fun h => ⟨h.1, h.2, h.3, h.4⟩⟩

variable {parts : List Part}

theorem push_proper {part : Part} (h : Proper part) : push parts part = parts ++ [part] := by
  rw [push, if_neg (not_or.mpr ⟨h.ne_nil, h.ne_dot⟩), if_neg h.ne_dots]

theorem foldl_push_proper {more : List Part} (h : ∀ part ∈ more, Proper part) :
    more.foldl push parts = parts ++ more := by
  induction more generalizing parts with
  | nil => simp
  | cons part more ih =>
      rw [List.foldl_cons, push_proper (h part (by simp)), ih fun p hp => h p (by simp [hp])]
      simp

/-- A normal form stays what it is. -/
theorem normalise_render (h : ∀ part ∈ parts, Proper part) : normalise (render parts) = parts := by
  have hsplit : (render parts).splitOn '/' = [] :: (['/'].intercalate parts).splitOn '/' :=
    List.splitOn_append_cons_self_of_not_mem (List.not_mem_nil : '/' ∉ []) _
  rw [normalise, hsplit, List.foldl_cons]
  cases parts with
  | nil => rfl
  | cons part rest =>
      rw [List.splitOn_intercalate '/' (fun p hp => (h p hp).no_slash) (by simp)]
      exact foldl_push_proper h

theorem splitOn_no_slash (path : List Char) : ∀ part ∈ path.splitOn '/', '/' ∉ part := by
  induction path with
  | nil => simp
  | cons c path ih =>
      intro part hpart
      rw [List.splitOn_cons_eq_if_modifyHead] at hpart
      split at hpart
      · rcases List.mem_cons.mp hpart with rfl | hpart
        · simp
        · exact ih part hpart
      · rename_i hc
        obtain ⟨first, others, hfirst⟩ := List.exists_cons_of_ne_nil (List.splitOn_ne_nil '/' path)
        rw [hfirst, List.modifyHead_cons] at hpart
        rw [hfirst] at ih
        rcases List.mem_cons.mp hpart with rfl | hpart
        · rw [List.mem_cons, not_or]
          exact ⟨fun h => hc (by simp [← h]), ih first (by simp)⟩
        · exact ih part (by simp [hpart])

theorem push_all_proper {part : Part} (h : ∀ p ∈ parts, Proper p) (hslash : '/' ∉ part) :
    ∀ p ∈ push parts part, Proper p := by
  intro p hp
  unfold push at hp
  split at hp
  · exact h p hp
  · rename_i hempty
    rw [not_or] at hempty
    split at hp
    · exact h p (List.dropLast_subset parts hp)
    · rename_i hdots
      rcases List.mem_append.mp hp with hp | hp
      · exact h p hp
      · rw [List.mem_singleton.mp hp]
        exact ⟨hempty.1, hempty.2, hdots, hslash⟩

theorem normalise_proper (path : List Char) : ∀ part ∈ normalise path, Proper part := by
  have hfold : ∀ more : List Part, (∀ p ∈ more, '/' ∉ p) → ∀ parts :
    List Part, (∀ p ∈ parts, Proper p) →
      ∀ p ∈ more.foldl push parts, Proper p := by
    intro more
    induction more with
    | nil => exact fun _ _ h => h
    | cons part more ih =>
        intro hslash parts h
        exact ih (fun p hp => hslash p (by simp [hp])) _ (push_all_proper h (hslash part (by simp)))
  exact hfold _ (splitOn_no_slash path) [] (by simp)

/-- A path lies in a directory, or is the directory. -/
def Inside (dir : List Part) (path : List Char) : Prop := dir <+: normalise path

instance (dir : List Part) (path : List Char) : Decidable (Inside dir path) :=
  inferInstanceAs (Decidable (dir <+: normalise path))

end Keepup.Lib.Path
