import Mathlib.Order.Lattice
import Mathlib.Data.List.Basic

/-!
Sorting by two keys, the second one where the first does not decide, as a tuple of them does.
-/

namespace Keepup.Lib.Sorting

section TwoKeys

variable {α β γ : Type} [LinearOrder β] [LinearOrder γ] (major : α → β) (minor : α → γ)

def before (a b : α) : Bool :=
  decide (major a < major b) || (decide (major a = major b) && decide (minor a ≤ minor b))

theorem before_iff (a b : α) : before major minor a b = true ↔
    major a < major b ∨ major a = major b ∧ minor a ≤ minor b := by
  simp only [before, Bool.or_eq_true, Bool.and_eq_true, decide_eq_true_eq]

theorem before_trans (a b c : α) (hab : before major minor a b = true)
    (hbc : before major minor b c = true) :
    before major minor a c = true := by
  rw [before_iff] at *
  rcases hab with hab | ⟨hab, hab'⟩
  · rcases hbc with hbc | ⟨hbc, _⟩
    · exact .inl (lt_trans hab hbc)
    · exact .inl (hbc ▸ hab)
  · rcases hbc with hbc | ⟨hbc, hbc'⟩
    · exact .inl (hab ▸ hbc)
    · exact .inr ⟨hab.trans hbc, le_trans hab' hbc'⟩

theorem before_total (a b : α) : (before major minor a b || before major minor b a) = true := by
  rw [Bool.or_eq_true, before_iff, before_iff]
  rcases lt_trichotomy (major a) (major b) with hlt | heq | hgt
  · exact .inl (.inl hlt)
  · rcases le_total (minor a) (minor b) with hle | hle
    · exact .inl (.inr ⟨heq, hle⟩)
    · exact .inr (.inr ⟨heq.symm, hle⟩)
  · exact .inr (.inl hgt)

theorem pairwise_sorted (as : List α) : (as.mergeSort (before major minor)).Pairwise fun a b =>
    major a < major b ∨ major a = major b ∧ minor a ≤ minor b :=
  (List.pairwise_mergeSort (before_trans major minor) (before_total major minor) as).imp fun h =>
    (before_iff major minor _ _).mp h

end TwoKeys

end Keepup.Lib.Sorting
