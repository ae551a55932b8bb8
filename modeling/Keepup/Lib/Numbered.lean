import Mathlib.Data.List.Nodup
import Mathlib.Data.List.Perm.Subperm

/-!
The search for the first number whose name is not taken. Names of different
numbers are different, so one more candidate than there are taken names is
enough, and the number that is found does not depend on how many more are
tried.
-/

namespace Keepup.Lib

/-- The first number from `n` on that is not in use, looking at `fuel` of them. -/
def firstFree (used : Nat → Bool) : Nat → Nat → Option Nat
  | 0, _ => none
  | fuel + 1, n => if used n then firstFree used fuel (n + 1) else some n

section FirstFree

variable {used : Nat → Bool} {fuel n m : Nat}

theorem firstFree_free (h : firstFree used fuel n = some m) : used m = false := by
  induction fuel generalizing n with
  | zero => cases h
  | succ fuel ih =>
      rw [firstFree] at h
      split at h
      · exact ih h
      · rename_i hfree
        cases h
        simpa using hfree

theorem firstFree_none (h : firstFree used fuel n = none) : ∀ i < fuel, used (n + i) = true := by
  induction fuel generalizing n with
  | zero => intro i hi; omega
  | succ fuel ih =>
      rw [firstFree] at h
      split at h
      · rename_i hused
        intro i hi
        cases i with
        | zero => exact hused
        | succ i =>
            have hnext := ih h i (by omega)
            rwa [Nat.add_right_comm] at hnext
      · cases h

/-- Looking further changes nothing once a number is found. -/
theorem firstFree_more (h : firstFree used fuel n = some m) {fuel' : Nat} (hle : fuel ≤ fuel') :
    firstFree used fuel' n = some m := by
  induction fuel generalizing n fuel' with
  | zero => cases h
  | succ fuel ih =>
      obtain ⟨fuel', rfl⟩ : ∃ k, fuel' = k + 1 := ⟨fuel' - 1, by omega⟩
      rw [firstFree] at h ⊢
      split at h
      · rename_i hused
        rw [if_pos hused]
        exact ih h (by omega)
      · rename_i hfree
        rwa [if_neg hfree]

end FirstFree

variable {α : Type} [DecidableEq α]

/-- One more candidate than there are taken names is enough. -/
theorem firstFree_isSome {name : Nat → α} (hinj : Function.Injective name) (taken : List α)
    (n : Nat) : (firstFree (fun i => decide (name i ∈ taken)) (taken.length + 1) n).isSome := by
  rw [← Option.ne_none_iff_isSome]
  intro hnone
  have hused := firstFree_none hnone
  have hnodup : ((List.range (taken.length + 1)).map fun i => name (n + i)).Nodup := by
    refine List.nodup_range.map fun i j hij => ?_
    have := hinj hij
    omega
  have hsub : ((List.range (taken.length + 1)).map fun i => name (n + i)) ⊆ taken := by
    intro x hx
    obtain ⟨i, hi, rfl⟩ := List.mem_map.mp hx
    simpa using hused i (List.mem_range.mp hi)
  have hlength := (hnodup.subperm hsub).length_le
  rw [List.length_map, List.length_range] at hlength
  omega

end Keepup.Lib
