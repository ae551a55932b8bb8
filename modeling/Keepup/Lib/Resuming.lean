import Mathlib.Data.List.Basic

/-!
A sweep over a list of tasks on a state, which can be cut off after any of them and is then made
again from the start. Each task is done once it has been taken, and stays so; done tasks change
nothing.
-/

namespace Keepup.Lib.Resuming

variable {σ ι : Type} (task : ι → σ → σ)

def sweep (is : List ι) (s : σ) : σ := is.foldl (fun s i => task i s) s

/-- What a task settles, and no task unsettles. -/
structure Settles (done : ι → σ → Prop) : Prop where
  skips : ∀ i s, done i s → task i s = s
  finishes : ∀ i s, done i (task i s)
  keeps : ∀ i j s, done i s → done i (task j s)

variable {task} {done : ι → σ → Prop}

theorem sweep_append (is js : List ι) (s : σ) :
    sweep task (is ++ js) s = sweep task js (sweep task is s) :=
  List.foldl_append

theorem Settles.sweep_kept (h : Settles task done) (is : List ι) {i : ι} {s : σ} (hi : done i s) :
    done i (sweep task is s) := by
  induction is generalizing s with
  | nil => exact hi
  | cons j js ih => exact ih (h.keeps i j s hi)

theorem Settles.sweep_done (h : Settles task done) (is : List ι) (s : σ) :
    ∀ i ∈ is, done i (sweep task is s) := by
  induction is generalizing s with
  | nil => simp
  | cons j js ih =>
      intro i hi
      rcases List.mem_cons.mp hi with rfl | hi
      · exact h.sweep_kept js (h.finishes i s)
      · exact ih (task j s) i hi

theorem Settles.sweep_id (h : Settles task done) {is : List ι} {s : σ}
    (hdone : ∀ i ∈ is, done i s) :
    sweep task is s = s := by
  induction is with
  | nil => rfl
  | cons i is ih =>
      rw [sweep, List.foldl_cons, h.skips i s (hdone i List.mem_cons_self)]
      exact ih fun j hj => hdone j (List.mem_cons_of_mem _ hj)

theorem Settles.sweep_resumed (h : Settles task done) (is : List ι) (k : ℕ) (s : σ) :
    sweep task is (sweep task (is.take k) s) = sweep task is s := by
  have hsplit : ∀ t, sweep task is t =
      sweep task (is.drop k) (sweep task (is.take k) t) := fun t => by
    rw [← sweep_append, List.take_append_drop]
  rw [hsplit, h.sweep_id (h.sweep_done (is.take k) s), ← hsplit]

end Keepup.Lib.Resuming
