import Mathlib.Data.List.Basic
import Mathlib.Logic.Function.Basic
import Mathlib.Logic.Relation

/-!
Calls that change a file under a lock: each reads it, and writes the whole of it back. A write
empties the file first, so it can be cut short, and who reads without the lock can see a part of it.

However the calls interleave, they take effect one after another, in the order in which they had
the lock: `Sound` is the invariant, and `seen` what a reader without the lock can get.
-/

namespace Keepup.Lib

/-- What is on disk. Without a content it is a file that is not there, or what a write has left that
was cut short. -/
inductive Written (σ : Type) where
  | whole (content : σ)
  | unreadable

/-- How far the call that has the lock is, with what it is going to write. -/
inductive Held (σ : Type) where
  | locked
  | loaded (next : σ)
  | writing (next : σ)

/-- The changes that the calls make, and what is read where there is no content. -/
structure Changes (ι σ : Type) where
  apply : ι → σ → σ
  empty : σ

/-- The file, the call that has the lock, and how each call has ended. `log` has those
whose change is in the file, the latest first, since `base`; those that a write cut short
has cost are in `lost`. -/
structure Locked (ι σ : Type) where
  file : Written σ
  holder : Option (ι × Held σ) := none
  ended : ι → Option Bool := fun _ => none
  base : σ
  log : List ι := []
  lost : List ι := []

namespace Locked

variable {ι σ : Type}

def read (changes : Changes ι σ) : Written σ → σ
  | .whole content => content
  | .unreadable => changes.empty

/-- The content that the calls in the log have made. -/
def replay (changes : Changes ι σ) (s : Locked ι σ) : σ := s.log.foldr changes.apply s.base

def start (changes : Changes ι σ) (file : Written σ) : Locked ι σ where
  file := file
  base := read changes file

variable [DecidableEq ι]

/-- The call with the lock goes one step further, or one takes the lock. -/
inductive Step (changes : Changes ι σ) (s : Locked ι σ) : Locked ι σ → Prop where
  | acquire {i} (hfree : s.holder = none) (hnew : s.ended i = none) :
      Step changes s { s with holder := some (i, .locked) }
  | load {i} (hholder : s.holder = some (i, .locked)) :
      Step changes s { s with holder := some (i, .loaded (changes.apply i (read changes s.file))) }
  /-- The file cannot be opened for writing. -/
  | refuse {i next} (hholder : s.holder = some (i, .loaded next)) :
      Step changes s { s with holder := none, ended := Function.update s.ended i (some false) }
  | truncate {i next} (hholder : s.holder = some (i, .loaded next)) :
      Step changes s { s with holder := some (i, .writing next), file := .unreadable }
  | write {i next} (hholder : s.holder = some (i, .writing next)) :
      Step changes s
        { s with
          holder := none
          file := .whole next
          ended := Function.update s.ended i (some true)
          log := i :: s.log }
  /-- The write is cut short. -/
  | tear {i next} (hholder : s.holder = some (i, .writing next)) :
      Step changes s
        { s with
          holder := none
          ended := Function.update s.ended i (some false)
          base := changes.empty
          log := []
          lost := s.log ++ s.lost }

abbrev Run (changes : Changes ι σ) : Locked ι σ → Locked ι σ → Prop :=
  Relation.ReflTransGen (Step changes)

/-- What the file and the call with the lock have to do with the log. -/
def Current (changes : Changes ι σ) (s : Locked ι σ) : Option (ι × Held σ) → Prop
  | none | some (_, .locked) => read changes s.file = s.replay changes
  | some (i, .loaded next) =>
      read changes s.file = s.replay changes ∧ next = changes.apply i (s.replay changes)
  | some (i, .writing next) => s.file = .unreadable ∧ next = changes.apply i (s.replay changes)

structure Sound (changes : Changes ι σ) (s : Locked ι σ) : Prop where
  current : Current changes s s.holder
  once : (s.log ++ s.lost).Nodup
  counted : ∀ i, i ∈ s.log ++ s.lost ↔ s.ended i = some true
  pending : ∀ i held, s.holder = some (i, held) → s.ended i = none

variable {changes : Changes ι σ} {s s' : Locked ι σ}

omit [DecidableEq ι] in
theorem sound_start (changes : Changes ι σ) (file : Written σ) :
    Sound changes (start changes file) where
  current := rfl
  once := List.nodup_nil
  counted i := by simp [start]
  pending i held h := by cases h

/-- The end of a call without an effect counts nothing. -/
theorem ended_false_iff {i j : ι} (hnew : s.ended i = none) :
    Function.update s.ended i (some false) j = some true ↔ s.ended j = some true := by
  by_cases hj : j = i
  · subst hj
    simp [hnew]
  · rw [Function.update_of_ne hj]

theorem step_sound (hstep : Step changes s s') (h : Sound changes s) : Sound changes s' := by
  have hcurrent := h.current
  cases hstep with
  | @acquire i hfree hnew =>
      rw [hfree] at hcurrent
      refine ⟨hcurrent, h.once, h.counted, fun j held hj => ?_⟩
      cases hj
      exact hnew
  | @load i hholder =>
      rw [hholder] at hcurrent
      have hread : read changes s.file = s.replay changes := hcurrent
      refine ⟨⟨hread, by rw [hread]; rfl⟩, h.once, h.counted, fun j held hj => ?_⟩
      cases hj
      exact h.pending i _ hholder
  | @refuse i next hholder =>
      rw [hholder] at hcurrent
      refine ⟨hcurrent.1, h.once, fun j => ?_, fun j held hj => by cases hj⟩
      exact (h.counted j).trans (ended_false_iff (h.pending i _ hholder)).symm
  | @truncate i next hholder =>
      rw [hholder] at hcurrent
      refine ⟨⟨rfl, hcurrent.2⟩, h.once, h.counted, fun j held hj => ?_⟩
      cases hj
      exact h.pending i _ hholder
  | @write i next hholder =>
      rw [hholder] at hcurrent
      have hnew : i ∉ s.log ++ s.lost := by
        rw [h.counted, h.pending i _ hholder]
        simp
      refine ⟨hcurrent.2, List.nodup_cons.mpr ⟨hnew, h.once⟩, fun j =>
        ?_, fun j held hj => by cases hj⟩
      rw [List.cons_append, List.mem_cons, h.counted]
      by_cases hj : j = i
      · subst hj
        simp
      · simp [hj]
  | @tear i next hholder =>
      rw [hholder] at hcurrent
      refine ⟨?_, h.once, fun j => ?_, fun j held hj => by cases hj⟩
      · change read changes s.file = changes.empty
        rw [hcurrent.1]
        rfl
      · exact (h.counted j).trans (ended_false_iff (h.pending i _ hholder)).symm

theorem run_sound (hrun : Run changes s s') (h : Sound changes s) : Sound changes s' := by
  induction hrun with
  | refl => exact h
  | tail _ hstep ih => exact step_sound hstep ih

section Calls

variable (i : ι) (hfree : s.holder = none) (hnew : s.ended i = none)
include hfree hnew

theorem run_load : Run changes s
    { s with holder := some (i, .loaded (changes.apply i (read changes s.file))) } := by
  have hlocked : Step changes s { s with holder := some (i, .locked) } := .acquire hfree hnew
  exact (Relation.ReflTransGen.single hlocked).tail (.load rfl)

theorem run_truncate : Run changes s
    { s with holder := some (i, .writing (changes.apply i (read changes s.file))),
             file := .unreadable } := by
  have hloaded := @run_load _ _ _ changes s i hfree hnew
  exact hloaded.tail (.truncate rfl)

/-- A call takes the lock and comes to its end, with what it writes in the file. -/
theorem run_write : Run changes s
    { s with
      holder := none
      file := .whole (changes.apply i (read changes s.file))
      ended := Function.update s.ended i (some true)
      log := i :: s.log } := by
  have hwriting := @run_truncate _ _ _ changes s i hfree hnew
  exact hwriting.tail (.write rfl)

/-- A call takes the lock, and its write is cut short. -/
theorem run_tear : Run changes s
    { s with
      holder := none
      file := .unreadable
      ended := Function.update s.ended i (some false)
      base := changes.empty
      log := []
      lost := s.log ++ s.lost } := by
  have hwriting := @run_truncate _ _ _ changes s i hfree hnew
  exact hwriting.tail (.tear rfl)

/-- A call takes the lock, and cannot open the file. -/
theorem run_refuse : Run changes s
    { s with holder := none, ended := Function.update s.ended i (some false) } := by
  have hloaded := @run_load _ _ _ changes s i hfree hnew
  exact hloaded.tail (.refuse rfl)

end Calls

/-- Nobody is writing. -/
def Quiet (s : Locked ι σ) : Prop := ∀ i next, s.holder ≠ some (i, .writing next)

omit [DecidableEq ι] in
/-- Who reads without the lock sees the calls that have taken effect, unless a
write is under way. -/
theorem seen (h : Sound changes s) :
    (Quiet s → read changes s.file = s.replay changes) ∧
    (¬ Quiet s → read changes s.file = changes.empty) := by
  have hcurrent := h.current
  refine ⟨fun hquiet => ?_, fun hbusy => ?_⟩
  · cases hholder : s.holder with
    | none =>
        rw [hholder] at hcurrent
        exact hcurrent
    | some pair =>
        obtain ⟨i, held⟩ := pair
        rw [hholder] at hcurrent
        cases held with
        | locked => exact hcurrent
        | loaded next => exact hcurrent.1
        | writing next => exact absurd hholder (hquiet i next)
  · rw [Quiet] at hbusy
    push Not at hbusy
    obtain ⟨i, next, hholder⟩ := hbusy
    rw [hholder] at hcurrent
    rw [hcurrent.1]
    rfl

end Locked

end Keepup.Lib
