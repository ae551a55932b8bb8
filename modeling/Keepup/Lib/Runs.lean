import Mathlib.Data.List.Basic

/-!
Runs of a machine that takes one operation after another. An invariant of a
step becomes one of a run, and the exact condition under which a step keeps it
becomes a condition on the steps of the run.
-/

namespace Keepup.Lib

variable {σ ω : Type}

/-- The states a run goes through, the first included. -/
def reached (step : σ → ω → σ) : σ → List ω → List σ
  | s, [] => [s]
  | s, o :: ops => s :: reached step (step s o) ops

/-- Every operation meets a condition in the state in which it is taken. -/
def Meets (step : σ → ω → σ) (Q : σ → ω → Prop) : σ → List ω → Prop
  | _, [] => True
  | s, o :: ops => Q s o ∧ Meets step Q (step s o) ops

variable {step : σ → ω → σ} {P : σ → Prop} {Q : σ → ω → Prop}

theorem mem_reached_start (s : σ) (ops : List ω) : s ∈ reached step s ops := by
  cases ops <;> simp [reached]

/-- A condition on the operations alone. -/
theorem meets_of_forall {s : σ} {ops : List ω} (h : ∀ o ∈ ops, ∀ t, Q t o) :
    Meets step Q s ops := by
  induction ops generalizing s with
  | nil => trivial
  | cons o ops ih =>
      exact ⟨h o (by simp) s, ih fun o' ho' => h o' (List.mem_cons_of_mem o ho')⟩

/-- What every step of a kind keeps, a run of such steps keeps. -/
theorem reached_all (hstep : ∀ s o, P s → Q s o → P (step s o)) {s : σ} (hs : P s) {ops : List ω}
    (hops : Meets step Q s ops) : ∀ t ∈ reached step s ops, P t := by
  induction ops generalizing s with
  | nil => simpa [reached] using hs
  | cons o ops ih =>
      intro t ht
      rcases List.mem_cons.mp ht with rfl | ht
      · exact hs
      · exact ih (hstep s o hs hops.1) hops.2 t ht

/-- A run keeps an invariant in all its states exactly if every step does what
keeps it. -/
theorem reached_all_iff (hstep : ∀ s o, P s → (P (step s o) ↔ Q s o)) {s : σ} (hs : P s)
    (ops : List ω) : (∀ t ∈ reached step s ops, P t) ↔ Meets step Q s ops := by
  constructor
  · intro hall
    induction ops generalizing s with
    | nil => trivial
    | cons o ops ih =>
        have hrest : ∀ t ∈ reached step (step s o) ops, P t := fun t ht =>
          hall t (List.mem_cons_of_mem s ht)
        have hnext := hrest _ (mem_reached_start _ ops)
        exact ⟨(hstep s o hs).mp hnext, ih hnext hrest⟩
  · exact reached_all (fun s o hP hQ => (hstep s o hP).mpr hQ) hs

/-- What follows for each step from its condition, in the states of a run. -/
theorem meets_of_reached {R : σ → ω → Prop} (h : ∀ s o, P s → Q s o → R s o) {s : σ} {ops : List ω}
    (hall : ∀ t ∈ reached step s ops, P t) (hops : Meets step Q s ops) : Meets step R s ops := by
  induction ops generalizing s with
  | nil => trivial
  | cons o ops ih =>
      exact ⟨h s o (hall s (mem_reached_start s _)) hops.1,
        ih (fun t ht => hall t (List.mem_cons_of_mem s ht)) hops.2⟩

/-- Where two conditions agree as long as the invariant does, a run meets the one
if and only if it meets the other. -/
theorem meets_iff {R : σ → ω → Prop} (hstep : ∀ s o, P s → Q s o → P (step s o)) {s : σ} (hs : P s)
    {ops : List ω} (hiff : ∀ o ∈ ops, ∀ s, P s → (Q s o ↔ R s o)) :
    Meets step Q s ops ↔ Meets step R s ops := by
  induction ops generalizing s with
  | nil => exact Iff.rfl
  | cons o ops ih =>
      have hfirst := hiff o List.mem_cons_self
      rw [Meets, Meets, hfirst s hs]
      refine and_congr_right fun hR => ih (hstep s o hs ((hfirst s hs).mpr hR)) ?_
      exact fun o' ho' => hiff o' (List.mem_cons_of_mem o ho')

end Keepup.Lib
