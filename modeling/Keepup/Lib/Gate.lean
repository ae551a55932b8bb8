import Mathlib.Algebra.BigOperators.Group.Finset.Basic
import Mathlib.Algebra.Order.Ring.Rat
import Mathlib.Data.Finset.Max
import Mathlib.Data.Fintype.Card
import Mathlib.Logic.Relation
import Mathlib.Tactic.Linarith

/-!
Tasks that pass through a gate with a limited number of places, started together and waited for
together. A task that is through has given a result. Time passes only while nobody could enter, and
a task stays behind the gate for its budget at most.

The invariant `Fits` says who can be where, and `Paced` how many have entered by now; a run keeps
both, and they bound the time that all the tasks need together.
-/

namespace Keepup.Lib

/-- Where a task is: before the gate, behind it, or through. The times are those of its entry. -/
inductive Phase (ρ : Type) where
  | waiting
  | inside (since : ℚ)
  | through (since : ℚ) (result : ρ)

namespace Phase

variable {ρ : Type}

def isInside : Phase ρ → Bool
  | inside _ => true
  | waiting | through _ _ => false

/-- The steps that a task has still to make. -/
def toGo : Phase ρ → Nat
  | waiting => 2
  | inside _ => 1
  | through _ _ => 0

/-- A task that entered by then. -/
def enteredBy (time : ℚ) : Phase ρ → Bool
  | waiting => false
  | inside since | through since _ => since ≤ time

def entry : Phase ρ → ℚ
  | waiting => 0
  | inside since | through since _ => since

def result? : Phase ρ → Option ρ
  | through _ result => some result
  | waiting | inside _ => none

theorem enteredBy_mono {time later : ℚ} (h : time ≤ later) {phase : Phase ρ}
    (hentered : phase.enteredBy time = true) : phase.enteredBy later = true := by
  cases phase with
  | waiting => exact hentered
  | inside since =>
      simp only [enteredBy, decide_eq_true_eq] at hentered ⊢
      exact hentered.trans h
  | through since result =>
      simp only [enteredBy, decide_eq_true_eq] at hentered ⊢
      exact hentered.trans h

end Phase

structure Gate (ι ρ : Type) where
  clock : ℚ
  phase : ι → Phase ρ

namespace Gate

/-- `gives i since now result`: a task that entered at `since` can give this result at `now`. -/
structure Rules (ι ρ : Type) where
  limit : Nat
  budget : ℚ
  gives : ι → ℚ → ℚ → ρ → Prop

section Moves

variable {ι ρ : Type} [DecidableEq ι]

def start : Gate ι ρ := ⟨0, fun _ => .waiting⟩

def Finished (s : Gate ι ρ) : Prop := ∀ i, ∃ since result, s.phase i = .through since result

/-- One task is somewhere else. -/
def moved (s : Gate ι ρ) (i : ι) (phase : Phase ρ) : Gate ι ρ :=
  { s with phase := Function.update s.phase i phase }

def passed (s : Gate ι ρ) (time : ℚ) : Gate ι ρ := { s with clock := s.clock + time }

variable (s : Gate ι ρ) {i j : ι} (phase : Phase ρ) (time : ℚ)

@[simp] theorem moved_clock : (s.moved i phase).clock = s.clock := rfl

@[simp] theorem moved_self : (s.moved i phase).phase i = phase := Function.update_self ..

@[simp] theorem moved_of_ne (h : j ≠ i) : (s.moved i phase).phase j = s.phase j :=
  Function.update_of_ne h ..

omit [DecidableEq ι] in
@[simp] theorem passed_clock : (s.passed time).clock = s.clock + time := rfl

omit [DecidableEq ι] in
@[simp] theorem passed_phase : (s.passed time).phase = s.phase := rfl

end Moves

variable {ι ρ : Type} [Fintype ι]

def within (s : Gate ι ρ) : Finset ι := {i | (s.phase i).isInside}

def entered (s : Gate ι ρ) (time : ℚ) : Finset ι := {i | (s.phase i).enteredBy time}

def toGo (s : Gate ι ρ) : Nat := ∑ i, (s.phase i).toGo

variable [DecidableEq ι]

/-- One task enters or leaves, or time passes. -/
inductive Step (rules : Rules ι ρ) (s : Gate ι ρ) : Gate ι ρ → Prop where
  | enter {i} (hphase : s.phase i = .waiting) (hroom : s.within.card < rules.limit) :
      Step rules s (s.moved i (.inside s.clock))
  | leave {i since result} (hphase : s.phase i = .inside since)
      (hgives : rules.gives i since s.clock result) :
        Step rules s (s.moved i (.through since result))
  | pass {time} (htime : 0 ≤ time)
      (hurgent : rules.limit ≤ s.within.card ∨ ∀ i, s.phase i ≠ .waiting)
      (hbudget : ∀ i since, s.phase i = .inside since → s.clock + time ≤ since + rules.budget) :
      Step rules s (s.passed time)

abbrev Run (rules : Rules ι ρ) : Gate ι ρ → Gate ι ρ → Prop := Relation.ReflTransGen (Step rules)

/-- Every task is where the rules allow it to be. -/
structure Fits (rules : Rules ι ρ) (s : Gate ι ρ) : Prop where
  limited : s.within.card ≤ rules.limit
  begun : ∀ i, s.phase i = .waiting ∨ (s.phase i).enteredBy s.clock = true
  inTime : ∀ i since, s.phase i = .inside since → s.clock ≤ since + rules.budget
  given : ∀ i since result, s.phase i = .through since result →
    ∃ now, since ≤ now ∧ now ≤ since + rules.budget ∧ now ≤ s.clock ∧ rules.gives i since now result

variable {rules : Rules ι ρ} {s s' : Gate ι ρ}

section Places

omit [DecidableEq ι] in
theorem mem_within {i : ι} : i ∈ s.within ↔ (s.phase i).isInside = true := by simp [within]

omit [DecidableEq ι] in
theorem mem_entered {i : ι} {time : ℚ} :
    i ∈ s.entered time ↔ (s.phase i).enteredBy time = true := by
  simp [entered]

omit [DecidableEq ι] in
theorem exists_inside {i : ι} (h : i ∈ s.within) : ∃ since, s.phase i = .inside since := by
  rw [mem_within] at h
  cases hphase : s.phase i with
  | inside since => exact ⟨since, rfl⟩
  | waiting => simp [hphase, Phase.isInside] at h
  | through since result => simp [hphase, Phase.isInside] at h

theorem within_enter (i : ι) (since : ℚ) :
    (s.moved i (.inside since)).within = insert i s.within := by
  ext j
  rw [Finset.mem_insert, mem_within, mem_within]
  by_cases hj : j = i
  · subst hj
    simp [Phase.isInside]
  · simp [hj]

theorem within_leave (i : ι) (since : ℚ) (result : ρ) :
    (s.moved i (.through since result)).within = s.within.erase i := by
  ext j
  rw [Finset.mem_erase, mem_within, mem_within]
  by_cases hj : j = i
  · subst hj
    simp [Phase.isInside]
  · simp [hj]

omit [DecidableEq ι] in
theorem not_mem_within {i : ι} (hphase : s.phase i = .waiting) : i ∉ s.within := by
  rw [mem_within, hphase]
  exact Bool.false_ne_true

/-- A task that enters or leaves makes one of the steps that are left. -/
theorem toGo_moved {i : ι} {phase : Phase ρ} (h : (s.phase i).toGo = phase.toGo + 1) :
    s.toGo = (s.moved i phase).toGo + 1 := by
  have hothers : ∑ j ∈ Finset.univ.erase i, ((s.moved i phase).phase j).toGo =
      ∑ j ∈ Finset.univ.erase i, (s.phase j).toGo :=
    Finset.sum_congr rfl fun j hj => by rw [moved_of_ne _ _ (Finset.ne_of_mem_erase hj)]
  rw [toGo, toGo, ← Finset.add_sum_erase _ _ (Finset.mem_univ i),
    ← Finset.add_sum_erase _ (fun j => ((s.moved i phase).phase j).toGo) (Finset.mem_univ i),
    hothers, moved_self, h]
  omega

end Places

section Invariant

omit [DecidableEq ι] in
theorem fits_start : Fits rules (start : Gate ι ρ) where
  limited := by simp [start, within, Phase.isInside]
  begun _ := .inl rfl
  inTime _ _ h := by cases h
  given _ _ _ h := by cases h

theorem step_fits (hbudget : 0 ≤ rules.budget) (hstep : Step rules s s') (h : Fits rules s) :
    Fits rules s' := by
  cases hstep with
  | @enter i hphase hroom =>
      constructor
      · rw [within_enter, Finset.card_insert_of_notMem (not_mem_within hphase)]
        exact hroom
      · intro j
        by_cases hj : j = i
        · subst hj
          exact .inr (by simp [Phase.enteredBy])
        · simpa [hj] using h.begun j
      · intro j since hj
        by_cases hji : j = i
        · subst hji
          rw [moved_self] at hj
          cases hj
          rw [moved_clock]
          linarith
        · rw [moved_of_ne _ _ hji] at hj
          exact h.inTime j since hj
      · intro j since result hj
        by_cases hji : j = i
        · subst hji
          rw [moved_self] at hj
          cases hj
        · rw [moved_of_ne _ _ hji] at hj
          exact h.given j since result hj
  | @leave i since result hphase hgives =>
      have hentry : since ≤ s.clock := by
        rcases h.begun i with hwait | hbegun
        · rw [hphase] at hwait
          cases hwait
        · simpa [hphase, Phase.enteredBy] using hbegun
      constructor
      · rw [within_leave]
        exact (Finset.card_le_card (Finset.erase_subset i _)).trans h.limited
      · intro j
        by_cases hj : j = i
        · subst hj
          exact .inr (by simp [Phase.enteredBy, hentry])
        · simpa [hj] using h.begun j
      · intro j since' hj
        by_cases hji : j = i
        · subst hji
          rw [moved_self] at hj
          cases hj
        · rw [moved_of_ne _ _ hji] at hj
          exact h.inTime j since' hj
      · intro j since' result' hj
        by_cases hji : j = i
        · subst hji
          rw [moved_self] at hj
          cases hj
          exact ⟨s.clock, hentry, h.inTime _ _ hphase, le_refl _, hgives⟩
        · rw [moved_of_ne _ _ hji] at hj
          exact h.given j since' result' hj
  | @pass time htime hurgent hwithin =>
      have hlater : s.clock ≤ s.clock + time := by linarith
      constructor
      · exact h.limited
      · exact fun j => (h.begun j).imp_right (Phase.enteredBy_mono hlater)
      · exact hwithin
      · intro j since result hj
        obtain ⟨now, hentry, hend, hnow, hgives⟩ := h.given j since result hj
        exact ⟨now, hentry, hend, hnow.trans hlater, hgives⟩

theorem run_fits (hbudget : 0 ≤ rules.budget) (hrun : Run rules s s') (h : Fits rules s) :
    Fits rules s' := by
  induction hrun with
  | refl => exact h
  | tail _ hstep ih => exact step_fits hbudget hstep ih

/-- A result stays what it is. -/
theorem step_through (hstep : Step rules s s') {i : ι} {since : ℚ} {result : ρ}
    (hphase : s.phase i = .through since result) : s'.phase i = .through since result := by
  cases hstep with
  | @enter j hj _ =>
      have hne : i ≠ j := by
        rintro rfl
        rw [hphase] at hj
        cases hj
      rwa [moved_of_ne _ _ hne]
  | @leave j _ _ hj _ =>
      have hne : i ≠ j := by
        rintro rfl
        rw [hphase] at hj
        cases hj
      rwa [moved_of_ne _ _ hne]
  | pass => exact hphase

theorem run_through (hrun : Run rules s s') {i : ι} {since : ℚ} {result : ρ}
    (hphase : s.phase i = .through since result) : s'.phase i = .through since result := by
  induction hrun with
  | refl => exact hphase
  | tail _ hstep ih => exact step_through hstep ih

end Invariant

section Progress

/-- Every task has something to give when its budget is over. -/
def Rules.EndsInTime (rules : Rules ι ρ) : Prop :=
  ∀ i since, ∃ result, rules.gives i since (since + rules.budget) result

/-- A gate where something is left to do can do something, after some time perhaps. -/
theorem exists_progress (hlimit : 0 < rules.limit) (hends : rules.EndsInTime) (h : Fits rules s)
    (hleft : ¬ s.Finished) : ∃ t, Run rules s t ∧ t.toGo < s.toGo := by
  by_cases hroom : (∃ i, s.phase i = .waiting) ∧ s.within.card < rules.limit
  · obtain ⟨⟨i, hphase⟩, hroom⟩ := hroom
    have hstep : s.toGo = (s.moved i (.inside s.clock)).toGo + 1 := toGo_moved (by rw [hphase]; rfl)
    exact ⟨_, .single (.enter hphase hroom), by omega⟩
  · have hurgent : rules.limit ≤ s.within.card ∨ ∀ i, s.phase i ≠ .waiting := by
      by_cases hwait : ∃ i, s.phase i = .waiting
      · exact .inl (not_lt.mp fun hlt => hroom ⟨hwait, hlt⟩)
      · exact .inr fun i hi => hwait ⟨i, hi⟩
    have hsome : s.within.Nonempty := by
      rcases hurgent with hfull | hnone
      · exact Finset.card_pos.mp (hlimit.trans_le hfull)
      · rw [Finished, not_forall] at hleft
        obtain ⟨i, hi⟩ := hleft
        refine ⟨i, mem_within.mpr ?_⟩
        cases hphase : s.phase i with
        | waiting => exact absurd hphase (hnone i)
        | inside since => rfl
        | through since result => exact absurd ⟨since, result, hphase⟩ hi
    -- the task whose budget is over first
    obtain ⟨i, hi, hfirst⟩ := Finset.exists_min_image s.within (fun i => (s.phase i).entry) hsome
    obtain ⟨since, hphase⟩ := exists_inside hi
    obtain ⟨result, hgives⟩ := hends i since
    have hwait : Step rules s (s.passed (since + rules.budget - s.clock)) := by
      refine .pass (by linarith [h.inTime i since hphase]) hurgent fun j since' hj => ?_
      have hle := hfirst j (mem_within.mpr (by rw [hj]; rfl))
      rw [hphase, hj] at hle
      linarith [show since ≤ since' from hle]
    have hleave : Step rules (s.passed (since + rules.budget - s.clock))
        ((s.passed (since + rules.budget - s.clock)).moved i (.through since result)) := by
      refine .leave hphase ?_
      rwa [passed_clock, add_sub_cancel]
    refine ⟨_, .tail (.single hwait) hleave, ?_⟩
    have hstep : (s.passed (since + rules.budget - s.clock)).toGo =
        ((s.passed (since + rules.budget - s.clock)).moved i (.through since result)).toGo + 1 :=
      toGo_moved (by rw [passed_phase, hphase]; rfl)
    have hsame : (s.passed (since + rules.budget - s.clock)).toGo = s.toGo := rfl
    omega

/-- Whatever has happened so far, all the tasks can still come through. -/
theorem exists_finish (hlimit : 0 < rules.limit) (hbudget : 0 ≤ rules.budget)
    (hends : rules.EndsInTime) (h : Fits rules s) : ∃ t, Run rules s t ∧ t.Finished := by
  induction hleft : s.toGo using Nat.strong_induction_on generalizing s with
  | _ n ih =>
      by_cases hfinished : s.Finished
      · exact ⟨s, .refl, hfinished⟩
      · obtain ⟨t, hrun, hless⟩ := exists_progress hlimit hends h hfinished
        obtain ⟨u, hrest, hdone⟩ := ih t.toGo (hleft ▸ hless) (run_fits hbudget hrun h) rfl
        exact ⟨u, hrun.trans hrest, hdone⟩

end Progress

section Pace

/-- Every further budget has let in as many tasks as there are places, as long as there were any. -/
def Paced (rules : Rules ι ρ) (s : Gate ι ρ) : Prop :=
  ∀ m : ℕ, m * rules.budget < s.clock →
    min (Fintype.card ι) (rules.limit * (m + 1)) ≤ (s.entered (m * rules.budget)).card

omit [DecidableEq ι] in
theorem paced_start (hbudget : 0 ≤ rules.budget) : Paced rules (start : Gate ι ρ) := by
  intro m hm
  have hzero : (0 : ℚ) ≤ m * rules.budget := by positivity
  exact absurd hm (not_lt.mpr hzero)

/-- Nobody who has entered by then is put back. -/
theorem entered_subset_moved {i : ι} {time : ℚ} {phase : Phase ρ}
    (hphase : (s.phase i).enteredBy time = true → phase.enteredBy time = true) :
    s.entered time ⊆ (s.moved i phase).entered time := by
  intro j hj
  rw [mem_entered] at hj ⊢
  by_cases hji : j = i
  · subst hji
    rw [moved_self]
    exact hphase hj
  · rwa [moved_of_ne _ _ hji]

omit [DecidableEq ι] in
theorem entered_eq_univ (h : Fits rules s) (hnone : ∀ i, s.phase i ≠ .waiting) {time : ℚ}
    (htime : s.clock ≤ time) : s.entered time = Finset.univ := by
  refine Finset.eq_univ_iff_forall.mpr fun i => mem_entered.mpr ?_
  exact Phase.enteredBy_mono htime ((h.begun i).resolve_left (hnone i))

/-- Where the time of a budget passes with every place taken, the tasks that have the places are
new ones. -/
theorem entered_grows (h : Fits rules s) {time before now : ℚ} (hfull : rules.limit ≤ s.within.card)
    (hwithin : ∀ i since, s.phase i = .inside since → s.clock + time ≤ since + rules.budget)
    (hbefore : before + rules.budget < s.clock + time) (hnow : s.clock ≤ now)
    (hle : before ≤ now) : (s.entered before).card + rules.limit ≤ (s.entered now).card := by
  have hnew : Disjoint (s.entered before) s.within := by
    refine Finset.disjoint_left.mpr fun i hentered hinside => ?_
    obtain ⟨since, hphase⟩ := exists_inside hinside
    rw [mem_entered, hphase] at hentered
    have hearly : since ≤ before := by simpa [Phase.enteredBy] using hentered
    linarith [hwithin i since hphase]
  have hsub : s.entered before ∪ s.within ⊆ s.entered now := by
    refine Finset.union_subset (fun i hi => ?_) fun i hi => ?_
    · rw [mem_entered] at hi ⊢
      exact Phase.enteredBy_mono hle hi
    · obtain ⟨since, hphase⟩ := exists_inside hi
      refine mem_entered.mpr (Phase.enteredBy_mono hnow ((h.begun i).resolve_left ?_))
      rw [hphase]
      simp
  calc (s.entered before).card + rules.limit
      ≤ (s.entered before).card + s.within.card := Nat.add_le_add_left hfull _
    _ = (s.entered before ∪ s.within).card := (Finset.card_union_of_disjoint hnew).symm
    _ ≤ (s.entered now).card := Finset.card_le_card hsub

theorem step_paced (hbudget : 0 ≤ rules.budget) (hstep : Step rules s s') (h : Fits rules s)
    (hpaced : Paced rules s) : Paced rules s' := by
  cases hstep with
  | @enter i hphase _ =>
      intro m hm
      refine (hpaced m hm).trans (Finset.card_le_card (entered_subset_moved ?_))
      rw [hphase]
      exact fun hfalse => absurd hfalse Bool.false_ne_true
  | @leave i since result hphase _ =>
      intro m hm
      refine (hpaced m hm).trans (Finset.card_le_card (entered_subset_moved ?_))
      rw [hphase]
      exact id
  | @pass time _ hurgent hwithin =>
      intro m hm
      by_cases hold : m * rules.budget < s.clock
      · exact hpaced m hold
      have hclock : s.clock ≤ m * rules.budget := not_lt.mp hold
      change _ ≤ (s.entered (m * rules.budget)).card
      rcases hurgent with hfull | hnone
      · cases m with
        | zero =>
            -- the first tasks have just entered
            have hempty := @entered_grows _ _ _ _ _ _ h _ (-rules.budget - 1) _ hfull hwithin
              (by simp only [passed_clock] at hm; push_cast at hm; linarith) hclock
              (by push_cast; linarith)
            rw [zero_add, mul_one]
            exact (min_le_right _ _).trans (le_of_add_le_right hempty)
        | succ k =>
            rcases Nat.eq_zero_or_pos rules.limit with hzero | hpos
            · simp [hzero]
            obtain ⟨i, hi⟩ := Finset.card_pos.mp (hpos.trans_le hfull)
            obtain ⟨since, hphase⟩ := exists_inside hi
            have hentry : since ≤ s.clock := by
              rcases h.begun i with hwait | hbegun
              · rw [hphase] at hwait
                cases hwait
              · simpa [hphase, Phase.enteredBy] using hbegun
            have hlate := hwithin i since hphase
            rw [passed_clock] at hm
            push_cast at hm hclock ⊢
            have hgrown := @entered_grows _ _ _ _ _ _ h _ (k * rules.budget) _ hfull hwithin
              (by linarith) hclock (by linarith)
            have hbefore := hpaced k (by linarith)
            have hmin : min (Fintype.card ι) (rules.limit * (k + 1 + 1)) ≤
                min (Fintype.card ι) (rules.limit * (k + 1)) + rules.limit := by
              rw [mul_add_one rules.limit (k + 1)]
              omega
            omega
      · rw [entered_eq_univ h hnone hclock, Finset.card_univ]
        exact min_le_left _ _

theorem run_paced (hbudget : 0 ≤ rules.budget) (hrun : Run rules s s') (h : Fits rules s)
    (hpaced : Paced rules s) : Paced rules s' := by
  induction hrun with
  | refl => exact hpaced
  | tail hrun hstep ih => exact step_paced hbudget hstep (run_fits hbudget hrun h) ih

omit [DecidableEq ι] in
/-- As many budgets as it takes to let everybody in are enough for everybody to come through. -/
theorem finished_of_late (hbudget : 0 ≤ rules.budget) (h : Fits rules s) (hpaced : Paced rules s)
    {m : ℕ} (hrounds : Fintype.card ι ≤ rules.limit * m) (hlate : m * rules.budget < s.clock) :
    s.Finished := by
  cases m with
  | zero =>
      have hempty : IsEmpty ι := Fintype.card_eq_zero_iff.mp (Nat.le_zero.mp hrounds)
      exact fun i => hempty.elim i
  | succ k =>
      push_cast at hlate
      have hcard := hpaced k (by linarith)
      rw [min_eq_left hrounds] at hcard
      have hall : s.entered (k * rules.budget) = Finset.univ := Finset.eq_univ_of_card _
        (le_antisymm (Finset.card_le_univ _) hcard)
      intro i
      have hi : (s.phase i).enteredBy (k * rules.budget) = true :=
        mem_entered.mp (hall ▸ Finset.mem_univ i)
      cases hphase : s.phase i with
      | waiting => simp [hphase, Phase.enteredBy] at hi
      | inside since =>
          have hend := h.inTime i since hphase
          have hearly : since ≤ k * rules.budget := by simpa [hphase, Phase.enteredBy] using hi
          linarith
      | through since result => exact ⟨since, result, rfl⟩

end Pace

end Gate

end Keepup.Lib
