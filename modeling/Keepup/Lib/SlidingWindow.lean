import Mathlib.Algebra.Order.Group.Defs
import Mathlib.Data.List.Count
import Mathlib.Data.List.Induction

/-!
A limiter that remembers the times of counted events and admits a try only while
fewer than a limit of them are recent. No half-open window of its span holds
more than the limit of counted events, whatever is tried, as long as nothing in
the window clears the memory.
-/

namespace Keepup.Lib.Window

variable {τ : Type*} [LinearOrder τ]

/-- How many of the times lie at a moment or after it. -/
def since (start : τ) (times : List τ) : ℕ := times.countP fun t => start ≤ t

/-- A try: when the memory is checked, when the event happens, the time that is
written down for it, and when the memory is pruned again after that. -/
structure Try (τ : Type*) where
  checked : τ
  happened : τ
  recorded : τ
  rechecked : τ
  fails : Bool

inductive Outcome where
  | refused
  | failed
  | succeeded
deriving DecidableEq

/-- The moments of a try are in order, and so are the tries. -/
def Try.Ordered (t : Try τ) : Prop :=
  t.checked ≤ t.happened ∧ t.happened ≤ t.recorded ∧ t.recorded ≤ t.rechecked

def Successive (ts : List (Try τ)) : Prop :=
  (∀ t ∈ ts, t.Ordered) ∧ ts.Pairwise fun a b => a.rechecked ≤ b.checked

theorem Successive.tail {t : Try τ} {ts : List (Try τ)} (h : Successive (t :: ts)) :
    Successive ts :=
  ⟨fun u hu => h.1 u (by simp [hu]), h.2.tail⟩

theorem Successive.after {t : Try τ} {ts : List (Try τ)} (h : Successive (t :: ts)) :
    ∀ u ∈ ts, t.rechecked ≤ u.checked := (List.pairwise_cons.mp h.2).1

theorem since_append {start t : τ} (times : List τ) (h : start ≤ t) :
    since start (times ++ [t]) = since start times + 1 := by
  simp [since, List.countP_append, h]

variable [AddCommGroup τ]

/-- The times less than a span ago. -/
def recent (span now : τ) (times : List τ) : List τ := times.filter fun t => now - t < span

section Machine

variable (limit : ℕ) (span : τ)

def outcome (times : List τ) (t : Try τ) : Outcome :=
  if limit ≤ (recent span t.checked times).length then .refused
  else if t.fails then .failed
  else .succeeded

/-- A failure is written down, a success forgets all of them. -/
def next (times : List τ) (t : Try τ) : List τ :=
  match outcome limit span times t with
  | .refused => recent span t.checked times
  | .failed => recent span t.rechecked (recent span t.checked times ++ [t.recorded])
  | .succeeded => []

def outcomes : List τ → List (Try τ) → List (Try τ × Outcome)
  | _, [] => []
  | times, t :: ts => (t, outcome limit span times t) :: outcomes (next limit span times t) ts

end Machine

section Accepting

variable (limit : ℕ) (span : τ) in
/-- What a limiter remembers that writes down what it accepts and nothing else,
`none` where it rejects. -/
def accept (times : List τ) (now : τ) : Option (List τ) :=
  let kept := recent span now times
  if limit ≤ kept.length then none else some (kept ++ [now])

/-- From a moment on the memory and the whole history have the same recent times. -/
def Tracks (span now : τ) (times history : List τ) : Prop :=
  ∀ later, now ≤ later → recent span later times = recent span later history

/-- Every time of a history comes after fewer recent ones than the limit. -/
def Admissible (limit : ℕ) (span : τ) (history : List τ) : Prop :=
  ∀ before t after, history = before ++ t :: after → (recent span t before).length < limit

variable {limit : ℕ} {span now later : τ} {times history : List τ}

theorem Tracks.refl (now : τ) (times : List τ) : Tracks span now times times := fun _ _ => rfl

theorem Tracks.of_le (h : Tracks span now times history) (hle : now ≤ later) :
    Tracks span later times history := fun _ hlater => h _ (hle.trans hlater)

theorem accept_eq_none_iff (h : Tracks span now times history) :
    accept limit span times now = none ↔ limit ≤ (recent span now history).length := by
  rw [accept, h now le_rfl]
  split <;> simp_all

theorem Admissible.snoc (h : Admissible limit span history)
    (hnow : (recent span now history).length < limit) :
    Admissible limit span (history ++ [now]) := by
  intro before t after hsplit
  rcases List.eq_nil_or_concat after with rfl | ⟨rest, last, rfl⟩
  · obtain ⟨rfl, hlast⟩ := List.append_inj' hsplit rfl
    rwa [← List.singleton_inj.mp hlast]
  · rw [List.concat_eq_append, ← List.cons_append, ← List.append_assoc] at hsplit
    exact h before t rest (List.append_inj' hsplit rfl).1

theorem Admissible.of_snoc (h : Admissible limit span (history ++ [now])) :
    Admissible limit span history ∧ (recent span now history).length < limit :=
  ⟨fun before t after hsplit => h before t (after ++ [now]) (by simp [hsplit]),
    h history now [] rfl⟩

end Accepting

/-- A moment of the half-open window of a span. -/
def InWindow (start span t : τ) : Prop := start ≤ t ∧ t < start + span

instance (start span t : τ) : Decidable (InWindow start span t) :=
  inferInstanceAs (Decidable (_ ∧ _))

/-- The failures of a window. -/
def failures (start span : τ) (outs : List (Try τ × Outcome)) : ℕ :=
  outs.countP fun o => o.2 = .failed ∧ InWindow start span o.1.happened

/-- Nothing succeeds in a window. -/
def NoSuccess (start span : τ) (outs : List (Try τ × Outcome)) : Prop :=
  ∀ o ∈ outs, InWindow start span o.1.happened → o.2 ≠ .succeeded

theorem NoSuccess.tail {start span : τ} {o : Try τ × Outcome} {outs : List (Try τ × Outcome)}
    (h : NoSuccess start span (o :: outs)) : NoSuccess start span outs :=
  fun u hu => h u (by simp [hu])

theorem failures_cons (start span : τ) (o : Try τ × Outcome) (outs : List (Try τ × Outcome)) :
    failures start span (o :: outs) = failures start span outs +
      if o.2 = .failed ∧ InWindow start span o.1.happened then 1 else 0 := by
  simp [failures, List.countP_cons]

/-- A try of which no failure counts. -/
theorem failures_skip {start span : τ} {o : Try τ × Outcome} {outs : List (Try τ × Outcome)}
    (h : ¬ (o.2 = .failed ∧ InWindow start span o.1.happened)) :
    failures start span (o :: outs) = failures start span outs := by
  rw [failures_cons, if_neg h, Nat.add_zero]

variable {limit : ℕ} {span start now : τ} {times : List τ}

/-- After the window nothing counts for it any more. -/
theorem failures_after {ts : List (Try τ)} (hsucc : Successive ts)
    (hfrom : ∀ t ∈ ts, start + span ≤ t.checked) :
    failures start span (outcomes limit span times ts) = 0 := by
  induction ts generalizing times with
  | nil => rfl
  | cons t ts ih =>
      have hlate : start + span ≤ t.happened := (hfrom t (by simp)).trans (hsucc.1 t (by simp)).1
      rw [outcomes, failures_skip fun h => absurd hlate (not_le.mpr h.2.2)]
      exact ih hsucc.tail fun u hu => hfrom u (by simp [hu])

variable [IsOrderedAddMonoid τ]

/-- As long as the window is open, nothing of it is dropped. -/
theorem since_recent (hopen : now < start + span) (times : List τ) :
    since start (recent span now times) = since start times := by
  rw [since, recent, List.countP_filter, since]
  apply List.countP_congr
  intro t _
  simp only [Bool.and_eq_true, decide_eq_true_eq, and_iff_left_iff_imp]
  intro hstart
  apply sub_lt_iff_lt_add.mpr
  calc now < start + span := hopen
    _ = span + start := add_comm start span
    _ ≤ span + t := by gcongr

/-- From the start of the window on, its failures join those that are already in
the memory, and all of them together stay within the limit. -/
theorem failures_from {ts : List (Try τ)} (hsucc : Successive ts)
    (hfrom : ∀ t ∈ ts, start ≤ t.happened)
    (hnone : NoSuccess start span (outcomes limit span times ts)) :
    failures start span (outcomes limit span times ts) + since start times ≤
      max limit (since start times) := by
  induction ts generalizing times with
  | nil => simp [outcomes, failures]
  | cons t ts ih =>
      obtain ⟨hchecked, hrecorded, hrechecked⟩ := hsucc.1 t (by simp)
      have hstart : start ≤ t.happened := hfrom t (by simp)
      have hover : start + span ≤ t.rechecked →
          failures start span (outcomes limit span (next limit span times t) ts) =
              0 := fun hclosed =>
        failures_after hsucc.tail fun u hu => hclosed.trans (hsucc.after u hu)
      have hrest := ih hsucc.tail (fun u hu => hfrom u (by simp [hu])) hnone.tail
      rw [outcomes, failures_cons]
      by_cases hclosed : start + span ≤ t.happened
      · rw [if_neg fun h => absurd hclosed (not_le.mpr h.2.2),
          hover (hclosed.trans (hrecorded.trans hrechecked))]
        simp
      · have hin : InWindow start span t.happened := ⟨hstart, not_le.mp hclosed⟩
        have hkept : since start (recent span t.checked times) = since start times :=
          since_recent (hchecked.trans_lt hin.2) times
        cases hout : outcome limit span times t with
        | refused =>
            have hsame : since start (next limit span times t) = since start times := by
              rw [next, hout, hkept]
            rw [hsame] at hrest
            simpa using hrest
        | failed =>
            have hroom : since start times < limit := by
              have hlength : (recent span t.checked times).length < limit := by
                unfold outcome at hout
                split at hout
                · cases hout
                · omega
              exact hkept ▸ List.countP_le_length.trans_lt hlength
            rw [if_pos ⟨rfl, hin⟩]
            by_cases hreopen : t.rechecked < start + span
            · have hgrown : since start (next limit span times t) = since start times + 1 := by
                rw [next, hout, since_recent hreopen,
                  since_append _ (hstart.trans hrecorded), hkept]
              rw [hgrown] at hrest
              omega
            · rw [hover (not_lt.mp hreopen)]
              omega
        | succeeded => exact absurd hout (hnone _ List.mem_cons_self hin)

/-- No window of the span holds more failures than the limit. -/
theorem failures_le {ts : List (Try τ)} (hsucc : Successive ts)
    (hnone : NoSuccess start span (outcomes limit span times ts)) :
    failures start span (outcomes limit span times ts) ≤ limit := by
  induction ts generalizing times with
  | nil => simp [outcomes, failures]
  | cons t ts ih =>
      by_cases hstart : start ≤ t.happened
      · have hfrom : ∀ u ∈ t :: ts, start ≤ u.happened := by
          intro u hu
          obtain ⟨_, hrecorded, hrechecked⟩ := hsucc.1 t (by simp)
          rcases List.mem_cons.mp hu with rfl | hu
          · exact hstart
          · exact hstart.trans <| hrecorded.trans <| hrechecked.trans <| (hsucc.after u hu).trans
              (hsucc.1 u (by simp [hu])).1
        have hbound := failures_from hsucc hfrom hnone
        omega
      · rw [outcomes, failures_skip fun h => hstart h.2.1]
        exact ih hsucc.tail hnone.tail

section History

variable {later : τ} {history times' : List τ}

/-- What was pruned once is too old ever after. -/
theorem recent_recent (hle : now ≤ later) (times : List τ) :
    recent span later (recent span now times) = recent span later times := by
  rw [recent, recent, List.filter_filter, recent]
  apply List.filter_congr
  intro t _
  have hnow : later - t < span → now - t < span := (sub_le_sub_right hle t).trans_lt
  simpa using hnow

theorem Tracks.accepted (h : Tracks span now times history)
    (haccept : accept limit span times now = some times') :
    Tracks span now times' (history ++ [now]) := by
  rw [accept] at haccept
  split at haccept
  · cases haccept
  · rw [← Option.some.inj haccept]
    intro later hlater
    have hkept : recent span later (recent span now times) = recent span later history := by
      rw [recent_recent hlater, h later hlater]
    simp only [recent, List.filter_append] at hkept ⊢
    rw [hkept]

/-- The last time of a window has all the others of it among its recent ones. -/
theorem Admissible.count_le (h : Admissible limit span history) (start : τ) :
    history.countP (fun t => InWindow start span t) ≤ limit := by
  induction history using List.reverseRecOn with
  | nil => simp
  | append_singleton history now ih =>
      obtain ⟨hbefore, hroom⟩ := h.of_snoc
      rw [List.countP_append, List.countP_singleton]
      by_cases hin : InWindow start span now
      · have hrecent : history.countP (fun t => InWindow start span t) ≤
            (recent span now history).length := by
          rw [recent, ← List.countP_eq_length_filter]
          apply List.countP_mono_left
          intro t _ ht
          simp only [decide_eq_true_eq] at ht ⊢
          apply sub_lt_iff_lt_add.mpr
          calc now < start + span := hin.2
            _ = span + start := add_comm start span
            _ ≤ span + t := by gcongr; exact ht.1
        simp only [hin, decide_true, if_true]
        omega
      · simpa [hin] using ih hbefore

end History

end Keepup.Lib.Window
