import Keepup.Lib.Dict
import Keepup.Lib.SlidingWindow
import Keepup.Text
import Mathlib.Data.Rat.Floor

/-!
The limiter of the admin pages: thirty requests that change something in a minute
from one address. It prunes what it remembers of an address only when it lets a
request through, and is a sliding window over the whole history all the same.
The clock is exact here, and it does not go backwards.
-/

namespace Keepup.AdminLimiter

open Lib

/-- What the limiter reads of a request, and the time at which it does. -/
structure Request where
  method : String
  path : String
  client : Option String
  now : ℚ

def maxRequests : ℕ := 30

def windowSeconds : ℚ := 60

namespace Request

variable (r : Request)

def mutating : Bool :=
  ["POST", "PUT", "DELETE"].contains r.method && Text.startsWith r.path "/admin/"

/-- The address; a client without one is `unknown`. -/
def ip : String := Text.orElse r.client "unknown"

end Request

/-- The accepted times of each address. -/
abbrev Memory := Dict String (List ℚ)

/-- The memory after a request, and whether the request is let through. -/
def dispatch (window : Memory) (r : Request) : Memory × Bool :=
  if r.mutating then
    match Window.accept maxRequests windowSeconds (window.getD r.ip []) r.now with
    | none => (window, false)
    | some times => (window.set r.ip times, true)
  else (window, true)

/-- What becomes of requests, one after the other. -/
def outcomes : Memory → List Request → List (Request × Bool)
  | _, [] => []
  | window, r :: rs => (r, (dispatch window r).2) :: outcomes (dispatch window r).1 rs

/-- The times of the mutating requests of an address that were let through. -/
def accepted (ip : String) (outs : List (Request × Bool)) : List ℚ :=
  (outs.filter fun o => o.1.mutating && o.2 && o.1.ip == ip).map (·.1.now)

section Step

variable {window : Memory} {r : Request} {ip : String} {outs : List (Request × Bool)} {now : ℚ}

theorem dispatch_free (h : r.mutating = false) : dispatch window r = (window, true) := by
  rw [dispatch, if_neg (by simp [h])]

theorem dispatch_rejected (h : r.mutating = true)
    (hnone : Window.accept maxRequests windowSeconds (window.getD r.ip []) r.now = none) :
    dispatch window r = (window, false) := by
  rw [dispatch, if_pos h, hnone]

theorem dispatch_accepted {times : List ℚ} (h : r.mutating = true)
    (hsome : Window.accept maxRequests windowSeconds (window.getD r.ip []) r.now = some times) :
    dispatch window r = (window.set r.ip times, true) := by
  rw [dispatch, if_pos h, hsome]

/-- A request that is rejected leaves everything as it is. -/
theorem dispatch_of_rejected (h : (dispatch window r).2 = false) :
    (dispatch window r).1 = window := by
  cases hmutating : r.mutating with
  | false => rw [dispatch_free hmutating]
  | true =>
      cases haccept : Window.accept maxRequests windowSeconds (window.getD r.ip []) r.now with
      | none => rw [dispatch_rejected hmutating haccept]
      | some times =>
          rw [dispatch_accepted hmutating haccept] at h
          cases h

theorem dispatch_other (h : r.ip ≠ ip) :
    (dispatch window r).1.getD ip [] = window.getD ip [] := by
  cases hmutating : r.mutating with
  | false => rw [dispatch_free hmutating]
  | true =>
      cases haccept : Window.accept maxRequests windowSeconds (window.getD r.ip []) r.now with
      | none => rw [dispatch_rejected hmutating haccept]
      | some times =>
          rw [dispatch_accepted hmutating haccept, Dict.getD, Dict.get?_set_ne _ _ h.symm,
            Dict.getD]

/-- The answer, and what is remembered of the address, depend on the address alone. -/
theorem dispatch_congr {window' : Memory} (h : window.getD r.ip [] = window'.getD r.ip []) :
    (dispatch window r).2 = (dispatch window' r).2 ∧
      (dispatch window r).1.getD r.ip [] = (dispatch window' r).1.getD r.ip [] := by
  cases hmutating : r.mutating with
  | false =>
      rw [dispatch_free hmutating, dispatch_free hmutating]
      exact ⟨rfl, h⟩
  | true =>
      cases haccept : Window.accept maxRequests windowSeconds (window.getD r.ip []) r.now with
      | none =>
          rw [dispatch_rejected hmutating haccept, dispatch_rejected hmutating (h ▸ haccept)]
          exact ⟨rfl, h⟩
      | some times =>
          rw [dispatch_accepted hmutating haccept, dispatch_accepted hmutating (h ▸ haccept)]
          simp [Dict.getD]

/-- What is remembered of an address has the recent times of its whole history, and
that never was above the limit. -/
structure Follows (now : ℚ) (window : Memory) (outs : List (Request × Bool)) (ip : String) :
    Prop where
  tracks : Window.Tracks windowSeconds now (window.getD ip []) (accepted ip outs)
  admissible : Window.Admissible maxRequests windowSeconds (accepted ip outs)

theorem follows_empty (now : ℚ) (ip : String) : Follows now ∅ [] ip where
  tracks := .refl now []
  admissible before t after h := by simp [accepted] at h

/-- Exactly the requests after too many recent ones are rejected. -/
theorem Follows.rejected_iff (h : Follows now window outs r.ip) (hnow : now ≤ r.now)
    (hmutating : r.mutating = true) : (dispatch window r).2 = false ↔
      maxRequests ≤ (Window.recent windowSeconds r.now (accepted r.ip outs)).length := by
  rw [← Window.accept_eq_none_iff (h.tracks.of_le hnow)]
  cases haccept : Window.accept maxRequests windowSeconds (window.getD r.ip []) r.now with
  | none => simp [dispatch_rejected hmutating haccept]
  | some times => simp [dispatch_accepted hmutating haccept]

theorem follows_dispatch (h : ∀ ip, Follows now window outs ip) (hnow : now ≤ r.now) (ip : String) :
    Follows r.now (dispatch window r).1 (outs ++ [(r, (dispatch window r).2)]) ip := by
  have hlater : Window.Tracks windowSeconds r.now (window.getD ip []) (accepted ip outs) :=
    (h ip).tracks.of_le hnow
  by_cases hip : r.ip = ip
  · subst hip
    cases hmutating : r.mutating with
    | false =>
        have hsame : accepted r.ip (outs ++ [(r, true)]) = accepted r.ip outs := by
          simp [accepted, hmutating]
        rw [dispatch_free hmutating]
        exact ⟨hsame ▸ hlater, hsame ▸ (h r.ip).admissible⟩
    | true =>
        cases haccept : Window.accept maxRequests windowSeconds (window.getD r.ip []) r.now with
        | none =>
            have hsame : accepted r.ip (outs ++ [(r, false)]) = accepted r.ip outs := by
              simp [accepted]
            rw [dispatch_rejected hmutating haccept]
            exact ⟨hsame ▸ hlater, hsame ▸ (h r.ip).admissible⟩
        | some times =>
            have hgrown : accepted r.ip (outs ++ [(r, true)]) = accepted r.ip outs ++ [r.now] := by
              simp [accepted, hmutating]
            have hroom : (Window.recent windowSeconds r.now (accepted r.ip outs)).length <
                maxRequests := by
              by_contra hfull
              rw [(Window.accept_eq_none_iff hlater).mpr (not_lt.mp hfull)] at haccept
              cases haccept
            rw [dispatch_accepted hmutating haccept]
            constructor
            · rw [hgrown, Dict.getD, Dict.get?_set_self]
              exact hlater.accepted haccept
            · rw [hgrown]
              exact (h r.ip).admissible.snoc hroom
  · have hsame : accepted ip (outs ++ [(r, (dispatch window r).2)]) = accepted ip outs := by
      simp [accepted, hip]
    constructor
    · rw [hsame, dispatch_other hip]
      exact hlater
    · rw [hsame]
      exact (h ip).admissible

end Step

section Runs

variable {window window' : Memory} {rs : List Request} {outs : List (Request × Bool)} {now : ℚ}

/-- The clock readings do not decrease. -/
def InOrder (rs : List Request) : Prop := rs.Pairwise fun r r' => r.now ≤ r'.now

/-- From a state that follows its history, a run does so all along. -/
theorem rejected_iff_of_follows (h : ∀ ip, Follows now window outs ip)
    (hfrom : ∀ r ∈ rs, now ≤ r.now) (horder : InOrder rs) :
    (∀ before o after, outcomes window rs = before ++ o :: after → o.1.mutating = true →
      (o.2 = false ↔ maxRequests ≤
        (Window.recent windowSeconds o.1.now (accepted o.1.ip (outs ++ before))).length)) ∧
    ∀ ip, Window.Admissible maxRequests windowSeconds
      (accepted ip (outs ++ outcomes window rs)) := by
  induction rs generalizing now window outs with
  | nil =>
      constructor
      · intro before o after hsplit
        simp [outcomes] at hsplit
      · intro ip
        simpa [outcomes] using (h ip).admissible
  | cons r rs ih =>
      obtain ⟨hlater, htail⟩ := List.pairwise_cons.mp horder
      have hnow := hfrom r (by simp)
      obtain ⟨hrest, hadmissible⟩ := ih (follows_dispatch h hnow) hlater htail
      constructor
      · intro before o after hsplit hmutating
        rw [outcomes] at hsplit
        cases before with
        | nil =>
            obtain ⟨rfl, _⟩ := List.cons.inj hsplit
            rw [List.append_nil]
            exact (h r.ip).rejected_iff hnow hmutating
        | cons first before =>
            obtain ⟨rfl, hsplit'⟩ := List.cons.inj hsplit
            have hone := hrest before o after hsplit' hmutating
            rwa [List.append_assoc, List.singleton_append] at hone
      · intro ip
        have hone := hadmissible ip
        rwa [List.append_assoc, List.singleton_append] at hone

/-- The requests of one address, alone or among others. -/
theorem filter_outcomes (ip : String) (h : window.getD ip [] = window'.getD ip []) :
    (outcomes window rs).filter (fun o => o.1.ip == ip) =
      outcomes window' (rs.filter fun r => r.ip == ip) := by
  induction rs generalizing window window' with
  | nil => rfl
  | cons r rs ih =>
      by_cases hip : r.ip = ip
      · subst hip
        obtain ⟨hanswer, hkept⟩ := dispatch_congr h
        rw [outcomes, List.filter_cons_of_pos (by simp), List.filter_cons_of_pos (by simp),
          outcomes,
          hanswer, ih hkept]
      · rw [outcomes, List.filter_cons_of_neg (by simpa using hip),
          List.filter_cons_of_neg (by simpa using hip)]
        exact ih ((dispatch_other hip).trans h)

/-- A rejected request can be left out. -/
theorem outcomes_without {before after : List Request} {r : Request} {rest : List (Request × Bool)}
    (h : outcomes window (before ++ r :: after) = outcomes window before ++ (r, false) :: rest) :
    outcomes window (before ++ after) = outcomes window before ++ rest := by
  induction before generalizing window with
  | nil =>
      obtain ⟨hanswer, hrest⟩ := List.cons.inj h
      have hrejected : (dispatch window r).2 = false := (Prod.mk.inj hanswer).2
      rw [dispatch_of_rejected hrejected] at hrest
      exact hrest
  | cons first before ih =>
      simp only [List.cons_append, outcomes, List.cons.injEq, true_and] at h ⊢
      exact ih h

end Runs

/-- The limiter is a sliding window: a request is rejected when there are enough
accepted ones of its address less than a minute before it, no minute holds more of
them, a rejected request can be left out, and so can those of other addresses. -/
structure Slides (rs : List Request) : Prop where
  rejected_iff : ∀ before o after, outcomes ∅ rs = before ++ o :: after → o.1.mutating = true →
    (o.2 = false ↔
      maxRequests ≤ (Window.recent windowSeconds o.1.now (accepted o.1.ip before)).length)
  bounded : ∀ ip start,
    (accepted ip (outcomes ∅ rs)).countP (fun t => Window.InWindow start windowSeconds t) ≤
      maxRequests
  unextended : ∀ before r after rest, rs = before ++ r :: after →
    outcomes ∅ rs = outcomes ∅ before ++ (r, false) :: rest →
    outcomes ∅ (before ++ after) = outcomes ∅ before ++ rest
  separate : ∀ ip, (outcomes ∅ rs).filter (fun o => o.1.ip == ip) =
    outcomes ∅ (rs.filter fun r => r.ip == ip)

/-- Whatever is asked for and by whom, as long as the clock does not go backwards. -/
theorem limiter_slides (rs : List Request) (horder : InOrder rs) : Slides rs := by
  obtain ⟨start, hfrom⟩ : ∃ start, ∀ r ∈ rs, start ≤ r.now := by
    cases rs with
    | nil => exact ⟨0, nofun⟩
    | cons r rs =>
        refine ⟨r.now, fun r' hr' => ?_⟩
        rcases List.mem_cons.mp hr' with rfl | hr'
        · exact le_rfl
        · exact (List.pairwise_cons.mp horder).1 r' hr'
  obtain ⟨hrejected, hadmissible⟩ := rejected_iff_of_follows (follows_empty start) hfrom horder
  exact {
    rejected_iff := by simpa using hrejected
    bounded := fun ip => (by simpa using hadmissible ip : Window.Admissible _ _ _).count_le
    unextended := by
      rintro before r after rest rfl h
      exact outcomes_without h
    separate := fun ip => filter_outcomes ip rfl }

/-- A client that posts once a second for half a minute and then once more, another client, and
the first one again after a minute. -/
def busyMinute : List Request :=
  ((List.range 31).map fun n : ℕ => ⟨"POST", "/admin/hosts", some "10.0.0.1", n⟩) ++
    [⟨"POST", "/admin/hosts", some "10.0.0.2", 31⟩, ⟨"POST", "/admin/hosts", some "10.0.0.1", 60⟩]

theorem two_clients_slide : InOrder busyMinute ∧ Slides busyMinute ∧
    (outcomes ∅ busyMinute).map Prod.snd = List.replicate 30 true ++ [false, true, true] := by
  have horder : InOrder busyMinute := by
    rw [InOrder]
    decide +kernel
  exact ⟨horder, limiter_slides busyMinute horder, by decide +kernel⟩

end Keepup.AdminLimiter
