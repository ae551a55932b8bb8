import Mathlib.Data.List.Basic
import Mathlib.Data.Option.Basic

/-!
Approval in two steps, for clients that keep what they were asked and what they have approved. A
client may come back with what it was given at any earlier time, so that an approval may be used
twice. But nothing is used that was not asked before, and approved after that.
-/

namespace Keepup.Lib.Approval

variable {κ τ : Type}

/-- What a client keeps, for each subject. -/
structure Ticket (κ τ : Type) where
  asked : κ → Option τ := fun _ => none
  approved : κ → Option τ := fun _ => none

inductive Event (κ τ : Type) where
  | asked (k : κ) (x : τ)
  | approved (k : κ) (x : τ)
  | used (k : κ) (x : τ)

/-- A visit with the one ticket may leave the other behind. What is new on it has happened in the
visit, and what happens in the visit needs the ticket. -/
structure Earned (before : Ticket κ τ) (event : Option (Event κ τ)) (after : Ticket κ τ) :
    Prop where
  asked : ∀ k x, after.asked k = some x → before.asked k = some x ∨ event = some (.asked k x)
  approved : ∀ k x, after.approved k = some x → before.approved k = some x ∨
    event = some (.approved k x)
  approves : ∀ k x, event = some (.approved k x) → before.asked k = some x
  uses : ∀ k x, event = some (.used k x) → before.approved k = some x

theorem Earned.refl (ticket : Ticket κ τ) : Earned ticket none ticket :=
  ⟨fun _ _ h => .inl h, fun _ _ h => .inl h, fun _ _ h => (by cases h), fun _ _ h => (by cases h)⟩

/-- The tickets that have been given out, and what has happened. -/
inductive Run : List (Ticket κ τ) → List (Event κ τ) → Prop where
  | start : Run [] []
  | visit {issued : List (Ticket κ τ)} {events : List (Event κ τ)} {before after : Ticket κ τ}
      {event : Option (Event κ τ)} (hrun : Run issued events)
      (hbefore : before = {} ∨ before ∈ issued)
      (hearned : Earned before event after) : Run (after :: issued) (events ++ event.toList)

/-- It was approved, and asked before that. -/
def Approved (k : κ) (x : τ) (events : List (Event κ τ)) : Prop :=
  ∃ before after, events = before ++ .approved k x :: after ∧ .asked k x ∈ before

/-- It was asked, then approved, and then used. -/
def Vetted (k : κ) (x : τ) (events : List (Event κ τ)) : Prop :=
  ∃ before after, events = before ++ .used k x :: after ∧ Approved k x before

variable {k : κ} {x : τ} {issued : List (Ticket κ τ)} {events : List (Event κ τ)}

theorem Approved.append (h : Approved k x events) (later : List (Event κ τ)) :
    Approved k x (events ++ later) := by
  obtain ⟨before, after, rfl, hasked⟩ := h
  exact ⟨before, after ++ later, by simp, hasked⟩

theorem Vetted.append (h : Vetted k x events) (later : List (Event κ τ)) :
    Vetted k x (events ++ later) := by
  obtain ⟨before, after, rfl, happroved⟩ := h
  exact ⟨before, after ++ later, by simp, happroved⟩

theorem Run.asked (hrun : Run issued events) {ticket : Ticket κ τ}
    (hticket : ticket = {} ∨ ticket ∈ issued)
    (h : ticket.asked k = some x) : .asked k x ∈ events := by
  induction hrun generalizing ticket with
  | start =>
      rcases hticket with rfl | hmem
      · cases h
      · cases hmem
  | @visit issued events before after event _ hbefore hearned ih =>
      rw [List.mem_append]
      rcases hticket with rfl | hmem
      · cases h
      · rcases List.mem_cons.mp hmem with rfl | hmem
        · rcases hearned.asked k x h with hold | rfl
          · exact .inl (ih hbefore hold)
          · exact .inr (by simp)
        · exact .inl (ih (.inr hmem) h)

theorem Run.approved (hrun : Run issued events) {ticket : Ticket κ τ}
    (hticket : ticket = {} ∨ ticket ∈ issued)
    (h : ticket.approved k = some x) : Approved k x events := by
  induction hrun generalizing ticket with
  | start =>
      rcases hticket with rfl | hmem
      · cases h
      · cases hmem
  | @visit issued events before after event hrun hbefore hearned ih =>
      rcases hticket with rfl | hmem
      · cases h
      · rcases List.mem_cons.mp hmem with rfl | hmem
        · rcases hearned.approved k x h with hold | rfl
          · exact (ih hbefore hold).append _
          · exact ⟨events, [], rfl, hrun.asked hbefore (hearned.approves k x rfl)⟩
        · exact (ih (.inr hmem) h).append _

/-- Whatever a visit uses has been vetted. -/
theorem Run.used (hrun : Run issued events) {before after : Ticket κ τ}
    (hbefore : before = {} ∨ before ∈ issued) {event : Option (Event κ τ)}
    (hearned : Earned before event after) (h : event = some (.used k x)) :
    Vetted k x (events ++ event.toList) := by
  refine ⟨events, [], by rw [h]; rfl, hrun.approved hbefore (hearned.uses k x h)⟩

end Keepup.Lib.Approval
