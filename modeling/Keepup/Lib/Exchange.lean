import Keepup.Lib.Remote

/-!
Programs against a server that only keeps a log. What comes back for a request is arbitrary, and a
reply that is no answer is for the program to raise, and to handle. A program may leave its requests
to a layer below it, which then makes several exchanges of one.
-/

namespace Keepup.Lib.Exchange

open Remote

variable {C R E α β : Type}

/-- The requests so far, with the replies to them. -/
abbrev Log (C R : Type) := List (C × R)

def serve : Server (Log C R) C R E R :=
  fun log request reply => (log ++ [(request, reply)], .ok reply)

/-- The log at the end of a program that gets these replies, and its result. -/
def outcome (prog : Remote C R E α) (replies : Nat → C → R) : Log C R × Except E α :=
  exec serve replies 0 prog []

section Rules

variable {log : Log C R} {Q : Log C R → Except E β → Prop}

theorem holds_ask {request : C} {k : R → Remote C R E β}
    (h : ∀ reply, Holds serve (k reply) (log ++ [(request, reply)]) Q) :
    Holds serve (.call request k) log Q := by
  refine holds_call (fun reply log' e hserve => ?_) fun reply log' answer hserve => ?_
  · cases hserve
  · cases hserve
    exact h reply

/-- A handler goes on with what the program before it has come to. -/
theorem holds_attempt {prog : Remote C R E α} {k : Except E α → Remote C R E β}
    (h : Holds serve prog log fun log' result => Holds serve (k result) log' Q) :
    Holds serve (prog.attempt >>= k) log Q := by
  intro env n
  have hanswers : ∀ (s : Log C R) (request : C) (reply : R),
      ∃ s' r, (serve : Server (Log C R) C R E R) s request reply = (s', .ok r) :=
    fun s request reply => ⟨s ++ [(request, reply)], reply, rfl⟩
  obtain ⟨m, hm⟩ := exec_attempt env hanswers prog n log k
  rw [hm]
  exact h env n env m

theorem outcome_of_holds {prog : Remote C R E β} (h : Holds serve prog [] Q)
    (replies : Nat → C → R) :
    Q (outcome prog replies).1 (outcome prog replies).2 := h replies 0

/-- The rule backwards: what holds of a program holds of the rest of it, whatever the reply. -/
theorem holds_of_ask {request : C} {k : R → Remote C R E β}
    (h : Holds serve (.call request k) log Q)
    (reply : R) : Holds serve (k reply) (log ++ [(request, reply)]) Q := by
  intro env n
  let env' : Nat → C → R
    | 0 => fun _ => reply
    | m + 1 => env (m + n)
  have hwhole := h env' 0
  have hrest : exec serve env' 1 (k reply) (log ++ [(request, reply)]) =
      exec serve env n (k reply) (log ++ [(request, reply)]) := by
    have hshift := exec_shift serve env' 1 0 (k reply) (log ++ [(request, reply)])
    have hnow := exec_shift serve env n 0 (k reply) (log ++ [(request, reply)])
    rw [Nat.zero_add] at hshift hnow
    exact hshift.symm.trans hnow
  rw [exec_call_ok (r := reply) rfl, Nat.zero_add, hrest] at hwhole
  exact hwhole

end Rules

section Each

/-- Every request of a log meets a condition on what was before it. -/
def Each (P : Log C R → C → Prop) (log : Log C R) : Prop :=
  ∀ before request reply after, log = before ++ (request, reply) :: after → P before request

variable {P : Log C R → C → Prop}

theorem each_nil : Each P [] := fun _ _ _ _ hlog => absurd hlog (by simp)

theorem each_single {request : C} (h : P [] request) (reply : R) : Each P [(request, reply)] := by
  intro before request' reply' after hlog
  cases before with
  | nil =>
      cases hlog
      exact h
  | cons first rest => exact absurd (congrArg List.length hlog) (by simp)

theorem each_append {log log' : Log C R} (h : Each P log)
    (h' : Each (fun before request => P (log ++ before) request) log') : Each P (log ++ log') := by
  intro before request reply after hlog
  rcases List.append_eq_append_iff.mp hlog with ⟨rest, rfl, hrest⟩ | ⟨rest, hfirst, hrest⟩
  · exact h' rest request reply after hrest
  · cases rest with
    | nil =>
        rw [List.append_nil] at hfirst
        subst hfirst
        simpa using h' [] request reply after hrest.symm
    | cons exchange rest =>
        cases hrest
        exact h before request reply rest hfirst

end Each

section Layers

variable {C' R' : Type}

/-- A program whose requests are carried out by programs of the layer below. -/
def through (carry : C → Remote C' R' E R) : Remote C R E α → Remote C' R' E α
  | .ret a => .ret a
  | .raise e => .raise e
  | .call request k => carry request >>= fun reply => through carry (k reply)

/-- The logs of the two layers, request by request. -/
inductive Carried (Chain : C → R → Log C' R' → Prop) : Log C R → Log C' R' → Prop where
  | nil : Carried Chain [] []
  | snoc {log below request reply chain} (hlog : Carried Chain log below)
    (hchain : Chain request reply chain) :
      Carried Chain (log ++ [(request, reply)]) (below ++ chain)

variable {carry : C → Remote C' R' E R} {Chain : C → R → Log C' R' → Prop}

/-- What holds of the program by itself holds of it over the layer, of some log that the exchanges
below carry out. -/
theorem holds_through [Nonempty R]
    (hcarry : ∀ request below, Holds serve (carry request) below fun below' result =>
      ∃ reply chain, below' = below ++ chain ∧ result = .ok reply ∧ Chain request reply chain)
    {prog : Remote C R E β} {log : Log C R} {below : Log C' R'} {Q : Log C R → Except E β → Prop}
    (hprog : Holds serve prog log Q) (hlog : Carried Chain log below) :
    Holds serve (through carry prog) below fun below' result => ∃ log', Carried Chain log' below' ∧
    Q log' result := by
  induction prog generalizing log below with
  | ret a => exact holds_ret ⟨log, hlog, hprog (fun _ _ => Classical.ofNonempty) 0⟩
  | raise e => exact holds_raise ⟨log, hlog, hprog (fun _ _ => Classical.ofNonempty) 0⟩
  | call request k ih =>
      refine holds_bind (holds_mono (hcarry request below) ?_)
      rintro below' result ⟨reply, chain, rfl, rfl, hchain⟩
      exact ih reply (holds_of_ask hprog reply) (hlog.snoc hchain)

end Layers

end Keepup.Lib.Exchange
