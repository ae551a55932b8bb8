import Mathlib.Data.Set.Basic
import Mathlib.Logic.Function.Basic

/-!
Programs that send commands to a server and wait for each answer. A command
can fail to be answered, and then the program stops with that error: there is
no handler, as in a function whose only `await`s are remote calls.

Three rules about such programs: `Holds` checks a program command by command
for every choice the server can make, `Follows` relates it to a monitor that
says which commands are due at which stage, and `Pool.inv` carries an
invariant of the server and the monitors through every interleaving of any
number of programs.
-/

namespace Keepup.Lib

inductive Remote (C R E α : Type) where
  | ret (a : α)
  | raise (e : E)
  | call (c : C) (k : R → Remote C R E α)

/-- How a server takes a command: `choice` is everything it does not decide by
itself, the failures included. -/
abbrev Server (σ C R E ω : Type) := σ → C → ω → σ × Except E R

namespace Remote

variable {σ C R E ω α β : Type}

def bind : Remote C R E α → (α → Remote C R E β) → Remote C R E β
  | .ret a, next => next a
  | .raise e, _ => .raise e
  | .call c k, next => .call c fun r => (k r).bind next

instance : Monad (Remote C R E) where
  pure := .ret
  bind := bind

def perform (c : C) : Remote C R E R := .call c .ret

@[simp] theorem perform_bind (c : C) (k : R → Remote C R E α) :
    (perform c >>= k) = .call c k := rfl

@[simp] theorem call_bind (c : C) (k : R → Remote C R E α) (next : α → Remote C R E β) :
    (.call c k >>= next) = .call c fun r => k r >>= next := rfl

@[simp] theorem pure_eq (a : α) : (pure a : Remote C R E α) = .ret a := rfl

@[simp] theorem ret_bind (a : α) (k : α → Remote C R E β) : (.ret a >>= k) = k a := rfl

@[simp] theorem raise_bind (e : E) (k : α → Remote C R E β) : (.raise e >>= k) = .raise e := rfl

theorem bind_assoc {γ : Type} (prog : Remote C R E α) (f : α → Remote C R E β)
    (g : β → Remote C R E γ) : (prog >>= f) >>= g = prog >>= fun a => f a >>= g := by
  induction prog with
  | ret a => rfl
  | raise e => rfl
  | call c k ih => exact congrArg (Remote.call c) (funext ih)

/-- Run a program and hand its error on as a result. -/
def attempt {E' : Type} : Remote C R E α → Remote C R E' (Except E α)
  | .ret a => .ret (.ok a)
  | .raise e => .ret (.error e)
  | .call c k => .call c fun r => (k r).attempt

/-- All commands of a program, whatever it is answered, are of one kind. -/
def Only (P : C → Prop) : Remote C R E α → Prop
  | .ret _ => True
  | .raise _ => True
  | .call c k => P c ∧ ∀ r, (k r).Only P

section Only

variable {P : C → Prop}

theorem only_bind {prog : Remote C R E α} {k : α → Remote C R E β} (hprog : prog.Only P)
    (hk : ∀ a, (k a).Only P) : (prog >>= k).Only P := by
  induction prog with
  | ret a => exact hk a
  | raise e => trivial
  | call c k' ih => exact ⟨hprog.1, fun r => ih r (hprog.2 r)⟩

theorem only_ite {c : Prop} [Decidable c] {prog prog' : Remote C R E α} (hprog : prog.Only P)
    (hprog' : prog'.Only P) : (if c then prog else prog').Only P := by
  split
  · exact hprog
  · exact hprog'

theorem only_attempt {E' : Type} {prog : Remote C R E α} (hprog : prog.Only P) :
    (prog.attempt : Remote C R E' (Except E α)).Only P := by
  induction prog with
  | ret a => trivial
  | raise e => trivial
  | call c k ih => exact ⟨hprog.1, fun r => ih r (hprog.2 r)⟩

end Only

/-- Everything a program can return is of one kind. -/
def Returns (P : α → Prop) : Remote C R E α → Prop
  | .ret a => P a
  | .raise _ => True
  | .call _ k => ∀ r, (k r).Returns P

theorem returns_bind {P : β → Prop} {k : α → Remote C R E β} (hk : ∀ a, (k a).Returns P)
    (prog : Remote C R E α) : (prog >>= k).Returns P := by
  induction prog with
  | ret a => exact hk a
  | raise e => trivial
  | call c k' ih => exact ih

theorem returns_bind_of {P : α → Prop} {P' : β → Prop} {prog : Remote C R E α}
    {k : α → Remote C R E β} (hprog : prog.Returns P) (hk : ∀ a, P a → (k a).Returns P') :
    (prog >>= k).Returns P' := by
  induction prog with
  | ret a => exact hk a hprog
  | raise e => trivial
  | call c k' ih => exact fun r => ih r (hprog r)

theorem returns_ite {P : α → Prop} {c : Prop} [Decidable c] {prog prog' : Remote C R E α}
    (hprog : prog.Returns P) (hprog' : prog'.Returns P) :
    (if c then prog else prog').Returns P := by
  split
  · exact hprog
  · exact hprog'

/-- A program that stops only where a command is not answered. -/
def NeverRaises : Remote C R E α → Prop
  | .ret _ => True
  | .raise _ => False
  | .call _ k => ∀ r, (k r).NeverRaises

theorem neverRaises_bind {prog : Remote C R E α} {k : α → Remote C R E β} (hprog : prog.NeverRaises)
    (hk : ∀ a, (k a).NeverRaises) : (prog >>= k).NeverRaises := by
  induction prog with
  | ret a => exact hk a
  | raise e => exact hprog.elim
  | call c k' ih => exact fun r => ih r (hprog r)

/-- Run a program to its end. The choice for the `n`-th command may depend on
the command. -/
def exec (serve : Server σ C R E ω) (env : Nat → C → ω) :
    Nat → Remote C R E α → σ → σ × Except E α
  | _, .ret a, s => (s, .ok a)
  | _, .raise e, s => (s, .error e)
  | n, .call c k, s =>
      match serve s c (env n c) with
      | (s', .ok r) => exec serve env (n + 1) (k r) s'
      | (s', .error e) => (s', .error e)

/-- The commands that a program gets to send. -/
def sent (serve : Server σ C R E ω) (env : Nat → C → ω) : Nat → Remote C R E α → σ → List C
  | _, .ret _, _ => []
  | _, .raise _, _ => []
  | n, .call c k, s => c ::
      match serve s c (env n c) with
      | (s', .ok r) => sent serve env (n + 1) (k r) s'
      | (_, .error _) => []

section Exec

variable {serve : Server σ C R E ω} {env : Nat → C → ω} {n : Nat} {s s' : σ}

@[simp] theorem exec_ret (a : α) : exec serve env n (.ret a) s = (s, .ok a) := rfl

@[simp] theorem exec_raise (e : E) :
    exec serve env n (.raise e : Remote C R E α) s = (s, .error e) := rfl

theorem exec_call_ok {c : C} {k : R → Remote C R E α} {r : R}
    (h : serve s c (env n c) = (s', .ok r)) :
    exec serve env n (.call c k) s = exec serve env (n + 1) (k r) s' := by
  simp [exec, h]

theorem mem_sent_call {c d : C} {k : R → Remote C R E α} (h : d ∈ sent serve env n (.call c k) s) :
    d = c ∨ ∃ s' r, serve s c (env n c) = (s', .ok r) ∧ d ∈ sent serve env (n + 1) (k r) s' := by
  rw [sent, List.mem_cons] at h
  rcases h with hfirst | hrest
  · exact .inl hfirst
  · cases hserve : serve s c (env n c) with
    | mk t result =>
        cases result with
        | ok r => exact .inr ⟨t, r, rfl, by simpa [hserve] using hrest⟩
        | error e => simp [hserve] at hrest

theorem exec_call_error {c : C} {k : R → Remote C R E α} {e : E}
    (h : serve s c (env n c) = (s', .error e)) :
    exec serve env n (.call c k) s = (s', .error e) := by
  simp [exec, h]

/-- Where the count of the commands begins is of no importance. -/
theorem exec_shift (serve : Server σ C R E ω) (env : Nat → C → ω) (j n : Nat)
    (prog : Remote C R E α) (s : σ) :
    exec serve (fun m => env (m + j)) n prog s = exec serve env (n + j) prog s := by
  induction prog generalizing n s with
  | ret a => rfl
  | raise e => rfl
  | call c k ih =>
      rw [exec, exec]
      cases serve s c (env (n + j) c) with
      | mk s' result =>
          cases result with
          | ok r =>
              have hrest := ih r (n + 1) s'
              rwa [Nat.add_right_comm] at hrest
          | error e => rfl

end Exec

section Sequence

variable {serve : Server σ C R E ω} {env : Nat → C → ω}

/-- A program that returns hands over to the one after it. -/
theorem exec_bind {prog : Remote C R E α} {n : Nat} {s s' : σ} {a : α}
    (h : exec serve env n prog s = (s', .ok a)) (k : α → Remote C R E β) :
    ∃ m, exec serve env n (prog >>= k) s = exec serve env m (k a) s' := by
  induction prog generalizing n s with
  | ret b =>
      cases h
      exact ⟨n, rfl⟩
  | raise e => cases h
  | call c next ih =>
      cases hserve : serve s c (env n c) with
      | mk t result =>
          cases result with
          | ok r =>
              rw [exec_call_ok hserve] at h
              obtain ⟨m, hm⟩ := ih r h
              exact ⟨m, (exec_call_ok hserve).trans hm⟩
          | error e =>
              rw [exec_call_error hserve] at h
              cases h

/-- A program that fails has nothing after it. -/
theorem exec_bind_error {prog : Remote C R E α} {n : Nat} {s s' : σ} {e : E}
    (h : exec serve env n prog s = (s', .error e)) (k : α → Remote C R E β) :
    exec serve env n (prog >>= k) s = (s', .error e) := by
  induction prog generalizing n s with
  | ret a => cases h
  | raise e' =>
      cases h
      rfl
  | call c next ih =>
      cases hserve : serve s c (env n c) with
      | mk t result =>
          cases result with
          | ok r =>
              rw [exec_call_ok hserve] at h
              exact (exec_call_ok hserve).trans (ih r h)
          | error e' =>
              rw [exec_call_error hserve] at h
              cases h
              exact exec_call_error hserve

/-- With a server that answers every command, an attempt hands its result over. -/
theorem exec_attempt (env : Nat → C → ω) (hserve : ∀ s c o, ∃ s' r, serve s c o = (s', .ok r))
    (prog : Remote C R E α) (n : Nat) (s : σ) (k : Except E α → Remote C R E β) :
    ∃ m, exec serve env n (prog.attempt >>= k) s =
      exec serve env m (k (exec serve env n prog s).2) (exec serve env n prog s).1 := by
  induction prog generalizing n s with
  | ret b => exact ⟨n, rfl⟩
  | raise e => exact ⟨n, rfl⟩
  | call c next ih =>
      obtain ⟨t, r, hr⟩ := hserve s c (env n c)
      obtain ⟨m, hm⟩ := ih r (n + 1) t
      refine ⟨m, ?_⟩
      rw [exec_call_ok hr]
      exact (exec_call_ok hr).trans hm

/-- The commands of an attempt, and then those of what follows it. -/
theorem sent_attempt (env : Nat → C → ω) (hserve : ∀ s c o, ∃ s' r, serve s c o = (s', .ok r))
    (prog : Remote C R E α) (n : Nat) (s : σ) (k : Except E α → Remote C R E β) :
    ∃ m, sent serve env n (prog.attempt >>= k) s = sent serve env n prog s ++
      sent serve env m (k (exec serve env n prog s).2) (exec serve env n prog s).1 := by
  induction prog generalizing n s with
  | ret b => exact ⟨n, rfl⟩
  | raise e => exact ⟨n, rfl⟩
  | call c next ih =>
      obtain ⟨t, r, hr⟩ := hserve s c (env n c)
      obtain ⟨m, hm⟩ := ih r (n + 1) t
      refine ⟨m, ?_⟩
      have hattempt : ((call c next).attempt >>= k : Remote C R E β) =
          .call c fun r => (next r).attempt >>= k := rfl
      rw [hattempt, exec_call_ok hr]
      simp only [sent, hr, hm, List.cons_append]

end Sequence

theorem sent_only {serve : Server σ C R E ω} {P : C → Prop} {prog : Remote C R E α}
    (hprog : prog.Only P) (env : Nat → C → ω) (n : Nat) (s : σ) :
    ∀ c ∈ sent serve env n prog s, P c := by
  intro d hd
  induction prog generalizing n s with
  | ret a => cases hd
  | raise e => cases hd
  | call c k ih =>
      rcases mem_sent_call hd with rfl | ⟨t, r, _, hrest⟩
      · exact hprog.1
      · exact ih r (hprog.2 r) (n + 1) t hrest

section Sent

variable {serve : Server σ C R E ω} {env : Nat → C → ω}

/-- With a server that answers every command, such a program returns. -/
theorem exec_neverRaises (hserve : ∀ s c n, ∃ s' r, serve s c (env n c) = (s', .ok r))
    {prog : Remote C R E α} (hprog : prog.NeverRaises) (n : Nat) (s : σ) :
    ∃ s' a, exec serve env n prog s = (s', .ok a) := by
  induction prog generalizing n s with
  | ret a => exact ⟨s, a, rfl⟩
  | raise e => exact hprog.elim
  | call c k ih =>
      obtain ⟨s', r, hr⟩ := hserve s c n
      rw [exec_call_ok hr]
      exact ih r (hprog r) (n + 1) s'

theorem mem_sent_head (c : C) (k : R → Remote C R E α) (n : Nat) (s : σ) :
    c ∈ sent serve env n (.call c k) s := by
  rw [sent]
  exact List.mem_cons_self

theorem sent_call_ok {c : C} {k : R → Remote C R E α} {n : Nat} {s s' : σ} {r : R}
    (h : serve s c (env n c) = (s', .ok r)) :
    sent serve env n (.call c k) s = c :: sent serve env (n + 1) (k r) s' := by
  simp [sent, h]

theorem sent_call_error {c : C} {k : R → Remote C R E α} {n : Nat} {s s' : σ} {e : E}
    (h : serve s c (env n c) = (s', .error e)) : sent serve env n (.call c k) s = [c] := by
  simp [sent, h]

/-- A program that returns is followed by the commands of the one after it. -/
theorem sent_bind {prog : Remote C R E α} {n : Nat} {s s' : σ} {a : α}
    (h : exec serve env n prog s = (s', .ok a)) (k : α → Remote C R E β) :
    ∃ m, sent serve env n (prog >>= k) s = sent serve env n prog s ++
      sent serve env m (k a) s' := by
  induction prog generalizing n s with
  | ret b =>
      cases h
      exact ⟨n, rfl⟩
  | raise e => cases h
  | call c next ih =>
      cases hserve : serve s c (env n c) with
      | mk t result =>
          cases result with
          | ok r =>
              rw [exec_call_ok hserve] at h
              obtain ⟨m, hm⟩ := ih r h
              refine ⟨m, ?_⟩
              rw [call_bind, sent_call_ok hserve, sent_call_ok hserve, hm, List.cons_append]
          | error e =>
              rw [exec_call_error hserve] at h
              cases h

theorem sent_bind_error {prog : Remote C R E α} {n : Nat} {s s' : σ} {e : E}
    (h : exec serve env n prog s = (s', .error e)) (k : α → Remote C R E β) :
    sent serve env n (prog >>= k) s = sent serve env n prog s := by
  induction prog generalizing n s with
  | ret a => cases h
  | raise e' => rfl
  | call c next ih =>
      cases hserve : serve s c (env n c) with
      | mk t result =>
          cases result with
          | ok r =>
              rw [exec_call_ok hserve] at h
              rw [call_bind, sent_call_ok hserve, sent_call_ok hserve, ih r h]
          | error e' => rw [call_bind, sent_call_error hserve, sent_call_error hserve]

theorem mem_sent_bind_left {prog : Remote C R E α} {n : Nat} {s : σ} {c : C}
    (h : c ∈ sent serve env n prog s) (k : α → Remote C R E β) :
    c ∈ sent serve env n (prog >>= k) s := by
  cases hexec : exec serve env n prog s with
  | mk s' result =>
      cases result with
      | ok a =>
          obtain ⟨m, hm⟩ := sent_bind hexec k
          rw [hm]
          exact List.mem_append_left _ h
      | error e => rwa [sent_bind_error hexec]

theorem mem_sent_bind_right {prog : Remote C R E α} {k : α → Remote C R E β} {n : Nat} {s s' : σ}
    {a : α} {c : C} (h : exec serve env n prog s = (s', .ok a))
    (hmem : ∀ m, c ∈ sent serve env m (k a) s') :
    c ∈ sent serve env n (prog >>= k) s := by
  obtain ⟨m, hm⟩ := sent_bind h k
  rw [hm]
  exact List.mem_append_right _ (hmem m)

/-- A command is sent by a program, or by what follows it. -/
theorem mem_sent_bind {prog : Remote C R E α} {k : α → Remote C R E β} {n : Nat} {s : σ} {c : C}
    (h : c ∈ sent serve env n (prog >>= k) s) :
    c ∈ sent serve env n prog s ∨
      ∃ m s' a, exec serve env n prog s = (s', .ok a) ∧ c ∈ sent serve env m (k a) s' := by
  cases hexec : exec serve env n prog s with
  | mk s' result =>
      cases result with
      | ok a =>
          obtain ⟨m, hm⟩ := sent_bind hexec k
          rw [hm] at h
          exact (List.mem_append.mp h).imp_right fun hrest => ⟨m, s', a, rfl, hrest⟩
      | error e =>
          rw [sent_bind_error hexec] at h
          exact .inl h

/-- What every command that gets sent keeps, the program keeps. -/
theorem exec_sent {P : C → Prop} {I : σ → Prop} (hkeep : ∀ s c o, P c → I s → I (serve s c o).1)
    {prog : Remote C R E α} {n : Nat} {s : σ} (hall : ∀ c ∈ sent serve env n prog s, P c)
    (hs : I s) :
    I (exec serve env n prog s).1 := by
  induction prog generalizing n s with
  | ret a => exact hs
  | raise e => exact hs
  | call c k ih =>
      cases hserve : serve s c (env n c) with
      | mk s' result =>
          have hnext : I s' := by
            have hkept := hkeep s c (env n c) (hall c (mem_sent_head c k n s)) hs
            rwa [hserve] at hkept
          cases result with
          | ok r =>
              rw [sent_call_ok hserve] at hall
              rw [exec_call_ok hserve]
              exact ih r (fun d hd => hall d (List.mem_cons_of_mem c hd)) hnext
          | error e =>
              rw [exec_call_error hserve]
              exact hnext

end Sent

/-- What every command of one kind keeps, a program of only such commands keeps. -/
theorem exec_only {serve : Server σ C R E ω} {P : C → Prop} {I : σ → Prop}
    (hkeep : ∀ s c o, P c → I s → I (serve s c o).1) {prog : Remote C R E α} (hprog : prog.Only P)
    (env : Nat → C → ω) (n : Nat) {s : σ} (hs : I s) : I (exec serve env n prog s).1 := by
  induction prog generalizing n s with
  | ret a => exact hs
  | raise e => exact hs
  | call c k ih =>
      have hnext := hkeep s c (env n c) hprog.1 hs
      cases hserve : serve s c (env n c) with
      | mk s' result =>
          rw [hserve] at hnext
          cases result with
          | ok r => simpa [exec, hserve] using ih r (hprog.2 r) (n + 1) hnext
          | error e => simpa [exec, hserve] using hnext

theorem exec_returns {serve : Server σ C R E ω} {P : α → Prop} {prog : Remote C R E α}
    (hprog : prog.Returns P) {env : Nat → C → ω} {n : Nat} {s : σ} {a : α}
    (h : (exec serve env n prog s).2 = .ok a) : P a := by
  induction prog generalizing n s with
  | ret b =>
      cases h
      exact hprog
  | raise e => cases h
  | call c k ih =>
      cases hserve : serve s c (env n c) with
      | mk s' result =>
          cases result with
          | ok r =>
              rw [exec_call_ok hserve] at h
              exact ih r (hprog r) h
          | error e =>
              rw [exec_call_error hserve] at h
              cases h

/-- Whatever the server chooses, the program ends in `Q`. -/
def Holds (serve : Server σ C R E ω) (prog : Remote C R E α) (s : σ)
    (Q : σ → Except E α → Prop) : Prop :=
  ∀ env n, Q (exec serve env n prog s).1 (exec serve env n prog s).2

section Holds

variable {serve : Server σ C R E ω} {s : σ} {Q : σ → Except E α → Prop}

theorem holds_ret {a : α} (h : Q s (.ok a)) : Holds serve (.ret a) s Q := fun _ _ => h

theorem holds_raise {e : E} (h : Q s (.error e)) : Holds serve (.raise e) s Q := fun _ _ => h

/-- One command: the failures end the program here, the answers go on. -/
theorem holds_call {c : C} {k : R → Remote C R E α}
    (hfail : ∀ o s' e, serve s c o = (s', .error e) → Q s' (.error e))
    (hanswer : ∀ o s' r, serve s c o = (s', .ok r) → Holds serve (k r) s' Q) :
    Holds serve (.call c k) s Q := by
  intro env n
  cases hserve : serve s c (env n c) with
  | mk s' result =>
      cases result with
      | error e => simpa [exec_call_error hserve] using hfail _ _ _ hserve
      | ok r => simpa [exec_call_ok hserve] using hanswer _ _ _ hserve env (n + 1)

/-- One command that keeps `P` whatever the server chooses. -/
theorem holds_call_keeping {P : σ → Prop} {c : C} {k : R → Remote C R E α}
    (hkeep : ∀ o, P (serve s c o).1) (hfail : ∀ s' e, P s' → Q s' (.error e))
    (hanswer : ∀ s' r, P s' → Holds serve (k r) s' Q) : Holds serve (.call c k) s Q := by
  refine holds_call (fun o s' e hserve => hfail s' e ?_) fun o s' r hserve => hanswer s' r ?_
  · simpa [hserve] using hkeep o
  · simpa [hserve] using hkeep o

/-- A server that makes some choices itself. -/
def choosing (serve : Server σ C R E ω) (choose : C → ω → ω) : Server σ C R E ω :=
  fun s c o => serve s c (choose c o)

theorem exec_choosing (choose : C → ω → ω) (env : Nat → C → ω) (n : Nat) (prog : Remote C R E α)
    (s : σ) :
    exec (choosing serve choose) env n prog s =
      exec serve (fun n c => choose c (env n c)) n prog s := by
  induction prog generalizing n s with
  | ret a => rfl
  | raise e => rfl
  | call c k ih =>
      rw [exec, exec, choosing]
      cases serve s c (choose c (env n c)) with
      | mk s' result =>
          cases result with
          | ok r => exact ih r (n + 1) s'
          | error e => rfl

theorem holds_choosing {prog : Remote C R E α} (choose : C → ω → ω) (h : Holds serve prog s Q) :
    Holds (choosing serve choose) prog s Q := by
  intro env n
  rw [exec_choosing]
  exact h _ n

/-- A program after another one: the failures of the first end both. -/
theorem holds_bind {prog : Remote C R E α} {k : α → Remote C R E β} {Q : σ → Except E β → Prop}
    (h : Holds serve prog s fun s' result =>
      match result with
      | .error e => Q s' (.error e)
      | .ok a => Holds serve (k a) s' Q) : Holds serve (prog >>= k) s Q := by
  intro env n
  have hprog := h env n
  cases hexec : exec serve env n prog s with
  | mk s' result =>
      rw [hexec] at hprog
      cases result with
      | ok a =>
          obtain ⟨m, hm⟩ := exec_bind hexec k
          rw [hm]
          exact hprog env m
      | error e =>
          rw [exec_bind_error hexec k]
          exact hprog

theorem holds_mono {prog : Remote C R E α} {P : σ → Except E α → Prop} (h : Holds serve prog s P)
    (himp : ∀ s' result, P s' result → Q s' result) : Holds serve prog s Q :=
  fun env n => himp _ _ (h env n)

end Holds

/-- Whatever the server chooses, the commands that get sent are of one kind. -/
def Sends (serve : Server σ C R E ω) (P : C → Prop) (prog : Remote C R E α) (s : σ) : Prop :=
  ∀ env n, ∀ c ∈ sent serve env n prog s, P c

section Sends

variable {serve : Server σ C R E ω} {P : C → Prop} {prog : Remote C R E α} {s : σ}

theorem sends_only (hprog : prog.Only P) : Sends serve P prog s :=
  fun env n => sent_only hprog env n s

theorem sends_call {c : C} {k : R → Remote C R E α} (hc : P c)
    (hk : ∀ o s' r, serve s c o = (s', .ok r) → Sends serve P (k r) s') :
    Sends serve P (.call c k) s := by
  intro env n d hd
  rcases mem_sent_call hd with rfl | ⟨s', r, hserve, hrest⟩
  · exact hc
  · exact hk _ _ _ hserve env (n + 1) d hrest

theorem sends_bind {k : α → Remote C R E β} (hprog : Sends serve P prog s)
    (hk : Holds serve prog s fun s' result => ∀ a, result = .ok a → Sends serve P (k a) s') :
    Sends serve P (prog >>= k) s := by
  intro env n d hd
  rcases mem_sent_bind hd with hfirst | ⟨m, s', a, hexec, hrest⟩
  · exact hprog env n d hfirst
  · have hnext := hk env n a (by rw [hexec])
    rw [hexec] at hnext
    exact hnext env m d hrest

/-- What every command of that kind keeps, the program keeps. -/
theorem holds_sends {I : σ → Prop} (hkeep : ∀ s c o, P c → I s → I (serve s c o).1)
    (hprog : Sends serve P prog s) (hs : I s) : Holds serve prog s fun s' _ => I s' :=
  fun env n => exec_sent hkeep (hprog env n) hs

end Sends

/-- A monitor follows a program from outside: it says which commands are due
in a phase, and where an exchange leads, given the server before and after. -/
structure Monitor (σ C R E Φ : Type) where
  due : Φ → C → Prop
  next : Φ → C → σ → σ → Except E R → Φ

/-- From this phase on, the program only sends commands that are due, as long
as it gets answers that the server can give. -/
def Follows {Φ : Type} (serve : Server σ C R E ω) (m : Monitor σ C R E Φ) :
    Φ → Remote C R E α → Prop
  | _, .ret _ => True
  | _, .raise _ => True
  | ph, .call c k => m.due ph c ∧
      ∀ s s' o r, serve s c o = (s', .ok r) → Follows serve m (m.next ph c s s' (.ok r)) (k r)

end Remote

open Remote

/-- One server and any number of programs, each with its monitor's phase. -/
structure Pool (ι σ C R E Φ α : Type) where
  server : σ
  prog : ι → Remote C R E α
  phase : ι → Φ

namespace Pool

variable {ι σ C R E ω Φ α : Type} [DecidableEq ι]

/-- One of the programs has its next command served. -/
inductive Step (serve : Server σ C R E ω) (m : Monitor σ C R E Φ) (i : ι) :
    Pool ι σ C R E Φ α → Pool ι σ C R E Φ α → Prop where
  | answer {p : Pool ι σ C R E Φ α} {c k o s' r} (hprog : p.prog i = .call c k)
      (hserve : serve p.server c o = (s', .ok r)) :
      Step serve m i p
        ⟨s', Function.update p.prog i (k r),
          Function.update p.phase i (m.next (p.phase i) c p.server s' (.ok r))⟩
  | fail {p : Pool ι σ C R E Φ α} {c k o s' e} (hprog : p.prog i = .call c k)
      (hserve : serve p.server c o = (s', .error e)) :
      Step serve m i p
        ⟨s', Function.update p.prog i (.raise e),
          Function.update p.phase i (m.next (p.phase i) c p.server s' (.error e))⟩

/-- Any interleaving of the programs' commands. -/
inductive Run (serve : Server σ C R E ω) (m : Monitor σ C R E Φ) (p : Pool ι σ C R E Φ α) :
    Pool ι σ C R E Φ α → Prop where
  | refl : Run serve m p p
  | tail {q q' i} (hrun : Run serve m p q) (hstep : Step serve m i q q') : Run serve m p q'

/-- What the rule below asks of an invariant: it survives every command that
is due, whatever the server answers. -/
def Stable (serve : Server σ C R E ω) (m : Monitor σ C R E Φ) (I : σ → (ι → Φ) → Prop) : Prop :=
  ∀ s phases i c o s' res, I s phases → m.due (phases i) c → serve s c o = (s', res) →
    I s' (Function.update phases i (m.next (phases i) c s s' res))

def Inv (serve : Server σ C R E ω) (m : Monitor σ C R E Φ) (I : σ → (ι → Φ) → Prop)
    (p : Pool ι σ C R E Φ α) : Prop :=
  I p.server p.phase ∧ ∀ i, Follows serve m (p.phase i) (p.prog i)

variable {serve : Server σ C R E ω} {m : Monitor σ C R E Φ} {I : σ → (ι → Φ) → Prop}
variable {p q : Pool ι σ C R E Φ α}

theorem step_inv (hstable : Stable serve m I) {i : ι} (hstep : Step serve m i p q)
    (hinv : Inv serve m I p) : Inv serve m I q := by
  obtain ⟨hI, hfollows⟩ := hinv
  have hi := hfollows i
  cases hstep with
  | answer hprog hserve =>
      rw [hprog] at hi
      refine ⟨hstable _ _ _ _ _ _ _ hI hi.1 hserve, fun j => ?_⟩
      by_cases hj : j = i
      · subst hj
        simpa using hi.2 _ _ _ _ hserve
      · simpa [Function.update_of_ne hj] using hfollows j
  | fail hprog hserve =>
      rw [hprog] at hi
      refine ⟨hstable _ _ _ _ _ _ _ hI hi.1 hserve, fun j => ?_⟩
      by_cases hj : j = i
      · subst hj
        simp [Follows]
      · simpa [Function.update_of_ne hj] using hfollows j

theorem run_inv (hstable : Stable serve m I) (hrun : Run serve m p q) (hinv : Inv serve m I p) :
    Inv serve m I q := by
  induction hrun with
  | refl => exact hinv
  | tail _ hstep ih => exact step_inv hstable hstep ih

/-- A step is the service of a due command. -/
theorem step_served {i : ι} (hstep : Step serve m i p q)
    (hfollows : Follows serve m (p.phase i) (p.prog i)) :
    ∃ c o res, m.due (p.phase i) c ∧ serve p.server c o = (q.server, res) := by
  cases hstep with
  | answer hprog hserve =>
      rw [hprog] at hfollows
      exact ⟨_, _, _, hfollows.1, hserve⟩
  | fail hprog hserve =>
      rw [hprog] at hfollows
      exact ⟨_, _, _, hfollows.1, hserve⟩

end Pool

end Keepup.Lib
