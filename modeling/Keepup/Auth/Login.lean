import Keepup.Auth.Account
import Keepup.Lib.SlidingWindow
import Mathlib.Data.Rat.Floor

/-!
The login page and its limiter, and how many failed logins a client gets through
in a quarter of an hour. The limiter counts for each client key; what the key of
a request is decides whether its bound is one for the client.
-/

namespace Keepup.Login

open Lib

/-- What the signed cookie of a client holds. -/
structure Session where
  authenticated : Bool := false
  sessionVersion : Option Int := none
  rememberMe : Bool := false
  showPasswordNotice : Bool := false
  recoveryVerified : Bool := false
  setupAccountDone : Bool := false
  setupBackupKey : Option String := none
  setupTotpSecret : Option String := none
  mfaSetupSecret : Option String := none
deriving DecidableEq

/-- The disk, and the failures that the process remembers for each client key. -/
structure Server where
  installation : Installation
  attempts : Dict String (List ℚ) := ∅

/-- A posted login form, with the times at which the handler reads the clock and
at which it verifies the credentials. -/
structure LoginRequest where
  forwarded : Option String := none
  peer : String
  username : String := ""
  password : String := ""
  totpCode : String := ""
  rememberMe : String := ""
  checkedAt : ℚ
  verifiedAt : ℚ
  recordedAt : ℚ
  recheckedAt : ℚ

section Limiter

def maxAttempts : Nat := 5

def lockoutSeconds : ℚ := 900

structure RateCheck where
  attempts : Dict String (List ℚ)
  allowed : Bool
  remaining : Int

/-- Drops the failures that have expired, and then counts. -/
def checkRateLimit (attempts : Dict String (List ℚ)) (ip : String) (now : ℚ) : RateCheck :=
  let kept := Window.recent lockoutSeconds now (attempts.getD ip [])
  if maxAttempts ≤ kept.length then
    ⟨attempts.set ip kept, false, ⌊lockoutSeconds - (now - kept.headD 0)⌋⟩
  else ⟨attempts.set ip kept, true, 0⟩

def recordFailure (attempts : Dict String (List ℚ)) (ip : String) (now : ℚ) :
    Dict String (List ℚ) :=
  attempts.set ip (attempts.getD ip [] ++ [now])

def clearAttempts (attempts : Dict String (List ℚ)) (ip : String) : Dict String (List ℚ) :=
  attempts.pop ip

/-- The first address of the header, and without a header the peer. -/
def LoginRequest.clientIp (r : LoginRequest) : String :=
  let forwarded := r.forwarded.getD ""
  if forwarded ≠ "" then Text.strip ((Text.splitOn ',' forwarded).headD "") else r.peer

end Limiter

/-- What the login page shows after a refusal. -/
structure LoginPage where
  needsMfa : Bool
  needsUsername : Bool
  error : String
deriving DecidableEq

inductive LoginAnswer where
  | refused (page : LoginPage)
  | failed (page : LoginPage)
  | succeeded
deriving DecidableEq

def lockedError (remaining : Int) : String :=
  let mins := remaining / 60 + 1
  "Too many failed attempts. Try again in " ++ toString mins ++ " minute" ++
    (if mins ≠ 1 then "s" else "") ++ "."

def failureError (allowed : Bool) (attemptsLeft : Int) : String :=
  if allowed = false then "Too many failed attempts. Account locked for 15 minutes."
  else if attemptsLeft ≤ 2 then
    "Incorrect credentials. " ++ toString attemptsLeft ++ " attempt" ++
      (if attemptsLeft ≠ 1 then "s" else "") ++ " remaining before lockout."
  else "Incorrect username, password, or authenticator code."

/-- The session of the client is replaced where there is one in the result. -/
structure LoginResult where
  server : Server
  session : Option Session
  answer : LoginAnswer

section Handler

variable (p : Primitives) (server : Server) (r : LoginRequest)

def verified : Bool :=
  let s := server.installation
  s.verifyLogin p r.username r.password &&
    (!s.mfaEnrolled || s.verifyTotp p r.verifiedAt r.totpCode)

/-- The new session, with nothing of the old one, and the stored policy flag. -/
def loggedIn : Installation × Session :=
  let s := server.installation
  let session : Session := {
    authenticated := true
    sessionVersion := some s.getSessionVersion
    rememberMe := r.rememberMe == "on" }
  if Scalar.given (s.admin.get? "password_meets_policy") then (s, session)
  else if minPasswordLen ≤ r.password.length then
    (s.saveAdmin [("password_meets_policy", some (.bool true))], session)
  else (s, { session with showPasswordNotice := true })

def loginSubmit : LoginResult :=
  let s := server.installation
  let check := checkRateLimit server.attempts r.clientIp r.checkedAt
  let page := LoginPage.mk s.mfaEnrolled (Scalar.given (s.admin.get? "username"))
  if check.allowed = false then
    ⟨⟨s, check.attempts⟩, none, .refused (page (lockedError check.remaining))⟩
  else if verified p server r = false then
    let again := checkRateLimit (recordFailure check.attempts r.clientIp r.recordedAt) r.clientIp
      r.recheckedAt
    let attemptsLeft := (maxAttempts : Int) - (again.attempts.getD r.clientIp []).length
    ⟨⟨s, again.attempts⟩, none, .failed (page (failureError again.allowed attemptsLeft))⟩
  else
    let (s, session) := loggedIn server r
    ⟨⟨s, clearAttempts check.attempts r.clientIp⟩, some session, .succeeded⟩

section Effect

variable {p server r}

theorem loggedIn_session (server : Server) (r : LoginRequest) :
    (loggedIn server r).2.authenticated = true ∧
      (loggedIn server r).2.sessionVersion = some server.installation.getSessionVersion ∧
      (loggedIn server r).2.recoveryVerified = false ∧
      (loggedIn server r).2.setupAccountDone = false := by
  simp only [loggedIn]
  split
  · exact ⟨rfl, rfl, rfl, rfl⟩
  · split
    all_goals exact ⟨rfl, rfl, rfl, rfl⟩

theorem loggedIn_account (server : Server) (r : LoginRequest) :
    (loggedIn server r).1.getSessionVersion = server.installation.getSessionVersion ∧
      (loggedIn server r).1.adminExists = server.installation.adminExists := by
  simp only [loggedIn]
  split
  · exact ⟨rfl, rfl⟩
  · split
    · exact ⟨Installation.saveAdmin_version_kept (by simp),
        Installation.saveAdmin_exists_kept (by simp)⟩
    · exact ⟨rfl, rfl⟩

theorem loginSubmit_account (p : Primitives) (server : Server) (r : LoginRequest) :
    (loginSubmit p server r).server.installation.getSessionVersion =
        server.installation.getSessionVersion ∧
      (loginSubmit p server r).server.installation.adminExists =
        server.installation.adminExists := by
  simp only [loginSubmit]
  split
  · exact ⟨rfl, rfl⟩
  · split
    · exact ⟨rfl, rfl⟩
    · exact loggedIn_account server r

theorem exists_of_verified (h : verified p server r = true) :
    server.installation.adminExists = true := by
  rw [verified, Bool.and_eq_true, Installation.verifyLogin] at h
  have hlogin := h.1
  split at hlogin
  · cases hlogin
  · exact Installation.exists_of_verifyPassword hlogin

/-- The session is replaced by a login that succeeds, and by no other. -/
theorem loginSubmit_session (p : Primitives) (server : Server) (r : LoginRequest) :
    ((loginSubmit p server r).answer = .succeeded ∧ server.installation.adminExists = true ∧
        (loginSubmit p server r).session = some (loggedIn server r).2) ∨
      ((loginSubmit p server r).answer ≠ .succeeded ∧ (loginSubmit p server r).session = none) := by
  simp only [loginSubmit]
  split
  · exact .inr ⟨nofun, rfl⟩
  · split
    · exact .inr ⟨nofun, rfl⟩
    · rename_i hverified
      exact .inl ⟨rfl, exists_of_verified (by simpa using hverified), rfl⟩

end Effect

/-- The answers to login requests, one after the other. -/
def answers : Server → List LoginRequest → List (LoginRequest × LoginAnswer)
  | _, [] => []
  | server, r :: rs => (r, (loginSubmit p server r).answer) ::
      answers (loginSubmit p server r).server rs

end Handler

section Bound

def LoginAnswer.isFailed : LoginAnswer → Bool
  | .failed _ => true
  | _ => false

/-- The requests in the order of their times, each handled before the next. -/
def InOrder (rs : List LoginRequest) : Prop :=
  (∀ r ∈ rs, r.checkedAt ≤ r.verifiedAt ∧ r.verifiedAt ≤ r.recordedAt ∧
    r.recordedAt ≤ r.recheckedAt) ∧
    rs.Pairwise fun r r' => r.recheckedAt ≤ r'.checkedAt

def InWindow (start : ℚ) (r : LoginRequest) :
    Prop := Window.InWindow start lockoutSeconds r.verifiedAt

instance (start : ℚ) (r : LoginRequest) : Decidable (InWindow start r) :=
  inferInstanceAs (Decidable (Window.InWindow start lockoutSeconds r.verifiedAt))

/-- The failed verifications of a window. -/
def failedIn (start : ℚ) (outs : List (LoginRequest × LoginAnswer)) : ℕ :=
  outs.countP fun o => o.2.isFailed ∧ InWindow start o.1

/-- In every window without a successful login at most five verifications fail. -/
def Bounded (outs : List (LoginRequest × LoginAnswer)) : Prop :=
  ∀ start, (∀ o ∈ outs, InWindow start o.1 → o.2 ≠ .succeeded) → failedIn start outs ≤ maxAttempts

/-- Requests less than a window apart are counted under one key. -/
def OneKey (rs : List LoginRequest) : Prop :=
  ∀ r ∈ rs, ∀ r' ∈ rs, r.verifiedAt ≤ r'.verifiedAt →
    r'.verifiedAt < r.verifiedAt + lockoutSeconds →
    r.clientIp = r'.clientIp

/-- A request as a try of the limiter of its key. -/
def LoginRequest.asTry (r : LoginRequest) (fails : Bool) : Window.Try ℚ :=
  ⟨r.checkedAt, r.verifiedAt, r.recordedAt, r.recheckedAt, fails⟩

variable {p : Primitives}

/-- The tries under one key. -/
def tries (p : Primitives) (key : String) : Server → List LoginRequest → List (Window.Try ℚ)
  | _, [] => []
  | server, r :: rs =>
      let rest := tries p key (loginSubmit p server r).server rs
      if r.clientIp = key then r.asTry (!verified p server r) :: rest else rest

def LoginAnswer.outcome : LoginAnswer → Window.Outcome
  | .refused _ => .refused
  | .failed _ => .failed
  | .succeeded => .succeeded

theorem getD_set (attempts : Dict String (List ℚ)) (key ip : String) (times : List ℚ) :
    (attempts.set ip times).getD key [] = if key = ip then times else attempts.getD key [] := by
  simp only [Dict.getD, Dict.get?_set]
  split <;> rfl

theorem checkRateLimit_attempts (attempts : Dict String (List ℚ)) (ip : String) (now : ℚ) :
    (checkRateLimit attempts ip now).attempts =
      attempts.set ip (Window.recent lockoutSeconds now (attempts.getD ip [])) := by
  simp only [checkRateLimit]
  split <;> rfl

theorem checkRateLimit_allowed (attempts : Dict String (List ℚ)) (ip : String) (now : ℚ) :
    (checkRateLimit attempts ip now).allowed = false ↔
      maxAttempts ≤ (Window.recent lockoutSeconds now (attempts.getD ip [])).length := by
  simp only [checkRateLimit]
  split <;> simp_all

section Step

variable (p) (server : Server) (r : LoginRequest)

/-- What the limiter of the key of the request remembers. -/
def remembered : List ℚ := server.attempts.getD r.clientIp []

variable {p server r}

theorem loginSubmit_refused
    (h : maxAttempts ≤ (Window.recent lockoutSeconds r.checkedAt (remembered server r)).length) :
    (∃ page, (loginSubmit p server r).answer = .refused page) ∧
      (loginSubmit p server r).server.attempts = server.attempts.set r.clientIp
        (Window.recent lockoutSeconds r.checkedAt (remembered server r)) := by
  have hcheck := (checkRateLimit_allowed server.attempts r.clientIp r.checkedAt).mpr h
  simp only [loginSubmit, if_pos hcheck]
  exact ⟨⟨_, rfl⟩, checkRateLimit_attempts _ _ _⟩

theorem loginSubmit_failed
    (h : ¬ maxAttempts ≤ (Window.recent lockoutSeconds r.checkedAt (remembered server r)).length)
    (hverified : verified p server r = false) :
    (∃ page, (loginSubmit p server r).answer = .failed page) ∧
      (loginSubmit p server r).server.attempts.getD r.clientIp [] =
        Window.recent lockoutSeconds r.recheckedAt
          (Window.recent lockoutSeconds r.checkedAt (remembered server r) ++ [r.recordedAt]) := by
  have hcheck := mt (checkRateLimit_allowed server.attempts r.clientIp r.checkedAt).mp h
  simp only [loginSubmit, if_neg hcheck, if_pos hverified]
  refine ⟨⟨_, rfl⟩, ?_⟩
  rw [checkRateLimit_attempts, getD_set, if_pos rfl, recordFailure, getD_set, if_pos rfl,
    checkRateLimit_attempts, getD_set, if_pos rfl]
  rfl

theorem loginSubmit_succeeded
    (h : ¬ maxAttempts ≤ (Window.recent lockoutSeconds r.checkedAt (remembered server r)).length)
    (hverified : verified p server r = true) :
    (loginSubmit p server r).answer = .succeeded ∧
      (loginSubmit p server r).server.attempts.getD r.clientIp [] = [] := by
  have hcheck := mt (checkRateLimit_allowed server.attempts r.clientIp r.checkedAt).mp h
  have hverified' : ¬ verified p server r = false := by simp [hverified]
  simp only [loginSubmit, if_neg hcheck, if_neg hverified']
  simp [clearAttempts, Dict.getD]

/-- The page is the limiter of the key of the request. -/
theorem loginSubmit_own (p : Primitives) (server : Server) (r : LoginRequest) :
    (loginSubmit p server r).answer.outcome = Window.outcome maxAttempts lockoutSeconds
        (remembered server r) (r.asTry (!verified p server r)) ∧
      (loginSubmit p server r).server.attempts.getD r.clientIp [] =
        Window.next maxAttempts lockoutSeconds
        (remembered server r) (r.asTry (!verified p server r)) := by
  by_cases hfull : maxAttempts ≤
    (Window.recent lockoutSeconds r.checkedAt (remembered server r)).length
  · obtain ⟨⟨page, hanswer⟩, hattempts⟩ := loginSubmit_refused (p := p) hfull
    have hout : Window.outcome maxAttempts lockoutSeconds (remembered server r)
        (r.asTry (!verified p server r)) = .refused := if_pos hfull
    rw [hanswer, hattempts, Window.next, hout, getD_set, if_pos rfl]
    exact ⟨rfl, rfl⟩
  · cases hverified : verified p server r with
    | false =>
        obtain ⟨⟨page, hanswer⟩, hattempts⟩ := loginSubmit_failed hfull hverified
        have hout : Window.outcome maxAttempts lockoutSeconds (remembered server r)
            (r.asTry (!false)) = .failed := if_neg hfull
        rw [hanswer, hattempts, Window.next, hout]
        exact ⟨rfl, rfl⟩
    | true =>
        obtain ⟨hanswer, hattempts⟩ := loginSubmit_succeeded hfull hverified
        have hout : Window.outcome maxAttempts lockoutSeconds (remembered server r)
            (r.asTry (!true)) = .succeeded := if_neg hfull
        rw [hanswer, hattempts, Window.next, hout]
        exact ⟨rfl, rfl⟩

/-- What is remembered under another key stays. -/
theorem loginSubmit_other {key : String} (h : r.clientIp ≠ key) :
    (loginSubmit p server r).server.attempts.getD key [] = server.attempts.getD key [] := by
  have hset : ∀ attempts : Dict String (List ℚ), ∀ times,
      (attempts.set r.clientIp times).getD key [] = attempts.getD key [] := fun attempts times => by
    rw [getD_set, if_neg h.symm]
  simp only [loginSubmit]
  split
  · rw [checkRateLimit_attempts, hset]
  · split
    · rw [checkRateLimit_attempts, hset, recordFailure, hset, checkRateLimit_attempts, hset]
    · rw [clearAttempts, Dict.getD, Dict.get?_pop_ne _ h.symm, checkRateLimit_attempts,
        Dict.get?_set_ne _ _ h.symm, Dict.getD]

end Step

theorem mem_tries {key : String} {server : Server} {rs : List LoginRequest} {t : Window.Try ℚ}
    (h : t ∈ tries p key server rs) : ∃ r ∈ rs, ∃ fails, t = r.asTry fails := by
  induction rs generalizing server with
  | nil => cases h
  | cons r rs ih =>
      simp only [tries] at h
      split at h
      · rcases List.mem_cons.mp h with rfl | h
        · exact ⟨r, by simp, _, rfl⟩
        · obtain ⟨r', hr', hfails⟩ := ih h
          exact ⟨r', by simp [hr'], hfails⟩
      · obtain ⟨r', hr', hfails⟩ := ih h
        exact ⟨r', by simp [hr'], hfails⟩

theorem InOrder.tail {r : LoginRequest} {rs : List LoginRequest} (h : InOrder (r :: rs)) :
    InOrder rs :=
  ⟨fun r' hr' => h.1 r' (by simp [hr']), h.2.tail⟩

theorem tries_successive {key : String} {server : Server} {rs : List LoginRequest}
    (h : InOrder rs) :
    Window.Successive (tries p key server rs) := by
  induction rs generalizing server with
  | nil => exact ⟨by simp [tries], by simp [tries]⟩
  | cons r rs ih =>
      simp only [tries]
      split
      · refine ⟨?_, List.pairwise_cons.mpr ⟨?_, (ih h.tail).2⟩⟩
        · intro t ht
          rcases List.mem_cons.mp ht with rfl | ht
          · exact h.1 r (by simp)
          · exact (ih h.tail).1 t ht
        · intro t ht
          obtain ⟨r', hr', fails, rfl⟩ := mem_tries ht
          exact (List.pairwise_cons.mp h.2).1 r' hr'
      · exact ih h.tail

/-- The answers under one key are the outcomes of its limiter. -/
theorem answers_outcomes (key : String) (server : Server) (rs : List LoginRequest) :
    ((answers p server rs).filter fun o => o.1.clientIp = key).map
        (fun o => (o.1.verifiedAt, o.2.outcome)) =
      (Window.outcomes maxAttempts lockoutSeconds (server.attempts.getD key [])
        (tries p key server rs)).map
        fun o => (o.1.happened, o.2) := by
  induction rs generalizing server with
  | nil => rfl
  | cons r rs ih =>
      by_cases hkey : r.clientIp = key
      · subst hkey
        obtain ⟨hanswer, hattempts⟩ := loginSubmit_own p server r
        have hrest := ih (loginSubmit p server r).server
        rw [hattempts] at hrest
        simp only [answers, tries, if_true, decide_true, List.filter_cons_of_pos, List.map_cons,
          Window.outcomes, hanswer, hrest]
        rfl
      · have hrest := ih (loginSubmit p server r).server
        rw [loginSubmit_other hkey] at hrest
        simp only [answers, tries, decide_false, Bool.false_eq_true, not_false_eq_true,
          List.filter_cons_of_neg, hkey]
        exact hrest

theorem answers_requests (server : Server) (rs : List LoginRequest) :
    (answers p server rs).map Prod.fst = rs := by
  induction rs generalizing server with
  | nil => rfl
  | cons r rs ih => rw [answers, List.map_cons, ih]

theorem mem_answers {server : Server} {rs : List LoginRequest} {o : LoginRequest × LoginAnswer}
    (h : o ∈ answers p server rs) : o.1 ∈ rs :=
  answers_requests (p := p) server rs ▸ List.mem_map_of_mem h

theorem LoginAnswer.outcome_failed (answer : LoginAnswer) :
    answer.outcome = .failed ↔ answer.isFailed = true := by
  cases answer <;> simp [outcome, isFailed]

theorem LoginAnswer.outcome_succeeded (answer : LoginAnswer) :
    answer.outcome = .succeeded ↔ answer = .succeeded := by
  cases answer <;> simp [outcome]

/-- Five failures at most are counted under one key in a window in which no login
under that key succeeds. -/
theorem failedIn_key {key : String} {server : Server} {rs : List LoginRequest} (horder : InOrder rs)
    {start : ℚ} (hnone : ∀ o ∈ answers p server rs, o.1.clientIp = key → InWindow start o.1 →
      o.2 ≠ .succeeded) :
    failedIn start ((answers p server rs).filter fun o => o.1.clientIp = key) ≤ maxAttempts := by
  have houts := answers_outcomes (p := p) key server rs
  -- Both sides count, or exclude, by what the two lists of pairs have in common.
  let counts : ℚ × Window.Outcome → Bool :=
    fun q => q.2 = .failed ∧ Window.InWindow start lockoutSeconds q.1
  have hleft : failedIn start ((answers p server rs).filter fun o => o.1.clientIp = key) =
      (((answers p server rs).filter fun o => o.1.clientIp = key).map
        fun o => (o.1.verifiedAt, o.2.outcome)).countP counts := by
    rw [List.countP_map, failedIn]
    apply List.countP_congr
    intro o _
    simp only [counts, Function.comp_apply, decide_eq_true_eq, LoginAnswer.outcome_failed]
    exact Iff.rfl
  have hright : ∀ outs : List (Window.Try ℚ × Window.Outcome),
    Window.failures start lockoutSeconds outs =
      (outs.map fun o => (o.1.happened, o.2)).countP counts := by
    intro outs
    rw [List.countP_map]
    rfl
  rw [hleft, houts, ← hright]
  apply Window.failures_le (tries_successive horder)
  intro o ho hin hsucceeded
  have hpair : (o.1.happened, o.2) ∈ ((answers p server rs).filter fun o => o.1.clientIp = key).map
      fun o => (o.1.verifiedAt, o.2.outcome) := by
    rw [houts]
    exact List.mem_map_of_mem ho
  obtain ⟨o', ho', hsame⟩ := List.mem_map.mp hpair
  obtain ⟨hanswer, hkey⟩ := List.mem_filter.mp ho'
  obtain ⟨htime, houtcome⟩ := Prod.mk.inj hsame
  have hin' : InWindow start o'.1 := by
    rw [InWindow, htime]
    exact hin
  apply hnone o' hanswer (by simpa using hkey) hin'
  rw [← LoginAnswer.outcome_succeeded, houtcome, hsucceeded]

/-- The bound holds for a client whose requests are counted under one key. -/
theorem bounded_of_oneKey (p : Primitives) (server : Server) (rs : List LoginRequest)
    (horder : InOrder rs) (hkey : OneKey rs) : Bounded (answers p server rs) := by
  intro start hnone
  by_cases hsome : ∃ o ∈ answers p server rs, InWindow start o.1
  · obtain ⟨o, ho, hin⟩ := hsome
    have hsame : ∀ o' ∈ answers p server rs, InWindow start o'.1 →
        o'.1.clientIp = o.1.clientIp := by
      intro o' ho' hin'
      rcases le_total o.1.verifiedAt o'.1.verifiedAt with hle | hle
      · exact (hkey _ (mem_answers ho) _ (mem_answers ho') hle
          (hin'.2.trans_le (by gcongr; exact hin.1))).symm
      · exact hkey _ (mem_answers ho') _ (mem_answers ho) hle
          (hin.2.trans_le (by gcongr; exact hin'.1))
    have hcount : failedIn start (answers p server rs) =
        failedIn start ((answers p server rs).filter fun o' => o'.1.clientIp = o.1.clientIp) := by
      rw [failedIn, failedIn, List.countP_filter]
      apply List.countP_congr
      intro o' ho'
      simp only [decide_eq_true_eq, Bool.decide_and, Bool.and_eq_true, iff_self_and]
      rintro ⟨_, hin'⟩
      exact hsame o' ho' hin'
    rw [hcount]
    exact failedIn_key horder fun o' ho' _ hin' => hnone o' ho' hin'
  · rw [not_exists] at hsome
    have hzero : failedIn start (answers p server rs) = 0 := by
      apply List.countP_eq_zero.mpr
      intro o ho
      simpa using fun _ hin => hsome o ⟨ho, hin⟩
    rw [hzero]
    exact Nat.zero_le _

/-- An installation with an account. -/
def withAccount : Installation :=
  let empty : Installation := ⟨{}, ∅⟩
  (empty.createAdmin plainPrimitives "salt" "A3F29B1C" "admin" "correct horse battery" none).getD
    empty

/-- One guess a second, with a header for each. -/
def guesses (header : Nat → Option String) : List LoginRequest := (List.range 6).map fun n => {
  forwarded := header n
  peer := "203.0.113.5"
  username := "admin"
  password := "guess" ++ toString n
  checkedAt := n
  verifiedAt := n
  recordedAt := n
  recheckedAt := n }

theorem bounded_without_header :
    Bounded (answers plainPrimitives ⟨withAccount, ∅⟩ (guesses fun _ => none)) := by
  apply bounded_of_oneKey
  · unfold InOrder
    decide +kernel
  · unfold OneKey
    decide +kernel

/-- An address of its own for each guess. -/
def spoofed (n : Nat) : Option String := some ("10.0.0." ++ toString n)

/-- Six guesses of one peer are verified within six seconds. -/
theorem addresses_evade_bound : ¬ ∀ (p : Primitives) (server : Server) (rs : List LoginRequest),
    (∀ r ∈ rs, r.peer = "203.0.113.5") → InOrder rs → Bounded (answers p server rs) := by
  intro hbound
  have hpeer : ∀ r ∈ guesses spoofed, r.peer = "203.0.113.5" := by decide
  have horder : InOrder (guesses spoofed) := by
    unfold InOrder
    decide +kernel
  have hfailed : ∀ o ∈ answers plainPrimitives ⟨withAccount, ∅⟩ (guesses spoofed),
      o.2.isFailed = true := by
    decide +kernel
  have hwindow : ∀ r ∈ guesses spoofed, InWindow 0 r := by decide +kernel
  have hcount := hbound plainPrimitives ⟨withAccount,
      ∅⟩ (guesses spoofed) hpeer horder 0 fun o ho _ hsucceeded => by
    have hno := hfailed o ho
    rw [hsucceeded] at hno
    cases hno
  have hall : failedIn 0 (answers plainPrimitives ⟨withAccount, ∅⟩ (guesses spoofed)) = 6 := by
    rw [failedIn, List.countP_eq_length.mpr fun o ho => by
      simpa using ⟨hfailed o ho, hwindow _ (mem_answers ho)⟩]
    decide +kernel
  rw [hall] at hcount
  exact absurd hcount (by decide)

end Bound

end Keepup.Login
