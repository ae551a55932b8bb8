import Keepup.Auth.Routes
import Keepup.Lib.Runs

/-!
Whether a change of the credentials ends the sessions from before it. A session
carries the number that the account showed at its login; a change adds one to
the number, but a factory reset removes it with the rest of the account, and the
next account starts to count where the last one did.
-/

namespace Keepup.Routes

open Lib Login

/-- A server, the sessions of the logins since the last change of the
credentials, and those of the logins before it. -/
structure World where
  server : Server
  live : List Session
  stale : List Session

/-- The password, the second factor or the account as a whole is another one. -/
def Event.isChange : Event → Bool
  | .passwordChanged | .passwordReset | .mfaEnrolled | .setupMfaEnrolled | .mfaRemoved => true
  | .created | .wiped => true
  | .loggedIn | .keyProven | .keyRegenerated => false

/-- The number that an account shows after a change of its credentials. -/
def Event.nextVersion (s : Installation) : Event → Option Int
  | .passwordChanged | .passwordReset => some (s.getSessionVersion + 1)
  | .mfaEnrolled | .setupMfaEnrolled | .mfaRemoved =>
      if s.adminExists then some (s.getSessionVersion + 1) else none
  | .created => some s.getSessionVersion
  | .wiped | .loggedIn | .keyProven | .keyRegenerated => none

variable (p : Primitives)

/-- A request with any session at all, issued before or not. -/
def step (w : World) (o : Session × Request) : World :=
  let (server, result) := serve p w.server o.1 o.2
  match result.event with
  | none => { w with server := server }
  | some event =>
      if event.isChange then ⟨server, [], w.live ++ w.stale⟩
      else if event = .loggedIn then ⟨server, result.session :: w.live, w.stale⟩
      else { w with server := server }

/-- No session from before a change is let in. -/
def Invalidated (w : World) : Prop := ∀ c ∈ w.stale, ¬ Accepted w.server.installation c

/-- A change that the request makes leads to a number that no session from before
an earlier change carries. -/
def Unused (w : World) (o : Session × Request) : Prop :=
  ∀ event, (serve p w.server o.1 o.2).2.event = some event →
    ∀ n, event.nextVersion w.server.installation = some n → ∀ c ∈ w.stale, c.sessionVersion ≠ some n

/-- Live sessions carry the number of the account, and all sessions are logins. -/
structure Tracked (w : World) : Prop where
  live : ∀ c ∈ w.live, c.authenticated = true ∧ w.server.installation.adminExists = true ∧
    c.sessionVersion = some w.server.installation.getSessionVersion
  stale : ∀ c ∈ w.stale, c.authenticated = true

section Effects

variable {s t : Installation} {event : Event}

theorem effect_kept (h : Effect s t (some event)) (hkind : event.isChange = false) :
    t.getSessionVersion = s.getSessionVersion ∧ t.adminExists = s.adminExists := by
  cases event <;> first | exact h | cases hkind

theorem nextVersion_kept (hkind : event.isChange = false) : event.nextVersion s = none := by
  cases event <;> first | rfl | cases hkind

/-- A change leaves an account with the next number, or none. -/
theorem effect_change (h : Effect s t (some event)) (hkind : event.isChange = true) :
    (∃ n, event.nextVersion s = some n ∧ t.getSessionVersion = n ∧ t.adminExists = true ∧
        (s.adminExists = true → n ≠ s.getSessionVersion)) ∨
      (event.nextVersion s = none ∧ t.adminExists = false) := by
  have hnumber : s.getSessionVersion + 1 ≠ s.getSessionVersion := by omega
  have hmfa : event.nextVersion s =
    (if s.adminExists then some (s.getSessionVersion + 1) else none) →
      t.getSessionVersion = s.getSessionVersion + 1 → t.adminExists = s.adminExists →
      (∃ n, event.nextVersion s = some n ∧ t.getSessionVersion = n ∧ t.adminExists = true ∧
        (s.adminExists = true → n ≠ s.getSessionVersion)) ∨
      (event.nextVersion s = none ∧ t.adminExists = false) := by
    intro hnext hversion hexists
    cases hs : s.adminExists with
    | true => exact .inl ⟨_, by rw [hnext, hs, if_pos rfl], hversion,
        hexists.trans hs, fun _ => hnumber⟩
    | false => exact .inr ⟨by rw [hnext, hs]; rfl, hexists.trans hs⟩
  cases event with
  | passwordChanged => exact .inl ⟨_, rfl, h.1, h.2, fun _ => hnumber⟩
  | passwordReset => exact .inl ⟨_, rfl, h.1, h.2, fun _ => hnumber⟩
  | mfaEnrolled => exact hmfa rfl h.1 h.2
  | setupMfaEnrolled => exact hmfa rfl h.1 h.2
  | mfaRemoved => exact hmfa rfl h.1 h.2
  | created =>
      obtain ⟨hfree, hversion, hexists⟩ := h
      exact .inl ⟨_, rfl, hversion, hexists, fun hs => absurd (hfree.symm.trans hs) (by decide)⟩
  | wiped => exact .inr ⟨rfl, h.2⟩
  | loggedIn => cases hkind
  | keyProven => cases hkind
  | keyRegenerated => cases hkind

end Effects

section Step

variable {p} {w : World} {o : Session × Request}

/-- The three things that a request can do to the sessions. -/
theorem step_cases (p : Primitives) (w : World) (o : Session × Request) :
    let result := (serve p w.server o.1 o.2).2
    let t := (step p w o).server.installation
    (∃ event, result.event = some event ∧ event.isChange = true ∧
        Effect w.server.installation t (some event) ∧
        (step p w o).live = [] ∧ (step p w o).stale = w.live ++ w.stale) ∨
      ((∀ event, result.event = some event → event.isChange = false) ∧
        t.getSessionVersion = w.server.installation.getSessionVersion ∧
        t.adminExists = w.server.installation.adminExists ∧ (step p w o).stale = w.stale ∧
        ((step p w o).live = w.live ∨
          (result.event = some .loggedIn ∧ (step p w o).live = result.session :: w.live))) := by
  obtain ⟨hserves, hsame⟩ := serve_serves p w.server o.1 o.2
  have haccount := hserves.account
  rw [← hsame] at haccount
  simp only [step]
  cases hevent : (serve p w.server o.1 o.2).2.event with
  | none =>
      rw [hevent] at haccount
      exact .inr ⟨nofun, haccount.1, haccount.2, rfl, .inl rfl⟩
  | some event =>
      rw [hevent] at haccount
      cases hkind : event.isChange with
      | true => exact .inl ⟨event, rfl, hkind, by simpa [hkind] using haccount,
          by simp [hkind], by simp [hkind]⟩
      | false =>
          obtain ⟨hversion, hexists⟩ := effect_kept haccount hkind
          refine .inr ⟨fun e he => Option.some.inj he ▸ hkind, ?_⟩
          by_cases hlogin : event = .loggedIn
          · subst hlogin
            exact ⟨hversion, hexists, rfl, .inr ⟨rfl, rfl⟩⟩
          · simp only [hkind, Bool.false_eq_true, if_false, if_neg hlogin]
            exact ⟨hversion, hexists, trivial, .inl trivial⟩

theorem step_tracked (h : Tracked w) : Tracked (step p w o) := by
  rcases step_cases p w o with ⟨event, _, _, _, hlive, hstale⟩ | ⟨_,
    hversion, hexists, hstale, hlive⟩
  · refine ⟨by simp [hlive], ?_⟩
    intro c hc
    rw [hstale, List.mem_append] at hc
    exact hc.elim (fun hc => (h.live c hc).1) (h.stale c)
  · refine ⟨?_, by rw [hstale]; exact h.stale⟩
    intro c hc
    rw [hexists, hversion]
    rcases hlive with hlive | ⟨hevent, hlive⟩
    · exact h.live c (hlive ▸ hc)
    · rw [hlive] at hc
      rcases List.mem_cons.mp hc with rfl | hc
      · obtain ⟨hexists, hauth, hnumber⟩ := (serve_serves p w.server o.1 o.2).1.login hevent
        exact ⟨hauth, hexists, hnumber⟩
      · exact h.live c hc

/-- One request keeps the old sessions out exactly if the number of the account
after it is unused. -/
theorem step_invalidated_iff (htracked : Tracked w) (hkept : Invalidated w) :
    Invalidated (step p w o) ↔ Unused p w o := by
  rcases step_cases p w o with ⟨event, hevent, hkind, heffect, _, hstale⟩ |
    ⟨hquiet, hversion, hexists, hstale, _⟩
  · rcases effect_change heffect hkind with ⟨n, hnext, hn, hexists, hne⟩ | ⟨hnext, hexists⟩
    · constructor
      · intro hnew e he m hm c hc hcarried
        obtain rfl : event = e := Option.some.inj (hevent.symm.trans he)
        obtain rfl : n = m := Option.some.inj (hnext.symm.trans hm)
        apply hnew c (by simp [hstale, hc])
        rw [accepted_iff, hn]
        exact ⟨hexists, htracked.stale c hc, hcarried⟩
      · intro hunused c hc haccepted
        rw [accepted_iff, hn] at haccepted
        rw [hstale, List.mem_append] at hc
        rcases hc with hc | hc
        · obtain ⟨_, hbefore, hnumber⟩ := htracked.live c hc
          exact hne hbefore (Option.some.inj (haccepted.2.2.symm.trans hnumber))
        · exact hunused event hevent n hnext c hc haccepted.2.2
    · refine iff_of_true (fun c _ haccepted => ?_) fun e he m hm => ?_
      · rw [accepted_iff, hexists] at haccepted
        exact absurd haccepted.1 (by decide)
      · obtain rfl : event = e := Option.some.inj (hevent.symm.trans he)
        rw [hnext] at hm
        cases hm
  · refine iff_of_true (fun c hc haccepted => ?_) fun e he m hm => ?_
    · rw [accepted_iff, hversion, hexists, ← accepted_iff] at haccepted
      exact hkept c (hstale ▸ hc) haccepted
    · rw [nextVersion_kept (hquiet e he)] at hm
      cases hm

end Step

/-- No session has been issued yet. -/
def noSessions (server : Server) : World := ⟨server, [], []⟩

/-- In every state of a run the sessions from before a change are kept out,
exactly if every change of the run leads to a number that none of them carries. -/
theorem sessions_invalidated_iff (server : Server) (ops : List (Session × Request)) :
    (∀ w ∈ reached (step p) (noSessions server) ops, Invalidated w) ↔
      Meets (step p) (Unused p) (noSessions server) ops := by
  have hstart : Tracked (noSessions server) ∧ Invalidated (noSessions server) :=
    ⟨⟨by simp [noSessions], by simp [noSessions]⟩, by simp [Invalidated, noSessions]⟩
  have hstep : ∀ w o, Tracked w ∧ Invalidated w →
      (Tracked (step p w o) ∧ Invalidated (step p w o) ↔ Unused p w o) := by
    rintro w o ⟨htracked, hkept⟩
    rw [← step_invalidated_iff htracked hkept]
    exact and_iff_right (step_tracked htracked)
  rw [← reached_all_iff (P := fun w => Tracked w ∧ Invalidated w) hstep hstart]
  have htracked : ∀ w ∈ reached (step p) (noSessions server) ops, Tracked w :=
    reached_all (Q := fun _ _ => True) (fun _ _ h _ => step_tracked h) hstart.1
      (meets_of_forall fun _ _ _ => trivial)
  exact forall₂_congr fun w hw => (and_iff_right (htracked w hw)).symm

/-- The session of a login to an account that has never changed. -/
def firstSession : Session := { authenticated := true, sessionVersion := some 0 }

def loginThenReset : List (Session × Request) :=
  [({}, .login {
      peer := "192.168.1.20"
      username := "admin"
      password := "correct horse battery"
      checkedAt := 0
      verifiedAt := 0
      recordedAt := 0
      recheckedAt := 0 }),
    (firstSession, .factoryReset "correct horse battery" "RESET"),
    ({}, .setupAccount "pepper" "7C0D44E1" "owner" "another long password" "another long password")]

/-- The old session opens the pages of the new account. -/
theorem reset_revives_session :
    ¬ ∀ (p : Primitives) (server : Server) (ops : List (Session × Request)),
    ∀ w ∈ reached (step p) (noSessions server) ops, Invalidated w := by
  intro hall
  let w := loginThenReset.foldl (step plainPrimitives) (noSessions ⟨withAccount, ∅⟩)
  have hw : w ∈ reached (step plainPrimitives) (noSessions ⟨withAccount, ∅⟩) loginThenReset := by
    simp [w, loginThenReset, reached]
  have hstale : firstSession ∈ w.stale := by decide +kernel
  have haccepted : Accepted w.server.installation firstSession := by
    rw [accepted_iff]
    decide +kernel
  exact hall plainPrimitives _ _ w hw firstSession hstale haccepted

end Keepup.Routes
