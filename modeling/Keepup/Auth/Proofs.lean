import Keepup.Auth.Routes
import Keepup.Lib.Runs

/-!
The proofs of identity that a session holds before a login: that its owner knew
the backup key, and that it created the account. Clients keep every session they
were given and present any of them again; what the flags of a session were
proven against is not in it, so a history of the account is kept beside.
-/

namespace Keepup.Routes

open Lib Login

/-- How often the password or the backup key changed, whether the key has been
proven since, how often the installation was reset, and which of the accounts
created so far is there. -/
structure History where
  changes : ℕ := 0
  proven : Bool := false
  wipes : ℕ := 0
  accounts : ℕ := 0
  current : Option ℕ := none

def History.after (h : History) : Option Event → History
  | some .keyProven => { h with proven := true }
  | some .passwordChanged => { h with changes := h.changes + 1, proven := false }
  | some .passwordReset => { h with changes := h.changes + 1, proven := false }
  | some .keyRegenerated => { h with changes := h.changes + 1, proven := false }
  | some .created => { h with
      changes := h.changes + 1
      proven := false
      accounts := h.accounts + 1
      current := some (h.accounts + 1) }
  | some .wiped => { h with
      changes := h.changes + 1
      proven := false
      wipes := h.wipes + 1
      current := none }
  | _ => h

/-- A session that was given out, with the changes before its recovery flag was
set, and the resets before its setup flag was set and the account it belongs to. -/
structure Cookie where
  session : Session := {}
  changes : ℕ := 0
  wipes : ℕ := 0
  account : ℕ := 0

/-- The session of a response. A flag that it takes over keeps its origin. -/
def Cookie.issue (c : Cookie) (h : History) (session : Session) : Option Event → Cookie
  | some .keyProven => { c with session := session, changes := h.changes }
  | some .created => { c with session := session, wipes := h.wipes, account := h.accounts + 1 }
  | _ => { c with session := session }

/-- A server, every session that it has given out, and the history. -/
structure Clients where
  server : Server
  jar : List Cookie := []
  history : History := {}

variable (p : Primitives)

/-- The session that a request presents, none where nothing was given out. -/
def Clients.presented (w : Clients) (i : ℕ) : Cookie := w.jar[i]?.getD {}

def replay (w : Clients) (o : ℕ × Request) : Clients :=
  let cookie := w.presented o.1
  let (server, result) := serve p w.server cookie.session o.2
  { server := server
    jar := w.jar ++ [cookie.issue w.history result.session result.event]
    history := w.history.after result.event }

/-- A lost password is replaced only after a proof of the key that is the current
one, and a second factor is set up only by whoever created the account. -/
def Backed (w : Clients) (o : ℕ × Request) : Prop :=
  let cookie := w.presented o.1
  let event := (serve p w.server cookie.session o.2).2.event
  (event = some .passwordReset → w.history.proven = true) ∧
    (event = some .setupMfaEnrolled → w.server.installation.adminExists = true ∧
      w.history.current = some cookie.account)

/-- Where the rest of the form is right, the flag that the page asks for was set
since the last change of the password or the key, or since the last reset. -/
def FlagRecent (w : Clients) (o : ℕ × Request) : Prop :=
  let cookie := w.presented o.1
  match o.2 with
  | .forgotPasswordReset _ password confirm =>
      passwordErrors "Password" "Passwords" password confirm = [] →
        cookie.session.recoveryVerified = true → cookie.changes = w.history.changes
  | .setupSecuritySubmit now _ enableMfa code =>
      enableMfa = "on" ∧
        p.verifyTotp now (cookie.session.setupTotpSecret.getD "") (Text.strip code) = true →
        cookie.session.setupAccountDone = true → cookie.wipes = w.history.wipes
  | _ => True

/-- A recovery flag from after the last change is a proof of the current key. -/
def RecoverySound (h : History) (c : Cookie) : Prop :=
  c.session.recoveryVerified = true → c.changes ≤ h.changes ∧
    (c.changes = h.changes → h.proven = true)

/-- A setup flag from after the last reset belongs to the account that is there. -/
def SetupSound (h : History) (s : Installation) (c : Cookie) : Prop :=
  c.session.setupAccountDone = true → c.wipes ≤ h.wipes ∧
    (c.wipes = h.wipes → s.adminExists = true ∧ h.current = some c.account)

structure JarSound (w : Clients) : Prop where
  recovery : ∀ c ∈ w.jar, RecoverySound w.history c
  setup : ∀ c ∈ w.jar, SetupSound w.history w.server.installation c

section Flags

variable {h : History} {s t : Installation} {c : Cookie} {event : Option Event}

theorem RecoverySound.after (hc : RecoverySound h c) : RecoverySound (h.after event) c := by
  intro hflag
  obtain ⟨hle, hproven⟩ := hc hflag
  -- A change makes the count exceed that of every flag that was set before it.
  have hnext : c.changes ≤ h.changes + 1 ∧ (c.changes = h.changes + 1 → false = true) := by
    refine ⟨by omega, fun heq => ?_⟩
    omega
  cases event with
  | none => exact ⟨hle, hproven⟩
  | some event =>
      cases event with
      | keyProven => exact ⟨hle, fun _ => rfl⟩
      | passwordChanged => exact hnext
      | passwordReset => exact hnext
      | keyRegenerated => exact hnext
      | created => exact hnext
      | wiped => exact hnext
      | _ => exact ⟨hle, hproven⟩

theorem SetupSound.after (hc : SetupSound h s c) (heffect : Effect s t event) :
    SetupSound (h.after event) t c := by
  intro hflag
  obtain ⟨hle, howned⟩ := hc hflag
  have hkept : t.adminExists = s.adminExists →
      c.wipes ≤ h.wipes ∧ (c.wipes = h.wipes → t.adminExists = true ∧ h.current = some c.account) :=
    fun hexists => ⟨hle, fun heq => ⟨hexists.trans (howned heq).1, (howned heq).2⟩⟩
  have hthere : t.adminExists = true →
      c.wipes ≤ h.wipes ∧ (c.wipes = h.wipes → t.adminExists = true ∧ h.current = some c.account) :=
    fun hexists => ⟨hle, fun heq => ⟨hexists, (howned heq).2⟩⟩
  cases event with
  | none => exact hkept heffect.2
  | some event =>
      cases event with
      | passwordChanged => exact hthere heffect.2
      | passwordReset => exact hthere heffect.2
      | created =>
          -- Since the last reset there was no account for the flag to belong to.
          refine ⟨hle, fun heq => ?_⟩
          have hexists := (howned heq).1
          rw [heffect.1] at hexists
          cases hexists
      | wiped =>
          refine ⟨?_, fun heq => ?_⟩
          · exact hle.trans (Nat.le_succ _)
          · have hnext : c.wipes = h.wipes + 1 := heq
            omega
      | mfaEnrolled => exact hkept heffect.2
      | setupMfaEnrolled => exact hkept heffect.2
      | mfaRemoved => exact hkept heffect.2
      | loggedIn => exact hkept heffect.2
      | keyProven => exact hkept heffect.2
      | keyRegenerated => exact hkept heffect.2

section Issued

variable {session : Session}

@[simp] theorem issue_session (c : Cookie) (h : History) (session : Session)
    (event : Option Event) :
    (c.issue h session event).session = session := by
  cases event with
  | none => rfl
  | some event => cases event <;> rfl

theorem issue_changes (hne : event ≠ some .keyProven) :
    (c.issue h session event).changes = c.changes := by
  cases event with
  | none => rfl
  | some event => cases event <;> first | rfl | exact absurd rfl hne

theorem issue_account (hne : event ≠ some .created) :
    (c.issue h session event).wipes = c.wipes ∧ (c.issue h session event).account = c.account := by
  cases event with
  | none => exact ⟨rfl, rfl⟩
  | some event => cases event <;> first | exact ⟨rfl, rfl⟩ | exact absurd rfl hne

/-- A flag of a new session was taken over, or comes from what just happened. -/
theorem issue_recovery (hc : RecoverySound h c) (hflag : session.recoveryVerified = true →
      c.session.recoveryVerified = true ∨ event = some .keyProven) :
    RecoverySound (h.after event) (c.issue h session event) := by
  intro hset
  rw [issue_session] at hset
  by_cases hproven : event = some .keyProven
  · subst hproven
    exact ⟨le_refl _, fun _ => rfl⟩
  · rw [issue_changes hproven]
    exact hc.after ((hflag hset).resolve_right hproven)

theorem issue_setup (hc : SetupSound h s c) (heffect : Effect s t event)
    (hflag : session.setupAccountDone = true →
      c.session.setupAccountDone = true ∨ event = some .created) :
    SetupSound (h.after event) t (c.issue h session event) := by
  intro hset
  rw [issue_session] at hset
  by_cases hcreated : event = some .created
  · subst hcreated
    exact ⟨le_refl _, fun _ => ⟨heffect.2.2, rfl⟩⟩
  · rw [(issue_account hcreated).1, (issue_account hcreated).2]
    exact hc.after heffect ((hflag hset).resolve_right hcreated)

end Issued

end Flags

section Run

variable {p} {w : Clients} {o : ℕ × Request}

/-- Only a session from the jar has flags. -/
theorem presented_sound (h : JarSound w) (i : ℕ) : RecoverySound w.history (w.presented i) ∧
    SetupSound w.history w.server.installation (w.presented i) := by
  rw [Clients.presented]
  cases hget : w.jar[i]? with
  | none => exact ⟨nofun, nofun⟩
  | some c =>
      have hc := List.mem_of_getElem? hget
      exact ⟨h.recovery c hc, h.setup c hc⟩

theorem replay_sound (h : JarSound w) : JarSound (replay p w o) := by
  obtain ⟨hserves, hsame⟩ := serve_serves p w.server (w.presented o.1).session o.2
  obtain ⟨hrecovery, hsetup⟩ := presented_sound h o.1
  have heffect := hserves.account
  rw [← hsame] at heffect
  constructor
  · intro c hc
    rcases List.mem_append.mp hc with hc | hc
    · exact (h.recovery c hc).after
    · rw [List.mem_singleton.mp hc]
      exact issue_recovery hrecovery hserves.recovery
  · intro c hc
    rcases List.mem_append.mp hc with hc | hc
    · exact (h.setup c hc).after heffect
    · rw [List.mem_singleton.mp hc]
      exact issue_setup hsetup heffect hserves.setup

/-- A flag that is recent is what the page takes it for. -/
theorem backed_of_recent (h : JarSound w) (hrecent : FlagRecent p w o) : Backed p w o := by
  obtain ⟨hserves, _⟩ := serve_serves p w.server (w.presented o.1).session o.2
  obtain ⟨hrecovery, hsetup⟩ := presented_sound h o.1
  constructor
  · intro hevent
    obtain ⟨hflag, salt, password, confirm, hrequest, hvalid⟩ := hserves.reset hevent
    rw [FlagRecent, hrequest] at hrecent
    exact (hrecovery hflag).2 (hrecent hvalid hflag)
  · intro hevent
    obtain ⟨hflag, now, newSecret, code, hrequest, hcode⟩ := hserves.enrolled hevent
    rw [FlagRecent, hrequest] at hrecent
    exact (hsetup hflag).2 (hrecent ⟨rfl, hcode⟩ hflag)

end Run

/-- In a run in which flags are presented only until the next change, every reset
of the password and every setup of a second factor is backed by a proof. -/
theorem proofs_hold_of_recent (server : Server) (ops : List (ℕ × Request))
    (hrecent : Meets (replay p) (FlagRecent p) ⟨server, [], {}⟩ ops) :
    Meets (replay p) (Backed p) ⟨server, [], {}⟩ ops := by
  have hstart : JarSound ⟨server, [], {}⟩ := ⟨by simp, by simp⟩
  have hsound : ∀ w ∈ reached (replay p) ⟨server, [], {}⟩ ops, JarSound w :=
    reached_all (Q := fun _ _ => True) (fun _ _ h _ => replay_sound h) hstart
      (meets_of_forall fun _ _ _ => trivial)
  exact meets_of_reached (fun _ _ => backed_of_recent) hsound hrecent

/-- The key is proven, and the session that this gives is used for a reset. -/
def provenReset : List (ℕ × Request) :=
  [(0, .forgotPassword "A3F29B1C"),
    (0, .forgotPasswordReset "pepper" "another long password" "another long password")]

theorem provenReset_backed : Meets (replay plainPrimitives) (Backed plainPrimitives)
    ⟨⟨withAccount, ∅⟩, [], {}⟩ provenReset := by
  apply proofs_hold_of_recent
  exact ⟨trivial, fun _ _ => by decide +kernel, trivial⟩

/-- The session from before the reset resets the password once more. -/
theorem proof_used_twice : ¬ ∀ (p : Primitives) (server : Server) (ops : List (ℕ × Request)),
    Meets (replay p) (Backed p) ⟨server, [], {}⟩ ops := by
  intro hall
  have hrun := hall plainPrimitives ⟨withAccount, ∅⟩
    (provenReset ++ [(0, .forgotPasswordReset "salt" "a password of mine" "a password of mine")])
  have hproven := hrun.2.2.1.1 (by decide +kernel)
  revert hproven
  decide +kernel

end Keepup.Routes
