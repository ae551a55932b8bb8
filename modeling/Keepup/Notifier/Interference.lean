import Keepup.Notifier.Staleness

/-!
Host checks and container scans over one file, in any order. Each kind of call
writes the whole file, and each leaves what the other one reads as it was: the
replies for a host are a function of the calls for this host, those of the scans
one of the scans, whatever format the file had before.
-/

namespace Keepup.Notifier

section Calls

inductive Call where
  | host (slug : String) (hasUpdates : Bool)
  | scan (now : ℚ) (reported : List Stack)

/-- What a scan sends. -/
structure Sent where
  announced : List (Option Notification)
  rollUp : Option Notification

inductive Reply where
  | host (slug : String) (result : Bool)
  | scan (sent : Sent)

variable (iterate : Finset String → List String)

def answer (file : Stored) : Call → Reply × Stored
  | .host slug hasUpdates =>
      let outcome := shouldNotifyHost file slug hasUpdates
      (.host slug outcome.1, outcome.2)
  | .scan now reported =>
      let outcome := checkAndNotify iterate file now reported
      (.scan ⟨outcome.announced, outcome.rollUp⟩, outcome.file)

def replies : Stored → List Call → List Reply
  | _, [] => []
  | file, call :: calls =>
      (answer iterate file call).1 :: replies (answer iterate file call).2 calls

/-- What the calls for a host say of it. -/
def checksOf (slug : String) (calls : List Call) : List Bool :=
  calls.filterMap fun
    | .host other hasUpdates => if other = slug then some hasUpdates else none
    | .scan _ _ => none

def scansOf (calls : List Call) : Scans :=
  calls.filterMap fun
    | .host _ _ => none
    | .scan now reported => some (now, reported)

def resultsFor (slug : String) (replies : List Reply) : List Bool :=
  replies.filterMap fun
    | .host other result => if other = slug then some result else none
    | .scan _ => none

def sentBy (replies : List Reply) : List Sent :=
  replies.filterMap fun
    | .host _ _ => none
    | .scan sent => some sent

end Calls

section Host

variable (iterate : Finset String → List String)

/-- A host is worth a notification when it had no pending updates before. -/
def transitions : Bool → List Bool → List Bool
  | _, [] => []
  | pending, hasUpdates :: checks => (hasUpdates && !pending) :: transitions hasUpdates checks

theorem transitions_length (pending : Bool) (checks : List Bool) :
    (transitions pending checks).length = checks.length := by
  induction checks generalizing pending with
  | nil => rfl
  | cons hasUpdates checks ih => rw [transitions, List.length_cons, List.length_cons, ih]

theorem transitions_at (pending : Bool) (before after : List Bool) (hasUpdates : Bool) :
    (transitions pending (before ++ hasUpdates :: after))[before.length]? =
      some (hasUpdates && !(before.getLast?.getD pending)) := by
  induction before generalizing pending with
  | nil => rfl
  | cons check before ih =>
      rw [List.cons_append, transitions, List.length_cons, List.getElem?_cons_succ, ih]
      cases before with
      | nil => rfl
      | cons next before => rw [List.getLast?_cons_cons]; simp [List.getLast?_cons]

/-- A check of a host decides about this host alone. -/
theorem pending_after_check (file : Stored) (slug other : String) (hasUpdates : Bool) :
    decide (slug ∈ (load (shouldNotifyHost file other hasUpdates).2).pending) =
      if other = slug then hasUpdates else decide (slug ∈ (load file).pending) := by
  rw [shouldNotifyHost_pending]
  by_cases hown : other = slug
  · subst hown
    cases hasUpdates <;> simp
  · cases hasUpdates <;> simp [hown, Ne.symm hown]

/-- The results for a host are the transitions of this host. -/
theorem resultsFor_eq (file : Stored) (calls : List Call) (slug : String) :
    resultsFor slug (replies iterate file calls) =
      transitions (decide (slug ∈ (load file).pending)) (checksOf slug calls) := by
  induction calls generalizing file with
  | nil => rfl
  | cons call calls ih =>
      cases call with
      | scan now reported =>
          have hnext := ih (answer iterate file (.scan now reported)).2
          rw [answer, checkAndNotify_pending] at hnext
          exact hnext
      | host other hasUpdates =>
          have hnext := ih (answer iterate file (.host other hasUpdates)).2
          rw [answer, pending_after_check] at hnext
          by_cases hown : other = slug
          · subst hown
            have hresult := shouldNotifyHost_result file other hasUpdates
            rw [if_pos rfl] at hnext
            simp only [resultsFor, checksOf, replies, answer, List.filterMap_cons,
              if_true, transitions]
            rw [hresult, decide_not]
            exact congrArg (_ :: ·) hnext
          · rw [if_neg hown] at hnext
            simp only [resultsFor, checksOf, replies, answer, List.filterMap_cons, if_neg hown]
            exact hnext

end Host

section Containers

variable (iterate : Finset String → List String)

/-- What the scans send, without the file. -/
def Tracker.sent : Tracker → Scans → List Sent
  | _, [] => []
  | t, scan :: run =>
      ⟨(t.scan scan.1 scan.2).2, if (t.newlyStale scan.1 scan.2).Nonempty then
        some (staleNotification iterate (t.next scan.1 scan.2).unknownNotified scan.2) else none⟩ ::
      (t.next scan.1 scan.2).sent run

theorem sentBy_eq (file : Stored) (calls : List Call) :
    sentBy (replies iterate file calls) = (load file).tracker.sent iterate (scansOf calls) := by
  induction calls generalizing file with
  | nil => rfl
  | cons call calls ih =>
      cases call with
      | host slug hasUpdates =>
          have hnext := ih (answer iterate file (.host slug hasUpdates)).2
          rw [answer, shouldNotifyHost_tracker] at hnext
          exact hnext
      | scan now reported =>
          have hnext := ih (answer iterate file (.scan now reported)).2
          rw [answer, checkAndNotify_tracker] at hnext
          exact List.cons_eq_cons.mpr ⟨rfl, hnext⟩

end Containers

/-- In every order of calls, and over every file, a host check notifies exactly
when its host has gone from clean to pending, and neither kind of call has any
influence on what the other one does. -/
theorem calls_separate (iterate : Finset String → List String) (file : Stored) (calls : List Call) :
    (∀ slug, (resultsFor slug (replies iterate file calls)).length = (checksOf slug calls).length ∧
      ∀ before hasUpdates after, checksOf slug calls = before ++ hasUpdates :: after →
        (resultsFor slug (replies iterate file calls))[before.length]? = some (hasUpdates &&
          !(before.getLast?.getD (decide (slug ∈ (load file).notifiedHosts))))) ∧
    (∀ slug file' calls', (slug ∈ (load file).notifiedHosts ↔ slug ∈ (load file').notifiedHosts) →
      checksOf slug calls = checksOf slug calls' →
      resultsFor slug (replies iterate file calls) =
        resultsFor slug (replies iterate file' calls')) ∧
    ∀ file' calls', (load file).tracker = (load file').tracker → scansOf calls = scansOf calls' →
      sentBy (replies iterate file calls) = sentBy (replies iterate file' calls') := by
  have hpending : ∀ slug (file : Stored),
      decide (slug ∈ (load file).pending) = decide (slug ∈ (load file).notifiedHosts) :=
    fun slug file => decide_eq_decide.mpr List.mem_toFinset
  refine ⟨fun slug => ⟨?_, fun before hasUpdates after hchecks => ?_⟩, ?_, ?_⟩
  · rw [resultsFor_eq, transitions_length]
  · rw [resultsFor_eq, hchecks, transitions_at, hpending]
  · intro slug file' calls' hsame hchecks
    rw [resultsFor_eq, resultsFor_eq, hpending, hpending, hchecks]
    simp only [hsame]
  · intro file' calls' hsame hscans
    rw [sentBy_eq, sentBy_eq, hsame, hscans]

end Keepup.Notifier
