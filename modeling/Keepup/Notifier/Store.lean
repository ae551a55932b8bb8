import Keepup.Lib.Dict
import Mathlib.Data.Finset.Sort
import Mathlib.Data.Rat.Init
import Mathlib.Data.String.Basic

/-!
The store of what was already announced, and the scans and host checks that read
it and write it back. A scan writes only when something changed. The abstract
side is two trackers, one of the containers and one of the hosts, that live in
the same file and know nothing of each other.
-/

namespace Keepup.Notifier

open Lib

section Store

/-- The store in memory. -/
structure State where
  notified : List String := []
  unknownSince : Dict String ℚ := ∅
  unknownNotified : List String := []
  notifiedHosts : List String := []

/-- What the file holds. The list is the format from before anything but the
announced containers was kept, and a field that is missing is `none`. -/
inductive Stored where
  | absent
  | unreadable
  | list (notified : List String)
  | dict (notified notifiedHosts : Option (List String)) (unknownSince : Option (Dict String ℚ))
      (unknownNotified : Option (List String))
  | other

def load : Stored → State
  | .absent | .unreadable | .other => {}
  | .list notified => { notified := notified }
  | .dict notified notifiedHosts unknownSince unknownNotified =>
      { notified := notified.getD []
        notifiedHosts := notifiedHosts.getD []
        unknownSince := unknownSince.getD ∅
        unknownNotified := unknownNotified.getD [] }

def sorted (texts : List String) : List String := texts.mergeSort fun a b => a ≤ b

def save (state : State) : Stored :=
  .dict (some (sorted state.notified)) (some (sorted state.notifiedHosts)) (some state.unknownSince)
    (some (sorted state.unknownNotified))

end Store

section Scan

inductive UpdateStatus where
  | updateAvailable
  | upToDate
  | mixed
  | unknown
  | missing
deriving DecidableEq

/-- A stack as a backend reports it. -/
structure Stack where
  updatePath : String := ""
  updateStatus : UpdateStatus := .missing
  name : Option String := none
  unknownReason : Option String := none
deriving DecidableEq

structure Notification where
  title : String
  message : String
  level : String
  url : String := ""
deriving DecidableEq

def unknownStaleSeconds : ℕ := 86400

/-- The variables of the loop over the stacks. -/
structure Scan where
  notified : Finset String
  unknownSince : Dict String ℚ
  seenUnknown : Finset String := ∅
  changed : Bool := false

def updateNotification (stack : Stack) : Notification :=
  let name := stack.name.getD stack.updatePath
  { title := "Image update available: " ++ name
    message := "A newer image is available for " ++ name ++ ". Open the dashboard to update."
    level := "info" }

/-- The part of the loop for the announcements. -/
def Scan.announce (scan : Scan) (stack : Stack) : Scan × Option Notification :=
  match stack.updateStatus with
  | .updateAvailable =>
      if stack.updatePath ≠ "" ∧ stack.updatePath ∉ scan.notified then
        ({ scan with notified := insert stack.updatePath scan.notified, changed := true },
          some (updateNotification stack))
      else (scan, none)
  | .upToDate | .mixed =>
      if stack.updatePath ∈ scan.notified then
        ({ scan with notified := scan.notified.erase stack.updatePath, changed := true }, none)
      else (scan, none)
  | .unknown | .missing => (scan, none)

/-- The part of the loop for the checks that fail. -/
def Scan.observe (now : ℚ) (scan : Scan) (stack : Stack) : Scan :=
  if stack.updateStatus = .unknown ∧ stack.updatePath ≠ "" then
    let scan := { scan with seenUnknown := insert stack.updatePath scan.seenUnknown }
    if scan.unknownSince.contains stack.updatePath then scan
    else { scan with unknownSince := scan.unknownSince.set stack.updatePath now, changed := true }
  else scan

/-- The loop, with what each stack of it announces. -/
def Scan.reports (now : ℚ) : Scan → List Stack → Scan × List (Option Notification)
  | scan, [] => (scan, [])
  | scan, stack :: reported =>
      let announced := scan.announce stack
      let rest := Scan.reports now (announced.1.observe now stack) reported
      (rest.1, announced.2 :: rest.2)

/-- Containers that recovered or disappeared are tracked no longer. -/
def Scan.dropRecovered (scan : Scan) : Scan :=
  { scan with
    unknownSince := scan.unknownSince.restrict fun path => path ∈ scan.seenUnknown
    changed := scan.changed || scan.unknownSince.keys.any fun path => path ∉ scan.seenUnknown }

def Scan.stale (now : ℚ) (scan : Scan) : Finset String :=
  ((scan.unknownSince.entries.filter fun entry => unknownStaleSeconds ≤ now - entry.2).map
    Prod.fst).toFinset

end Scan

section RollUp

def reasonLabels : List (String × String) :=
  [("unresolvable_image", "Image not resolvable"), ("no_local_digest", "Nothing to compare"),
    ("rate_limited", "Rate limited"), ("auth_failed", "Auth failed"),
      ("not_found", "Tag not found"),
    ("unsupported_registry", "Unsupported registry"), ("registry_error", "Registry error"),
    ("unreachable", "Registry unreachable"), ("no_containers", "No containers running"),
    ("endpoint_unreachable", "Docker host unreachable")]

def reasonLabel (reason : String) : String := (reasonLabels.lookup reason).getD "Unknown"

/-- The first of the most frequent elements. -/
def mostCommon (reasons : List String) : Option String :=
  reasons.foldl (fun best reason =>
    match best with
    | none => some reason
    | some other => if reasons.count other < reasons.count reason then some reason else best) none

/-- `iterate` is the order in which the elements of a set come. -/
def staleNotification (iterate : Finset String → List String) (stale : Finset String)
    (reported : List Stack) : Notification :=
  let byPath : Dict String Stack :=
    Dict.ofPairs (reported.map fun stack => (stack.updatePath, stack))
  let names := sorted ((iterate stale).map fun path =>
    (((byPath.get? path).bind Stack.name).filter (· ≠ "")).getD path)
  let reasons := (iterate stale).filterMap fun path =>
    ((byPath.get? path).bind Stack.unknownReason).filter (· ≠ "")
  let plural := names.length ≠ 1
  let message := toString names.length ++ " container" ++ (if plural then "s" else "") ++
    " ha" ++ (if plural then "ve" else "s") ++ " not been checked for over " ++
    toString (unknownStaleSeconds / 3600) ++ "h: " ++ ", ".intercalate names ++ "."
  let reason := match mostCommon reasons with
    | some dominant =>
        " Most common reason: " ++ (reasonLabel dominant).map Char.toLower ++ "."
    | none => ""
  { title := "Container update checks failing", message := message ++ reason, level := "warning" }

end RollUp

section Calls

variable (iterate : Finset String → List String)

/-- What a scan does: what each stack announces, the roll-up, the state at its end
and the file. -/
structure Outcome where
  announced : List (Option Notification)
  rollUp : Option Notification
  memory : State
  file : Stored

def checkAndNotify (file : Stored) (now : ℚ) (reported : List Stack) : Outcome :=
  let state := load file
  let looped := Scan.reports now ⟨state.notified.toFinset, state.unknownSince, ∅, false⟩ reported
  let scan := looped.1.dropRecovered
  let stale := scan.stale now
  let already := state.unknownNotified.toFinset
  let memory := { state with
    notified := scan.notified.sort
    unknownSince := scan.unknownSince
    unknownNotified := if stale ≠ already then stale.sort else state.unknownNotified }
  { announced := looped.2
    rollUp := if (stale \ already).Nonempty then some (staleNotification iterate stale reported)
      else none
    memory := memory
    file := if scan.changed ∨ stale ≠ already then save memory else file }

def shouldNotifyHost (file : Stored) (slug : String) (hasUpdates : Bool) : Bool × Stored :=
  let state := load file
  let notified := state.notifiedHosts.toFinset
  if hasUpdates = false then
    if slug ∈ notified then (false, save { state with notifiedHosts := (notified.erase slug).sort })
    else (false, file)
  else if slug ∈ notified then (false, file)
  else (true, save { state with notifiedHosts := (insert slug notified).sort })

end Calls

section Trackers

/-- What is known of the containers, without the file. -/
structure Tracker where
  notified : Finset String := ∅
  unknownSince : Dict String ℚ := ∅
  unknownNotified : Finset String := ∅

def State.tracker (state : State) : Tracker :=
  ⟨state.notified.toFinset, state.unknownSince, state.unknownNotified.toFinset⟩

/-- The hosts that are known to have pending updates. -/
def State.pending (state : State) : Finset String := state.notifiedHosts.toFinset

def Tracker.scan (t : Tracker) (now : ℚ) (reported : List Stack) :
    Scan × List (Option Notification) :=
  let looped := Scan.reports now ⟨t.notified, t.unknownSince, ∅, false⟩ reported
  (looped.1.dropRecovered, looped.2)

/-- The tracker after a scan. -/
def Tracker.next (t : Tracker) (now : ℚ) (reported : List Stack) : Tracker :=
  let scan := (t.scan now reported).1
  ⟨scan.notified, scan.unknownSince, scan.stale now⟩

/-- The containers that a scan finds unknown for too long for the first time. -/
def Tracker.newlyStale (t : Tracker) (now : ℚ) (reported : List Stack) : Finset String :=
  (t.next now reported).unknownNotified \ t.unknownNotified

theorem toFinset_sorted (texts : List String) : (sorted texts).toFinset = texts.toFinset :=
  List.toFinset_eq_of_perm _ _ (List.mergeSort_perm texts _)

@[simp] theorem load_save_tracker (state : State) :
    (load (save state)).tracker = state.tracker := by
  simp [load, save, State.tracker, toFinset_sorted]

@[simp] theorem load_save_pending (state : State) :
    (load (save state)).pending = state.pending := by
  simp [load, save, State.pending, toFinset_sorted]

end Trackers

section Unchanged

variable {now : ℚ} {scan : Scan} {stack : Stack}

/-- A step that marks no change makes none. -/
theorem announce_quiet (h : (scan.announce stack).1.changed = false) :
    (scan.announce stack).1 = scan := by
  rw [Scan.announce] at h ⊢
  cases hstatus : stack.updateStatus with
  | updateAvailable =>
      simp only [hstatus] at h ⊢
      by_cases hnew : stack.updatePath ≠ "" ∧ stack.updatePath ∉ scan.notified
      · rw [if_pos hnew] at h
        cases h
      · rw [if_neg hnew]
  | upToDate | mixed =>
      simp only [hstatus] at h ⊢
      by_cases hknown : stack.updatePath ∈ scan.notified
      · rw [if_pos hknown] at h
        cases h
      · rw [if_neg hknown]
  | unknown | missing => rfl

theorem observe_quiet (h : (scan.observe now stack).changed = false) :
    scan.changed = false ∧ (scan.observe now stack).notified = scan.notified ∧
      (scan.observe now stack).unknownSince = scan.unknownSince := by
  rw [Scan.observe] at h ⊢
  by_cases hunknown : stack.updateStatus = .unknown ∧ stack.updatePath ≠ ""
  · rw [if_pos hunknown] at h ⊢
    dsimp only at h ⊢
    by_cases hknown : scan.unknownSince.contains stack.updatePath = true
    · rw [if_pos hknown] at h ⊢
      exact ⟨h, rfl, rfl⟩
    · rw [if_neg hknown] at h
      cases h
  · rw [if_neg hunknown] at h ⊢
    exact ⟨h, rfl, rfl⟩

theorem reports_quiet {reported : List Stack}
    (h : (Scan.reports now scan reported).1.changed = false) :
    scan.changed = false ∧ (Scan.reports now scan reported).1.notified = scan.notified ∧
      (Scan.reports now scan reported).1.unknownSince = scan.unknownSince := by
  induction reported generalizing scan with
  | nil => exact ⟨h, rfl, rfl⟩
  | cons stack reported ih =>
      rw [Scan.reports] at h ⊢
      obtain ⟨hobserved, hnotified, hsince⟩ := ih h
      obtain ⟨hannounced, hnotified', hsince'⟩ := observe_quiet hobserved
      have hsame := announce_quiet hannounced
      rw [hsame] at hannounced hnotified hsince hnotified' hsince' ⊢
      exact ⟨hannounced, hnotified.trans hnotified', hsince.trans hsince'⟩

theorem dropRecovered_quiet (h : scan.dropRecovered.changed = false) :
    scan.changed = false ∧ scan.dropRecovered.unknownSince = scan.unknownSince := by
  obtain ⟨hchanged, hkeys⟩ := Bool.or_eq_false_iff.mp h
  have hseen : ∀ path ∈ scan.unknownSince.keys, decide (path ∈ scan.seenUnknown) = true := by
    intro path hpath
    simpa using List.any_eq_false.mp hkeys path hpath
  exact ⟨hchanged, Dict.restrict_eq_self hseen⟩

/-- What a scan that marks no change leaves of a tracker. -/
theorem scan_quiet {t : Tracker} {reported : List Stack}
    (h : (t.scan now reported).1.changed = false) :
    (t.scan now reported).1.notified = t.notified ∧
      (t.scan now reported).1.unknownSince = t.unknownSince := by
  obtain ⟨hlooped, hdropped⟩ := dropRecovered_quiet h
  obtain ⟨_, hnotified, hsince⟩ := reports_quiet hlooped
  exact ⟨hnotified, hdropped.trans hsince⟩

end Unchanged

section Refinement

variable (iterate : Finset String → List String) (file : Stored) (now : ℚ) (reported : List Stack)

theorem checkAndNotify_rollUp : (checkAndNotify iterate file now reported).rollUp.isSome = true ↔
    ((load file).tracker.newlyStale now reported).Nonempty := by
  rw [checkAndNotify]
  dsimp only
  split
  · rename_i hstale
    exact iff_of_true rfl hstale
  · rename_i hstale
    exact iff_of_false (by simp) hstale

theorem checkAndNotify_memory : (checkAndNotify iterate file now reported).memory.tracker =
    (load file).tracker.next now reported := by
  have hstale : ∀ stale :
    Finset String, (if stale ≠ (load file).unknownNotified.toFinset then stale.sort
      else (load file).unknownNotified).toFinset = stale := by
    intro stale
    split
    · exact Finset.sort_toFinset stale (· ≤ ·)
    · rename_i hsame
      exact (not_not.mp hsame).symm
  simp only [checkAndNotify, State.tracker, Tracker.next, Tracker.scan,
    Finset.sort_toFinset, hstale]

/-- The next scan reads back what this one left, whether it wrote or not. -/
theorem checkAndNotify_reload :
    (load (checkAndNotify iterate file now reported).file).tracker =
      (checkAndNotify iterate file now reported).memory.tracker ∧
    (load (checkAndNotify iterate file now reported).file).pending =
      (checkAndNotify iterate file now reported).memory.pending := by
  by_cases hwritten : ((load file).tracker.scan now reported).1.changed = true ∨
      ((load file).tracker.scan now reported).1.stale now ≠ (load file).unknownNotified.toFinset
  · have hfile : (checkAndNotify iterate file now reported).file =
        save (checkAndNotify iterate file now reported).memory := if_pos hwritten
    rw [hfile]
    exact ⟨load_save_tracker _, load_save_pending _⟩
  · have hfile : (checkAndNotify iterate file now reported).file = file := if_neg hwritten
    obtain ⟨hquiet, hstale⟩ := not_or.mp hwritten
    obtain ⟨hnotified, hsince⟩ := scan_quiet (Bool.eq_false_iff.mpr hquiet)
    rw [hfile, checkAndNotify_memory, Tracker.next, hnotified, hsince, not_not.mp hstale]
    exact ⟨rfl, rfl⟩

theorem checkAndNotify_pending : (load (checkAndNotify iterate file now reported).file).pending =
    (load file).pending := (checkAndNotify_reload iterate file now reported).2

theorem checkAndNotify_tracker : (load (checkAndNotify iterate file now reported).file).tracker =
    (load file).tracker.next now reported :=
  (checkAndNotify_reload iterate file now reported).1.trans
    (checkAndNotify_memory iterate file now reported)

variable (slug : String) (hasUpdates : Bool)

theorem shouldNotifyHost_result : (shouldNotifyHost file slug hasUpdates).1 =
    (hasUpdates && decide (slug ∉ (load file).pending)) := by
  rw [State.pending]
  unfold shouldNotifyHost
  by_cases hslug : slug ∈ (load file).notifiedHosts.toFinset
  · cases hasUpdates <;> simp [hslug]
  · cases hasUpdates <;> simp [hslug]

theorem shouldNotifyHost_tracker :
    (load (shouldNotifyHost file slug hasUpdates).2).tracker = (load file).tracker := by
  unfold shouldNotifyHost
  dsimp only
  split
  · split
    · exact load_save_tracker _
    · rfl
  · split
    · rfl
    · exact load_save_tracker _

theorem shouldNotifyHost_pending : (load (shouldNotifyHost file slug hasUpdates).2).pending =
    if hasUpdates then insert slug (load file).pending else (load file).pending.erase slug := by
  unfold shouldNotifyHost
  dsimp only
  by_cases hslug : slug ∈ (load file).notifiedHosts.toFinset
  · cases hasUpdates with
    | false =>
        rw [if_pos rfl, if_pos hslug, load_save_pending, if_neg Bool.noConfusion]
        exact Finset.sort_toFinset ((load file).notifiedHosts.toFinset.erase slug) (· ≤ ·)
    | true =>
        rw [if_neg Bool.noConfusion, if_pos hslug]
        exact (Finset.insert_eq_of_mem hslug).symm
  · cases hasUpdates with
    | false =>
        rw [if_pos rfl, if_neg hslug]
        exact (Finset.erase_eq_of_notMem hslug).symm
    | true =>
        rw [if_neg Bool.noConfusion, if_neg hslug, load_save_pending, if_pos rfl]
        exact Finset.sort_toFinset (insert slug (load file).notifiedHosts.toFinset) (· ≤ ·)

end Refinement

end Keepup.Notifier
