import Keepup.Notifier.Store

/-!
An available update is announced when the last thing that was known of its path
is something else. What is known of a path is read off the reports alone, one
after another through all scans; the file between the scans keeps it.
-/

namespace Keepup.Notifier

section Reports

/-- The statuses that say something about the image. -/
def UpdateStatus.isKnown : UpdateStatus → Bool
  | updateAvailable | upToDate | mixed => true
  | unknown | missing => false

/-- The last known status of a path. -/
def lastStatus (reports : List Stack) (path : String) : Option UpdateStatus :=
  (reports.filter fun stack => stack.updatePath = path && stack.updateStatus.isKnown).getLast?.map
    Stack.updateStatus

/-- A report that makes the update of its path available. -/
def Announces (before : List Stack) (stack : Stack) : Prop :=
  stack.updatePath ≠ "" ∧ stack.updateStatus = .updateAvailable ∧
    lastStatus before stack.updatePath ≠ some .updateAvailable

instance (before : List Stack) (stack : Stack) : Decidable (Announces before stack) :=
  inferInstanceAs (Decidable (_ ∧ _ ∧ _))

/-- What each report has to announce, after the reports before. -/
def expected : List Stack → List Stack → List (Option Notification)
  | _, [] => []
  | before, stack :: reports =>
      (if Announces before stack then some (updateNotification stack) else none) ::
        expected (before ++ [stack]) reports

variable {before : List Stack} {stack : Stack} {path : String}

theorem lastStatus_append (before : List Stack) (stack : Stack) (path : String) :
    lastStatus (before ++ [stack]) path =
      if stack.updatePath = path ∧ stack.updateStatus.isKnown = true then some stack.updateStatus
      else lastStatus before path := by
  rw [lastStatus, List.filter_append]
  by_cases hpath : stack.updatePath = path ∧ stack.updateStatus.isKnown = true
  · simp [hpath]
  · have hskip : (decide (stack.updatePath = path) && stack.updateStatus.isKnown) = false := by
      simpa using hpath
    rw [if_neg hpath, List.filter_cons_of_neg (by simp [hskip]), List.filter_nil, List.append_nil,
      lastStatus]

theorem expected_append (before first second : List Stack) :
    expected before (first ++ second) = expected before first ++
      expected (before ++ first) second := by
  induction first generalizing before with
  | nil => simp [expected]
  | cons stack first ih => simp [expected, ih]

theorem expected_length (before reports : List Stack) :
    (expected before reports).length = reports.length := by
  induction reports generalizing before with
  | nil => rfl
  | cons stack reports ih => rw [expected, List.length_cons, List.length_cons, ih]

theorem expected_at (before after : List Stack) (stack : Stack) :
    (expected [] (before ++ stack :: after))[before.length]? =
      some (if Announces before stack then some (updateNotification stack) else none) := by
  rw [expected_append, List.getElem?_append_right (Nat.le_of_eq (expected_length [] before)),
    expected_length, Nat.sub_self, expected, List.nil_append, List.getElem?_cons_zero]

end Reports

section Loop

/-- The announced paths are those whose last known status is an available update. -/
def Knows (notified : Finset String) (before : List Stack) : Prop :=
  ∀ path, path ∈ notified ↔ path ≠ "" ∧ lastStatus before path = some .updateAvailable

variable {scan : Scan} {before : List Stack}

@[simp] theorem observe_notified (now : ℚ) (scan : Scan) (stack : Stack) :
    (scan.observe now stack).notified = scan.notified := by
  rw [Scan.observe]
  split
  · dsimp only
    split <;> rfl
  · rfl

theorem Knows.empty_not_mem {notified : Finset String} (h : Knows notified before) :
    "" ∉ notified :=
  fun hmem => ((h "").mp hmem).1 rfl

/-- A report with a known status says whether its path is announced. -/
theorem mem_announce_self (hempty : "" ∉ scan.notified) {stack : Stack}
    (hknown : stack.updateStatus.isKnown = true) :
    stack.updatePath ∈ (scan.announce stack).1.notified ↔
      stack.updatePath ≠ "" ∧ stack.updateStatus = .updateAvailable := by
  rw [Scan.announce]
  cases hstatus : stack.updateStatus with
  | updateAvailable =>
      by_cases hnew : stack.updatePath ≠ "" ∧ stack.updatePath ∉ scan.notified
      · simp [hnew]
      · simp only [if_neg hnew, and_true]
        constructor
        · exact fun hmem hpath => hempty (hpath ▸ hmem)
        · exact fun hpath => of_not_not fun hmem => hnew ⟨hpath, hmem⟩
  | upToDate | mixed =>
      by_cases hmem : stack.updatePath ∈ scan.notified
      · simp [hmem]
      · simp [hmem]
  | unknown | missing =>
      rw [hstatus] at hknown
      cases hknown

/-- The others are left as they are. -/
theorem mem_announce_other {stack : Stack} {path : String}
    (hother : ¬ (stack.updatePath = path ∧ stack.updateStatus.isKnown = true)) :
    path ∈ (scan.announce stack).1.notified ↔ path ∈ scan.notified := by
  rw [Scan.announce]
  cases hstatus : stack.updateStatus with
  | updateAvailable =>
      have hpath : path ≠ stack.updatePath := fun h => hother ⟨h.symm, by rw [hstatus]; rfl⟩
      by_cases hnew : stack.updatePath ≠ "" ∧ stack.updatePath ∉ scan.notified
      · simp [hnew, hpath]
      · simp only [if_neg hnew]
  | upToDate | mixed =>
      have hpath : path ≠ stack.updatePath := fun h => hother ⟨h.symm, by rw [hstatus]; rfl⟩
      by_cases hmem : stack.updatePath ∈ scan.notified
      · simp [hmem, hpath]
      · simp only [if_neg hmem]
  | unknown | missing => exact Iff.rfl

theorem announce_notification (scan : Scan) (stack : Stack) : (scan.announce stack).2 =
    if stack.updatePath ≠ "" ∧ stack.updateStatus = .updateAvailable ∧
    stack.updatePath ∉ scan.notified
    then some (updateNotification stack) else none := by
  rw [Scan.announce]
  cases stack.updateStatus with
  | updateAvailable =>
      by_cases hnew : stack.updatePath ≠ "" ∧ stack.updatePath ∉ scan.notified
      · simp [hnew]
      · simp [hnew]
  | upToDate | mixed =>
      by_cases hmem : stack.updatePath ∈ scan.notified
      · simp [hmem]
      · simp [hmem]
  | unknown | missing => simp

theorem announce_knows (h : Knows scan.notified before) (stack : Stack) :
    (scan.announce stack).2 =
        (if Announces before stack then some (updateNotification stack) else none) ∧
      Knows (scan.announce stack).1.notified (before ++ [stack]) := by
  constructor
  · have hiff : (stack.updatePath ≠ "" ∧ stack.updateStatus = .updateAvailable ∧
        stack.updatePath ∉ scan.notified) ↔ Announces before stack :=
      and_congr_right fun hpath => and_congr_right fun _ =>
        not_congr ((h stack.updatePath).trans (and_iff_right hpath))
    rw [announce_notification]
    simp only [hiff]
  · intro path
    rw [lastStatus_append]
    split
    · rename_i hown
      obtain ⟨rfl, hknown⟩ := hown
      rw [mem_announce_self h.empty_not_mem hknown, Option.some_inj]
    · rename_i hother
      rw [mem_announce_other hother]
      exact h path

theorem reports_knows (now : ℚ) (h : Knows scan.notified before) (reported : List Stack) :
    (Scan.reports now scan reported).2 = expected before reported ∧
      Knows (Scan.reports now scan reported).1.notified (before ++ reported) := by
  induction reported generalizing scan before with
  | nil => exact ⟨rfl, by rwa [List.append_nil]⟩
  | cons stack reported ih =>
      obtain ⟨hannounced, hknows⟩ := announce_knows h stack
      rw [← observe_notified now] at hknows
      obtain ⟨hrest, hafter⟩ := ih hknows
      rw [Scan.reports, expected]
      exact ⟨List.cons_eq_cons.mpr ⟨hannounced, hrest⟩, by rwa [List.append_assoc] at hafter⟩

end Loop

section Run

/-- Scans one after another, each with its time and what it reports. -/
abbrev Scans := List (ℚ × List Stack)

variable (iterate : Finset String → List String)

def afterScans (file : Stored) (run : Scans) : Stored :=
  run.foldl (fun file scan => (checkAndNotify iterate file scan.1 scan.2).file) file

def announcements : Stored → Scans → List (Option Notification)
  | _, [] => []
  | file, scan :: run =>
      let outcome := checkAndNotify iterate file scan.1 scan.2
      outcome.announced ++ announcements outcome.file run

def reportsOf (run : Scans) : List Stack := run.flatMap Prod.snd

theorem announcements_knows {file : Stored} {before : List Stack}
    (h : Knows (load file).tracker.notified before) (run : Scans) :
    announcements iterate file run = expected before (reportsOf run) ∧
      Knows (load (afterScans iterate file run)).tracker.notified (before ++ reportsOf run) := by
  induction run generalizing file before with
  | nil => exact ⟨rfl, by rwa [reportsOf, List.flatMap_nil, List.append_nil]⟩
  | cons scan run ih =>
      have hscan : Knows (⟨(load file).tracker.notified, (load file).tracker.unknownSince,
        ∅, false⟩ :
        Scan).notified before := h
      obtain ⟨hannounced, hknows⟩ := reports_knows scan.1 hscan scan.2
      have hnext : Knows (load (checkAndNotify iterate file scan.1 scan.2).file).tracker.notified
          (before ++ scan.2) := by
        rw [checkAndNotify_tracker]
        exact hknows
      obtain ⟨hrest, hafter⟩ := ih hnext
      rw [reportsOf, List.flatMap_cons, expected_append]
      exact ⟨congrArg₂ (· ++ ·) hannounced hrest, by rwa [List.append_assoc] at hafter⟩

/-- Through all scans, an update is announced on each transition and only there,
and the file lists the paths that were last known to have one. -/
theorem announced_iff_transition (run : Scans) :
    (announcements iterate .absent run).length = (reportsOf run).length ∧
    (∀ before stack after, reportsOf run = before ++ stack :: after →
      (announcements iterate .absent run)[before.length]? =
        some (if Announces before stack then some (updateNotification stack) else none)) ∧
    ∀ path, path ∈ (load (afterScans iterate .absent run)).notified ↔
      path ≠ "" ∧ lastStatus (reportsOf run) path = some .updateAvailable := by
  have hempty : Knows (load .absent).tracker.notified [] := fun path => by
    simp [load, State.tracker, lastStatus]
  obtain ⟨hannounced, hknows⟩ := announcements_knows iterate hempty run
  rw [List.nil_append] at hknows
  refine ⟨?_, fun before stack after hreports => ?_, fun path => ?_⟩
  · rw [hannounced, expected_length]
  · rw [hannounced, hreports, expected_at]
  · rw [← hknows path]
    exact List.mem_toFinset.symm

end Run

end Keepup.Notifier
