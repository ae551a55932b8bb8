import Keepup.Notifier.Transitions
import Mathlib.Algebra.Order.Ring.Rat
import Mathlib.Tactic.Linarith

/-!
The roll-up for containers whose checks keep failing. A path is in a run of
unknowns as long as every scan reports it so; it is announced at the scan at
which its run reaches the threshold, and not again in the same run.
-/

namespace Keepup.Notifier

open Lib

section Unknown

/-- A scan reports a path as unknown. -/
def reportsUnknown (path : String) (scan : ℚ × List Stack) : Bool :=
  path ≠ "" && scan.2.any fun stack => stack.updatePath = path && stack.updateStatus = .unknown

/-- The times of the scans that reported a path as unknown, back to the last one
that did not. -/
def unknownRun (run : Scans) (path : String) : List ℚ :=
  ((run.reverse.takeWhile (reportsUnknown path)).map Prod.fst).reverse

/-- Unknown at least as long as the threshold. -/
def LongUnknown (times : List ℚ) : Prop :=
  ∃ start last, times.head? = some start ∧ times.getLast? = some last ∧
    unknownStaleSeconds ≤ last - start

/-- It is with the last scan that a run has reached the threshold. -/
def ReachesThreshold (times : List ℚ) : Prop :=
  ∃ start last, times.head? = some start ∧ times.getLast? = some last ∧
    unknownStaleSeconds ≤ last - start ∧ ∀ time ∈ times.dropLast, time - start < unknownStaleSeconds

def NonDecreasing (run : Scans) : Prop := (run.map Prod.fst).Pairwise (· ≤ ·)

variable {path : String} {scan : ℚ × List Stack} {run : Scans}

theorem unknownRun_append_true (h : reportsUnknown path scan = true) (run : Scans) :
    unknownRun (run ++ [scan]) path = unknownRun run path ++ [scan.1] := by
  simp [unknownRun, List.takeWhile_cons_of_pos h]

theorem unknownRun_append_false (h : reportsUnknown path scan = false) (run : Scans) :
    unknownRun (run ++ [scan]) path = [] := by
  simp [unknownRun, h]

/-- A run goes on while the path is reported unknown. -/
theorem unknownRun_append_all {more : Scans} (h : ∀ s ∈ more, reportsUnknown path s = true)
    (run : Scans) : unknownRun (run ++ more) path = unknownRun run path ++ more.map Prod.fst := by
  induction more generalizing run with
  | nil => simp
  | cons scan more ih =>
      have hscan := unknownRun_append_true (h scan (by simp)) run
      rw [List.append_cons, ih fun s hs => h s (by simp [hs]), hscan, List.append_assoc,
        List.singleton_append, List.map_cons]

theorem unknownRun_sorted (h : NonDecreasing run) (path : String) :
    (unknownRun run path).Pairwise (· ≤ ·) := by
  have hsub : (unknownRun run path).Sublist (run.map Prod.fst) := by
    rw [unknownRun, ← List.map_reverse]
    apply List.Sublist.map
    rw [← List.reverse_sublist, List.reverse_reverse]
    exact List.takeWhile_sublist _
  exact List.Pairwise.sublist hsub h

theorem NonDecreasing.of_append {more : Scans} (h : NonDecreasing (run ++ more)) :
    NonDecreasing run := by
  rw [NonDecreasing, List.map_append] at h
  exact (List.pairwise_append.mp h).1

/-- Longer ago than the last time was no time of a run. -/
theorem reachesThreshold_append {times : List ℚ} {now : ℚ}
    (hsorted : (times ++ [now]).Pairwise (· ≤ ·)) :
    ReachesThreshold (times ++ [now]) ↔ LongUnknown (times ++ [now]) ∧ ¬ LongUnknown times := by
  have hearlier : (times ++ [now]).dropLast = times := List.dropLast_concat
  have hlast : (times ++ [now]).getLast? = some now := List.getLast?_concat
  cases times with
  | nil =>
      have hnew : ∀ start, ([] ++ [now]).head? = some start →
          ¬ unknownStaleSeconds ≤ now - start := by
        intro start hstart
        obtain rfl : now = start := Option.some.inj hstart
        simp [unknownStaleSeconds]
      refine iff_of_false ?_ ?_
      · rintro ⟨start, last, hstart, hnow, hlong, _⟩
        obtain rfl : now = last := Option.some.inj hnow
        exact hnew start hstart hlong
      · rintro ⟨⟨start, last, hstart, hnow, hlong⟩, _⟩
        obtain rfl : now = last := Option.some.inj hnow
        exact hnew start hstart hlong
  | cons start rest =>
      rw [ReachesThreshold, hearlier]
      constructor
      · rintro ⟨first, last, hfirst, hnow, hlong, hbefore⟩
        refine ⟨⟨first, last, hfirst, hnow, hlong⟩, ?_⟩
        rintro ⟨first', time, hfirst', htime, hold⟩
        obtain rfl : first = first' := Option.some.inj (hfirst.symm.trans hfirst')
        exact absurd hold (not_le.mpr (hbefore time (List.mem_of_getLast? htime)))
      · rintro ⟨⟨first, last, hfirst, hnow, hlong⟩, hfirstTime⟩
        refine ⟨first, last, hfirst, hnow, hlong, fun time htime => lt_of_not_ge fun hold => ?_⟩
        have hlater := (List.pairwise_append.mp hsorted).1.rel_getLast htime
        exact hfirstTime ⟨first, _, hfirst, List.getLast?_eq_some_getLast (by simp), by linarith⟩

end Unknown

section Loop

variable {now : ℚ} {path : String}

@[simp] theorem announce_seenUnknown (scan : Scan) (stack : Stack) :
    (scan.announce stack).1.seenUnknown = scan.seenUnknown := by
  rw [Scan.announce]
  split
  · split <;> rfl
  · split <;> rfl
  · split <;> rfl
  · rfl
  · rfl

@[simp] theorem announce_unknownSince (scan : Scan) (stack : Stack) :
    (scan.announce stack).1.unknownSince = scan.unknownSince := by
  rw [Scan.announce]
  split
  · split <;> rfl
  · split <;> rfl
  · split <;> rfl
  · rfl
  · rfl

theorem reportsUnknown_cons (path : String) (stack : Stack) (reported : List Stack) :
    reportsUnknown path (now, stack :: reported) = true ↔
      (stack.updateStatus = .unknown ∧ stack.updatePath ≠ "" ∧ stack.updatePath = path) ∨
        reportsUnknown path (now, reported) = true := by
  simp only [reportsUnknown, List.any_cons, Bool.and_eq_true, Bool.or_eq_true, decide_eq_true_eq]
  grind

theorem observe_spec (scan : Scan) (stack : Stack) (path : String) :
    (path ∈ (scan.observe now stack).seenUnknown ↔
      (stack.updateStatus = .unknown ∧ stack.updatePath ≠ "" ∧ stack.updatePath = path) ∨
        path ∈ scan.seenUnknown) ∧
    (scan.observe now stack).unknownSince.get? path =
      if stack.updateStatus = .unknown ∧ stack.updatePath ≠ "" ∧ stack.updatePath = path
      then some ((scan.unknownSince.get? path).getD now) else scan.unknownSince.get? path := by
  rw [Scan.observe]
  by_cases hunknown : stack.updateStatus = .unknown ∧ stack.updatePath ≠ ""
  · have hown : (stack.updateStatus = .unknown ∧ stack.updatePath ≠ "" ∧ stack.updatePath = path) ↔
        stack.updatePath = path := by
      simp [hunknown]
    rw [if_pos hunknown]
    simp only [hown]
    constructor
    · split <;> simp [eq_comm]
    · by_cases hpath : stack.updatePath = path
      · subst hpath
        cases hsince : scan.unknownSince.get? stack.updatePath with
        | none => simp [Dict.contains, hsince]
        | some since => simp [Dict.contains, hsince]
      · rw [if_neg hpath]
        split
        · rfl
        · exact Dict.get?_set_ne _ _ (Ne.symm hpath)
  · have hother : ¬ (stack.updateStatus = .unknown ∧ stack.updatePath ≠ "" ∧
        stack.updatePath = path) :=
      fun h => hunknown ⟨h.1, h.2.1⟩
    rw [if_neg hunknown, if_neg hother, or_iff_right hother]
    exact ⟨Iff.rfl, rfl⟩

theorem reports_seenUnknown (scan : Scan) (reported : List Stack) (path : String) :
    path ∈ (Scan.reports now scan reported).1.seenUnknown ↔
      reportsUnknown path (now, reported) = true ∨ path ∈ scan.seenUnknown := by
  induction reported generalizing scan with
  | nil => simp [Scan.reports, reportsUnknown]
  | cons stack reported ih =>
      rw [Scan.reports, ih, (observe_spec _ stack path).1, announce_seenUnknown,
        reportsUnknown_cons,
        or_left_comm, or_assoc]

theorem reports_unknownSince (scan : Scan) (reported : List Stack) (path : String) :
    (Scan.reports now scan reported).1.unknownSince.get? path =
      if reportsUnknown path (now, reported) = true
      then some ((scan.unknownSince.get? path).getD now) else scan.unknownSince.get? path := by
  induction reported generalizing scan with
  | nil => simp [Scan.reports, reportsUnknown]
  | cons stack reported ih =>
      rw [Scan.reports, ih, (observe_spec _ stack path).2, announce_unknownSince]
      simp only [reportsUnknown_cons]
      grind

/-- How long a path is unknown, after a scan. -/
theorem next_unknownSince (t : Tracker) (reported : List Stack) (path : String) :
    (t.next now reported).unknownSince.get? path =
      if reportsUnknown path (now, reported) = true
      then some ((t.unknownSince.get? path).getD now) else none := by
  simp only [Tracker.next, Tracker.scan, Scan.dropRecovered, Dict.get?_restrict, decide_eq_true_eq,
    reports_seenUnknown, Finset.notMem_empty, or_false, reports_unknownSince]
  grind

theorem mem_stale {scan : Scan} : path ∈ scan.stale now ↔
    ∃ since, scan.unknownSince.get? path = some since ∧ unknownStaleSeconds ≤ now - since := by
  simp [Scan.stale, Dict.mem_entries_iff]

theorem mem_next_unknownNotified {t : Tracker} {reported : List Stack} :
    path ∈ (t.next now reported).unknownNotified ↔
      ∃ since, (t.next now reported).unknownSince.get? path = some since ∧
        unknownStaleSeconds ≤ now - since := mem_stale

end Loop

section Run

/-- The tracker has for each path the start of its run, and whether that is long ago. -/
structure Tracks (t : Tracker) (run : Scans) : Prop where
  start : ∀ path, t.unknownSince.get? path = (unknownRun run path).head?
  long : ∀ path, path ∈ t.unknownNotified ↔ LongUnknown (unknownRun run path)

variable {t : Tracker} {run : Scans} {scan : ℚ × List Stack}

theorem Tracks.next (h : Tracks t run) (scan : ℚ × List Stack) :
    Tracks (t.next scan.1 scan.2) (run ++ [scan]) := by
  have hstart : ∀ path, (t.next scan.1 scan.2).unknownSince.get? path =
      (unknownRun (run ++ [scan]) path).head? := by
    intro path
    rw [next_unknownSince, h.start]
    cases hscan : reportsUnknown path (scan.1, scan.2) with
    | true =>
        rw [if_pos rfl, unknownRun_append_true hscan]
        cases unknownRun run path <;> rfl
    | false =>
        rw [if_neg Bool.noConfusion, unknownRun_append_false hscan]
        rfl
  refine ⟨hstart, fun path => ?_⟩
  rw [mem_next_unknownNotified, hstart]
  cases hscan : reportsUnknown path (scan.1, scan.2) with
  | true =>
      have hlast : (unknownRun (run ++ [scan]) path).getLast? = some scan.1 := by
        rw [unknownRun_append_true hscan, List.getLast?_concat]
      rw [LongUnknown, hlast]
      simp
  | false =>
      rw [unknownRun_append_false hscan]
      simp [LongUnknown]

/-- What a scan announces as stale are the paths that reach the threshold with it. -/
theorem Tracks.newlyStale_iff (h : Tracks t run) (hclock : NonDecreasing (run ++ [scan]))
    (path : String) :
    path ∈ t.newlyStale scan.1 scan.2 ↔ ReachesThreshold (unknownRun (run ++ [scan]) path) := by
  rw [Tracker.newlyStale, Finset.mem_sdiff, (h.next scan).long, h.long]
  have hsorted := unknownRun_sorted hclock path
  cases hscan : reportsUnknown path scan with
  | true =>
      rw [unknownRun_append_true hscan] at hsorted ⊢
      exact (reachesThreshold_append hsorted).symm
  | false =>
      rw [unknownRun_append_false hscan]
      simp [LongUnknown, ReachesThreshold]

variable (iterate : Finset String → List String)

theorem tracks_after (run : Scans) :
    Tracks (load (afterScans iterate .absent run)).tracker run := by
  induction run using List.reverseRecOn with
  | nil => exact ⟨fun path => rfl, fun path =>
      by simp [afterScans, load, State.tracker, unknownRun, LongUnknown]⟩
  | append_singleton run scan ih =>
      rw [afterScans, List.foldl_append, List.foldl_cons, List.foldl_nil, ← afterScans,
        checkAndNotify_tracker]
      exact ih.next scan

/-- A path is new among the stale ones once in a run. -/
theorem newlyStale_once {before between : Scans} {later : ℚ × List Stack} {path : String}
    (hfirst : ReachesThreshold (unknownRun (before ++ [scan]) path))
    (hagain : ReachesThreshold (unknownRun (before ++ scan :: between ++ [later]) path)) :
    ∃ s ∈ between ++ [later], reportsUnknown path s = false := by
  by_contra hnone
  have hall : ∀ s ∈ between ++ [later], reportsUnknown path s = true := fun s hs =>
    (Bool.eq_false_or_eq_true _).resolve_right fun hfalse => hnone ⟨s, hs, hfalse⟩
  obtain ⟨start, last, hstart, hlast, hlong, _⟩ := hfirst
  obtain ⟨start', _, hstart', _, _, hbefore⟩ := hagain
  have hrun : unknownRun (before ++ scan :: between ++ [later]) path =
      unknownRun (before ++ [scan]) path ++ between.map Prod.fst ++ [later.1] := by
    rw [List.append_assoc, List.cons_append, List.append_cons, unknownRun_append_all hall,
      List.map_append, List.append_assoc]
    rfl
  -- the run had been long already
  rw [hrun, List.append_assoc, List.head?_append_of_ne_nil _ (by grind), hstart] at hstart'
  obtain rfl : start = start' := Option.some.inj hstart'
  rw [hrun, List.dropLast_concat] at hbefore
  exact absurd hlong (not_le.mpr (hbefore last
    (List.mem_append_left _ (List.mem_of_getLast? hlast))))

/-- The roll-up is sent at the scans at which a run of unknowns reaches the
threshold; each run does so once. What is announced is among what is tracked, and
the file gives back what a scan has left in memory. -/
theorem rolled_up_iff (run : Scans) (hclock : NonDecreasing run) :
    ∀ before scan after, run = before ++ scan :: after →
      let outcome := checkAndNotify iterate (afterScans iterate .absent before) scan.1 scan.2
      (outcome.rollUp.isSome = true ↔
        ∃ path, ReachesThreshold (unknownRun (before ++ [scan]) path)) ∧
      (∀ between later rest, after = between ++ later :: rest → ∀ path,
        path ∈ (load (afterScans iterate .absent before)).tracker.newlyStale scan.1 scan.2 →
        path ∈ (load (afterScans iterate .absent (before ++ scan :: between))).tracker.newlyStale
          later.1 later.2 →
        ∃ s ∈ between ++ [later], reportsUnknown path s = false) ∧
      (∀ path ∈ outcome.memory.unknownNotified, path ∈ outcome.memory.unknownSince.keys) ∧
      (load outcome.file).tracker = outcome.memory.tracker ∧
      (load outcome.file).pending = outcome.memory.pending := by
  intro before scan after hrun
  dsimp only
  have htracks := tracks_after iterate before
  have hscan : NonDecreasing (before ++ [scan]) := by
    rw [hrun, List.append_cons] at hclock
    exact hclock.of_append
  refine ⟨?_, ?_, ?_, checkAndNotify_reload iterate _ scan.1 scan.2⟩
  · rw [checkAndNotify_rollUp]
    exact exists_congr fun path => htracks.newlyStale_iff hscan path
  · intro between later rest hafter path hfirst hagain
    have hlater : NonDecreasing (before ++ scan :: between ++ [later]) := by
      rw [hrun, hafter, ← List.cons_append, ← List.append_assoc, List.append_cons] at hclock
      exact hclock.of_append
    have hmore := (tracks_after iterate (before ++ scan :: between)).newlyStale_iff hlater path
    exact newlyStale_once ((htracks.newlyStale_iff hscan path).mp hfirst) (hmore.mp hagain)
  · intro path hpath
    have hmemory := checkAndNotify_memory iterate (afterScans iterate .absent before) scan.1 scan.2
    have hstale : path ∈ (checkAndNotify iterate (afterScans iterate .absent before) scan.1
        scan.2).memory.tracker.unknownNotified := List.mem_toFinset.mpr hpath
    rw [hmemory] at hstale
    obtain ⟨since, hsince, _⟩ := mem_next_unknownNotified.mp hstale
    have hkeys : (checkAndNotify iterate (afterScans iterate .absent before) scan.1
        scan.2).memory.unknownSince = ((load (afterScans iterate .absent before)).tracker.next
          scan.1 scan.2).unknownSince := rfl
    rw [hkeys]
    exact Dict.mem_keys_iff.mpr ⟨since, hsince⟩

/-- A container that is unknown at a scan, and at another one a day later. -/
def unknownStack : Stack := { updatePath := "a", updateStatus := .unknown }

def firstDay : Scans := [(0, [unknownStack])]

theorem firstDay_rolled_up :
    (checkAndNotify (fun s => s.sort) (afterScans (fun s => s.sort) .absent firstDay) 86400
      [unknownStack]).rollUp.isSome = true := by
  have hclock : NonDecreasing (firstDay ++ [(86400, [unknownStack])]) := by
    simp [NonDecreasing, firstDay]
  have h := rolled_up_iff (fun s => s.sort) _ hclock firstDay (86400, [unknownStack]) [] rfl
  have hrun : unknownRun (firstDay ++ [(86400, [unknownStack])]) "a" = [0, 86400] := by
    simp [unknownRun, firstDay, reportsUnknown, unknownStack]
  refine h.1.mpr ⟨"a", 0, 86400, ?_⟩
  rw [hrun]
  simp [unknownStaleSeconds]

end Run

end Keepup.Notifier
