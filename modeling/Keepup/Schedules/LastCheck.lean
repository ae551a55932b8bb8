import Keepup.Schedules.Scheduler
import Mathlib.Algebra.Order.Archimedean.Basic
import Mathlib.Tactic.Linarith
import Mathlib.Tactic.NormNum

/-!
When something was last checked, as a file of its own has it, and the time of the first check
after a start, which resumes the schedule from there. The timer itself does not outlive a restart.
The main theorem says when restarts do not put the first check off.
-/

namespace Keepup.LastCheck

open Lib Schedules

section Store

/-- A value of the file at a place for a time. -/
inductive Raw where
  | text (text : String)
  | other
deriving DecidableEq

structure State where
  hosts : Dict String Raw := ∅
  containers : Raw := .other
deriving DecidableEq

/-- The file: a dictionary, whose `hosts` may be none, or less than that. -/
inductive Stored where
  | absent
  | unreadable
  | other
  | dict (hosts : Option (Dict String Raw)) (containers : Raw)
deriving DecidableEq

def Stored.load : Stored → State
  | .absent | .unreadable | .other => {}
  | .dict hosts containers => ⟨hosts.getD ∅, containers⟩

def State.save (state : State) : Stored := .dict (some state.hosts) state.containers

/-- What becomes of a write. It can end with less than the text in the file. -/
inductive Write where
  | done
  | refused
  | torn
deriving DecidableEq

/-- A change of the file. That it could not be written is logged, and nothing is raised. -/
def Stored.record (file : Stored) (mutate : State → State) : Write → Stored
  | .done => (mutate file.load).save
  | .refused => file
  | .torn => .unreadable

/-- A date as it is read: what the clock shows, and how far the clock is ahead if
the text says so. -/
structure Datetime where
  clock : ℚ
  offset : Option ℚ := none

def Datetime.utc (date : Datetime) : ℚ := date.clock - date.offset.getD 0

/-- What the code takes from the library for dates. -/
structure Dates where
  fromisoformat : String → Option Datetime
  isoformat : ℚ → String

variable (dates : Dates)

def Dates.parse : Raw → Option ℚ
  | .text text => (dates.fromisoformat text).map Datetime.utc
  | .other => none

def recordHostCheck (file : Stored) (slug : String) (now : ℚ) (write : Write) : Stored :=
  file.record (fun state =>
    { state with hosts := state.hosts.set slug (.text (dates.isoformat now)) }) write

def recordContainerCheck (file : Stored) (now : ℚ) (write : Write) : Stored :=
  file.record (fun state => { state with containers := .text (dates.isoformat now) }) write

/-- The most recent check of anything. -/
def lastScan (file : Stored) : Option ℚ :=
  let state := file.load
  (state.hosts.values.filterMap dates.parse ++ (dates.parse state.containers).toList).max?

/-- Some time of the file can be read. -/
def Recorded (file : Stored) : Prop :=
  ∃ raw ∈ file.load.hosts.values ++ [file.load.containers], (dates.parse raw).isSome = true

end Store

section Resume

variable (dates : Dates) (file : Stored)

def resumeFloor : ℚ := 60

def firstCheckTime (hours : Int) (now : ℚ) : ℚ :=
  match lastScan dates file with
  | none => now + hours * 3600
  | some last => max (last + hours * 3600) (now + resumeFloor)

/-- The start date of the job, if there is to be one. -/
def startDate (config : ConfigFile) (now : ℚ) : Option ℚ :=
  (updateCheckJob config).map fun _ => firstCheckTime dates file config.updateCheckHours now

/-- No restart puts the first check off, but for the floor after a start. -/
def Resumes (hours : Int) (restarts : List ℚ) : Prop :=
  restarts.Pairwise fun earlier later =>
    firstCheckTime dates file hours later ≤
      max (firstCheckTime dates file hours earlier) (later + 60)

/-- Some process is still up at the time of its first check. -/
def Checks (config : ConfigFile) (restart : ℕ → ℚ) : Prop :=
  ∃ n, ∃ first ∈ startDate dates file config (restart n), first ≤ restart (n + 1)

end Resume

section Law

variable {dates : Dates} {file : Stored} {hours : Int}

theorem lastScan_isSome : (lastScan dates file).isSome = true ↔ Recorded dates file := by
  have hnone : lastScan dates file = none ↔
      ∀ raw ∈ file.load.hosts.values ++ [file.load.containers], dates.parse raw = none := by
    rw [lastScan, List.max?_eq_none_iff, List.append_eq_nil_iff, List.filterMap_eq_nil_iff,
      Option.toList_eq_nil_iff, List.forall_mem_append, List.forall_mem_singleton]
  rw [Option.isSome_iff_ne_none, ne_eq, hnone, Recorded]
  simp only [not_forall, exists_prop, Option.isSome_iff_ne_none, ne_eq]

theorem firstCheckTime_recorded {last : ℚ} (h : lastScan dates file = some last) (now : ℚ) :
    firstCheckTime dates file hours now = max (last + hours * 3600) (now + 60) := by
  rw [firstCheckTime, h, resumeFloor]

theorem firstCheckTime_unrecorded (h : ¬ Recorded dates file) (now : ℚ) :
    firstCheckTime dates file hours now = now + hours * 3600 := by
  rw [← lastScan_isSome, Option.not_isSome_iff_eq_none] at h
  rw [firstCheckTime, h]

/-- For two restarts the law holds if and only if there is a check to resume from. -/
theorem later_restart_iff {earlier later : ℚ} (h : earlier < later) :
    firstCheckTime dates file hours later ≤
        max (firstCheckTime dates file hours earlier) (later + 60) ↔
      Recorded dates file ∨ hours ≤ 0 := by
  by_cases hrecorded : Recorded dates file
  · refine iff_of_true ?_ (.inl hrecorded)
    obtain ⟨last, hlast⟩ := Option.isSome_iff_exists.mp (lastScan_isSome.mpr hrecorded)
    rw [firstCheckTime_recorded hlast, firstCheckTime_recorded hlast]
    exact max_le_max_right _ (le_max_left _ _)
  · rw [firstCheckTime_unrecorded hrecorded, firstCheckTime_unrecorded hrecorded, le_max_iff,
      or_iff_right hrecorded]
    constructor
    · rintro (hle | hle)
      · linarith
      · by_contra hpos
        have hone : (1 : ℚ) ≤ hours := by exact_mod_cast not_le.mp hpos
        linarith
    · intro hle
      have hneg : (hours : ℚ) ≤ 0 := by exact_mod_cast hle
      right
      linarith

/-- Restarts at increasing times do not put the check off if and only if there is one of them, or
a check to resume from, or no interval. -/
theorem resumes_iff {restarts : List ℚ} (h : restarts.Pairwise (· < ·)) :
    Resumes dates file hours restarts ↔
      restarts.length ≤ 1 ∨ Recorded dates file ∨ hours ≤ 0 := by
  constructor
  · intro hlaw
    match restarts, h, hlaw with
    | [], _, _ => exact .inl (Nat.zero_le 1)
    | [_], _, _ => exact .inl (Nat.le_refl 1)
    | earlier :: later :: _, h, hlaw =>
        have hless := List.rel_of_pairwise_cons h List.mem_cons_self
        exact .inr ((later_restart_iff hless).mp
          (List.rel_of_pairwise_cons hlaw List.mem_cons_self))
  · rintro (hfew | hcond)
    · match restarts, hfew with
      | [], _ => exact List.Pairwise.nil
      | [restart], _ => exact List.pairwise_singleton _ restart
    · exact h.imp fun hless => (later_restart_iff hless).mpr hcond

/-- Five hours before the first of the restarts. -/
def checked : Stored :=
  .dict (some (Dict.ofPairs [("web", .text "2026-01-01T00:00:00+00:00")])) .other

def plainDates : Dates where
  fromisoformat text := if text = "2026-01-01T00:00:00+00:00" then some ⟨0, some 0⟩ else none
  isoformat _ := "2026-01-01T00:00:00+00:00"

theorem checked_resumes : Resumes plainDates checked 6 [18000, 21000, 90000] :=
  (resumes_iff (by norm_num)).mpr
    (.inr (.inl ⟨.text "2026-01-01T00:00:00+00:00", by decide, by decide⟩))

/-- Without a check to resume from, a restart an hour after another puts the first check off by an
hour. -/
theorem unchecked_put_off : ¬ Resumes plainDates .absent 6 [0, 3600] := by
  intro hlaw
  have hnone : lastScan plainDates .absent = none := rfl
  have hle := List.rel_of_pairwise_cons hlaw List.mem_cons_self
  simp only [firstCheckTime, hnone] at hle
  norm_num at hle

end Law

section Starvation

variable {dates : Dates} {file : Stored} {config : ConfigFile}

theorem le_restart {restart : ℕ → ℚ} (h : ∀ n, restart n + 60 ≤ restart (n + 1)) (n : ℕ) :
    restart 0 + n * 60 ≤ restart n := by
  induction n with
  | zero => simp
  | succ n ih =>
      have hnext := h n
      push_cast
      linarith

/-- However often the application restarts, provided that it is up for a minute each time, it gets
to a check if and only if the job is on and there is a check to resume from. -/
theorem checks_iff : (∀ restart : ℕ → ℚ, (∀ n, restart n + 60 ≤ restart (n + 1)) →
      Checks dates file config restart) ↔
    config.updateCheckHours ≠ 0 ∧ Recorded dates file := by
  constructor
  · intro hall
    -- restarts a minute apart, with which every other schedule is never reached
    obtain ⟨n, first, hfirst, hreached⟩ := hall (fun n => n * 60) fun n => by push_cast; linarith
    obtain ⟨job, hjob, rfl⟩ := Option.map_eq_some_iff.mp hfirst
    have hon : config.updateCheckHours ≠ 0 := by
      intro hoff
      rw [updateCheckJob, if_pos hoff] at hjob
      cases hjob
    refine ⟨hon, by_contra fun hnone => ?_⟩
    have hone : (1 : ℚ) ≤ config.updateCheckHours := by
      exact_mod_cast Nat.one_le_iff_ne_zero.mpr hon
    rw [firstCheckTime_unrecorded hnone] at hreached
    push_cast at hreached
    linarith
  · rintro ⟨hon, hrecorded⟩ restart hrestart
    obtain ⟨last, hlast⟩ := Option.isSome_iff_exists.mp (lastScan_isSome.mpr hrecorded)
    obtain ⟨n, hn⟩ := exists_nat_ge (last + config.updateCheckHours * 3600 - restart 0)
    refine ⟨n, _, Option.map_eq_some_iff.mpr ⟨_, if_neg hon, rfl⟩, ?_⟩
    rw [firstCheckTime_recorded hlast]
    refine max_le ?_ (hrestart n)
    have hlate := le_restart hrestart (n + 1)
    push_cast at hlate ⊢
    have hn0 : (0 : ℚ) ≤ n := Nat.cast_nonneg n
    linarith

end Starvation

end Keepup.LastCheck
