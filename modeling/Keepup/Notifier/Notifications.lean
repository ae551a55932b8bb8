import Keepup.Lib.Locked

/-!
The notifications behind the bell. Whoever has something to say adds an entry under a lock, and the
newest are kept; the page reads them without the lock. The abstract side is the history of the
calls.
-/

namespace Keepup.Notifications

open Lib

section Source

structure Entry where
  id : String
  title : String
  message : String
  level : String := "error"
  createdAt : String
  read : Bool := false
  url : Option String := none
deriving DecidableEq

def maxEntries : Nat := 50

/-- A call that changes the store, with what it draws and reads off the clock. -/
inductive Call where
  | notify (id now title message level url : String)
  | markAllRead
deriving DecidableEq

def newEntry (id now title message level url : String) : Entry where
  id := id
  title := title
  message := message
  level := level
  createdAt := now
  url := if url = "" then none else some url

def Entry.seen (entry : Entry) : Entry := { entry with read := true }

def Call.apply (entries : List Entry) : Call → List Entry
  | .notify id now title message level url =>
      (newEntry id now title message level url :: entries).take maxEntries
  | .markAllRead => entries.map Entry.seen

def changes {ι : Type} (calls : ι → Call) : Changes ι (List Entry) where
  apply i entries := (calls i).apply entries
  empty := []

def getUnreadCount (entries : List Entry) : Nat := entries.countP fun entry => !entry.read

def getNotifications (entries : List Entry) (limit : Nat) : List Entry := entries.take limit

/-- The label of the badge. -/
def badge (entries : List Entry) : Option String :=
  let count := getUnreadCount entries
  if count = 0 then none else some (if count < 10 then toString count else "9+")

end Source

section History

/-- The entries that calls have made, the latest call first. They are read from the first call on
that marks them so. -/
def history : Bool → List Call → List Entry
  | _, [] => []
  | marked, .notify id now title message level url :: calls =>
      { newEntry id now title message level url with read := marked } :: history marked calls
  | _, .markAllRead :: calls => history true calls

/-- The notifications since the last time that they were marked as read. -/
def unreadSince : List Call → Nat
  | [] | .markAllRead :: _ => 0
  | .notify _ _ _ _ _ _ :: calls => unreadSince calls + 1

theorem history_seen (marked : Bool) (calls : List Call) :
    (history marked calls).map Entry.seen = history true calls := by
  induction calls generalizing marked with
  | nil => rfl
  | cons call calls ih =>
      cases call with
      | notify => exact congrArg (_ :: ·) (ih marked)
      | markAllRead => exact ih true

theorem badge_eq_none (entries : List Entry) :
    badge entries = none ↔ getUnreadCount entries = 0 := by
  rw [badge]
  split <;> simp_all

theorem countP_history_true (calls : List Call) :
    (history true calls).countP (fun entry => !entry.read) = 0 := by
  induction calls with
  | nil => rfl
  | cons call calls ih =>
      cases call with
      | notify => simpa [history] using ih
      | markAllRead => exact ih

/-- The unread entries are the newest. -/
theorem countP_take_history (n : Nat) (calls : List Call) :
    ((history false calls).take n).countP (fun entry => !entry.read) =
      min n (unreadSince calls) := by
  induction calls generalizing n with
  | nil => simp [history, unreadSince]
  | cons call calls ih =>
      cases call with
      | notify =>
          cases n with
          | zero => simp
          | succ n =>
              rw [history, List.take_succ_cons, List.countP_cons, ih, unreadSince]
              simp only [Bool.not_false, if_true]
              omega
      | markAllRead =>
          rw [history, unreadSince, Nat.min_zero]
          have hnone := List.countP_eq_zero.mp (countP_history_true calls)
          exact List.countP_eq_zero.mpr fun entry hentry =>
            hnone entry (List.mem_of_mem_take hentry)

/-- What is cut off by one call is not missed by the later ones. -/
theorem foldr_apply (calls : List Call) :
    calls.foldr (fun call entries => call.apply entries) [] =
      (history false calls).take maxEntries := by
  induction calls with
  | nil => rfl
  | cons call calls ih =>
      rw [List.foldr_cons, ih]
      cases call with
      | notify id now title message level url =>
          rw [Call.apply, history, maxEntries, List.take_succ_cons,
            List.take_succ_cons, List.take_take]
          rfl
      | markAllRead => rw [Call.apply, history, ← history_seen false calls, List.map_take]

end History

section Interleavings

variable {ι : Type} [DecidableEq ι] {calls : ι → Call} {s s' : Locked ι (List Entry)}

theorem step_base (hstep : Locked.Step (changes calls) s s') (h : s.base = []) : s'.base = [] := by
  cases hstep with
  | tear => rfl
  | _ => exact h

theorem run_base (hrun : Locked.Run (changes calls) s s') (h : s.base = []) : s'.base = [] := by
  induction hrun with
  | refl => exact h
  | tail _ hstep ih => exact step_base hstep ih

omit [DecidableEq ι] in
theorem replay_eq (h : s.base = []) :
    s.replay (changes calls) = (history false (s.log.map calls)).take maxEntries := by
  rw [Locked.replay, h, ← foldr_apply, List.foldr_map]
  rfl

/-- However the calls interleave, and whatever becomes of their writes, the page shows the newest
fifty notifications of the calls in the file, read as far as they have been marked since, or nothing
while one is writing. A call that came to its end is in the file once, unless a later write was cut
short. -/
theorem shows_history (calls : ι → Call)
    (hrun : Locked.Run (changes calls) (Locked.start (changes calls) .unreadable) s) :
    (s.Quiet → ∀ limit,
      getNotifications (Locked.read (changes calls) s.file) limit =
        ((history false (s.log.map calls)).take maxEntries).take limit ∧
      getUnreadCount (Locked.read (changes calls) s.file) =
        min maxEntries (unreadSince (s.log.map calls)) ∧
      (badge (Locked.read (changes calls) s.file) = none ↔ unreadSince (s.log.map calls) = 0)) ∧
    (¬ s.Quiet → ∀ limit, getNotifications (Locked.read (changes calls) s.file) limit = [] ∧
      getUnreadCount (Locked.read (changes calls) s.file) = 0) ∧
    (s.log ++ s.lost).Nodup ∧ ∀ i, s.ended i = some true ↔ i ∈ s.log ∨ i ∈ s.lost := by
  have hsound := Locked.run_sound hrun (Locked.sound_start (changes calls) .unreadable)
  have hbase : s.base = [] := run_base hrun rfl
  obtain ⟨hquiet, hbusy⟩ := Locked.seen hsound
  refine ⟨fun h limit => ?_, fun h limit => ?_, hsound.once, fun i => ?_⟩
  · rw [hquiet h, replay_eq hbase]
    have hcount := countP_take_history maxEntries (s.log.map calls)
    refine ⟨rfl, hcount, ?_⟩
    rw [badge_eq_none, getUnreadCount, hcount, maxEntries]
    omega
  · rw [hbusy h]
    exact ⟨List.take_nil, rfl⟩
  · rw [← hsound.counted, List.mem_append]

/-- Five notifications and one reading of the page. -/
def sixCalls : Fin 6 → Call
  | 0 => .notify "5c1f0a9e" "2024-05-01T03:00:00+00:00" "Updated to v1.4.0" "" "info" ""
  | 1 => .notify "77d1e2f3" "2024-05-01T04:00:00+00:00" "Auto OS update failed: nas"
      "Timed out" "error" ""
  | 2 =>
      .notify "a04c9b18" "2024-05-02T03:00:00+00:00" "OS updates available: nas" "" "info" "/home"
  | 3 => .markAllRead
  | 4 => .notify "e2b6d5c4" "2024-05-02T09:00:00+00:00" "Image update available: web" "" "info" ""
  | 5 => .notify "18f90a7b" "2024-05-03T03:00:00+00:00" "Reboot required: nas" "" "info" "/home"

/-- The first call writes, and the second has its write cut short. The third and the fourth write,
the fifth cannot open the file, and the last one is read from while it writes and after that. -/
theorem sixCalls_shown :
    ∃ s t, Locked.Run (changes sixCalls) (Locked.start (changes sixCalls) .unreadable) s ∧
    Locked.Run (changes sixCalls) s t ∧
    getNotifications (Locked.read (changes sixCalls) s.file) 20 = [] ∧
    t.log = [5, 3, 2] ∧ t.lost = [0] ∧ getUnreadCount (Locked.read (changes sixCalls) t.file) = 1 ∧
    getNotifications (Locked.read (changes sixCalls) t.file) 20 =
      [newEntry "18f90a7b" "2024-05-03T03:00:00+00:00" "Reboot required: nas" "" "info" "/home",
        (newEntry "a04c9b18" "2024-05-02T03:00:00+00:00" "OS updates available: nas" "" "info"
          "/home").seen] := by
  have hstart : Locked.Run (changes sixCalls) (Locked.start (changes sixCalls) .unreadable)
      (Locked.start (changes sixCalls) .unreadable) := .refl
  have hfirst := hstart.trans (Locked.run_write 0 rfl rfl)
  have hsecond := hfirst.trans (Locked.run_tear 1 rfl rfl)
  have hthird := hsecond.trans (Locked.run_write 2 rfl rfl)
  have hfourth := hthird.trans (Locked.run_write 3 rfl rfl)
  have hfifth := hfourth.trans (Locked.run_refuse 4 rfl rfl)
  have hwriting := hfifth.trans (Locked.run_truncate 5 rfl rfl)
  have hwritten := hwriting.tail (.write rfl)
  obtain ⟨_, hnothing, _⟩ := shows_history sixCalls hwriting
  obtain ⟨hshown, _⟩ := shows_history sixCalls hwritten
  have hbusy := hnothing (fun hquiet => hquiet 5 _ rfl) 20
  have hdone := hshown (fun _ _ h => by cases h) 20
  exact ⟨_, _, hwriting, .single (.write rfl), hbusy.1, rfl, rfl, hdone.2.1, hdone.1⟩

end Interleavings

end Keepup.Notifications
