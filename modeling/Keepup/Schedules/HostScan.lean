import Keepup.Lib.Gate
import Keepup.Notifier.Interference
import Keepup.Packages.Managers
import Keepup.Config
import Mathlib.Algebra.Order.Floor.Ring
import Mathlib.Tactic.FinCases

/-!
The scheduled scan of the hosts. The checks run side by side, a few at a time and each within a
budget, and the scan goes on when all of them are through. What came back is then told, host by
host, where it is news.
-/

namespace Keepup.HostScan

open Lib Notifier Packages

section Scan

/-- What the check of a host finds. -/
structure ScanResult where
  packages : List Package := []
  rebootRequired : Bool := false
  isProxmoxNode : Bool := false
  packageManager : String := ""
  proxmoxNode : Option String := none
  proxmoxUrl : String := ""

abbrev Checked := Except String ScanResult

def maxConcurrentHostChecks : Nat := 4

def hostScanTimeout : ℚ := 300

/-- What is outside of a scan: what the credentials and the check of a host can come to, and how
long a check that is cancelled can take to stop. -/
structure Surroundings where
  comesTo : HostEntry → Checked → Prop
  stopping : ℚ := 0
  stopping_nonneg : 0 ≤ stopping := by norm_num

/-- What `one` gives for a host. -/
def oneGives (found : Surroundings) (host : HostEntry) (since now : ℚ) (checked : Checked) : Prop :=
  found.comesTo host checked ∨ checked = .error "TimeoutError" ∧ since + hostScanTimeout ≤ now

/-- The gathered checks: a semaphore with a place for each of those that run. -/
def scanRules (found : Surroundings) (hosts : List HostEntry) :
    Gate.Rules (Fin hosts.length) Checked where
  limit := maxConcurrentHostChecks
  budget := hostScanTimeout + found.stopping
  gives i := oneGives found (hosts.get i)

/-- The hosts, each beside its result. -/
def scanHosts (hosts : List HostEntry) (results : Fin hosts.length → Checked) :
    List (HostEntry × Checked) :=
  List.ofFn fun i => (hosts.get i, results i)

/-- All the checks are through, with these results. -/
def Gathered {hosts : List HostEntry} (s : Gate (Fin hosts.length) Checked)
    (results : Fin hosts.length → Checked) : Prop :=
  ∀ i, (s.phase i).result? = some (results i)

end Scan

section Checks

variable {found : Surroundings} {hosts : List HostEntry}

theorem budget_nonneg (found : Surroundings) (hosts : List HostEntry) :
    0 ≤ (scanRules found hosts).budget := by
  have hstop := found.stopping_nonneg
  simp only [scanRules, hostScanTimeout]
  linarith

theorem endsInTime (found : Surroundings) (hosts : List HostEntry) :
    (scanRules found hosts).EndsInTime := by
  intro i since
  refine ⟨.error "TimeoutError", .inr ⟨rfl, ?_⟩⟩
  have hstop := found.stopping_nonneg
  simp only [scanRules]
  linarith

theorem gathered_of_finished {s : Gate (Fin hosts.length) Checked} (h : s.Finished) :
    ∃ results, Gathered s results := by
  choose since results hphase using h
  exact ⟨results, fun i => by rw [hphase i]; rfl⟩

theorem through_of_gathered {s : Gate (Fin hosts.length) Checked}
    {results : Fin hosts.length → Checked} (h : Gathered s results) (i : Fin hosts.length) :
    ∃ since, s.phase i = .through since (results i) := by
  have hi := h i
  cases hphase : s.phase i with
  | waiting => simp [hphase, Phase.result?] at hi
  | inside since => simp [hphase, Phase.result?] at hi
  | through since result =>
      rw [hphase, Phase.result?, Option.some.injEq] at hi
      exact ⟨since, by rw [hi]⟩

/-- However the checks of a scan interleave, no more than four run at once, the scan can always come
to its end, and then it has every host of the list once and in its place, beside a result that its
own check gave within the budget. -/
theorem scan_isolated (found : Surroundings) (hosts : List HostEntry)
    {s : Gate (Fin hosts.length) Checked} (hrun : Gate.Run (scanRules found hosts) Gate.start s) :
    s.within.card ≤ maxConcurrentHostChecks ∧
    (∃ t results, Gate.Run (scanRules found hosts) s t ∧ Gathered t results) ∧
    ∀ results, Gathered s results → (scanHosts hosts results).map Prod.fst = hosts ∧
      (∀ entry ∈ scanHosts hosts results, found.comesTo entry.1 entry.2 ∨
        entry.2 = .error "TimeoutError") ∧
      ∀ t results', Gate.Run (scanRules found hosts) s t → Gathered t results' →
        results' = results := by
  have hfits := Gate.run_fits (budget_nonneg found hosts) hrun Gate.fits_start
  refine ⟨hfits.limited, ?_, fun results hgathered => ⟨?_, ?_, ?_⟩⟩
  · obtain ⟨t, hmore, hfinished⟩ := Gate.exists_finish (Nat.succ_pos 3) (budget_nonneg found hosts)
      (endsInTime found hosts) hfits
    obtain ⟨results, hgathered⟩ := gathered_of_finished hfinished
    exact ⟨t, results, hmore, hgathered⟩
  · rw [scanHosts, List.map_ofFn]
    exact List.ofFn_get hosts
  · intro entry hentry
    rw [scanHosts, List.mem_ofFn] at hentry
    obtain ⟨i, rfl⟩ := hentry
    obtain ⟨since, hphase⟩ := through_of_gathered hgathered i
    obtain ⟨now, _, _, _, hgives⟩ := hfits.given i since _ hphase
    exact hgives.imp_right And.left
  · intro t results' hmore hlater
    funext i
    obtain ⟨since, hphase⟩ := through_of_gathered hgathered i
    have hkept := hlater i
    rw [Gate.run_through hmore hphase] at hkept
    exact (Option.some.inj hkept).symm

/-- Five hosts, one more than there are places. -/
def fiveHosts : List HostEntry :=
  ["nas", "web", "db", "media", "backup"].map fun name => { name, host := name ++ ".lan" }

/-- Two of them do not answer, and one refuses the connection. -/
def halfAnswering : Surroundings where
  comesTo host checked :=
    if host.name = "web" ∨ host.name = "backup" then False
    else if host.name = "db" then checked = .error "ConnectionRefusedError"
    else ∃ result, checked = .ok result

abbrev FiveGate := Gate (Fin 5) Checked

/-- Four hosts are checked, and the fifth waits for a place. -/
def fourInside : FiveGate :=
  (((Gate.start.moved 0 (.inside 0)).moved 1 (.inside 0)).moved 2 (.inside 0)).moved 3 (.inside 0)

/-- The first answers after ten seconds, and the fifth has its place. -/
def fifthInside : FiveGate :=
  ((fourInside.passed 10).moved 0 (.through 0 (.ok {}))).moved 4 (.inside 10)

/-- At the end of its budget the second is cancelled, and two others are through. -/
def secondCancelled : FiveGate :=
  (((fifthInside.passed 290).moved 1 (.through 0 (.error "TimeoutError"))).moved 2
    (.through 0 (.error "ConnectionRefusedError"))).moved 3
      (.through 0 (.ok { rebootRequired := true }))

/-- The fifth is cancelled at the end of its own, and some time passes. -/
def fiveScanned : FiveGate :=
  ((secondCancelled.passed 10).moved 4 (.through 10 (.error "TimeoutError"))).passed 291

abbrev FiveRun (s : FiveGate) : Prop := Gate.Run (scanRules halfAnswering fiveHosts) Gate.start s

theorem FiveRun.enter {s : FiveGate} (hrun : FiveRun s) (i : Fin 5) {now : ℚ}
    (hclock : s.clock = now) (hphase : s.phase i = .waiting) (hroom : s.within.card < 4) :
    FiveRun (s.moved i (.inside now)) :=
  hclock ▸ hrun.tail (.enter hphase hroom)

theorem FiveRun.leave {s : FiveGate} (hrun : FiveRun s) (i : Fin 5) (checked : Checked) {since : ℚ}
    (hphase : s.phase i = .inside since)
    (hgives : oneGives halfAnswering (fiveHosts.get i) since s.clock checked) :
    FiveRun (s.moved i (.through since checked)) :=
  hrun.tail (.leave hphase hgives)

theorem FiveRun.pass {s : FiveGate} (hrun : FiveRun s) {time : ℚ} (htime : 0 ≤ time)
    (hurgent : 4 ≤ s.within.card ∨ ∀ i, s.phase i ≠ .waiting)
    (hbudget : ∀ i since, s.phase i = .inside since → s.clock + time ≤ since + 300) :
    FiveRun (s.passed time) := by
  refine hrun.tail (.pass htime hurgent fun i since hi => ?_)
  have hwithin := hbudget i since hi
  rwa [scanRules, hostScanTimeout, halfAnswering, add_zero]

theorem run_fourInside : FiveRun fourInside := by
  have hstart : FiveRun Gate.start := .refl
  exact (((hstart.enter 0 rfl rfl (by decide)).enter 1 rfl rfl (by decide)).enter 2 rfl rfl
    (by decide)).enter 3 rfl rfl (by decide)

theorem run_fifthInside : FiveRun fifthInside := by
  have hwaited : FiveRun (fourInside.passed 10) := by
    refine run_fourInside.pass (by norm_num) (.inl (by decide)) fun i since hi => ?_
    fin_cases i <;> cases hi <;> norm_num [fourInside, Gate.start]
  have hleft := hwaited.leave 0 (.ok {}) rfl (.inl (by simp [fiveHosts, halfAnswering]))
  exact hleft.enter 4 (by norm_num [fourInside, Gate.start]) rfl (by decide)

theorem run_secondCancelled : FiveRun secondCancelled := by
  have hwaited : FiveRun (fifthInside.passed 290) := by
    refine run_fifthInside.pass (by norm_num) (.inl (by decide)) fun i since hi => ?_
    fin_cases i <;> cases hi <;> norm_num [fifthInside, fourInside, Gate.start]
  have hlate : (0 : ℚ) + hostScanTimeout ≤ (fifthInside.passed 290).clock := by
    norm_num [fifthInside, fourInside, Gate.start, hostScanTimeout]
  have hcancelled := hwaited.leave 1 (.error "TimeoutError") rfl (.inr ⟨rfl, hlate⟩)
  have hrefused := hcancelled.leave 2
    (.error "ConnectionRefusedError") rfl (.inl (by simp [fiveHosts, halfAnswering]))
  exact hrefused.leave 3 (.ok { rebootRequired := true }) rfl
    (.inl (by simp [fiveHosts, halfAnswering]))

theorem run_fiveScanned : FiveRun fiveScanned := by
  have hwaited : FiveRun (secondCancelled.passed 10) := by
    refine run_secondCancelled.pass (by norm_num) (.inr fun i hi => ?_) fun i since hi => ?_
    · fin_cases i <;> cases hi
    · fin_cases i <;> cases hi
      norm_num [secondCancelled, fifthInside, fourInside, Gate.start]
  have hlate : (10 : ℚ) + hostScanTimeout ≤ (secondCancelled.passed 10).clock := by
    norm_num [secondCancelled, fifthInside, fourInside, Gate.start, hostScanTimeout]
  have hcancelled := hwaited.leave 4 (.error "TimeoutError") rfl (.inr ⟨rfl, hlate⟩)
  refine hcancelled.pass (by norm_num) (.inr fun i hi => ?_) fun i since hi => ?_
  · fin_cases i <;> cases hi
  · fin_cases i <;> cases hi

def fiveResults (i : Fin 5) : Checked :=
  match i with
  | 0 => .ok {}
  | 2 => .error "ConnectionRefusedError"
  | 3 => .ok { rebootRequired := true }
  | 1 | 4 => .error "TimeoutError"

/-- While the fifth host has to wait, and when two of the checks have been cancelled. -/
theorem five_isolated :
    fourInside.phase 4 = .waiting ∧ fourInside.within.card ≤ 4 ∧
      (∃ t results, Gate.Run (scanRules halfAnswering fiveHosts) fourInside t ∧
        Gathered t results) ∧
      (scanHosts fiveHosts fiveResults).map Prod.fst = fiveHosts ∧
      ∀ t results, Gate.Run (scanRules halfAnswering fiveHosts) fiveScanned t → Gathered t results →
        results = fiveResults := by
  obtain ⟨hfour, hends, _⟩ := scan_isolated halfAnswering fiveHosts run_fourInside
  have hgathered : @Gathered fiveHosts fiveScanned fiveResults := fun i => by fin_cases i <;> rfl
  obtain ⟨hplaces, _, hkept⟩ :=
    (scan_isolated halfAnswering fiveHosts run_fiveScanned).2.2 _ hgathered
  exact ⟨rfl, hfour, hends, hplaces, hkept⟩

/-- A scan takes a budget for every four hosts at most, whatever the hosts do. -/
theorem scan_in_time (found : Surroundings) (hosts : List HostEntry)
    {s : Gate (Fin hosts.length) Checked} (hrun : Gate.Run (scanRules found hosts) Gate.start s)
    (hlate : ((hosts.length + 3) / 4 : ℕ) * (hostScanTimeout + found.stopping) < s.clock) :
    ∃ results, Gathered s results := by
  have hbudget := budget_nonneg found hosts
  refine gathered_of_finished
    (Gate.finished_of_late hbudget (Gate.run_fits hbudget hrun Gate.fits_start)
    (Gate.run_paced hbudget hrun Gate.fits_start (Gate.paced_start hbudget)) ?_ hlate)
  rw [Fintype.card_fin]
  change hosts.length ≤ 4 * ((hosts.length + 3) / 4)
  omega

theorem five_in_time : ∃ results, @Gathered fiveHosts fiveScanned results :=
  scan_in_time halfAnswering fiveHosts run_fiveScanned (by
    norm_num [fiveHosts, fiveScanned, secondCancelled, fifthInside,
      fourInside, Gate.start, hostScanTimeout,
      halfAnswering])

end Checks

section Notices

/-- What the check says of the host. Phased packages install themselves, so they do not count. -/
def ScanResult.announced (result : ScanResult) : List Package :=
  result.packages.filter fun p => p.heldBackReason ≠ some "phased"

def ScanResult.pending (result : ScanResult) : Bool :=
  !result.announced.isEmpty || result.rebootRequired

def hostNotification (host : HostEntry) (result : ScanResult) : Notification :=
  let name := host.name
  let count := result.announced.length
  let title := if result.announced.isEmpty then "Reboot required: " ++ name
    else "OS updates available: " ++ name
  let message :=
    if result.announced.isEmpty then
      name ++ " is up to date but needs a reboot to finish applying updates."
    else
      toString count ++ " package update" ++ (if count ≠ 1 then "s" else "") ++
        " available on " ++ name ++ "." ++
        if result.rebootRequired then " A reboot is also required." else ""
  { title, message := message ++ " Open the dashboard to update.", level := "info", url := "/home" }

def notifyHost (file : Stored) (host : HostEntry) (result : ScanResult) :
    Option Notification × Stored :=
  let outcome := shouldNotifyHost file host.slug result.pending
  (if outcome.1 then some (hostNotification host result) else none, outcome.2)

/-- What happens to the file of the announcements: one round of the loop of a scan, or the check of
the containers. -/
inductive Event where
  | hostCheck (host : HostEntry) (checked : Checked)
  | containers (now : ℚ) (reported : List Stack)

variable (iterate : Finset String → List String)

def Event.notice (file : Stored) : Event → Option Notification
  | .hostCheck host (.ok result) => (notifyHost file host result).1
  | .hostCheck _ (.error _) | .containers _ _ => none

def Event.after (file : Stored) : Event → Stored
  | .hostCheck host (.ok result) => (notifyHost file host result).2
  -- a check that did not come back says nothing about its host
  | .hostCheck _ (.error _) => file
  | .containers now reported => (checkAndNotify iterate file now reported).file

/-- What an event says of a host. -/
def Event.pendingFor (slug : String) : Event → Option Bool
  | .hostCheck host (.ok result) => if host.slug = slug then some result.pending else none
  | .hostCheck _ (.error _) | .containers _ _ => none

/-- What the last check that came back says of a host. -/
def lastKnown (file : Stored) (slug : String) (events : List Event) : Bool :=
  ((events.filterMap (Event.pendingFor slug)).getLast?).getD (decide (slug ∈ (load file).pending))

variable {iterate}

theorem pending_after_event (file : Stored) (slug : String) (event : Event) :
    decide (slug ∈ (load (event.after iterate file)).pending) =
      (event.pendingFor slug).getD (decide (slug ∈ (load file).pending)) := by
  cases event with
  | hostCheck host checked =>
      cases checked with
      | error message => rfl
      | ok result =>
          rw [Event.after, notifyHost, pending_after_check, Event.pendingFor]
          by_cases hown : host.slug = slug <;> simp [hown]
  | containers now reported =>
      rw [Event.after, checkAndNotify_pending, Event.pendingFor, Option.getD_none]

theorem pending_after_events (file : Stored) (slug : String) (events : List Event) :
    decide (slug ∈ (load (events.foldl (Event.after iterate) file)).pending) =
      lastKnown file slug events := by
  induction events using List.reverseRecOn with
  | nil => rfl
  | append_singleton events event ih =>
      rw [List.foldl_append, List.foldl_cons, List.foldl_nil, pending_after_event, ih, lastKnown,
        lastKnown, List.filterMap_append]
      cases hword : event.pendingFor slug with
      | none => simp [hword]
      | some pending => simp [hword]

/-- In any run of scans, with checks of the containers in between and checks that fail, a host is
announced exactly when its check comes back with something pending, and the last one that came back
had nothing. -/
theorem host_announced_iff (file : Stored) (before : List Event) (host : HostEntry)
    (checked : Checked) (notification : Notification) :
    (Event.hostCheck host checked).notice (before.foldl (Event.after iterate) file) =
      some notification ↔
      ∃ result, checked = .ok result ∧ result.pending = true ∧
        lastKnown file host.slug before = false ∧ notification = hostNotification host result := by
  cases checked with
  | error message => simp [Event.notice]
  | ok result =>
      have hknown := @pending_after_events iterate file host.slug before
      rw [Event.notice, notifyHost, shouldNotifyHost_result, decide_not, hknown]
      simp only [Except.ok.injEq, exists_eq_left']
      cases result.pending <;> cases lastKnown file host.slug before <;> simp [eq_comm]

end Notices

end Keepup.HostScan
