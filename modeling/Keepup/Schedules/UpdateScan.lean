import Keepup.Lib.Runs
import Keepup.Notifier.Store
import Keepup.Schedules.LastCheck

/-!
The two callers of the container check, the scheduled scan and the dashboard, and the time that
each records for it. A time is to say that some backend was really checked; the main theorem says
when it does.
-/

namespace Keepup.LastCheck

open Lib Notifier

section Scan

/-- What the check of a backend comes to. A cancelled one is gathered, but is not an `Exception`. -/
inductive BackendCheck where
  | reported (reported : List Stack)
  | raised
  | cancelled
deriving DecidableEq

structure Backend where
  key : String
  check : BackendCheck
deriving DecidableEq

def Backend.completes (backend : Backend) : Bool :=
  match backend.check with
  | .reported _ => true
  | .raised | .cancelled => false

def Backend.reported (backend : Backend) : List Stack :=
  match backend.check with
  | .reported reported => reported
  | .raised | .cancelled => []

/-- What a container check finds: the hosts and the credentials of the registry, or what is raised
where they cannot be read, and the backends. -/
structure Surroundings where
  hosts : Except String (List HostEntry)
  creds : Except String Unit := .ok ()
  backends : List Backend

/-- The backends that are checked. -/
def Surroundings.active (found : Surroundings) : List Backend :=
  match found.hosts with
  | .error _ => []
  | .ok hosts => found.backends.filter fun backend =>
      backend.key ≠ "ssh" ∨ hosts.any fun host => Text.given host.dockerMode

structure ContainerScan where
  reported : List Stack := []
  failedBackends : List String := []
  backendsConfigured : Bool
deriving DecidableEq

def backendLabels : List (String × String) := [("portainer", "Portainer"), ("ssh", "SSH")]

/- `str.title` -/
variable (title : String → String)

def Backend.label (backend : Backend) : String :=
  (backendLabels.lookup backend.key).getD (title backend.key)

/-- The stacks go to the notifier too, but what it raises is only logged. -/
def scanContainers (found : Surroundings) : Except String ContainerScan :=
  match found.hosts with
  | .error message => .error message
  | .ok _ =>
      if found.active = [] then .ok { backendsConfigured := false }
      else
        match found.creds with
        | .error message => .error message
        | .ok () =>
            .ok
              { reported := found.active.flatMap Backend.reported
                failedBackends := (found.active.filter fun backend => backend.check = .raised).map
                  (Backend.label title)
                backendsConfigured := true }

end Scan

section Writers

/-- A call that records a time, and what becomes of it. -/
inductive Record where
  | host (slug : String) (now : ℚ) (write : Write)
  | containers (now : ℚ) (write : Write)
deriving DecidableEq

def Stored.after (dates : Dates) (file : Stored) : Record → Stored
  | .host slug now write => recordHostCheck dates file slug now write
  | .containers now write => recordContainerCheck dates file now write

/-- The check of a host in a scan: whether it came back, and whether a failure of the notifier ends
the scan after it. -/
structure HostCheck where
  host : HostEntry
  completed : Bool := true
  now : ℚ := 0
  write : Write := .done
  notifies : Bool := true

/-- What the loop over the hosts records, and whether it comes to its end. -/
def recordHosts : List HostCheck → List Record × Bool
  | [] => ([], true)
  | check :: checks =>
      if !check.completed then recordHosts checks
      else if check.notifies then
        (.host check.host.slug check.now check.write :: (recordHosts checks).1,
          (recordHosts checks).2)
      else ([.host check.host.slug check.now check.write], false)

/-- The page of the dashboard. -/
inductive Page where
  | error (message : String)
  | dockerStatus (reported : List Stack) (failedBackends : List String)
deriving DecidableEq

variable (title : String → String)

/-- The scheduled scan. The hosts are read again for the containers. -/
def runScan (hosts : Except String (List HostCheck)) (found : Surroundings) (now : ℚ)
    (write : Write) :
    List Record :=
  match hosts with
  | .error _ => []
  | .ok checks =>
      match recordHosts checks with
      | (records, false) => records
      | (records, true) =>
          match scanContainers title found with
          | .error _ => records
          -- whether any backend was there and came back is not asked
          | .ok _ => records ++ [.containers now write]

def dockerCheck (found : Surroundings) (now : ℚ) (write : Write) : List Record × Page :=
  match scanContainers title found with
  | .error message => ([], .error message)
  | .ok result =>
      if !result.backendsConfigured then ([], .error "No container backends configured.")
      else ([.containers now write], .dockerStatus result.reported result.failedBackends)

inductive Call where
  | runScan (hosts : Except String (List HostCheck)) (found : Surroundings)
    (now : ℚ) (write : Write)
  | dockerCheck (found : Surroundings) (now : ℚ) (write : Write)

def Call.records : Call → List Record
  | .runScan hosts found now write => LastCheck.runScan title hosts found now write
  | .dockerCheck found now write => (LastCheck.dockerCheck title found now write).1

def Call.found : Call → Surroundings
  | .runScan _ found _ _ | .dockerCheck found _ _ => found

/-- Some backend was there and came back. -/
def Call.Completed (call : Call) : Prop := ∃ backend ∈ call.found.active, backend.completes = true

/-- A new time for the containers is one of a completed check. -/
def Honest (call : Call) :
    Prop := ∀ now, .containers now .done ∈ call.records title → call.Completed

/-- The container check comes back. -/
def Surroundings.Returns (found : Surroundings) : Prop :=
  found.hosts.isOk = true ∧ (found.active ≠ [] → found.creds.isOk = true)

/-- The call gets as far as the time for the containers, and can write it. -/
def Call.Stamps : Call → Prop
  | .runScan hosts found _ write =>
      write = .done ∧ found.Returns ∧
        ∃ checks, hosts = .ok checks ∧ ∀ check ∈ checks, check.completed → check.notifies
  | .dockerCheck found _ write => write = .done ∧ found.Returns ∧ found.active ≠ []

end Writers

section Honesty

variable {title : String → String} {found : Surroundings}

theorem scanContainers_isOk (title : String → String) :
    (scanContainers title found).isOk = true ↔ found.Returns := by
  rw [scanContainers, Surroundings.Returns]
  cases found.hosts with
  | error message => exact iff_of_false Bool.false_ne_true fun h => Bool.false_ne_true h.1
  | ok hosts =>
      by_cases hnone : found.active = []
      · simp [hnone, Except.isOk, Except.toBool]
      · cases hcreds : found.creds <;> simp [hnone, Except.isOk, Except.toBool]

/-- A check that comes back says whether any backend was there. -/
theorem scanContainers_configured {result : ContainerScan}
    (h : scanContainers title found = .ok result) :
    result.backendsConfigured = true ↔ found.active ≠ [] := by
  rw [scanContainers] at h
  cases hhosts : found.hosts with
  | error message => rw [hhosts] at h; cases h
  | ok hosts =>
      rw [hhosts] at h
      by_cases hnone : found.active = []
      · rw [if_pos hnone] at h
        rw [← Except.ok.inj h]
        simp [hnone]
      · rw [if_neg hnone] at h
        cases hcreds : found.creds with
        | error message => rw [hcreds] at h; cases h
        | ok creds =>
            rw [hcreds] at h
            rw [← Except.ok.inj h]
            simp [hnone]

theorem recordHosts_finishes {checks : List HostCheck} : (recordHosts checks).2 = true ↔
    ∀ check ∈ checks, check.completed → check.notifies := by
  induction checks with
  | nil => simp [recordHosts]
  | cons check checks ih =>
      rw [recordHosts, List.forall_mem_cons, ← ih]
      cases check.completed <;> cases check.notifies <;> simp

theorem stamp_not_mem_recordHosts (checks : List HostCheck) (now : ℚ) :
    Record.containers now .done ∉ (recordHosts checks).1 := by
  induction checks with
  | nil => simp [recordHosts]
  | cons check checks ih =>
      rw [recordHosts]
      cases check.completed <;> cases check.notifies <;> simp [ih]

theorem stamp_mem_runScan {checks : List HostCheck} {now time : ℚ} {write : Write} :
    .containers time .done ∈ runScan title (.ok checks) found now write ↔
      (recordHosts checks).2 = true ∧ found.Returns ∧ time = now ∧ write = .done := by
  have hold := stamp_not_mem_recordHosts checks time
  rw [← scanContainers_isOk title, runScan.eq_def]
  cases hrun : recordHosts checks with
  | mk records ends =>
      simp only [hrun] at hold
      cases ends with
      | false => simpa [hrun] using hold
      | true =>
          cases scanContainers title found with
          | error message => simpa [hrun, Except.isOk, Except.toBool] using hold
          | ok result => simp [hrun, hold, Except.isOk, Except.toBool, eq_comm (b := write)]

theorem stamp_mem_dockerCheck {now time : ℚ} {write : Write} :
    .containers time .done ∈ (dockerCheck title found now write).1 ↔
      found.Returns ∧ found.active ≠ [] ∧ time = now ∧ write = .done := by
  rw [← scanContainers_isOk title, dockerCheck]
  cases hscan : scanContainers title found with
  | error message => simp [Except.isOk, Except.toBool]
  | ok result =>
      rw [← scanContainers_configured hscan]
      cases hbackends : result.backendsConfigured <;>
        simp [hbackends, Except.isOk, Except.toBool, eq_comm (b := write)]

/-- Whether a call records a time for the containers. -/
theorem stamps_iff (title : String → String) (call : Call) :
    (∃ now, .containers now .done ∈ call.records title) ↔ call.Stamps := by
  cases call with
  | runScan hosts found now write =>
      cases hosts with
      | error message => simp [Call.records, Call.Stamps, LastCheck.runScan]
      | ok checks =>
          simp only [Call.records, Call.Stamps, stamp_mem_runScan, recordHosts_finishes]
          constructor
          · rintro ⟨_, hnotifies, hreturns, _, hwrite⟩
            exact ⟨hwrite, hreturns, checks, rfl, hnotifies⟩
          · rintro ⟨hwrite, hreturns, _, hchecks, hnotifies⟩
            cases hchecks
            exact ⟨now, hnotifies, hreturns, rfl, hwrite⟩
  | dockerCheck found now write =>
      simp only [Call.records, Call.Stamps, stamp_mem_dockerCheck]
      constructor
      · rintro ⟨_, hreturns, hactive, _, hwrite⟩
        exact ⟨hwrite, hreturns, hactive⟩
      · rintro ⟨hwrite, hreturns, hactive⟩
        exact ⟨now, hreturns, hactive, rfl, hwrite⟩

/-- The times of a call are honest if and only if some backend came back, or the call does not get
as far as a time. -/
theorem honest_iff (call : Call) : Honest title call ↔ call.Completed ∨ ¬ call.Stamps := by
  rw [← stamps_iff title, Honest]
  constructor
  · intro hhonest
    by_cases hstamps : ∃ now, .containers now .done ∈ call.records title
    · obtain ⟨now, hmem⟩ := hstamps
      exact .inl (hhonest now hmem)
    · exact .inr hstamps
  · rintro (hcompleted | hnone) now hmem
    · exact hcompleted
    · exact absurd ⟨now, hmem⟩ hnone

/-- A Portainer that cannot be reached, on an installation without Docker hosts. -/
def portainerDown : Surroundings where
  hosts := .ok []
  backends := [⟨"portainer", .raised⟩, ⟨"ssh", .reported []⟩]

def noBackends : Surroundings where
  hosts := .ok []
  backends := [⟨"ssh", .reported []⟩]

/-- The scan records a time where there is nothing to check, and both callers record one where no
check came back. -/
theorem unchecked_stamped : ¬ Honest id (.runScan (.ok []) noBackends 0 .done) ∧
    ¬ Honest id (.runScan (.ok []) portainerDown 0 .done) ∧
      ¬ Honest id (.dockerCheck portainerDown 0 .done) := by
  have hdown : ¬ ∃ backend ∈ portainerDown.active, backend.completes = true := by decide
  refine ⟨fun hhonest => ?_, fun hhonest => hdown (hhonest 0 (by decide)),
    fun hhonest => hdown (hhonest 0 (by decide))⟩
  obtain ⟨backend, hactive, _⟩ := hhonest 0 (by decide)
  exact absurd hactive (by simp [Call.found, Surroundings.active, noBackends])

end Honesty

section Runs

variable {dates : Dates} {title : String → String}

/-- A record leaves the time of the containers, loses it, or is a time of its own. -/
theorem after_containers (dates : Dates) (file : Stored) (record : Record) :
    (file.after dates record).load.containers = file.load.containers ∨
      (file.after dates record).load.containers = .other ∨
        ∃ now, record = .containers now .done ∧
          (file.after dates record).load.containers = .text (dates.isoformat now) := by
  cases record with
  | host slug now write =>
      cases write with
      | done => exact .inl rfl
      | refused => exact .inl rfl
      | torn => exact .inr (.inl rfl)
  | containers now write =>
      cases write with
      | done => exact .inr (.inr ⟨now, rfl, rfl⟩)
      | refused => exact .inl rfl
      | torn => exact .inr (.inl rfl)

/-- Where the calls are honest, so is what the file has in the end, in whatever order their records
come. -/
theorem shown_time_earned {calls : List Call} (hcalls : ∀ call ∈ calls, Honest title call)
    (start : Stored) {records : List Record}
    (hrecords : ∀ record ∈ records, ∃ call ∈ calls, record ∈ call.records title) :
    ∀ file ∈ reached (Stored.after dates) start records,
      file.load.containers = start.load.containers ∨ file.load.containers = .other ∨
        ∃ call ∈ calls, call.Completed ∧
          ∃ now, .containers now .done ∈ call.records title ∧
            file.load.containers = .text (dates.isoformat now) := by
  refine reached_all (Q := fun _ record => ∃ call ∈ calls, record ∈ call.records title)
    (fun file record hfile hrecord => ?_) (.inl rfl) ?_
  · rcases after_containers dates file record with hsame | hlost | ⟨now, rfl, hnew⟩
    · rw [hsame]
      exact hfile
    · exact .inr (.inl hlost)
    · obtain ⟨call, hcall, hmem⟩ := hrecord
      exact .inr (.inr ⟨call, hcall, hcalls call hcall now hmem, now, hmem, hnew⟩)
  · exact meets_of_forall fun record hrecord _ => hrecords record hrecord

end Runs

end Keepup.LastCheck
