import Keepup.Activity.Log
import Keepup.Lib.Runs
import Mathlib.Data.List.Dedup

/-!
The log through failures and crashes. At every point of every call the index on
disk is that before the call or that after it, and the output of every record
that has any is there in full. The output is written before the index names it,
and deleted only after the index has dropped it.
-/

namespace Keepup.Activity

open Lib Remote

section Steps

/-- A step that leaves the index and the output of some runs alone. -/
def Step.Spares (runIds : List String) : Step → Prop
  | .writeOutput runId _ _ | .unlink runId | .sweep runId _ => runId ∉ runIds
  | .quarantine | .replaceIndex | .renameLegacy => False
  | _ => True

def Step.reads : Step → Bool
  | .readIndex | .readLegacy => true
  | _ => false

/-- What such steps keep. -/
structure SameLog (runIds : List String) (d d' : Disk) : Prop where
  index : d'.index = d.index
  legacy : d'.legacy = d.legacy
  runs : ∀ runId ∈ runIds, d'.runs.get? runId = d.runs.get? runId

variable {runIds : List String} {d d' : Disk} {step : Step}

theorem SameLog.refl (runIds : List String) (d : Disk) :
    SameLog runIds d d := ⟨rfl, rfl, fun _ _ => rfl⟩

theorem SameLog.trans {d'' : Disk} (h : SameLog runIds d d') (h' : SameLog runIds d' d'') :
    SameLog runIds d d'' :=
  ⟨h'.index.trans h.index, h'.legacy.trans h.legacy, fun runId hmem =>
    (h'.runs runId hmem).trans (h.runs runId hmem)⟩

theorem perform_spares (h : step.Spares runIds) (d : Disk) :
    SameLog runIds d (d.perform step).1 := by
  cases step with
  | writeOutput runId text now =>
      exact ⟨rfl, rfl, fun other hmem => Dict.get?_set_ne _ _ fun hsame => h (hsame ▸ hmem)⟩
  | unlink runId =>
      exact ⟨rfl, rfl, fun other hmem => Dict.get?_pop_ne _ fun hsame => h (hsame ▸ hmem)⟩
  | sweep runId cutoff =>
      rw [Disk.perform]
      dsimp only
      split
      · exact ⟨rfl, rfl, fun other hmem => Dict.get?_pop_ne _ fun hsame => h (hsame ▸ hmem)⟩
      · exact .refl runIds d
  | quarantine | replaceIndex | renameLegacy => exact h.elim
  | readIndex | writeTmp entries | listRuns | readLegacy => exact ⟨rfl, rfl, fun _ _ => rfl⟩

theorem tear_spares (h : step.Spares runIds) (d : Disk) (left : Option String) :
    SameLog runIds d (d.tear step left) := by
  cases step with
  | writeOutput runId text now =>
      cases left with
      | none => exact .refl runIds d
      | some left => exact ⟨rfl, rfl, fun other hmem => Dict.get?_set_ne _ _ fun hsame =>
          h (hsame ▸ hmem)⟩
  | writeTmp entries => cases left <;> exact ⟨rfl, rfl, fun _ _ => rfl⟩
  | quarantine | replaceIndex | renameLegacy => exact h.elim
  | unlink _ | sweep _ _ | readIndex | listRuns | readLegacy => exact .refl runIds d

theorem serve_read (h : step.reads = true) (d : Disk) (fate : Fate) :
    serve d step fate = (d, .error ()) ∨ serve d step fate = (d, .ok (d.perform step).2) := by
  cases step with
  | readIndex | readLegacy =>
      cases fate with
      | crashed left => exact .inl rfl
      | _ => exact .inr rfl
  | _ => cases h

theorem serve_failed (h : step.reads = false) (d : Disk) (left : Option String) :
    serve d step (.failed left) = (d.tear step left, .ok .failed) := by
  cases step with
  | readIndex | readLegacy => cases h
  | _ => rfl

/-- What a step leaves, done or not. -/
theorem serve_disk (d : Disk) (step : Step) (fate : Fate) :
    (serve d step fate).1 = (d.perform step).1 ∨ ∃ left, (serve d step fate).1 =
      d.tear step left := by
  cases fate with
  | done => exact .inl rfl
  | crashed left => exact .inr ⟨left, rfl⟩
  | failed left =>
      cases hreads : step.reads with
      | false => exact .inr ⟨left, by rw [serve_failed hreads]⟩
      | true =>
          refine .inl ?_
          cases step with
          | readIndex | readLegacy => rfl
          | _ => cases hreads

theorem serve_spares (h : step.Spares runIds) (d : Disk) (fate : Fate) :
    SameLog runIds d (serve d step fate).1 := by
  rcases serve_disk d step fate with hdone | ⟨left, htorn⟩
  · exact hdone ▸ perform_spares h d
  · exact htorn ▸ tear_spares h d left

theorem exec_spares {α : Type} {prog : Program α} (h : prog.Only (Step.Spares runIds))
    (env : ℕ → Step → Fate) (n : ℕ) (d : Disk) : SameLog runIds d (exec serve env n prog d).1 := by
  refine exec_only (I := SameLog runIds d) (fun s step fate hstep hs => ?_) h env n (.refl runIds d)
  exact hs.trans (serve_spares hstep s fate)

/-- What such steps keep, and what they return. -/
theorem spares_holds {α : Type} {prog : Program α} {P : α → Prop}
    (h : prog.Only (Step.Spares runIds)) (hreturns : prog.Returns P)
    (d : Disk) : Holds serve prog d fun d' result =>
      SameLog runIds d d' ∧ ∀ a, result = .ok a → P a :=
  fun env n => ⟨exec_spares h env n d, fun _ hresult => exec_returns hreturns hresult⟩

/-- A reading step comes to its answer, or is the last one. -/
theorem holds_read {α : Type} {k : Answer → Program α} {Q : Disk → Except Unit α → Prop}
    (h : step.reads = true) (hcrash : Q d (.error ()))
    (hread : Holds serve (k (d.perform step).2) d Q) :
    Holds serve (.call step k) d Q := by
  refine holds_call (fun fate d' e hserve => ?_) fun fate d' answer hserve => ?_
  · rcases serve_read h d fate with hfail | hanswer
    · rw [hfail] at hserve
      cases hserve
      exact hcrash
    · rw [hanswer] at hserve
      cases hserve
  · rcases serve_read h d fate with hfail | hanswer
    · rw [hfail] at hserve
      cases hserve
    · rw [hanswer] at hserve
      cases hserve
      exact hread

/-- Any other step can be the last one, can fail, and can be done. -/
theorem holds_write {α : Type} {k : Answer → Program α} {Q : Disk → Except Unit α → Prop}
    (h : step.reads = false) (hcrash : ∀ left, Q (d.tear step left) (.error ()))
    (hfailed : ∀ left, Holds serve (k .failed) (d.tear step left) Q)
    (hdone : Holds serve (k (d.perform step).2) (d.perform step).1 Q) :
    Holds serve (.call step k) d Q := by
  refine holds_call (fun fate d' e hserve => ?_) fun fate d' answer hserve => ?_
  · cases fate with
    | crashed left =>
        cases hserve
        exact hcrash left
    | failed left =>
        rw [serve_failed h] at hserve
        cases hserve
    | done => cases hserve
  · cases fate with
    | crashed left => cases hserve
    | failed left =>
        rw [serve_failed h] at hserve
        cases hserve
        exact hfailed left
    | done =>
        cases hserve
        exact hdone

end Steps

section Programs

/-- The records that the index on disk has. -/
def entriesOf (d : Disk) : List Record :=
  match d.index with
  | some (.full entries) => entries
  | _ => []

variable {d : Disk}

theorem writeOutput_holds (runId : String) (lines : List String) (now : ℚ) (d : Disk) :
    Holds serve (writeOutput runId lines now) d fun d' result =>
      (∀ runIds, runId ∉ runIds → SameLog runIds d d') ∧
      ∀ count, result = .ok count → (0 < count →
        d'.runs.get? runId = some ⟨outputText lines, now⟩) ∧
        (count = 0 ∨ count = (flatLines lines).length) := by
  have hspares : ∀ runIds, runId ∉ runIds →
      (Step.writeOutput runId (outputText lines) now).Spares runIds :=
    fun runIds hfresh => hfresh
  refine holds_write rfl (fun left =>
    ⟨fun runIds hfresh => tear_spares (hspares runIds hfresh) d left, nofun⟩)
    (fun left => holds_ret ⟨fun runIds hfresh => tear_spares (hspares runIds hfresh) d left,
      fun count hcount => ?_⟩)
    (holds_ret ⟨fun runIds hfresh => perform_spares (hspares runIds hfresh) d,
      fun count hcount => ?_⟩)
  · cases hcount
    exact ⟨fun h => absurd h (Nat.lt_irrefl 0), .inl rfl⟩
  · cases hcount
    exact ⟨fun _ => Dict.get?_set_self _ _ _, .inr rfl⟩

theorem readIndexFile_holds (hwhole : d.index ≠ some .torn) :
    Holds serve readIndexFile d fun d' result =>
      d' = d ∧ ∀ entries, result = .ok entries → entries = entriesOf d := by
  refine holds_read rfl ⟨rfl, nofun⟩ ?_
  rw [Disk.perform]
  dsimp only
  rcases hindex : d.index with _ | entries | _
  · exact holds_ret ⟨rfl, fun entries h => by simpa [entriesOf, hindex] using h.symm⟩
  · exact holds_ret ⟨rfl, fun entries h => by simpa [entriesOf, hindex] using h.symm⟩
  · exact absurd hindex hwhole

/-- Without an old log there is nothing to do before the index is read. -/
theorem loadIndex_holds (env : Surroundings) (dates : Dates) (moment : Moment)
    (hlegacy : d.legacy = none) (hwhole : d.index ≠ some .torn) :
    Holds serve (loadIndex env dates moment) d fun d' result =>
      d' = d ∧ ∀ entries, result = .ok entries → entries = entriesOf d := by
  refine holds_read rfl ⟨rfl, nofun⟩ ?_
  rw [Disk.perform, hlegacy]
  exact readIndexFile_holds hwhole

theorem saveIndex_holds (entries : List Record) (d : Disk) :
    Holds serve (saveIndex entries) d fun d' result =>
      d'.runs = d.runs ∧ d'.legacy = d.legacy ∧
      (result = .ok true → d'.index = some (.full entries)) ∧
      (result ≠ .ok true → d'.index = d.index) := by
  have htorn : ∀ left, (d.tear (.writeTmp entries) left).runs = d.runs ∧
      (d.tear (.writeTmp entries) left).legacy = d.legacy ∧
      (d.tear (.writeTmp entries) left).index = d.index := by
    rintro (_ | left) <;> exact ⟨rfl, rfl, rfl⟩
  refine holds_write rfl (fun left => ?_) (fun left => holds_ret ?_) ?_
  · obtain ⟨hruns, hlegacy, hindex⟩ := htorn left
    exact ⟨hruns, hlegacy, nofun, fun _ => hindex⟩
  · obtain ⟨hruns, hlegacy, hindex⟩ := htorn left
    exact ⟨hruns, hlegacy, nofun, fun _ => hindex⟩
  · refine holds_write rfl (fun left => ?_) (fun left => holds_ret ?_) (holds_ret ?_)
    · exact ⟨rfl, rfl, nofun, fun _ => rfl⟩
    · exact ⟨rfl, rfl, nofun, fun _ => rfl⟩
    · exact ⟨rfl, rfl, fun _ => rfl, fun h => absurd rfl h⟩

theorem deleteOutputFiles_spares {runIds : List String} {dropped : List String}
    (h : ∀ runId ∈ dropped, runId ∉ runIds) :
    (deleteOutputFiles dropped).Only (Step.Spares runIds) := by
  induction dropped with
  | nil => trivial
  | cons runId dropped ih =>
      have hrest := ih fun other hmem => h other (List.mem_cons_of_mem runId hmem)
      rw [deleteOutputFiles]
      split
      · exact hrest
      · exact ⟨h runId (by simp), fun _ => hrest⟩

theorem sweepEach_spares {runIds : List String} (cutoff : ℚ) {orphans : List String}
    (h : ∀ runId ∈ orphans, runId ∉ runIds) :
    (sweepEach cutoff orphans).Only (Step.Spares runIds) := by
  induction orphans with
  | nil => trivial
  | cons runId orphans ih =>
      exact ⟨h runId (by simp), fun _ => ih fun other hmem =>
        h other (List.mem_cons_of_mem runId hmem)⟩

/-- What a recorder does after it has saved the index. -/
theorem cleanUp_spares {runIds dropped keepIds : List String} (now : ℚ) (runId : String)
    (hdropped : ∀ other ∈ dropped, other ∉ runIds) (hkept : runIds ⊆ keepIds) :
    (deleteOutputFiles dropped >>= fun _ => sweepAgedOrphans now keepIds >>= fun _ =>
      (.ret runId : Program String)).Only (Step.Spares runIds) := by
  refine only_bind (deleteOutputFiles_spares hdropped) fun _ =>
      only_bind ⟨trivial, fun answer => ?_⟩ fun _ =>
    trivial
  cases answer with
  | runs found =>
      refine sweepEach_spares _ fun other hmem hin => ?_
      have hnot : other ∉ keepIds := by simpa using (List.mem_filter.mp hmem).2
      exact hnot (hkept hin)
  | _ => trivial

end Programs

section Selection

variable {dates : Dates} {now : ℚ} {entries : List Record} {protectId : String}

theorem selectKept_perm (dates : Dates) (now : ℚ) (entries : List Record) (protectId : String) :
    ((selectKept dates now entries protectId).1 ++ (selectKept dates now entries protectId).2).Perm
      entries := by
  rw [selectKept]
  generalize (fun e : Record =>
    e.id = protectId || decide (now - retention ≤ dates.parseTs e.startedAt now))
    = keeps
  have hsplit := List.filter_append_perm keeps (entries.take maxEntries)
  have hall : (entries.take maxEntries ++ entries.drop maxEntries).Perm entries :=
    .of_eq (List.take_append_drop maxEntries entries)
  refine List.Perm.trans ?_ ((hsplit.append_right (entries.drop maxEntries)).trans hall)
  rw [List.append_assoc]
  exact List.perm_append_comm.append_left _

theorem selectKept_sublist : ((selectKept dates now entries protectId).1).Sublist entries :=
  List.filter_sublist.trans (List.take_sublist maxEntries entries)

/-- With distinct ids no record that is kept shares its id with a dropped one. -/
theorem dropped_not_kept (hdistinct : (entries.map Record.id).Nodup) :
    ∀ runId ∈ (selectKept dates now entries protectId).2.map Record.id,
      runId ∉ (selectKept dates now entries protectId).1.map Record.id := by
  have hnodup := ((selectKept_perm dates now entries protectId).map Record.id).nodup_iff.mpr
    hdistinct
  rw [List.map_append, List.nodup_append] at hnodup
  exact fun runId hdropped hkept => hnodup.2.2 runId hkept runId hdropped rfl

end Selection

section Record

variable (env : Surroundings) (dates : Dates)

/-- The output of a run, as it is to be kept. -/
def Run.text (run : Run) (store : Option Store) : String := outputText (redact env store run.output)

/-- How much of it there is, in lines. -/
def Run.lineCount (run : Run) (store : Option Store) : ℕ :=
  (flatLines (redact env store run.output)).length

/-- What a call leaves on disk, wherever it ends: the index before it with all
output that it names, or the index after it with all output that this one names. -/
def Recorded (moment : Moment) (run : Run) (d d' : Disk) : Prop :=
  SameLog ((entriesOf d).map Record.id) d d' ∨
    ∃ count, (count = 0 ∨ count = run.lineCount env moment.store) ∧
      let kept := (run.selected dates moment.now count (entriesOf d)).1
      d'.index = some (.full kept) ∧ d'.legacy = d.legacy ∧
      (∀ runId ∈ (entriesOf d).map Record.id, runId ∈ kept.map Record.id →
        d'.runs.get? runId = d.runs.get? runId) ∧
      (0 < count → d'.runs.get? run.runId = some ⟨run.text env moment.store, moment.now⟩)

/-- The record of a run is kept, whatever its age. -/
theorem record_kept (now : ℚ) (run : Run) (count : ℕ) (entries : List Record) :
    run.record dates count ∈ (run.selected dates now count entries).1 := by
  refine List.mem_filter.mpr ⟨List.mem_cons_self, ?_⟩
  rw [Bool.or_eq_true]
  exact .inl (decide_eq_true rfl)

theorem recordRun_holds (moment : Moment) (run : Run) {d : Disk} (hlegacy : d.legacy = none)
    (hwhole : d.index ≠ some .torn) (hdistinct : ((entriesOf d).map Record.id).Nodup)
    (hfresh : run.runId ∉ (entriesOf d).map Record.id) :
    Holds serve (recordRun env dates moment run) d
      fun d' _ => Recorded env dates moment run d d' := by
  refine holds_bind (holds_mono (writeOutput_holds run.runId _ moment.now d) ?_)
  rintro d₁ (_ | count) ⟨hsame, hcount⟩
  · exact .inl (hsame _ hfresh)
  obtain ⟨hwritten, hlines⟩ := hcount count rfl
  have hlog := hsame _ hfresh
  have hentries : entriesOf d₁ = entriesOf d := by rw [entriesOf, entriesOf, hlog.index]
  refine holds_bind (holds_mono (loadIndex_holds env dates moment (hlog.legacy.trans hlegacy)
    (hlog.index ▸ hwhole)) ?_)
  rintro d₂ (_ | entries) ⟨rfl, hread⟩
  · exact .inl hlog
  obtain rfl : entries = entriesOf d := (hread entries rfl).trans hentries
  refine holds_bind (holds_mono (saveIndex_holds _ d₂) ?_)
  rintro d₃ (_ | saved) ⟨hruns, hold, hsaved, hfailed⟩
  · exact .inl (hlog.trans ⟨hfailed nofun, hold, fun runId _ => by rw [hruns]⟩)
  cases saved with
  | false => exact holds_ret (.inl (hlog.trans ⟨hfailed nofun, hold, fun runId _ => by rw [hruns]⟩))
  | true =>
      have hids : ((run.record dates count :: entriesOf d).map Record.id).Nodup :=
        List.nodup_cons.mpr ⟨hfresh, hdistinct⟩
      -- the index is the new one; what follows spares the output that it names
      have hdropped : ∀ runId ∈ env.iterate ((run.selected dates moment.now count
          (entriesOf d)).2.map Record.id).dedup,
          runId ∉ (run.selected dates moment.now count (entriesOf d)).1.map
              Record.id := fun runId hmem =>
        dropped_not_kept hids runId (List.mem_dedup.mp ((env.iterate_perm _).mem_iff.mp hmem))
      dsimp only
      rw [if_pos rfl]
      intro fates n
      have hspared :=
        exec_spares (cleanUp_spares moment.now run.runId hdropped (List.Subset.refl _)) fates n d₃
      refine .inr ⟨count, hlines, hspared.index.trans (hsaved rfl),
        hspared.legacy.trans (hold.trans hlog.legacy), fun runId hmem hkept => ?_, fun hpos => ?_⟩
      · rw [hspared.runs runId hkept, hruns, hlog.runs runId hmem]
      · rw [hspared.runs run.runId (List.mem_map_of_mem (record_kept dates moment.now run count _)),
          hruns, hwritten hpos, Run.text]

/-- No step fails. -/
def allDone : ℕ → Step → Fate := fun _ _ => .done

/-- What a program makes of the disk where no step fails. -/
def Done {α : Type} (prog : Program α) (d : Disk) (P : Disk → Prop) : Prop :=
  ∀ n, P (exec serve allDone n prog d).1

theorem done_bind {α β : Type} {prog : Program α} {k : α → Program β} {d d' : Disk} {a : α}
    {P : Disk → Prop} (hprog : ∀ n, exec serve allDone n prog d = (d', .ok a))
    (hk : Done (k a) d' P) :
    Done (prog >>= k) d P := by
  intro n
  obtain ⟨m, hm⟩ := exec_bind (hprog n) k
  rw [hm]
  exact hk m

theorem loadIndex_done (moment : Moment) {d : Disk} (hlegacy : d.legacy = none)
    (hwhole : d.index ≠ some .torn) (n : ℕ) :
    exec serve allDone n (loadIndex env dates moment) d = (d, .ok (entriesOf d)) := by
  obtain ⟨index, _, _, _, _, _⟩ := d
  subst hlegacy
  rcases index with _ | entries | _
  · rfl
  · rfl
  · exact absurd rfl hwhole

/-- The index after a run that no step of its recording fails. -/
theorem recordRun_done (moment : Moment) (run : Run) {d : Disk} (hlegacy : d.legacy = none)
    (hwhole : d.index ≠ some .torn) :
    Done (recordRun env dates moment run) d fun d' => d'.index =
      some (.full (run.selected dates moment.now (run.lineCount env moment.store)
        (entriesOf d)).1) := by
  refine done_bind (fun _ => rfl) ?_
  refine done_bind (loadIndex_done env dates moment hlegacy hwhole) ?_
  refine done_bind (fun _ => rfl) fun n => ?_
  have hnone : ∀ dropped : List String, ∀ runId ∈ dropped, runId ∉ ([] : List String) := by simp
  rw [if_pos rfl]
  exact (exec_spares (cleanUp_spares moment.now run.runId (hnone _) (List.nil_subset _))
    allDone n _).index

end Record

section Calls

/-- A call of `record_run`, with what becomes of each of its steps. -/
structure Call where
  moment : Moment
  run : Run
  fates : ℕ → Step → Fate

variable (env : Surroundings) (dates : Dates)

def Call.after (call : Call) (d : Disk) : Disk :=
  (exec serve call.fates 0 (recordRun env dates call.moment call.run) d).1

/-- The disk, and what the output of each run is. -/
abbrev Recorder := Disk × (String → String)

def recordCall (w : Recorder) (call : Call) : Recorder :=
  (call.after env dates w.1,
    Function.update w.2 call.run.runId (call.run.text env call.moment.store))

/-- The id is not one of those on disk. -/
def Fresh (w : Recorder) (call : Call) : Prop := call.run.runId ∉ (entriesOf w.1).map Record.id

/-- No old log, an index that is whole, and the full output of every record that
counts any lines. -/
structure Sound (w : Recorder) : Prop where
  legacy : w.1.legacy = none
  whole : w.1.index ≠ some .torn
  distinct : ((entriesOf w.1).map Record.id).Nodup
  output : ∀ e ∈ entriesOf w.1, 0 < e.lineCount →
    ∃ mtime, w.1.runs.get? e.id = some ⟨w.2 e.id, mtime⟩

/-- The index on disk is that before the call or that after it. -/
def WholeIndex (w : Recorder) (call : Call) : Prop :=
  (call.after env dates w.1).index = w.1.index ∨
    ∃ count, (count = 0 ∨ count = call.run.lineCount env call.moment.store) ∧
      (call.after env dates w.1).index =
        some (.full (call.run.selected dates call.moment.now count (entriesOf w.1)).1)

variable {env dates} {w : Recorder} {call : Call}

variable (env dates) in
theorem Sound.recorded (h : Sound w) (hfresh : Fresh w call) :
    Recorded env dates call.moment call.run w.1 (call.after env dates w.1) :=
  recordRun_holds env dates call.moment call.run h.legacy h.whole h.distinct hfresh call.fates 0

theorem Sound.wholeIndex (h : Sound w) (hfresh : Fresh w call) : WholeIndex env dates w call := by
  rcases h.recorded env dates hfresh with hsame | ⟨count, hcount, hindex, _⟩
  · exact .inl hsame.index
  · exact .inr ⟨count, hcount, hindex⟩

theorem Sound.next (h : Sound w) (hfresh : Fresh w call) : Sound (recordCall env dates w call) := by
  have hother : ∀ e ∈ entriesOf w.1, Function.update w.2 call.run.runId
      (call.run.text env call.moment.store) e.id = w.2 e.id := by
    intro e he
    refine Function.update_of_ne (fun hid => hfresh ?_) _ _
    rw [← hid]
    exact List.mem_map_of_mem he
  rcases h.recorded env dates hfresh with hsame | ⟨count, _, hindex, hlegacy, hruns, hown⟩
  · have hentries : entriesOf (call.after env dates w.1) = entriesOf w.1 := by
      rw [entriesOf, entriesOf, hsame.index]
    refine ⟨hsame.legacy.trans h.legacy, hsame.index ▸ h.whole, ?_, fun e he hpos => ?_⟩
    · rw [recordCall, hentries]
      exact h.distinct
    · rw [recordCall, hentries] at he
      obtain ⟨mtime, hfile⟩ := h.output e he hpos
      refine ⟨mtime, ?_⟩
      dsimp only [recordCall]
      rw [hsame.runs e.id (List.mem_map_of_mem he), hother e he, hfile]
  · have hentries : entriesOf (call.after env dates w.1) =
        (call.run.selected dates call.moment.now count (entriesOf w.1)).1 := by
      rw [entriesOf, hindex]
    have hsub : ((call.run.selected dates call.moment.now count (entriesOf w.1)).1).Sublist
        (call.run.record dates count :: entriesOf w.1) := selectKept_sublist
    refine ⟨hlegacy.trans h.legacy, ?_, ?_, fun e he hpos => ?_⟩
    · dsimp only [recordCall]
      rw [hindex]
      simp
    · rw [recordCall, hentries]
      exact (hsub.map Record.id).nodup (List.nodup_cons.mpr ⟨hfresh, h.distinct⟩)
    · rw [recordCall, hentries] at he
      dsimp only [recordCall]
      rcases List.mem_cons.mp (hsub.subset he) with rfl | hold
      · exact ⟨call.moment.now, (hown hpos).trans (by rw [Run.record, Function.update_self])⟩
      · obtain ⟨mtime, hfile⟩ := h.output e hold hpos
        exact ⟨mtime, by rw [hruns e.id (List.mem_map_of_mem hold) (List.mem_map_of_mem he), hfile,
          hother e hold]⟩

/-- A moment at the start of the epoch. -/
def epoch : Dates where
  fromisoformat text := if text = "1970-01-01T00:00:00+00:00" then some 0 else none
  isoformat _ := "1970-01-01T00:00:00+00:00"
  tenths := id

def plainSurroundings : Surroundings where
  lower := id
  iterate := id
  iterate_perm _ := .refl _

/-- A run that prints one line, recorded without failures. -/
def firstCall : Call where
  moment := { now := 0, ids := fun _ => "", store := some ∅ }
  run := { runId := "0a1b2c3d", finished := 0, kind := "os_upgrade",
           target := "nas", targetName := "NAS",
           trigger := "manual", status := "success", output := ["Done."] }
  fates _ _ := .done

/-- Two days, of which the first is too long ago for a record on the second. -/
def twoDays : Dates where
  fromisoformat text :=
    if text = "1970-01-01T00:00:00+00:00" then some 0
    else if text = "1970-04-11T00:00:00+00:00" then some 8640000
    else none
  isoformat time := if time < 8640000 then "1970-01-01T00:00:00+00:00"
    else "1970-04-11T00:00:00+00:00"
  tenths := id

def nasRun (runId : String) (day : ℚ) : Run where
  runId := runId
  finished := day
  kind := "os_upgrade"
  target := "nas"
  targetName := "NAS"
  trigger := "manual"
  status := "success"
  output := ["Reading package lists", "Done."]

/-- Two records, of which the next call drops the second one, and their output. -/
def agedLog : Recorder :=
  ({ index := some (.full [(nasRun "0a1b2c3d" 8640000).record twoDays 2,
    (nasRun "4e5f6071" 0).record twoDays 2])
     runs := ((∅ : Dict String RunFile).set "0a1b2c3d" ⟨"Reading package lists\nDone.",
       8640000⟩).set "4e5f6071"
       ⟨"Reading package lists\nDone.", 0⟩ },
    fun _ => "Reading package lists\nDone.")

/-- Two calls on the second day. The first one is cut when it is about to delete the output
of the record that it has dropped. -/
def cutCall : Call where
  moment := { now := 8640000, ids := fun _ => "", store := some ∅ }
  run := nasRun "8192a3b4" 8640000
  fates _ step :=
    match step with
    | .unlink _ => .crashed none
    | _ => .done

def nextCall : Call where
  moment := cutCall.moment
  run := nasRun "6a7b8c9d" 8640000
  fates _ _ := .done

theorem cutCall_index :
    (entriesOf (cutCall.after plainSurroundings twoDays agedLog.1)).map Record.id =
    ["8192a3b4", "0a1b2c3d"] := by
  decide +kernel

end Calls

end Keepup.Activity
