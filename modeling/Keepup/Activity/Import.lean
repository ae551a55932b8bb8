import Keepup.Activity.Crash
import Mathlib.Data.List.Count

/-!
The import of the old log. It saves the index and then puts the old log away; if
it ends between the two, the next one imports the same entries under new ids.
Where it never does, every entry is imported once.
-/

namespace Keepup.Activity

open Lib Remote

section Positions

/-- Where in the old log the entries are. -/
def positions : ℕ → List LegacyItem → List ℕ
  | _, [] => []
  | position, .entry _ :: items => position :: positions (position + 1) items
  | position, .other :: items => positions (position + 1) items

theorem le_of_mem_positions {start n : ℕ} {items : List LegacyItem}
    (h : n ∈ positions start items) :
    start ≤ n := by
  induction items generalizing start with
  | nil => cases h
  | cons item items ih =>
      cases item with
      | entry entry =>
          rcases List.mem_cons.mp h with rfl | hrest
          · exact Nat.le_refl n
          · exact Nat.le_of_succ_le (ih hrest)
      | other => exact Nat.le_of_succ_le (ih h)

theorem positions_nodup (start : ℕ) (items : List LegacyItem) : (positions start items).Nodup := by
  induction items generalizing start with
  | nil => exact List.nodup_nil
  | cons item items ih =>
      cases item with
      | entry entry =>
          refine List.nodup_cons.mpr ⟨fun hmem => ?_, ih (start + 1)⟩
          have hle := le_of_mem_positions hmem
          omega
      | other => exact ih (start + 1)

variable (env : Surroundings) (dates : Dates)

theorem importItems_spares (moment : Moment) {runIds : List String}
    (hids : ∀ n, moment.ids n ∉ runIds) (start : ℕ) (items : List LegacyItem) :
    (importItems env moment start items).Only (Step.Spares runIds) := by
  induction items generalizing start with
  | nil => trivial
  | cons item items ih =>
      cases item with
      | other => exact ih (start + 1)
      | entry entry =>
          refine only_bind ⟨hids start, fun answer => ?_⟩ fun _ =>
            only_bind (ih (start + 1)) fun _ => trivial
          cases answer <;> trivial

theorem importItems_returns (moment : Moment) (start : ℕ) (items : List LegacyItem) :
    (importItems env moment start items).Returns fun records =>
      records.map Record.origin = (positions start items).map some := by
  induction items generalizing start with
  | nil => rfl
  | cons item items ih =>
      cases item with
      | other => exact ih (start + 1)
      | entry entry =>
          refine returns_bind (fun count => ?_) _
          refine returns_bind_of (ih (start + 1)) fun records hrecords => ?_
          exact congrArg (some start :: ·) hrecords

end Positions

section Imports

/-- The old log is there and has entries. -/
def Disk.hasEntries (d : Disk) : Bool := d.legacy.any fun text => positions 0 text.parsed ≠ []

/-- How often an entry of the old log is in the index. -/
def imports (n : ℕ) (d : Disk) : ℕ := ((entriesOf d).map Record.origin).count (some n)

/-- No entry is there twice, and none while there is still an old log. -/
structure ImportedOnce (d : Disk) : Prop where
  once : ∀ n, imports n d ≤ 1
  pending : d.legacy ≠ none → ∀ e ∈ entriesOf d, e.origin = none

variable {d d' : Disk}

theorem ImportedOnce.of_same (h : ImportedOnce d) (hentries : entriesOf d' = entriesOf d)
    (hlegacy : d'.legacy = d.legacy ∨ d'.legacy = none) : ImportedOnce d' := by
  refine ⟨fun n => ?_, fun hsome e he => ?_⟩
  · rw [imports, hentries]
    exact h.once n
  · rw [hentries] at he
    exact h.pending (fun hnone => hsome (hlegacy.elim (fun hsame => hsame.trans hnone) id)) e he

theorem ImportedOnce.spares {α : Type} {prog : Program α} (h : ImportedOnce d)
    (choose : Step → Fate → Fate) (hspares : prog.Only (Step.Spares [])) :
    Holds (choosing serve choose) prog d fun d' _ => ImportedOnce d' := by
  intro fates n
  rw [exec_choosing]
  have hsame := exec_spares hspares (fun n c => choose c (fates n c)) n d
  exact h.of_same (by rw [entriesOf, hsame.index, ← entriesOf]) (.inl hsame.legacy)

theorem readIndexFile_entries (d : Disk) : Holds serve readIndexFile d fun d' result =>
    entriesOf d' = entriesOf d ∧ d'.legacy = d.legacy ∧
      ∀ entries, result = .ok entries → entries = entriesOf d := by
  by_cases hwhole : d.index = some .torn
  · have hnone : entriesOf d = [] := by rw [entriesOf, hwhole]
    have hnothing : ∀ entries, (.ok [] : Except Unit (List Record)) = .ok entries →
        entries = entriesOf d := by
      rintro entries hread
      cases hread
      exact hnone.symm
    have hcrashed : ∀ entries, (.error () : Except Unit (List Record)) = .ok entries →
        entries = entriesOf d := by
      rintro entries hread
      cases hread
    -- the index is quarantined, or stays
    refine holds_read rfl ⟨rfl, rfl, hcrashed⟩ ?_
    rw [Disk.perform, hwhole]
    exact holds_write rfl (fun _ => ⟨rfl, rfl, hcrashed⟩) (fun _ => holds_ret ⟨rfl, rfl, hnothing⟩)
      (holds_ret ⟨hnone.symm, rfl, hnothing⟩)
  · refine holds_mono (readIndexFile_holds hwhole) ?_
    rintro d' result ⟨rfl, hread⟩
    exact ⟨rfl, rfl, hread⟩

variable {dates : Dates} {moment : Moment} {records : List Record} {items : List LegacyItem}

theorem imports_merged {entries : List Record} (hrecords : records.map Record.origin =
    (positions 0 items).map some) (hentries : ∀ e ∈ entries, e.origin = none) (n : ℕ) :
    ((merged dates moment.now records entries).map Record.origin).count (some n) =
      (positions 0 items).count n := by
  have hperm : (merged dates moment.now records entries).Perm (records ++ entries) :=
    List.mergeSort_perm _ _
  have hold : (entries.map Record.origin).count (some n) = 0 := by
    rw [List.count_eq_zero]
    intro hmem
    obtain ⟨e, he, horigin⟩ := List.mem_map.mp hmem
    rw [hentries e he] at horigin
    cases horigin
  rw [(hperm.map Record.origin).count_eq, List.map_append, List.count_append,
    hold, Nat.add_zero, hrecords]
  exact List.count_map_of_injective _ some (fun _ _ => Option.some.inj) n

theorem renameLegacy_holds (d : Disk) : Holds serve renameLegacy d fun d' _ =>
    entriesOf d' = entriesOf d ∧ (d'.legacy = d.legacy ∨ d'.legacy = none) :=
  holds_write rfl (fun _ => ⟨rfl, .inl rfl⟩) (fun _ => holds_ret ⟨rfl, .inl rfl⟩)
    (holds_ret ⟨rfl, .inr rfl⟩)

theorem renameLegacy_done {choose : Step → Fate → Fate}
    (h : ∀ fate, choose .renameLegacy fate = .done)
    (d : Disk) : Holds (choosing serve choose) renameLegacy d fun d' _ =>
      entriesOf d' = entriesOf d ∧ d'.legacy = none := by
  have hserve : ∀ fate, choosing serve choose d .renameLegacy fate =
      ((d.perform .renameLegacy).1, .ok .done) := fun fate => by
    rw [choosing, h]
    rfl
  refine holds_call (fun fate d' e hfail => ?_) fun fate d' answer hanswer => ?_
  · rw [hserve] at hfail
    cases hfail
  · rw [hserve] at hanswer
    cases hanswer
    exact holds_ret ⟨rfl, rfl⟩

/-- Once the records are made, they are saved and the old log is put away, or
neither. -/
theorem finishMigration_holds {choose : Step → Fate → Fate} (h : ImportedOnce d)
    (hsome : d.legacy ≠ none)
    (hrecords : records.map Record.origin = (positions 0 items).map some)
    (hrename : positions 0 items ≠ [] → ∀ fate, choose .renameLegacy fate = .done) :
    Holds (choosing serve choose) (finishMigration dates moment records) d fun d' _ =>
      ImportedOnce d' ∧ (d'.legacy = none → ∀ n ∈ positions 0 items, imports n d' = 1) := by
  by_cases hempty : records = []
  · have hnone : positions 0 items = [] := by
      rw [hempty] at hrecords
      exact List.map_eq_nil_iff.mp hrecords.symm
    rw [finishMigration, if_pos hempty]
    refine holds_mono (holds_choosing choose (renameLegacy_holds d)) ?_
    rintro d' result ⟨hentries, hlegacy⟩
    exact ⟨h.of_same hentries hlegacy, fun _ n hmem => by rw [hnone] at hmem; cases hmem⟩
  · have hsure := hrename fun hnone => hempty (by
      rw [hnone, List.map_nil] at hrecords
      exact List.map_eq_nil_iff.mp hrecords)
    -- until the index is replaced the records are as before, and the old log stays
    have hbefore : ∀ d' : Disk, entriesOf d' = entriesOf d → d'.legacy = d.legacy →
        ImportedOnce d' ∧ (d'.legacy = none → ∀ n ∈ positions 0 items, imports n d' = 1) :=
      fun d' hentries hlegacy => ⟨h.of_same hentries (.inl hlegacy),
        fun hnone => absurd (hlegacy.symm.trans hnone) hsome⟩
    rw [finishMigration, if_neg hempty]
    refine holds_bind (holds_mono (holds_choosing choose (readIndexFile_entries d)) ?_)
    rintro d₁ (_ | entries) ⟨hentries, hlegacy, hread⟩
    · exact hbefore d₁ hentries hlegacy
    obtain rfl : entries = entriesOf d := hread entries rfl
    refine holds_bind (holds_mono (holds_choosing choose (saveIndex_holds _ d₁)) ?_)
    rintro d₂ (_ | saved) ⟨_, hlegacy', hsaved, hfailed⟩
    · exact hbefore d₂ (by rw [entriesOf, hfailed (by simp), ← entriesOf, hentries])
        (hlegacy'.trans hlegacy)
    cases saved with
    | false =>
        exact holds_ret (hbefore d₂ (by rw [entriesOf, hfailed (by simp), ← entriesOf, hentries])
          (hlegacy'.trans hlegacy))
    | true =>
        refine holds_mono (renameLegacy_done hsure d₂) ?_
        rintro d₃ result ⟨hsame, hnone⟩
        have hindex : entriesOf d₃ = merged dates moment.now records (entriesOf d) := by
          rw [hsame, entriesOf, hsaved rfl]
        have hcount : ∀ n, imports n d₃ = (positions 0 items).count n := fun n => by
          rw [imports, hindex, imports_merged hrecords (h.pending hsome)]
        refine ⟨⟨fun n => ?_, fun hstill => absurd hnone hstill⟩, fun _ n hmem => ?_⟩
        · rw [hcount]
          exact List.nodup_iff_count_le_one.mp (positions_nodup 0 items) n
        · rw [hcount]
          exact List.count_eq_one_of_mem (positions_nodup 0 items) hmem

/-- The whole import: what there is to import is what the disk has. -/
theorem migrateLegacyLog_holds (env : Surroundings) {choose : Step → Fate → Fate}
    (h : ImportedOnce d)
    (hrename : d.hasEntries = true → ∀ fate, choose .renameLegacy fate = .done) :
    Holds (choosing serve choose) (migrateLegacyLog env dates moment) d fun d' _ =>
      ImportedOnce d' ∧ ∀ text, d.legacy = some text → d'.legacy = none →
        ∀ n ∈ positions 0 text.parsed, imports n d' = 1 := by
  have hread : ∀ fate, choosing serve choose d .readLegacy fate = (d, .error ()) ∨
      choosing serve choose d .readLegacy fate = (d, .ok (.legacy d.legacy)) :=
    fun fate => serve_read rfl d (choose .readLegacy fate)
  have hstill : ∀ text, d.legacy = some text → d.legacy = none →
      ∀ n ∈ positions 0 text.parsed, imports n d = 1 := fun text hsome hnone => by
    rw [hnone] at hsome
    cases hsome
  refine holds_call (fun fate d' e hserve => ?_) fun fate d' answer hserve => ?_
  · rcases hread fate with hfail | hanswer
    · rw [hfail] at hserve
      cases hserve
      exact ⟨h, hstill⟩
    · rw [hanswer] at hserve
      cases hserve
  obtain ⟨rfl, rfl⟩ : d = d' ∧ Answer.legacy d.legacy = answer := by
    rcases hread fate with hfail | hanswer
    · rw [hfail] at hserve
      cases hserve
    · rw [hanswer] at hserve
      cases hserve
      exact ⟨rfl, rfl⟩
  cases hlegacy : d.legacy with
  | none => exact holds_ret ⟨h, fun text hsome => by cases hsome⟩
  | some text =>
      refine holds_bind (holds_mono (holds_choosing choose
        (spares_holds (importItems_spares env moment (fun _ => List.not_mem_nil) 0 text.parsed)
          (importItems_returns env moment 0 text.parsed) d)) ?_)
      rintro d₁ (_ | records) ⟨hsame, hreturns⟩
      · refine ⟨h.of_same (by rw [entriesOf, hsame.index, ← entriesOf]) (.inl hsame.legacy), ?_⟩
        intro text' _ hnone
        rw [hsame.legacy, hlegacy] at hnone
        cases hnone
      have hfirst : ImportedOnce d₁ :=
        h.of_same (by rw [entriesOf, hsame.index, ← entriesOf]) (.inl hsame.legacy)
      have hsome : d₁.legacy ≠ none := by
        rw [hsame.legacy, hlegacy]
        simp
      have hsure : positions 0 text.parsed ≠ [] → ∀ fate, choose .renameLegacy fate = .done :=
        fun hne => hrename (by simpa [Disk.hasEntries, hlegacy] using hne)
      refine holds_mono (finishMigration_holds hfirst hsome (hreturns records rfl) hsure) ?_
      rintro d₂ result ⟨honce, hall⟩
      refine ⟨honce, fun text' htext hnone => ?_⟩
      obtain rfl : text = text' := Option.some.inj htext
      exact hall hnone

theorem loadIndex_once (env : Surroundings) {choose : Step → Fate → Fate} (h : ImportedOnce d)
    (hrename : d.hasEntries = true → ∀ fate, choose .renameLegacy fate = .done) :
    Holds (choosing serve choose) (loadIndex env dates moment) d fun d' result =>
      ImportedOnce d' ∧ ∀ entries, result = .ok entries → entries = entriesOf d' := by
  refine holds_bind (holds_mono (migrateLegacyLog_holds env h hrename) ?_)
  rintro d₁ (_ | _) ⟨honce, _⟩
  · exact ⟨honce, nofun⟩
  refine holds_mono (holds_choosing choose (readIndexFile_entries d₁)) ?_
  rintro d₂ result ⟨hentries, hlegacy, hread⟩
  exact ⟨honce.of_same hentries (.inl hlegacy), fun entries hresult =>
    (hread entries hresult).trans hentries.symm⟩

/-- A recorder adds a record of its own and drops others. -/
theorem recordRun_once (env : Surroundings) {choose : Step → Fate → Fate} (run : Run)
    (h : ImportedOnce d)
    (hrename : d.hasEntries = true → ∀ fate, choose .renameLegacy fate = .done) :
    Holds (choosing serve choose) (recordRun env dates moment run) d
      fun d' _ => ImportedOnce d' := by
  refine holds_bind (holds_mono
    (holds_choosing choose (writeOutput_holds run.runId _ moment.now d)) ?_)
  rintro d₁ result ⟨hsame, _⟩
  have hsame := hsame [] List.not_mem_nil
  have hwritten : ImportedOnce d₁ :=
    h.of_same (by rw [entriesOf, hsame.index, ← entriesOf]) (.inl hsame.legacy)
  cases result with
  | error e => exact hwritten
  | ok count =>
    have hhas : d₁.hasEntries = d.hasEntries := by
      rw [Disk.hasEntries, hsame.legacy, ← Disk.hasEntries]
    refine holds_bind (holds_mono (loadIndex_once env hwritten (hhas ▸ hrename)) ?_)
    rintro d₂ (_ | entries) ⟨honce, hread⟩
    · exact honce
    obtain rfl : entries = entriesOf d₂ := hread entries rfl
    refine holds_bind (holds_mono (holds_choosing choose (saveIndex_holds _ d₂)) ?_)
    rintro d₃ (_ | saved) ⟨_, hlegacy, hsaved, hfailed⟩
    · exact honce.of_same (by rw [entriesOf, hfailed (by simp), ← entriesOf]) (.inl hlegacy)
    cases saved with
    | false =>
        exact holds_ret
          (honce.of_same (by rw [entriesOf, hfailed (by simp), ← entriesOf]) (.inl hlegacy))
    | true =>
        have hindex : entriesOf d₃ = (run.selected dates moment.now count (entriesOf d₂)).1 := by
          rw [entriesOf, hsaved rfl]
        have hsub : (entriesOf d₃).Sublist (run.record dates count :: entriesOf d₂) :=
          hindex ▸ selectKept_sublist
        have hsavedOnce : ImportedOnce d₃ := by
          refine ⟨fun n => ?_, fun hstill e he => ?_⟩
          · refine ((hsub.map Record.origin).count_le (some n)).trans ?_
            rw [List.map_cons, List.count_cons_of_ne (by simp [Run.record])]
            exact honce.once n
          · rcases List.mem_cons.mp (hsub.subset he) with rfl | hold
            · rfl
            · exact honce.pending (hlegacy ▸ hstill) e hold
        -- what follows is about output files
        exact hsavedOnce.spares choose (cleanUp_spares moment.now run.runId (fun _ _ =>
          List.not_mem_nil)
          (List.nil_subset _))

end Imports

section Operations

/-- A reader of the index, or a recorder of a run. -/
inductive Operation where
  | read (moment : Moment) (fates : ℕ → Step → Fate)
  | record (attempt : Call)

variable (env : Surroundings) (dates : Dates)

def Operation.fates : Operation → ℕ → Step → Fate
  | read _ fates => fates
  | record attempt => attempt.fates

def Operation.moment : Operation → Moment
  | read moment _ => moment
  | record attempt => attempt.moment

def Operation.after (d : Disk) : Operation → Disk
  | read moment fates => (exec serve fates 0 (loadIndex env dates moment) d).1
  | record attempt => attempt.after env dates d

/-- The disk when the import starts. A recorder writes its output first. -/
def Operation.started (d : Disk) : Operation → Disk
  | read _ _ => d
  | record attempt => (exec serve attempt.fates 0 (writeOutput attempt.run.runId
      (redact env attempt.moment.store attempt.run.output) attempt.moment.now) d).1

/-- The steps that have been taken by then. -/
def Operation.offset : Operation → ℕ
  | read _ _ => 0
  | record _ => 1

/-- The disk when the import is through. -/
def Operation.migrated (d : Disk) (op : Operation) : Disk :=
  (exec serve op.fates op.offset (migrateLegacyLog env dates op.moment) (op.started env d)).1

/-- Where there are entries to import, the old log is put away once that is due. -/
def RenameSucceeds (d : Disk) (op : Operation) : Prop :=
  d.hasEntries = true → ∀ n, op.fates n .renameLegacy = .done

/-- An import that is completed has every entry of the old log once. -/
def ImportsAll (d : Disk) (op : Operation) : Prop :=
  ∀ text, d.legacy = some text → (op.migrated env dates d).legacy = none →
    ∀ n ∈ positions 0 text.parsed, imports n (op.migrated env dates d) = 1

/-- The rename where it is due. -/
def Disk.renames (d : Disk) : Step → Fate → Fate
  | .renameLegacy, fate => if d.hasEntries then .done else fate
  | _, fate => fate

variable {d : Disk} {op : Operation}

theorem RenameSucceeds.fates_eq (h : RenameSucceeds d op) :
    (fun n step => d.renames step (op.fates n step)) = op.fates := by
  funext n step
  cases step with
  | renameLegacy =>
      rw [Disk.renames]
      split
      · rename_i hentries
        exact (h hentries n).symm
      · rfl
  | _ => rfl

theorem renames_done (d : Disk) (h : d.hasEntries = true) (fate : Fate) :
    d.renames .renameLegacy fate = .done := if_pos h

theorem after_once (h : ImportedOnce d) (hrename : RenameSucceeds d op) :
    ImportedOnce (op.after env dates d) := by
  have hfates := hrename.fates_eq
  cases op with
  | read moment fates =>
      have hload : Holds (choosing serve d.renames) (loadIndex env dates moment) d _ :=
        loadIndex_once env h (renames_done d)
      have honce := (hload fates 0).1
      rw [exec_choosing] at honce
      rw [Operation.fates] at hfates
      rwa [hfates] at honce
  | record attempt =>
      have hrecord : Holds (choosing serve d.renames)
          (recordRun env dates attempt.moment attempt.run) d _ :=
        recordRun_once env attempt.run h (renames_done d)
      have honce := hrecord attempt.fates 0
      rw [exec_choosing] at honce
      rw [Operation.fates] at hfates
      rwa [hfates] at honce

theorem started_same (d : Disk) (op : Operation) : SameLog [] d (op.started env d) := by
  cases op with
  | read moment fates => exact .refl [] d
  | record attempt =>
      exact ((writeOutput_holds _ _ _ d) attempt.fates 0).1 [] List.not_mem_nil

theorem imports_all (h : ImportedOnce d) (hrename : RenameSucceeds d op) :
    ImportsAll env dates d op := by
  have hsame := started_same env d op
  have hstart : ImportedOnce (op.started env d) :=
    h.of_same (by rw [entriesOf, hsame.index, ← entriesOf]) (.inl hsame.legacy)
  have hentries : (op.started env d).hasEntries = d.hasEntries := by
    rw [Disk.hasEntries, hsame.legacy, ← Disk.hasEntries]
  have hmigrate : Holds (choosing serve d.renames) (migrateLegacyLog env dates op.moment)
      (op.started env d) _ :=
    migrateLegacyLog_holds env hstart fun hhas => renames_done d (hentries ▸ hhas)
  have hall := hmigrate op.fates op.offset
  rw [exec_choosing, hrename.fates_eq] at hall
  intro text htext hnone
  exact hall.2 text (hsame.legacy.trans htext) hnone

/-- Through every sequence of readers and recorders, every entry of the old log
is in the index at most once, and once when the import is completed, provided
that the old log is put away whenever that is due. -/
theorem imported_once (env : Surroundings) (dates : Dates) {d : Disk} (hnew : ImportedOnce d)
    (ops : List Operation) (hrename : Meets (Operation.after env dates) RenameSucceeds d ops) :
    (∀ d' ∈ reached (Operation.after env dates) d ops, ∀ n, imports n d' ≤ 1) ∧
      Meets (Operation.after env dates) (ImportsAll env dates) d ops := by
  have hall := reached_all (fun d op h hrename => after_once env dates h hrename) hnew hrename
  have himports : ∀ d op, ImportedOnce d → RenameSucceeds d op → ImportsAll env dates d op :=
    fun d op h hrename => imports_all env dates h hrename
  exact ⟨fun d' hd' => (hall d' hd').once, meets_of_reached himports hall hrename⟩

def oldEntry : LegacyEntry where
  type := some "os"
  target := some "nas"
  targetName := some "NAS"
  status := some "success"
  ranAt := some "1970-01-01T00:00:00+00:00"
  lines := some ["Done."]

/-- An old log with one entry. -/
def oldDisk : Disk where
  legacy := some (.items [.entry oldEntry])

/-- A reader that draws an id, whose rename of the old log may fail. -/
def reader (runId : String) (rename : Fate) : Operation :=
  .read { now := 0, ids := fun _ => runId, store := some ∅ } fun _ step =>
    match step with
    | .renameLegacy => rename
    | _ => .done

theorem oldDisk_new : ImportedOnce oldDisk := ⟨fun _ => Nat.zero_le 1, fun _ => nofun⟩

/-- A reader that cannot write the index. -/
def failedReader : Operation :=
  .read { now := 0, ids := fun _ => "0a1b2c3d", store := some ∅ } fun _ step =>
    match step with
    | .writeTmp _ => .failed none
    | _ => .done

/-- The first reader leaves the old log, the second one imports it, and no entry is there
twice after a recorder and a third reader. -/
theorem reader_imports :
    (failedReader.after plainSurroundings epoch oldDisk).legacy = oldDisk.legacy ∧
      imports 0 ((reader "4e5f6071" .done).migrated plainSurroundings epoch
        (failedReader.after plainSurroundings epoch oldDisk)) = 1 ∧
      ∀ d ∈ reached (Operation.after plainSurroundings epoch) oldDisk
        [failedReader, reader "4e5f6071" .done, .record firstCall, reader "6a7b8c9d" .done],
        ∀ n, imports n d ≤ 1 := by
  have hrename : Meets (Operation.after plainSurroundings epoch) RenameSucceeds oldDisk
      [failedReader, reader "4e5f6071" .done, .record firstCall, reader "6a7b8c9d" .done] :=
    ⟨fun _ _ => rfl, fun _ _ => rfl, fun _ _ => rfl, fun _ _ => rfl, trivial⟩
  obtain ⟨honce, himported⟩ := imported_once plainSurroundings epoch oldDisk_new _ hrename
  exact ⟨rfl, himported.2.1 _ rfl rfl 0 (by decide), honce⟩

/-- A reader adds the entry to the index, whatever becomes of its rename. -/
theorem reader_adds {d : Disk} (hlegacy : d.legacy = oldDisk.legacy) (hwhole : d.index ≠ some .torn)
    (runId : String) (rename : Fate) :
    ∃ count, ((reader runId rename).after plainSurroundings epoch d).index =
      some (.full (merged epoch 0 [oldEntry.record runId count 0] (entriesOf d))) := by
  obtain ⟨index, indexTmp, indexCorrupt, runs, legacy, migrated⟩ := d
  obtain rfl : legacy = oldDisk.legacy := hlegacy
  refine ⟨(flatLines (redact plainSurroundings (some ∅) ["Done."])).length, ?_⟩
  match index, hwhole with
  | none, _ => cases rename <;> rfl
  | some (.full entries), _ => cases rename <;> rfl
  | some .torn, hwhole => exact absurd rfl hwhole

/-- The rename fails once, and the next reader imports the entry again. -/
theorem failed_rename_imports_twice :
    imports 0 ((reader "4e5f6071" .done).after plainSurroundings epoch
    ((reader "0a1b2c3d" (.failed none)).after plainSurroundings epoch oldDisk)) = 2 := by
  obtain ⟨count, hfirst⟩ := reader_adds (d := oldDisk) rfl nofun "0a1b2c3d" (.failed none)
  have hwhole : ((reader "0a1b2c3d" (.failed none)).after plainSurroundings epoch oldDisk).index ≠
      some .torn := by
    rw [hfirst]
    simp
  have hlegacy : ((reader "0a1b2c3d" (.failed none)).after plainSurroundings epoch oldDisk).legacy =
      oldDisk.legacy := rfl
  obtain ⟨count', hsecond⟩ := reader_adds hlegacy hwhole "4e5f6071" .done
  -- two records of the one entry, in whatever order
  have hperm : (merged epoch 0 [oldEntry.record "4e5f6071" count' 0]
      (merged epoch 0 [oldEntry.record "0a1b2c3d" count 0] [])).Perm
      (oldEntry.record "4e5f6071" count' 0 :: [oldEntry.record "0a1b2c3d" count 0]) :=
    (List.mergeSort_perm _ _).trans ((List.mergeSort_perm _ _).cons _)
  rw [imports, entriesOf, hsecond, entriesOf, hfirst]
  exact (hperm.map Record.origin).count_eq _

end Operations

end Keepup.Activity
