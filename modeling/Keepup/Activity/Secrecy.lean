import Keepup.Activity.Import
import Keepup.Activity.IndexText
import Keepup.Activity.Leaks

/-!
What gets to the disk of the secrets in the credential store. Only the output of a
run is masked; the other texts of a record are written to the index as they come.
-/

namespace Keepup.Activity

open Lib Remote

section Writes

/-- The texts that a step writes. -/
def Step.texts : Step → List String
  | .writeOutput _ text _ => [text]
  | .writeTmp entries => [indexText entries]
  | _ => []

def Step.Hides (secrets : List String) (step : Step) : Prop :=
  ∀ text ∈ step.texts, Activity.Hides secrets text

/-- The indexes that are written are of one kind, and the outputs of another. -/
def Step.Within (P : List Record → Prop) (Q : String → Prop) : Step → Prop
  | .writeOutput _ text _ => Q text
  | .writeTmp entries => P entries
  | _ => True

/-- So are the index on disk, and the one that is to replace it. -/
structure Disk.Within (P : List Record → Prop) (d : Disk) : Prop where
  index : ∀ entries, d.index = some (.full entries) → P entries
  indexTmp : ∀ entries, d.indexTmp = some (.full entries) → P entries

/-- There is no secret in the index. -/
def IndexHides (secrets : List String) (entries : List Record) : Prop :=
  Activity.Hides secrets (indexText entries)

variable {secrets : List String} {P : List Record → Prop} {Q : String → Prop} {d : Disk}

theorem Step.hides_iff {step : Step} :
    step.Hides secrets ↔ step.Within (IndexHides secrets) (Activity.Hides secrets) := by
  cases step with
  | writeOutput _ text _ => exact List.forall_mem_singleton
  | writeTmp entries => exact List.forall_mem_singleton
  | _ => exact iff_of_true nofun trivial

theorem Disk.Within.entries (h : d.Within P) (hnil : P []) : P (entriesOf d) := by
  rw [entriesOf]
  split
  · rename_i entries hindex
    exact h.index entries hindex
  · exact hnil

theorem perform_within {step : Step} (hstep : step.Within P Q) (hd : d.Within P) :
    (d.perform step).1.Within P := by
  cases step with
  | writeTmp entries =>
      refine ⟨hd.index, fun written hwritten => ?_⟩
      cases hwritten
      exact hstep
  | replaceIndex => exact ⟨hd.indexTmp, nofun⟩
  | quarantine => exact ⟨nofun, hd.indexTmp⟩
  | sweep runId cutoff =>
      rw [Disk.perform]
      dsimp only
      split
      · exact ⟨hd.index, hd.indexTmp⟩
      · exact hd
  | _ => exact ⟨hd.index, hd.indexTmp⟩

theorem tear_within (step : Step) (left : Option String) (hd : d.Within P) :
    (d.tear step left).Within P := by
  cases step with
  | writeTmp entries =>
      cases left with
      | none => exact hd
      | some left => exact ⟨hd.index, nofun⟩
  | writeOutput runId text now =>
      cases left with
      | none => exact hd
      | some left => exact ⟨hd.index, hd.indexTmp⟩
  | _ => exact hd

theorem serve_within (d : Disk) (step : Step) (fate : Fate) (hstep : step.Within P Q)
    (hd : d.Within P) :
    (serve d step fate).1.Within P := by
  rcases serve_disk d step fate with hdone | ⟨left, htorn⟩
  · exact hdone ▸ perform_within hstep hd
  · exact htorn ▸ tear_within step left hd

/-- All records are of one kind. -/
def Among (P : Record → Prop) (entries : List Record) : Prop := ∀ e ∈ entries, P e

/-- An index hides the secrets if they cannot be pieced together from its lines. -/
theorem indexHides_of_among {P : Record → Prop} {entries : List Record} (h : Among P entries)
    (hlines : ∀ secret ∈ secrets, ¬ Masking.Pieced '\n' (IndexLine P) secret.toList) :
    IndexHides secrets entries :=
  fun secret hsecret hin => hlines secret hsecret (pieced_of_indexText h hin)

theorem Step.Within.hides {P : Record → Prop} {step : Step}
    (h : step.Within (Among P) (Activity.Hides secrets))
    (hlines : ∀ secret ∈ secrets, ¬ Masking.Pieced '\n' (IndexLine P) secret.toList) :
    step.Hides secrets := by
  rw [Step.hides_iff]
  cases step with
  | writeOutput _ text _ => exact h
  | writeTmp entries => exact indexHides_of_among h hlines
  | _ => trivial

end Writes

section Sending

variable {env : Surroundings} {dates : Dates} {P : Record → Prop}
  {Q : String → Prop} {d : Disk} {moment : Moment}

/-- The entries of an old log, with where they are. -/
def entriesAt : ℕ → List LegacyItem → List (ℕ × LegacyEntry)
  | _, [] => []
  | position, .entry entry :: items => (position, entry) :: entriesAt (position + 1) items
  | position, .other :: items => entriesAt (position + 1) items

variable (env moment) in
/-- The lines of an imported entry, as they are written. -/
def LegacyEntry.kept (entry : LegacyEntry) :
    List String := redact env moment.store (entry.lines.getD [])

/-- The number of lines that a writer of some output returns. -/
def Written (lines : List String) (count : ℕ) : Prop := count = 0 ∨ count = (flatLines lines).length

variable (env moment P Q) in
/-- What the import of one entry writes. -/
def ImportWithin (found : ℕ × LegacyEntry) : Prop :=
  Q (outputText (found.2.kept env moment)) ∧ ∀ count, Written (found.2.kept env moment) count →
    P (found.2.record (moment.ids found.1) count found.1)

theorem writeOutput_sends {runId : String} {lines : List String} {P : List Record → Prop}
    (h : Q (outputText lines)) (now : ℚ) :
    (writeOutput runId lines now).Only (Step.Within P Q) := by
  refine ⟨h, fun answer => ?_⟩
  cases answer <;> trivial

theorem writeOutput_returns (runId : String) (lines : List String) (now : ℚ) :
    (writeOutput runId lines now).Returns (Written lines) := by
  intro answer
  cases answer with
  | done => exact .inr rfl
  | _ => exact .inl rfl

theorem importItems_sends {start : ℕ} {items : List LegacyItem}
    (h : ∀ found ∈ entriesAt start items, ImportWithin env P Q moment found) :
    (importItems env moment start items).Only (Step.Within (Among P) Q) := by
  induction items generalizing start with
  | nil => trivial
  | cons item items ih =>
      cases item with
      | other => exact ih h
      | entry entry =>
          have hfirst := h (start, entry) List.mem_cons_self
          have hrest : (importItems env moment (start + 1) items).Only (Step.Within (Among P) Q) :=
            ih fun found hfound => h found (List.mem_cons_of_mem _ hfound)
          exact only_bind (writeOutput_sends hfirst.1 moment.now) fun _ =>
            only_bind hrest fun _ => trivial

theorem importItems_among {start : ℕ} {items : List LegacyItem}
    (h : ∀ found ∈ entriesAt start items, ImportWithin env P Q moment found) :
    (importItems env moment start items).Returns (Among P) := by
  induction items generalizing start with
  | nil => exact nofun
  | cons item items ih =>
      cases item with
      | other => exact ih h
      | entry entry =>
          have hfirst := h (start, entry) List.mem_cons_self
          refine returns_bind_of (writeOutput_returns _ _ _) fun count hcount => ?_
          refine returns_bind_of (ih fun found hfound => h found (List.mem_cons_of_mem _ hfound)) ?_
          intro records hrecords e he
          rcases List.mem_cons.mp he with rfl | hrest
          · exact hfirst.2 count hcount
          · exact hrecords e hrest

theorem readIndexFile_sends {P : List Record → Prop} : (readIndexFile).Only (Step.Within P Q) := by
  refine ⟨trivial, fun answer => ?_⟩
  rcases answer with _ | _ | (_ | _ | _) | _ | _
  case index.some.torn => exact ⟨trivial, fun _ => trivial⟩
  all_goals trivial

theorem saveIndex_sends {P : List Record → Prop} {entries : List Record} (h : P entries) :
    (saveIndex entries).Only (Step.Within P Q) := by
  refine ⟨h, fun answer => ?_⟩
  cases answer with
  | done =>
      refine ⟨trivial, fun answer => ?_⟩
      cases answer <;> trivial
  | _ => trivial

theorem merged_among {records entries : List Record} {now : ℚ} (hrecords : Among P records)
    (hentries : Among P entries) : Among P (merged dates now records entries) := by
  intro e he
  have hmem : e ∈ records ++ entries := (List.mergeSort_perm _ _).mem_iff.mp he
  exact (List.mem_append.mp hmem).elim (hrecords e) (hentries e)

theorem finishMigration_sends {records : List Record} (hd : d.Within (Among P))
    (hrecords : Among P records) :
    Sends serve (Step.Within (Among P) Q) (finishMigration dates moment records) d := by
  have hrename : renameLegacy.Only (Step.Within (Among P) Q) := ⟨trivial, fun _ => trivial⟩
  rw [finishMigration]
  split
  · exact sends_only hrename
  refine sends_bind (sends_only readIndexFile_sends) (holds_mono (readIndexFile_entries d) ?_)
  rintro d₁ result ⟨_, _, hread⟩ entries hresult
  obtain rfl := hread entries hresult
  have hentries : Among P (entriesOf d) := hd.entries (List.forall_mem_nil P)
  refine sends_only (only_bind (saveIndex_sends (merged_among hrecords hentries)) fun saved => ?_)
  cases saved with
  | true => exact hrename
  | false => trivial

theorem migrateLegacyLog_sends (hd : d.Within (Among P)) (h : ∀ text, d.legacy = some text →
      ∀ found ∈ entriesAt 0 text.parsed, ImportWithin env P Q moment found) :
    Sends serve (Step.Within (Among P) Q) (migrateLegacyLog env dates moment) d := by
  refine sends_call trivial fun fate d' answer hserve => ?_
  obtain ⟨rfl, rfl⟩ : d = d' ∧ Answer.legacy d.legacy = answer := by
    have hread : Step.readLegacy.reads = true := rfl
    rcases serve_read hread d fate with hfail | hanswer
    · rw [hfail] at hserve
      cases hserve
    · rw [hanswer] at hserve
      cases hserve
      exact ⟨rfl, rfl⟩
  cases hlegacy : d.legacy with
  | none => exact sends_only trivial
  | some text =>
      have himport := importItems_sends (h text hlegacy)
      have hkeep := holds_sends serve_within (sends_only (s := d) himport) hd
      refine sends_bind (sends_only himport) fun fates n records hresult => ?_
      exact finishMigration_sends (hkeep fates n)
        (exec_returns (importItems_among (h text hlegacy)) hresult)

theorem loadIndex_sends (hd : d.Within (Among P)) (h : ∀ text, d.legacy = some text →
      ∀ found ∈ entriesAt 0 text.parsed, ImportWithin env P Q moment found) :
    Sends serve (Step.Within (Among P) Q) (loadIndex env dates moment) d :=
  sends_bind (migrateLegacyLog_sends hd h) fun _ _ _ _ => sends_only readIndexFile_sends

/-- The records that a reader gets are of the kind of those on disk. -/
theorem loadIndex_among (hd : d.Within (Among P)) (h : ∀ text, d.legacy = some text →
      ∀ found ∈ entriesAt 0 text.parsed, ImportWithin env P Q moment found) :
    Holds serve (loadIndex env dates moment) d fun d' result =>
      d'.Within (Among P) ∧ ∀ entries, result = .ok entries → Among P entries := by
  refine holds_bind (holds_mono (holds_sends serve_within (migrateLegacyLog_sends hd h) hd) ?_)
  rintro d₁ (_ | _) hd₁
  · exact ⟨hd₁, nofun⟩
  intro fates n
  have hsends : (readIndexFile).Only (Step.Within (Among P) Q) := readIndexFile_sends
  refine ⟨holds_sends serve_within (sends_only hsends) hd₁ fates n, fun entries hresult => ?_⟩
  obtain rfl := (readIndexFile_entries d₁ fates n).2.2 entries hresult
  exact hd₁.entries (List.forall_mem_nil P)

theorem cleanUp_sends {P : List Record → Prop} (now : ℚ) (runId : String)
    (dropped keepIds : List String) :
    (deleteOutputFiles dropped >>= fun _ => sweepAgedOrphans now keepIds >>= fun _ =>
      (.ret runId : Program String)).Only (Step.Within P Q) := by
  have hdelete : (deleteOutputFiles dropped).Only (Step.Within P Q) := by
    induction dropped with
    | nil => trivial
    | cons other dropped ih =>
        rw [deleteOutputFiles]
        split
        · exact ih
        · exact ⟨trivial, fun _ => ih⟩
  have hsweep : ∀ orphans :
      List String, (sweepEach (now - retention) orphans).Only (Step.Within P Q) := by
    intro orphans
    induction orphans with
    | nil => trivial
    | cons other orphans ih => exact ⟨trivial, fun _ => ih⟩
  refine only_bind hdelete fun _ => only_bind ⟨trivial, fun answer => ?_⟩ fun _ => trivial
  cases answer with
  | runs found => exact hsweep _
  | _ => trivial

theorem recordRun_sends {run : Run} (hd : d.Within (Among P)) (h : ∀ text, d.legacy = some text →
      ∀ found ∈ entriesAt 0 text.parsed, ImportWithin env P Q moment found)
    (hrecord : ∀ count, Written (redact env moment.store run.output) count →
      P (run.record dates count))
    (houtput : Q (outputText (redact env moment.store run.output))) :
    Sends serve (Step.Within (Among P) Q) (recordRun env dates moment run) d := by
  have hwrite : Sends serve (Step.Within (Among P) Q) (writeOutput run.runId _ moment.now) d :=
    sends_only (writeOutput_sends houtput moment.now)
  refine sends_bind hwrite fun fates n count hresult => ?_
  have hcount := exec_returns (writeOutput_returns _ _ _) hresult
  have hd₁ := holds_sends serve_within hwrite hd fates n
  have hlegacy :=
    ((writeOutput_holds run.runId (redact env moment.store run.output) moment.now d fates n).1
    [] List.not_mem_nil).legacy
  rw [← hlegacy] at h
  refine sends_bind (loadIndex_sends hd₁ h) (holds_mono (loadIndex_among hd₁ h) ?_)
  rintro d₂ result ⟨hd₂, hread⟩ entries hresult
  have hselected : Among P (run.selected dates moment.now count entries).1 := by
    intro e he
    rcases List.mem_cons.mp (selectKept_sublist.subset he) with rfl | hold
    · exact hrecord count hcount
    · exact hread entries hresult e hold
  refine sends_only (only_bind (saveIndex_sends hselected) fun saved => ?_)
  cases saved with
  | true => exact cleanUp_sends moment.now run.runId _ _
  | false => trivial

end Sending

section Answered

variable {env : Surroundings} {dates : Dates} {d : Disk} {moment : Moment} (written : Bool)

/-- Every step is answered: all are done, but for the output if it cannot be written. -/
def answered : ℕ → Step → Fate := fun _ step =>
  match step with
  | .writeOutput _ _ _ => if written then .done else .failed none
  | _ => .done

/-- The number of lines that is recorded then. -/
def recorded (lines : List String) : ℕ := if written then (flatLines lines).length else 0

theorem serve_answered (d : Disk) (step : Step) (n : ℕ) :
    ∃ d' answer, serve d step (answered written n step) = (d', .ok answer) := by
  cases step with
  | writeOutput runId text now => cases written <;> exact ⟨_, _, rfl⟩
  | _ => exact ⟨_, _, rfl⟩

theorem exec_answered {α : Type} {prog : Program α} (h : prog.NeverRaises) (n : ℕ) (d : Disk) :
    ∃ d' a, exec serve (answered written) n prog d = (d', .ok a) :=
  exec_neverRaises (serve_answered written) h n d

theorem exec_writeOutput (runId : String) (lines : List String) (now : ℚ) (n : ℕ) (d : Disk) :
    ∃ d', exec serve (answered written) n (writeOutput runId lines now) d =
      (d', .ok (recorded written lines)) := by
  cases written <;> exact ⟨_, rfl⟩

theorem readIndexFile_neverRaises : (readIndexFile).NeverRaises := by
  rintro (_ | _ | (_ | _ | _) | _ | _)
  case index.some.torn => exact fun _ => trivial
  all_goals trivial

theorem saveIndex_neverRaises (entries : List Record) : (saveIndex entries).NeverRaises := by
  intro answer
  cases answer with
  | done =>
      intro answer
      cases answer <;> trivial
  | _ => trivial

variable (env moment) in
theorem importItems_neverRaises (start : ℕ) (items : List LegacyItem) :
    (importItems env moment start items).NeverRaises := by
  induction items generalizing start with
  | nil => trivial
  | cons item items ih =>
      cases item with
      | other => exact ih (start + 1)
      | entry entry =>
          refine neverRaises_bind (fun answer => ?_) fun _ =>
            neverRaises_bind (ih (start + 1)) fun _ => trivial
          cases answer <;> trivial

theorem finishMigration_neverRaises (records : List Record) :
    (finishMigration dates moment records).NeverRaises := by
  have hrename : renameLegacy.NeverRaises := fun _ => trivial
  rw [finishMigration]
  split
  · exact hrename
  · refine neverRaises_bind readIndexFile_neverRaises fun entries =>
      neverRaises_bind (saveIndex_neverRaises _) fun saved => ?_
    cases saved with
    | true => exact hrename
    | false => trivial

variable (env dates moment) in
theorem loadIndex_neverRaises : (loadIndex env dates moment).NeverRaises := by
  refine neverRaises_bind (fun answer => ?_) fun _ => readIndexFile_neverRaises
  rcases answer with _ | _ | _ | _ | (_ | text)
  case legacy.some =>
    exact neverRaises_bind (importItems_neverRaises env moment 0 text.parsed) fun records =>
      finishMigration_neverRaises records
  all_goals trivial

variable (env moment) in
/-- The record of every entry is among those that are imported, with the lines that were
written for it. -/
theorem exec_importItems {start : ℕ} {items : List LegacyItem} {found : ℕ × LegacyEntry}
    (h : found ∈ entriesAt start items) (n : ℕ) (d : Disk) : ∃ d' records,
      exec serve (answered written) n (importItems env moment start items) d = (d', .ok records) ∧
        found.2.record (moment.ids found.1) (recorded written (found.2.kept env moment)) found.1 ∈
          records := by
  induction items generalizing start n d with
  | nil => cases h
  | cons item items ih =>
      cases item with
      | other => exact ih h n d
      | entry entry =>
          obtain ⟨d₁, hwrite⟩ := exec_writeOutput written (moment.ids start)
            (redact env moment.store (entry.lines.getD [])) moment.now n d
          obtain ⟨m, hm⟩ := exec_bind hwrite fun lineCount =>
            importItems env moment (start + 1) items >>= fun records =>
              .ret (entry.record (moment.ids start) lineCount start :: records)
          rcases List.mem_cons.mp h with rfl | hrest
          · obtain ⟨d₂, records, hrecords⟩ := exec_answered written
              (importItems_neverRaises env moment (start + 1) items) m d₁
            obtain ⟨k, hk⟩ := exec_bind hrecords fun records =>
              .ret (entry.record (moment.ids start) _ start :: records)
            exact ⟨d₂, _, hm.trans hk, List.mem_cons_self⟩
          · obtain ⟨d₂, records, hrecords, hmem⟩ := ih hrest m d₁
            obtain ⟨k, hk⟩ := exec_bind hrecords fun records =>
              .ret (entry.record (moment.ids start) _ start :: records)
            exact ⟨d₂, _, hm.trans hk, List.mem_cons_of_mem _ hmem⟩

variable (dates moment) in
theorem finishMigration_writes {records : List Record} {e : Record} (he : e ∈ records) (n : ℕ)
    (d : Disk) :
    ∃ entries, e ∈ entries ∧
      .writeTmp entries ∈
        sent serve (answered written) n (finishMigration dates moment records) d := by
  obtain ⟨d₁, entries, hentries⟩ := exec_answered written readIndexFile_neverRaises n d
  refine ⟨merged dates moment.now records entries, ?_, ?_⟩
  · have hmem : e ∈ records ++ entries := List.mem_append_left _ he
    exact (List.mergeSort_perm _ _).mem_iff.mpr hmem
  · rw [finishMigration, if_neg (List.ne_nil_of_mem he)]
    exact mem_sent_bind_right hentries fun m => mem_sent_bind_left (mem_sent_head _ _ m d₁) _

variable (env dates moment)

/-- An import writes an index with the record of every entry. -/
theorem migrateLegacyLog_writes {text : LegacyText} (hlegacy : d.legacy = some text)
    {found : ℕ × LegacyEntry} (h : found ∈ entriesAt 0 text.parsed) (n : ℕ) : ∃ entries,
      found.2.record (moment.ids found.1) (recorded written (found.2.kept env moment)) found.1 ∈
        entries ∧
        .writeTmp entries ∈
          sent serve (answered written) n (migrateLegacyLog env dates moment) d := by
  have hread : serve d .readLegacy (answered written n .readLegacy) =
      (d, .ok (.legacy (some text))) := by
    rw [← hlegacy]
    rfl
  have hsent : sent serve (answered written) n (migrateLegacyLog env dates moment) d =
    .readLegacy ::
      sent serve (answered written) (n + 1) (importItems env moment 0 text.parsed >>= fun records =>
        finishMigration dates moment records) d := by
    rw [migrateLegacyLog, sent_call_ok hread]
  rw [hsent]
  obtain ⟨d₁, records, hrecords, hmem⟩ := exec_importItems env moment written h (n + 1) d
  obtain ⟨m, hm⟩ := sent_bind hrecords fun records => finishMigration dates moment records
  obtain ⟨entries, hentries, hwrite⟩ := finishMigration_writes dates moment written hmem m d₁
  rw [hm]
  exact ⟨entries, hentries, List.mem_cons_of_mem _ (List.mem_append_right _ hwrite)⟩

/-- A recorder writes an index with the record of the run. -/
theorem recordRun_writes (run : Run) (n : ℕ) (d : Disk) : ∃ entries,
    run.record dates (recorded written (redact env moment.store run.output)) ∈ entries ∧
      .writeTmp entries ∈ sent serve (answered written) n (recordRun env dates moment run) d := by
  obtain ⟨d₁, hwrite⟩ := exec_writeOutput written run.runId (redact env moment.store run.output)
    moment.now n d
  obtain ⟨m, hm⟩ := sent_bind hwrite _
  obtain ⟨d₂, entries, hentries⟩ :=
    exec_answered written (loadIndex_neverRaises env dates moment) m d₁
  refine ⟨_, record_kept dates moment.now run _ entries, ?_⟩
  rw [recordRun, hm]
  refine List.mem_append_right _ (mem_sent_bind_right hentries fun m => ?_)
  exact mem_sent_bind_left (mem_sent_head _ _ m d₂) _

/-- A recorder takes the steps of an import of the same old log. -/
theorem recordRun_imports (run : Run) (n : ℕ) (d : Disk) : ∃ m d₁, d₁.legacy = d.legacy ∧
    ∀ step ∈ sent serve (answered written) m (migrateLegacyLog env dates moment) d₁,
      step ∈ sent serve (answered written) n (recordRun env dates moment run) d := by
  obtain ⟨d₁, hwrite⟩ := exec_writeOutput written run.runId (redact env moment.store run.output)
    moment.now n d
  have hsame := (writeOutput_holds run.runId (redact env moment.store run.output) moment.now d
    (answered written) n).1 [] List.not_mem_nil
  rw [hwrite] at hsame
  obtain ⟨m, hm⟩ := sent_bind hwrite _
  refine ⟨m, d₁, hsame.legacy, fun step hstep => ?_⟩
  rw [recordRun, hm]
  exact List.mem_append_right _ (mem_sent_bind_left (mem_sent_bind_left hstep _) _)

end Answered

section Runs

variable (env : Surroundings) (dates : Dates) (store : Store)

/-- The steps that an operation takes. -/
def Operation.steps (d : Disk) (fates : ℕ → Step → Fate) : Operation → List Step
  | .read moment _ => sent serve fates 0 (loadIndex env dates moment) d
  | .record attempt => sent serve fates 0 (recordRun env dates attempt.moment attempt.run) d

/-- Whatever becomes of its steps, an operation writes no secret of its store. -/
def WritesHide (d : Disk) (op : Operation) : Prop :=
  ∀ store, op.moment.store = some store →
    ∀ fates, ∀ step ∈ op.steps env dates d fates, step.Hides (secretValues env store)

/-- The records that an operation may save: those on disk, that of the run, and those of
the entries of an old log. -/
inductive InPlay (d : Disk) (op : Operation) : Record → Prop where
  | index {entries e} (h : d.index = some (.full entries)) (he : e ∈ entries) : InPlay d op e
  | indexTmp {entries e} (h : d.indexTmp = some (.full entries)) (he : e ∈ entries) : InPlay d op e
  | run {attempt count} (h : op = .record attempt)
      (hcount : Counted (secretValues env store) attempt.run.output count) :
      InPlay d op (attempt.run.record dates count)
  | entry {text found count} (h : d.legacy = some text) (hfound : found ∈ entriesAt 0 text.parsed)
      (hcount : Counted (secretValues env store) (found.2.lines.getD []) count) :
      InPlay d op (found.2.record (op.moment.ids found.1) count found.1)

/-- What an operation is given is without the secrets of a store. None can be pieced together
from the lines in which the records are written, where the output does not come in; and in
the output none can come about across a mask or two lines. -/
structure IsClear (d : Disk) (op : Operation) : Prop where
  records : ∀ secret ∈ secretValues env store,
    ¬ Masking.Pieced '\n' (IndexLine (InPlay env dates store d op)) secret.toList
  output : ∀ attempt, op = .record attempt → OutputClear (secretValues env store) attempt.run.output
  legacy : ∀ text, d.legacy = some text → ∀ found ∈ entriesAt 0 text.parsed,
    OutputClear (secretValues env store) (found.2.lines.getD [])

def NothingToLeak (d : Disk) (op : Operation) : Prop :=
  ∀ store, op.moment.store = some store → IsClear env dates store d op

variable {env dates store} {d : Disk} {op : Operation}

theorem IsClear.imports (h : IsClear env dates store d op) (hstore : op.moment.store = some store) :
    ∀ text, d.legacy = some text → ∀ found ∈ entriesAt 0 text.parsed,
      ImportWithin env (InPlay env dates store d op)
      (Hides (secretValues env store)) op.moment found := by
  intro text htext found hfound
  rw [ImportWithin, LegacyEntry.kept, hstore]
  refine ⟨(h.legacy text htext found hfound).hides, fun count hcount => .entry htext hfound ?_⟩
  rcases hcount with rfl | rfl
  · exact .inl rfl
  · exact counted_redact env store _

theorem inPlay_disk : d.Within (Among (InPlay env dates store d op)) :=
  ⟨fun _ h _ he => .index h he, fun _ h _ he => .indexTmp h he⟩

theorem IsClear.sends (h : IsClear env dates store d op) (hstore : op.moment.store = some store)
    (fates : ℕ → Step → Fate) : ∀ step ∈ op.steps env dates d fates,
      step.Within (Among (InPlay env dates store d op)) (Hides (secretValues env store)) := by
  have himports := h.imports hstore
  cases op with
  | read moment _ => exact loadIndex_sends inPlay_disk himports fates 0
  | record attempt =>
      refine recordRun_sends inPlay_disk himports (fun count hcount => .run rfl ?_) ?_ fates 0
      · rw [hstore] at hcount
        rcases hcount with rfl | rfl
        · exact .inl rfl
        · exact counted_redact env store _
      · rw [hstore]
        exact (h.output attempt rfl).hides

theorem NothingToLeak.writesHide (h : NothingToLeak env dates d op) : WritesHide env dates d op :=
  fun store hstore fates step hstep =>
    ((h store hstore).sends hstore fates step hstep).hides (h store hstore).records

/-- The index on disk stays without the secrets. -/
theorem hides_after (hstore : op.moment.store = some store)
    (hd : d.Within (IndexHides (secretValues env store))) (h : WritesHide env dates d op) :
    (op.after env dates d).Within (IndexHides (secretValues env store)) := by
  have hsteps := fun fates step hstep => Step.hides_iff.mp (h store hstore fates step hstep)
  cases op with
  | read moment fates => exact exec_sent serve_within (hsteps fates) hd
  | record attempt => exact exec_sent serve_within (hsteps attempt.fates) hd

theorem Plain.recorded (h : Plain (secretValues env store)) {lines : List String} {count : ℕ}
    (hcount : Counted (secretValues env store) lines count) :
    ∃ written, count = recorded written (redact env (some store) lines) := by
  rcases h.counted hcount with hnone | hall
  · exact ⟨false, hnone⟩
  · exact ⟨true, hall⟩

/-- Every record that may be saved is in some index that is free of secrets. -/
theorem WritesHide.inPlay (h : WritesHide env dates d op) (hstore : op.moment.store = some store)
    (hplain : Plain (secretValues env store)) (hd : d.Within (IndexHides (secretValues env store)))
    {e : Record} (he : InPlay env dates store d op e) : ∃ entries, e ∈ entries ∧
    IndexHides (secretValues env store) entries := by
  have hsteps := fun fates step hstep => Step.hides_iff.mp (h store hstore fates step hstep)
  cases he with
  | index hindex he => exact ⟨_, he, hd.index _ hindex⟩
  | indexTmp hindex he => exact ⟨_, he, hd.indexTmp _ hindex⟩
  | run hop hcount =>
      rename_i attempt count
      subst hop
      have hsame : attempt.moment.store = some store := hstore
      obtain ⟨written, rfl⟩ := hplain.recorded hcount
      obtain ⟨entries, hmem, hwrite⟩ :=
        recordRun_writes env dates attempt.moment written attempt.run 0 d
      rw [hsame] at hmem
      exact ⟨entries, hmem, hsteps _ _ hwrite⟩
  | entry hlegacy hfound hcount =>
      rename_i text found count
      obtain ⟨written, rfl⟩ := hplain.recorded hcount
      have hkept : found.2.kept env op.moment =
          redact env (some store) (found.2.lines.getD []) := by
        rw [LegacyEntry.kept, hstore]
      cases op with
      | read moment _ =>
          obtain ⟨entries, hmem, hwrite⟩ :=
            migrateLegacyLog_writes env dates moment written hlegacy hfound 0
          exact ⟨entries, hkept ▸ hmem, hsteps (answered written) _ (mem_sent_bind_left hwrite _)⟩
      | record attempt =>
          obtain ⟨m, d₁, hsame, himports⟩ :=
            recordRun_imports env dates attempt.moment written attempt.run 0 d
          obtain ⟨entries, hmem, hwrite⟩ :=
            migrateLegacyLog_writes env dates attempt.moment written (hsame.trans hlegacy) hfound m
          exact ⟨entries, hkept ▸ hmem, hsteps (answered written) _ (himports _ hwrite)⟩

theorem frameLines_short : ∀ line ∈ frameLines, line.length < minSecretLen := by decide

theorem WritesHide.nothingToLeak (h : WritesHide env dates d op)
    (hstore : op.moment.store = some store) (hplain : Plain (secretValues env store))
    (hd : d.Within (IndexHides (secretValues env store))) :
    NothingToLeak env dates d op := by
  intro store' hstore'
  obtain rfl := Option.some.inj (hstore.symm.trans hstore')
  refine ⟨fun secret hsecret hpieced => ?_, fun _ _ => hplain.outputClear,
    fun _ _ _ _ => hplain.outputClear⟩
  obtain ⟨_, ⟨line, hline, rfl⟩, hin⟩ := hpieced.within (hplain secret hsecret).2
  rcases hline with hframe | ⟨e, he, hfield⟩
  · have hshort := frameLines_short line hframe
    have hlong := secretValues_length hsecret
    have hlength := hin.length_le
    rw [String.length_toList, String.length_toList] at hlength
    omega
  · obtain ⟨entries, hmem, hhides⟩ := h.inPlay hstore hplain hd he
    exact hhides secret hsecret (isIn_indexText hmem hfield hin)

/-- Readers and recorders that are given nothing to leak write no secret. With one store, none
of whose secrets has a star or a line break, they write none only if that is so. -/
theorem no_secret_written (env : Surroundings) (dates : Dates) (d : Disk) (ops : List Operation) :
    (Meets (Operation.after env dates) (NothingToLeak env dates) d ops →
      Meets (Operation.after env dates) (WritesHide env dates) d ops) ∧
    ∀ store, (∀ op ∈ ops, op.moment.store = some store) → Plain (secretValues env store) →
      d.Within (IndexHides (secretValues env store)) →
      (Meets (Operation.after env dates) (WritesHide env dates) d ops ↔
        Meets (Operation.after env dates) (NothingToLeak env dates) d ops) := by
  have hwrites : ∀ d' op, NothingToLeak env dates d' op → WritesHide env dates d' op :=
    fun _ _ h => h.writesHide
  refine ⟨meets_of_reached (P := fun _ => True) (fun d' op _ => hwrites d' op) fun _ _ =>
    trivial, ?_⟩
  intro store hstore hplain hd
  induction ops generalizing d with
  | nil => exact Iff.rfl
  | cons op ops ih =>
      have hsame := hstore op List.mem_cons_self
      have hfirst : WritesHide env dates d op ↔ NothingToLeak env dates d op :=
        ⟨fun h => h.nothingToLeak hsame hplain hd, hwrites d op⟩
      rw [Meets, Meets, ← hfirst]
      exact and_congr_right fun h =>
        ih (op.after env dates d) (fun op' hop' => hstore op' (List.mem_cons_of_mem op hop'))
          (hides_after hsame hd h)

/-- A store with one password. -/
def passwordStore :
    Store := (∅ : Store).set "nas" ((∅ : Entry).set "ssh_password" (.str "correct horse"))

/-- A run of which the output has the password in it. -/
def loginCall (runId error : String) (fates : ℕ → Step → Fate) : Call where
  moment := { now := 0, ids := fun _ => "6a7b8c9d", store := some passwordStore }
  run := { runId := runId, finished := 0, kind := "os_upgrade",
           target := "nas", targetName := "NAS",
           trigger := "scheduled", status := "error", output :=
             ["login: correct horse", "E: no route"],
           error := error }
  fates := fates

/-- An entry of an old log that has the password in a line before its last one. -/
def loginEntry : LegacyEntry where
  type := some "docker"
  status := some "error"
  lines := some ["login: correct horse", "Timed out"]

def storedRecord : Record := (loginCall "0a1b2c3d" "Timed out" fun _ _ => .done).run.record epoch 2

def loggedDisk : Disk where
  index := some (.full [storedRecord])
  legacy := some (.items [.other, .entry loginEntry])

/-- Two runs, of which the first one is cut before the old log is put away. -/
def loginCalls : List Operation :=
  [.record (loginCall "4e5f6071" "No route" fun _ step =>
      match step with
      | .renameLegacy => .crashed none
      | _ => .done),
    .record (loginCall "8192a3b4" "No route" fun _ _ => .done)]

theorem passwordStore_secrets :
    secretValues plainSurroundings passwordStore = ["correct horse"] := by
  decide +kernel

theorem passwordStore_plain : Plain (secretValues plainSurroundings passwordStore) := by
  rw [passwordStore_secrets]
  exact List.forall_mem_singleton.mpr (by decide)

/-- The records that the two runs can come by. -/
def loginRecords : List Record :=
  storedRecord :: [0, 2].flatMap fun count =>
    [(loginCall "4e5f6071" "No route" fun _ _ => .done).run.record epoch count,
    (loginCall "8192a3b4" "No route" fun _ _ => .done).run.record epoch count,
      loginEntry.record "6a7b8c9d" count 1]

theorem loginRecords_clear :
    ∀ e ∈ loginRecords, ∀ line ∈ e.fieldLines, Text.isIn "correct horse" line = false := by
  decide +kernel

theorem login_counted {count : ℕ} {last : String} (hlast : Text.splitOn '\n' last = [last])
    (h : Counted (secretValues plainSurroundings passwordStore) ["login: correct horse",
      last] count) :
    count ∈ [0, 2] := by
  rcases h with rfl | ⟨texts, htexts, rfl⟩
  · exact List.mem_cons_self
  · have htwo : (Text.splitOn '\n' "login: correct horse" ++ [last]).length = 2 := by
      rw [List.length_append, List.length_singleton]
      decide
    rw [passwordStore_plain.length_eq htexts, flatLines, List.flatMap_cons,
      List.flatMap_singleton, hlast, htwo]
    exact List.mem_pair.mpr (.inr rfl)

variable {d : Disk} {attempt : Call}

theorem login_inPlay (hdisk : d.Within (Among (· ∈ loginRecords)))
    (hlegacy : d.legacy = loggedDisk.legacy ∨ d.legacy = none)
    (hattempt : .record attempt ∈ loginCalls) {e : Record}
    (he : InPlay plainSurroundings epoch passwordStore d (.record attempt) e) :
    e ∈ loginRecords := by
  cases he with
  | index hindex he => exact hdisk.index _ hindex e he
  | indexTmp hindex he => exact hdisk.indexTmp _ hindex e he
  | run hop hcount =>
      cases hop
      rcases List.mem_pair.mp hattempt with hfirst | hsecond
      · cases hfirst
        rcases List.mem_pair.mp (login_counted rfl hcount) with rfl | rfl <;> decide +kernel
      · cases hsecond
        rcases List.mem_pair.mp (login_counted rfl hcount) with rfl | rfl <;> decide +kernel
  | entry hsome hfound hcount =>
      rcases hlegacy with hlogged | hnone
      · obtain rfl := Option.some.inj (hsome.symm.trans hlogged)
        obtain rfl := List.mem_singleton.mp hfound
        rcases List.mem_pair.mp hattempt with hfirst | hsecond
        · cases hfirst
          rcases List.mem_pair.mp (login_counted rfl hcount) with rfl | rfl <;> decide +kernel
        · cases hsecond
          rcases List.mem_pair.mp (login_counted rfl hcount) with rfl | rfl <;> decide +kernel
      · rw [hnone] at hsome
        cases hsome

theorem login_clear (hdisk : d.Within (Among (· ∈ loginRecords)))
    (hlegacy : d.legacy = loggedDisk.legacy ∨ d.legacy = none)
    (hattempt : .record attempt ∈ loginCalls) :
    IsClear plainSurroundings epoch passwordStore d (.record attempt) := by
  refine ⟨fun secret hsecret hpieced => ?_, fun _ _ => passwordStore_plain.outputClear,
    fun _ _ _ _ => passwordStore_plain.outputClear⟩
  obtain ⟨_, ⟨line, hline, rfl⟩, hin⟩ := hpieced.within (passwordStore_plain secret hsecret).2
  rw [passwordStore_secrets] at hsecret
  obtain rfl := List.mem_singleton.mp hsecret
  rw [← Text.isIn_iff] at hin
  rcases hline with hframe | ⟨e, he, hfield⟩
  · have hnone : ∀ line ∈ frameLines, Text.isIn "correct horse" line = false := by decide +kernel
    rw [hnone line hframe] at hin
    cases hin
  · rw [loginRecords_clear e (login_inPlay hdisk hlegacy hattempt he) line hfield] at hin
    cases hin

theorem login_after (hdisk : d.Within (Among (· ∈ loginRecords)))
    (hlegacy : d.legacy = loggedDisk.legacy ∨ d.legacy = none)
    (hattempt : .record attempt ∈ loginCalls) (hstore : attempt.moment.store = some passwordStore) :
    (attempt.after plainSurroundings epoch d).Within (Among (· ∈ loginRecords)) := by
  have hsends := (login_clear hdisk hlegacy hattempt).sends hstore attempt.fates
  have hwithin := exec_sent serve_within hsends inPlay_disk
  have hrecords : ∀ entries,
    Among (InPlay plainSurroundings epoch passwordStore d (.record attempt)) entries →
      Among (· ∈ loginRecords) entries :=
        fun entries hamong e he => login_inPlay hdisk hlegacy hattempt (hamong e he)
  exact ⟨fun entries h => hrecords entries (hwithin.index entries h),
    fun entries h => hrecords entries (hwithin.indexTmp entries h)⟩

/-- Whatever becomes of the first run, the old log is as it was or gone. -/
theorem legacy_after (dates : Dates) (env : Surroundings) (call : Call) (d : Disk) :
    (call.after env dates d).legacy = d.legacy ∨ (call.after env dates d).legacy = none := by
  have hkeep : ∀ d' step fate, True → (d'.legacy = d.legacy ∨ d'.legacy = none) →
      ((serve d' step fate).1.legacy = d.legacy ∨ (serve d' step fate).1.legacy = none) := by
    intro d' step fate _ hd'
    rcases serve_disk d' step fate with hdone | ⟨left, htorn⟩
    · rw [hdone]
      cases step with
      | renameLegacy => exact .inr rfl
      | sweep runId cutoff =>
          rw [Disk.perform]
          dsimp only
          split <;> exact hd'
      | _ => exact hd'
    · rw [htorn]
      cases step with
      | writeTmp entries => cases left <;> exact hd'
      | writeOutput runId text now => cases left <;> exact hd'
      | _ => exact hd'
  exact exec_sent hkeep (fun _ _ => trivial) (.inl rfl)

/-- The password is masked in the output of both, and in that of the entry they import. -/
theorem login_masked :
    Meets (Operation.after plainSurroundings epoch) (WritesHide plainSurroundings epoch)
    loggedDisk loginCalls := by
  have hdisk : loggedDisk.Within (Among (· ∈ loginRecords)) := by
    refine ⟨fun entries hentries e he => ?_, nofun⟩
    cases hentries
    exact List.mem_cons.mpr (.inl (List.mem_singleton.mp he))
  refine (no_secret_written plainSurroundings epoch loggedDisk loginCalls).1
    ⟨fun store hstore => ?_,
    fun store hstore => ?_, trivial⟩
  · cases hstore
    exact login_clear hdisk (.inl rfl) List.mem_cons_self
  · cases hstore
    exact login_clear (login_after hdisk (.inl rfl) List.mem_cons_self rfl)
      (legacy_after epoch plainSurroundings _ loggedDisk) (List.mem_pair.mpr (.inr rfl))

/-- The same run with the password in its error. -/
theorem error_written_unmasked : ¬ WritesHide plainSurroundings epoch {}
    (.record (loginCall "0a1b2c3d" "Permission denied: correct horse" fun _ _ => .done)) := by
  intro h
  have hsecret : "correct horse" ∈ secretValues plainSurroundings passwordStore := by
    rw [passwordStore_secrets]
    exact List.mem_cons_self
  obtain ⟨entries, hmem, hwrite⟩ := recordRun_writes plainSurroundings epoch
    { now := 0, ids := fun _ => "6a7b8c9d", store := some passwordStore } true
    (loginCall "0a1b2c3d" "Permission denied: correct horse" fun _ _ => .done).run 0 {}
  have hhides := h passwordStore rfl (answered true) _ hwrite (indexText entries) List.mem_cons_self
  have hline : ∀ count, fieldLine ("error", jsonString "Permission denied: correct horse") ++ "," ∈
      ((loginCall "0a1b2c3d" "Permission denied: correct horse"
          fun _ _ => .done).run.record epoch count).fieldLines :=
    fun _ => List.mem_of_getElem? (i := 9) rfl
  have hin : Text.isIn "correct horse"
      (fieldLine ("error", jsonString "Permission denied: correct horse") ++ ",") = true := by
    decide +kernel
  exact hhides "correct horse" hsecret (isIn_indexText hmem (hline _) (Text.isIn_iff.mp hin))

end Runs

end Keepup.Activity
