import Keepup.Activity.Import
import Keepup.Text.Cuts

/-!
The output of a run as it is read back. It is written with the line ends that it has, and
read as a text file, which turns every line end into a newline.
-/

namespace Keepup.Activity

open Lib Remote

section Source

/-- What is read of a text file: both other line ends become newlines. -/
def universalNewlines : List Char → List Char
  | [] => []
  | '\r' :: '\n' :: cs => '\n' :: universalNewlines cs
  | '\r' :: cs => '\n' :: universalNewlines cs
  | c :: cs => c :: universalNewlines cs

def readLines (written : String) : List String :=
  let text := String.ofList (universalNewlines written.toList)
  if text = "" then [] else Text.splitOn '\n' text

def isIdDigit (c : Char) : Bool := "0123456789abcdef".toList.contains c

/-- `^[0-9a-f]{8}$`, where the end may also be before a last newline. -/
def isRunId (runId : String) : Bool :=
  let digits := runId.toList.take 8
  digits.length == 8 && digits.all isIdDigit &&
    ["", "\n"].contains (String.ofList (runId.toList.drop 8))

def outputUnavailable : String := "Output unavailable — it was not written to disk."

def getRunOutput (d : Disk) (runId : String) : List String :=
  if isRunId runId then
    match d.runs.get? runId with
    | none => [outputUnavailable]
    | some file => readLines file.text
  else []

/-- The record of a run in the index. -/
def recordOf (d : Disk) (runId : String) :
    Option Record := (entriesOf d).find? fun e => e.id = runId

end Source

section Reading

variable {cs : List Char} {lines : List String}

theorem universalNewlines_free (h : '\r' ∉ cs) : universalNewlines cs = cs := by
  fun_induction universalNewlines cs with
  | case1 => rfl
  | case2 | case3 => exact absurd List.mem_cons_self h
  | case4 c cs _ _ ih => rw [ih fun hmem => h (List.mem_cons_of_mem c hmem)]

theorem not_mem_universalNewlines (cs : List Char) : '\r' ∉ universalNewlines cs := by
  fun_induction universalNewlines cs with
  | case1 => exact List.not_mem_nil
  | case2 cs ih | case3 cs _ ih => exact fun h => (List.mem_cons.mp h).elim (by decide) ih
  | case4 c cs _ hother ih =>
      intro h
      rcases List.mem_cons.mp h with rfl | hrest
      · exact hother rfl
      · exact ih hrest

theorem flatLines_free {piece : String} (h : piece ∈ flatLines lines) : '\n' ∉ piece.toList := by
  obtain ⟨line, _, hpiece⟩ := List.mem_flatMap.mp h
  exact Text.free_of_mem_splitOn hpiece

theorem splitOn_outputText (h : flatLines lines ≠ []) :
    Text.splitOn '\n' (outputText lines) = flatLines lines := by
  have hjoin : outputText lines = Text.joinOn '\n' (flatLines lines) :=
    (Text.joinOn_eq_intercalate '\n' (flatLines lines)).symm
  have hpieces : ∀ piece ∈ flatLines lines, Text.splitOn '\n' piece = [piece] := fun piece hpiece =>
    Text.splitOn_last (flatLines_free hpiece)
  rw [hjoin, Text.splitOn_joinOn '\n' h, List.flatMap_congr hpieces]
  simp

theorem readLines_free {written piece : String} (h : piece ∈ readLines written) :
    '\r' ∉ piece.toList := by
  rw [readLines] at h
  split at h
  · cases h
  · intro hmem
    have htext := (Text.infix_of_mem_splitOn h).subset hmem
    rw [String.toList_ofList] at htext
    exact not_mem_universalNewlines _ htext

theorem outputText_free (h : ∀ line ∈ lines, '\r' ∉ line.toList) :
    '\r' ∉ (outputText lines).toList := by
  intro hmem
  have hjoin : outputText lines = Text.joinOn '\n' (flatLines lines) :=
    (Text.joinOn_eq_intercalate '\n' (flatLines lines)).symm
  obtain ⟨piece, hpiece, hin⟩ := Text.exists_mem_splitOn (c := '\n') (by decide) hmem
  by_cases hne : flatLines lines = []
  · rw [hjoin, hne] at hmem
    exact absurd hmem (by decide)
  · rw [splitOn_outputText hne] at hpiece
    obtain ⟨line, hline, hsplit⟩ := List.mem_flatMap.mp hpiece
    exact h line hline ((Text.infix_of_mem_splitOn hsplit).subset hin)

/-- Only a single empty line has the lines of an empty text. -/
theorem flatLines_eq_single : flatLines lines = [""] ↔ lines = [""] := by
  constructor
  · intro h
    cases lines with
    | nil => cases h
    | cons line rest =>
        obtain ⟨first, others, hsplit⟩ := List.exists_cons_of_ne_nil (Text.splitOn_ne_nil '\n' line)
        rw [flatLines, List.flatMap_cons, hsplit, List.cons_append, List.cons_eq_cons] at h
        obtain ⟨rfl, hnone⟩ := h
        obtain ⟨rfl, hrest⟩ := List.append_eq_nil_iff.mp hnone
        have hline : line = "" := by
          rw [← Text.joinOn_splitOn '\n' line, hsplit]
          rfl
        cases rest with
        | nil => rw [hline]
        | cons next rest =>
            rw [List.flatMap_cons, List.append_eq_nil_iff] at hrest
            exact absurd hrest.1 (Text.splitOn_ne_nil '\n' next)
  · rintro rfl
    rfl

/-- What is written is read back line by line exactly if it has no other line ends and is
not a single empty line. -/
theorem readLines_iff : readLines (outputText lines) = flatLines lines ↔
    lines ≠ [""] ∧ ∀ line ∈ lines, '\r' ∉ line.toList := by
  constructor
  · intro h
    constructor
    · rintro rfl
      cases h
    · intro line hline hmem
      obtain ⟨piece, hpiece, hin⟩ := Text.exists_mem_splitOn (c := '\n') (by decide) hmem
      have hflat : piece ∈ flatLines lines := List.mem_flatMap.mpr ⟨line, hline, hpiece⟩
      rw [← h] at hflat
      exact readLines_free hflat hin
  · rintro ⟨hsingle, hfree⟩
    rw [readLines, universalNewlines_free (outputText_free hfree), String.ofList_toList]
    by_cases hne : flatLines lines = []
    · have hempty : outputText lines = "" := by
        rw [outputText, hne]
        rfl
      rw [if_pos hempty, hne]
    · have htext : outputText lines ≠ "" := by
        intro hempty
        have hsplit := splitOn_outputText hne
        rw [hempty] at hsplit
        exact hsingle (flatLines_eq_single.mp hsplit.symm)
      rw [if_neg htext, splitOn_outputText hne]

end Reading

section Kept

variable {env : Surroundings} {dates : Dates} {moment : Moment}
  {store : Option Store} {lines : List String}
  {runId : String} {d : Disk}

theorem redactLine_eq_empty {secrets : List String} {line : String} :
    redactLine secrets line = "" ↔ line = "" := by
  have hsome : redacted.toList ≠ [] := List.cons_ne_nil _ _
  rw [redactLine, ← String.toList_inj, String.toList_ofList, ← String.toList_inj]
  exact Masking.mask_eq_nil_iff hsome _

theorem redact_eq_single : redact env store lines = [""] ↔ lines = [""] := by
  cases store with
  | none => rfl
  | some store =>
      rw [redact, List.map_eq_singleton_iff]
      constructor
      · rintro ⟨line, rfl, hline⟩
        rw [redactLine_eq_empty.mp hline]
      · rintro rfl
        exact ⟨"", rfl, redactLine_eq_empty.mpr rfl⟩

/-- A step that leaves all output files alone. -/
def Step.LeavesRuns : Step → Prop
  | .writeOutput _ _ _ | .unlink _ | .sweep _ _ => False
  | _ => True

theorem serve_leavesRuns {step : Step} (h : step.LeavesRuns) (d : Disk) (fate : Fate) :
    (serve d step fate).1.runs = d.runs := by
  rcases serve_disk d step fate with hdone | ⟨left, htorn⟩
  · rw [hdone]
    cases step with
    | writeOutput _ _ _ | unlink _ | sweep _ _ => exact h.elim
    | _ => rfl
  · rw [htorn]
    cases step with
    | writeOutput _ _ _ | unlink _ | sweep _ _ => exact h.elim
    | _ => cases left <;> rfl

theorem exec_leavesRuns {α : Type} {prog : Program α} (h : prog.Only Step.LeavesRuns)
    (fates : ℕ → Step → Fate) (n : ℕ) (d : Disk) : (exec serve fates n prog d).1.runs = d.runs :=
  exec_only (I := fun d' => d'.runs = d.runs) (fun s _ fate hstep hs =>
    (serve_leavesRuns hstep s fate).trans hs)
    h fates n rfl

theorem readIndexFile_leavesRuns : readIndexFile.Only Step.LeavesRuns := by
  refine ⟨trivial, fun answer => ?_⟩
  cases answer with
  | index text =>
      rcases text with _ | entries | _
      · trivial
      · trivial
      · exact ⟨trivial, fun _ => trivial⟩
  | _ => trivial

/-- The output of a run is as before, and the index has no record of it yet. -/
def Untouched (runId : String) (d d' : Disk) : Prop :=
  d'.runs.get? runId = d.runs.get? runId ∧ runId ∉ (entriesOf d').map Record.id

theorem readIndexFile_untouched (hfresh : runId ∉ (entriesOf d).map Record.id) :
    Holds serve readIndexFile d fun d' result =>
      Untouched runId d d' ∧ ∀ entries, result = .ok entries → runId ∉ entries.map Record.id := by
  intro fates n
  obtain ⟨hentries, _, hread⟩ := readIndexFile_entries d fates n
  have hruns := exec_leavesRuns readIndexFile_leavesRuns fates n d
  refine ⟨⟨by rw [hruns], hentries ▸ hfresh⟩, fun entries hresult => ?_⟩
  rw [hread entries hresult]
  exact hfresh

theorem renameLegacy_untouched (hfresh : runId ∉ (entriesOf d).map Record.id) :
    Holds serve renameLegacy d fun d' _ => Untouched runId d d' := by
  intro fates n
  have honly : renameLegacy.Only Step.LeavesRuns := ⟨trivial, fun _ => trivial⟩
  have hruns := exec_leavesRuns honly fates n d
  exact ⟨by rw [hruns], (renameLegacy_holds d fates n).1 ▸ hfresh⟩

theorem Untouched.trans {d' d'' : Disk} (h : Untouched runId d d') (h' : Untouched runId d' d'') :
    Untouched runId d d'' := ⟨h'.1.trans h.1, h'.2⟩

theorem importItems_ids (env : Surroundings) (hids : ∀ n, moment.ids n ≠ runId) (start : ℕ)
    (items : List LegacyItem) :
    (importItems env moment start items).Returns fun records => runId ∉ records.map Record.id := by
  induction items generalizing start with
  | nil => exact List.not_mem_nil
  | cons item items ih =>
      cases item with
      | other => exact ih (start + 1)
      | entry entry =>
          refine returns_bind (fun count => ?_) _
          refine returns_bind_of (ih (start + 1)) fun records hrecords => ?_
          exact fun hmem => (List.mem_cons.mp hmem).elim (hids start).symm hrecords

theorem finishMigration_untouched {records : List Record} (hrecords : runId ∉ records.map Record.id)
    (hfresh : runId ∉ (entriesOf d).map Record.id) :
    Holds serve (finishMigration dates moment records) d fun d' _ => Untouched runId d d' := by
  rw [finishMigration]
  split
  · exact renameLegacy_untouched hfresh
  · refine holds_bind (holds_mono (readIndexFile_untouched hfresh) ?_)
    rintro d₁ (_ | entries) ⟨hread, hentries⟩
    · exact hread
    have hmerged : runId ∉ (merged dates moment.now records entries).map Record.id := by
      have hperm : (merged dates moment.now records entries).Perm (records ++ entries) :=
        List.mergeSort_perm _ _
      rw [(hperm.map Record.id).mem_iff, List.map_append, List.mem_append, not_or]
      exact ⟨hrecords, hentries entries rfl⟩
    refine holds_bind (holds_mono (saveIndex_holds _ d₁) ?_)
    rintro d₂ (_ | saved) ⟨hruns, _, hsaved, hfailed⟩
    · exact ⟨by rw [hruns, hread.1],
        by rw [entriesOf, hfailed (by simp), ← entriesOf]; exact hread.2⟩
    cases saved with
    | false => exact holds_ret ⟨by rw [hruns, hread.1],
        by rw [entriesOf, hfailed (by simp), ← entriesOf]; exact hread.2⟩
    | true =>
        have hindex : entriesOf d₂ = merged dates moment.now records entries := by
          rw [entriesOf, hsaved rfl]
        have hsame : Untouched runId d d₂ := ⟨by rw [hruns, hread.1], hindex ▸ hmerged⟩
        exact holds_mono (renameLegacy_untouched hsame.2) fun _ _ hlast => hsame.trans hlast

theorem migrateLegacyLog_untouched (env : Surroundings) (hids : ∀ n, moment.ids n ≠ runId)
    (hfresh : runId ∉ (entriesOf d).map Record.id) :
    Holds serve (migrateLegacyLog env dates moment) d fun d' _ => Untouched runId d d' := by
  refine holds_read rfl ⟨rfl, hfresh⟩ ?_
  rw [Disk.perform]
  cases d.legacy with
  | none => exact holds_ret ⟨rfl, hfresh⟩
  | some text =>
      have hspares : ∀ n, moment.ids n ∉ [runId] :=
        fun n hmem => hids n (List.mem_singleton.mp hmem)
      refine holds_bind (holds_mono
        (spares_holds (importItems_spares env moment hspares 0 text.parsed)
        (importItems_ids env hids 0 text.parsed) d) ?_)
      rintro d₁ (_ | records) ⟨hsame, hreturns⟩
      all_goals
        have hentries : entriesOf d₁ = entriesOf d := by rw [entriesOf, hsame.index, ← entriesOf]
        have hread : Untouched runId d d₁ :=
          ⟨hsame.runs runId (List.mem_singleton_self runId), hentries ▸ hfresh⟩
      · exact hread
      · exact holds_mono (finishMigration_untouched (hreturns records rfl) hread.2) fun _ _ hlast =>
          hread.trans hlast

theorem loadIndex_untouched (env : Surroundings) (hids : ∀ n, moment.ids n ≠ runId)
    (hfresh : runId ∉ (entriesOf d).map Record.id) :
    Holds serve (loadIndex env dates moment) d fun d' result =>
      Untouched runId d d' ∧ ∀ entries, result = .ok entries → runId ∉ entries.map Record.id := by
  refine holds_bind (holds_mono (migrateLegacyLog_untouched env hids hfresh) ?_)
  rintro d₁ (_ | _) hmigrated
  · exact ⟨hmigrated, nofun⟩
  refine holds_mono (readIndexFile_untouched hmigrated.2) ?_
  rintro d₂ result ⟨hread, hentries⟩
  exact ⟨hmigrated.trans hread, hentries⟩

/-- A record that is dropped is not the one that is protected. -/
theorem dropped_ne_protected {now : ℚ} (record : Record) {entries : List Record}
    (hfresh : record.id ∉ entries.map Record.id) :
    record.id ∉ (selectKept dates now (record :: entries) record.id).2.map Record.id := by
  intro hmem
  obtain ⟨e, he, hid⟩ := List.mem_map.mp hmem
  rcases List.mem_append.mp he with hlate | hold
  · -- a record beyond the first ones is one of the others
    have hother : e ∈ entries := (List.drop_sublist 499 entries).subset hlate
    exact hfresh (hid ▸ List.mem_map_of_mem hother)
  · have hnot := (List.mem_filter.mp hold).2
    simp [hid] at hnot

/-- A protected record in front stays there. -/
theorem selectKept_cons (dates : Dates) (now : ℚ) (record : Record) (entries : List Record) :
    (selectKept dates now (record :: entries) record.id).1 =
      record :: (entries.take 499).filter fun e =>
      e.id = record.id || decide (now - retention ≤ dates.parseTs e.startedAt now) := by
  have htake : (record :: entries).take maxEntries = record :: entries.take 499 := rfl
  have hkeeps : (decide (record.id = record.id) ||
      decide (now - retention ≤ dates.parseTs record.startedAt now)) = true := by
    rw [decide_eq_true rfl, Bool.true_or]
  rw [selectKept, htake]
  exact List.filter_cons_of_pos (p := fun e : Record => e.id = record.id ||
    decide (now - retention ≤ dates.parseTs e.startedAt now)) hkeeps

/-- What the recorder has done where it returns the id of the run: the output is in its file
and the record is the first of the index. -/
def Kept (env : Surroundings) (dates : Dates) (moment : Moment) (run : Run) (d : Disk) : Prop :=
  d.runs.get? run.runId = some ⟨run.text env moment.store, moment.now⟩ ∧
    recordOf d run.runId = some (run.record dates (run.lineCount env moment.store))

/-- What the recorder does after the output is written. -/
def indexRun (env : Surroundings) (dates : Dates) (moment : Moment) (run : Run) (lineCount : ℕ) :
    Program String := do
  let entries ← loadIndex env dates moment
  let selected := run.selected dates moment.now lineCount entries
  let saved ← saveIndex selected.1
  if saved then
    deleteOutputFiles (env.iterate (selected.2.map Record.id).dedup)
    sweepAgedOrphans moment.now (selected.1.map Record.id)
    .ret run.runId
  else .ret ""

theorem recordRun_eq (env : Surroundings) (dates : Dates) (moment : Moment) (run : Run) :
    recordRun env dates moment run =
      writeOutput run.runId (redact env moment.store run.output) moment.now >>=
        indexRun env dates moment run :=
  rfl

theorem indexRun_kept (env : Surroundings) (dates : Dates) {run : Run} (hid : run.runId ≠ "")
    (hids : ∀ n, moment.ids n ≠ run.runId) (hfresh : run.runId ∉ (entriesOf d).map Record.id)
    (hfile : d.runs.get? run.runId = some ⟨run.text env moment.store, moment.now⟩) :
    Holds serve (indexRun env dates moment run (run.lineCount env moment.store)) d fun d' result =>
      result = .ok run.runId → Kept env dates moment run d' := by
  refine holds_bind (holds_mono (loadIndex_untouched env hids hfresh) ?_)
  rintro d₁ (_ | entries) ⟨hread, hentries⟩
  · exact nofun
  refine holds_bind (holds_mono (saveIndex_holds _ d₁) ?_)
  rintro d₂ (_ | saved) ⟨hruns, _, hsaved, _⟩
  · exact nofun
  cases saved with
  | false =>
      refine holds_ret fun hresult => ?_
      injection hresult with hempty
      exact absurd hempty.symm hid
  | true =>
      have hselected := selectKept_cons dates moment.now
        (run.record dates (run.lineCount env moment.store)) entries
      have hdropped : ∀ runId ∈
        env.iterate ((run.selected dates moment.now (run.lineCount env moment.store)
          entries).2.map Record.id).dedup, runId ∉ [run.runId] := by
        intro runId hmem hsame
        rw [List.mem_singleton.mp hsame, (env.iterate_perm _).mem_iff, List.mem_dedup] at hmem
        exact dropped_ne_protected (run.record dates (run.lineCount env moment.store))
          (hentries entries rfl) hmem
      have hkept : [run.runId] ⊆ (run.selected dates moment.now (run.lineCount env moment.store)
          entries).1.map Record.id := by
        intro runId hmem
        rw [List.mem_singleton.mp hmem]
        exact List.mem_map_of_mem (record_kept dates moment.now run _ entries)
      dsimp only
      rw [if_pos rfl]
      intro fates n _
      have hspared := exec_spares (cleanUp_spares moment.now run.runId hdropped hkept) fates n d₂
      constructor
      · rw [hspared.runs run.runId (List.mem_singleton_self _), hruns, hread.1, hfile]
      · have hindex := hspared.index.trans (hsaved rfl)
        rw [recordOf, entriesOf, hindex]
        refine (congrArg (List.find? _) hselected).trans (List.find?_cons_of_pos ?_)
        exact decide_eq_true rfl

/-- Once its output is written, a recorder that returns the id of the run has kept it. -/
theorem recordRun_kept (env : Surroundings) (dates : Dates) {run : Run} (hid : run.runId ≠ "")
    (hids : ∀ n, moment.ids n ≠ run.runId) (hfresh : run.runId ∉ (entriesOf d).map Record.id)
    {fates : ℕ → Step → Fate} (hwrite : ∀ step, fates 0 step = .done)
    (hrecorded : (exec serve fates 0 (recordRun env dates moment run) d).2 = .ok run.runId) :
    Kept env dates moment run (exec serve fates 0 (recordRun env dates moment run) d).1 := by
  have hserve : serve d (.writeOutput run.runId (run.text env moment.store) moment.now)
      (fates 0 (.writeOutput run.runId (run.text env moment.store) moment.now)) =
        ((d.perform (.writeOutput run.runId (run.text env moment.store) moment.now)).1,
            .ok .done) := by
    rw [hwrite]
    rfl
  have hwritten : exec serve fates 0
    (writeOutput run.runId (redact env moment.store run.output) moment.now) d =
      ((d.perform (.writeOutput run.runId (run.text env moment.store) moment.now)).1,
        .ok (run.lineCount env moment.store)) := exec_call_ok hserve
  obtain ⟨m, hm⟩ := exec_bind hwritten (indexRun env dates moment run)
  rw [recordRun_eq, hm] at hrecorded ⊢
  exact indexRun_kept
    (d := (d.perform (.writeOutput run.runId (run.text env moment.store) moment.now)).1)
    env dates hid hids hfresh (Dict.get?_set_self _ _ _) fates m hrecorded

end Kept

/-- What is read back is the output as it was to be kept, and as many lines as the record
says. -/
def OutputKept (env : Surroundings) (call : Call) (d : Disk) : Prop :=
  getRunOutput d call.run.runId = flatLines (redact env call.moment.store call.run.output) ∧
    ∃ record, recordOf d call.run.runId = some record ∧
      record.lineCount = (getRunOutput d call.run.runId).length

/-- The ids are drawn anew. -/
structure Call.DrawsFresh (call : Call) (d : Disk) : Prop where
  form : isRunId call.run.runId = true
  fresh : call.run.runId ∉ (entriesOf d).map Record.id
  imported : ∀ n, call.moment.ids n ≠ call.run.runId

theorem isRunId_ne_empty {runId : String} (h : isRunId runId = true) : runId ≠ "" := by
  rintro rfl
  exact absurd h (by decide)

/-- The output of a recorded run is read back exactly if, as it is to be kept, it has no
carriage returns, and is not a single empty line. -/
theorem output_kept_iff (env : Surroundings) (dates : Dates) (call : Call) (d : Disk)
    (hdraws : call.DrawsFresh d) (hwrite : ∀ step, call.fates 0 step = .done)
    (hrecorded : (exec serve call.fates 0 (recordRun env dates call.moment call.run) d).2 =
      .ok call.run.runId) :
    OutputKept env call (call.after env dates d) ↔
      call.run.output ≠ [""] ∧
        ∀ line ∈ redact env call.moment.store call.run.output, '\r' ∉ line.toList := by
  obtain ⟨hfile, hrecord⟩ := recordRun_kept env dates (isRunId_ne_empty hdraws.form) hdraws.imported
    hdraws.fresh hwrite hrecorded
  have hread : getRunOutput (call.after env dates d) call.run.runId =
      readLines (outputText (redact env call.moment.store call.run.output)) := by
    rw [getRunOutput, hdraws.form, if_pos rfl, Call.after, hfile]
    rfl
  have hsingle : redact env call.moment.store call.run.output ≠ [""] ↔ call.run.output ≠ [""] :=
    not_congr redact_eq_single
  rw [OutputKept, hread, ← hsingle, ← readLines_iff, Call.after, hrecord]
  constructor
  · exact fun h => h.1
  · intro h
    refine ⟨h, _, rfl, ?_⟩
    rw [h]
    rfl

theorem firstCall_output :
    OutputKept plainSurroundings firstCall (firstCall.after plainSurroundings epoch {}) := by
  have hdiffer : "" ≠ "0a1b2c3d" := by decide
  have hdraws : firstCall.DrawsFresh {} := ⟨by decide +kernel, nofun, fun _ => hdiffer⟩
  apply (output_kept_iff plainSurroundings epoch firstCall {} hdraws (fun _ => rfl) rfl).mpr
  exact ⟨by decide, by decide +kernel⟩

/-- A run that ends with a progress bar. -/
def progressCall : Call where
  moment := { now := 0, ids := fun _ => "", store := some ∅ }
  run := { runId := "0a1b2c3d", finished := 0, kind := "os_upgrade",
           target := "nas", targetName := "NAS",
           trigger := "manual", status := "success", output := ["50%\r100%"] }
  fates _ _ := .done

/-- The progress is read back as two lines. -/
theorem progress_split : ¬ OutputKept plainSurroundings progressCall
    (progressCall.after plainSurroundings epoch {}) := by
  rintro ⟨hread, _⟩
  revert hread
  decide +kernel

end Keepup.Activity
