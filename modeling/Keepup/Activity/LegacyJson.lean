import Keepup.Activity.Import
import Keepup.Activity.Leaks
import Keepup.Activity.Retention

/-!
The import of the old log as the JSON that it is. Its entries need not have the fields that
the code expects, nor fields of the types it expects, and its texts may hold halves of
surrogate pairs, which no file can be written with. The filesystem does what it is asked.
-/

namespace Keepup.Activity.Untyped

open Lib

section Values

/-- A character of a Python string. A surrogate is one without its other half. -/
inductive PyChar where
  | char (c : Char)
  | surrogate (n : ℕ)
deriving DecidableEq

abbrev PyText := List PyChar

def plain (s : String) : PyText := s.toList.map .char

/-- The text has no surrogates. -/
def Encodable (text : PyText) : Prop := ∀ n, PyChar.surrogate n ∉ text

/-- A JSON value. The fields of an object have different names. -/
inductive Json where
  | null
  | bool (value : Bool)
  | num (text : String)
  | str (text : PyText)
  | arr (items : List Json)
  | obj (fields : List (PyText × Json))

/-- What the conversions raise. -/
inductive PyError where
  | typeError
  | unicodeEncodeError
deriving DecidableEq

/-- The old log: JSON, or something that cannot be read as such. -/
inductive LegacyFile where
  | json (value : Json)
  | malformed

def field (fields : List (PyText × Json)) (name : String) :
    Option Json := fields.lookup (plain name)

def Json.isText (name : String) : Json → Bool
  | .str text => text == plain name
  | _ => false

/-- A record of the index. What comes from the old log is kept as it is there. -/
structure Entry where
  id : String
  kind : String
  target : Json
  targetName : Json
  trigger : String
  status : Json
  startedAt : Json
  finishedAt : Json
  durationS : ℚ
  error : PyText
  lineCount : ℕ

/-- The record of a run, whose fields are texts. -/
def Entry.ofRecord (record : Record) : Entry where
  id := record.id
  kind := record.kind
  target := .str (plain record.target)
  targetName := .str (plain record.targetName)
  trigger := record.trigger
  status := .str (plain record.status)
  startedAt := .str (plain record.startedAt)
  finishedAt := .str (plain record.finishedAt)
  durationS := record.durationS
  error := plain record.error
  lineCount := record.lineCount

structure Log where
  legacy : Option LegacyFile := none
  migrated : Option LegacyFile := none
  index : List Entry := []
  outputs : Dict String RunFile := ∅

/-- What the code takes from its language. -/
structure Interpreter where
  env : Surroundings
  dates : Dates
  fromisoformat : PyText → Option ℚ
  fromisoformat_plain : ∀ s, fromisoformat (plain s) = dates.fromisoformat s
  /-- `str` of a value that is no string. Surrogates inside it come out escaped. -/
  render : Json → String

end Values

section Source

/-- A program that can raise. What it has done to the log before stays done. -/
abbrev Action (α : Type) := ExceptT PyError (StateM Log) α

def Action.exec {α : Type} (prog : Action α) (s : Log) : Except PyError α × Log := prog.run.run s

variable (py : Interpreter)

def pyStr : Json → PyText
  | .str text => text
  | value => plain (py.render value)

/-- `[str(line) for line in entry.get("lines", [])]`, where that can be iterated over. -/
def linesOf (fields : List (PyText × Json)) : Option (List PyText) :=
  match field fields "lines" with
  | none => some []
  | some (.arr items) => some (items.map (pyStr py))
  | some (.str text) => some (text.map fun c => [c])
  | some (.obj inner) => some (inner.map Prod.fst)
  | some _ => none

/-- `_LEGACY_KINDS.get(entry.get("type", ""), "os_upgrade")`. A list or an object cannot be
looked up. -/
def kindOf (fields : List (PyText × Json)) : Option String :=
  match field fields "type" with
  | some (.arr _) | some (.obj _) => none
  | some (.str text) =>
      some (((legacyKinds.find? fun kind => plain kind.1 = text).map Prod.snd).getD "os_upgrade")
  | _ => some "os_upgrade"

def parseTs (value : Json) (default : ℚ) : ℚ :=
  match value with
  | .str text => (py.fromisoformat text).getD default
  | _ => default

def redactText (store : Option Store) (lines : List PyText) : List PyText :=
  match store with
  | none => lines
  | some store => lines.map
      (Masking.mask (plain redacted) ((orderedSecrets py.env store).map plain))

def splitNewlines : PyText → List PyText
  | [] => [[]]
  | c :: cs =>
      if c = .char '\n' then [] :: splitNewlines cs
      else
        match splitNewlines cs with
        | [] => [[c]]
        | w :: ws => (c :: w) :: ws

/-- UTF-8 has no surrogates. -/
def encode : PyText → Option (List Char)
  | [] => some []
  | .char c :: cs => (encode cs).map (c :: ·)
  | .surrogate _ :: _ => none

/-- Only an error of the filesystem is caught. A file that cannot be encoded stays empty. -/
def writeOutput (runId : String) (lines : List PyText) (now : ℚ) : Action ℕ := do
  let flat := lines.flatMap splitNewlines
  match encode ([.char '\n'].intercalate flat) with
  | some text =>
      modify fun s => { s with outputs := s.outputs.set runId ⟨String.ofList text, now⟩ }
      pure flat.length
  | none =>
      modify fun s => { s with outputs := s.outputs.set runId ⟨"", now⟩ }
      throw .unicodeEncodeError

/-- The record of an entry. -/
def importEntry (moment : Moment) (runId : String) (fields : List (PyText × Json)) :
    Action Entry := do
  match linesOf py fields with
  | none => throw .typeError
  | some lines =>
    let ranAt := (field fields "ran_at").getD (.str [])
    let failed := (field fields "status").any (Json.isText "error")
    match kindOf fields with
    | none => throw .typeError
    | some kind =>
      let lineCount ← writeOutput runId (redactText py moment.store lines) moment.now
      pure
        { id := runId
          kind := kind
          target := (field fields "target").getD (.str [])
          targetName := (field fields "target_name").getD (.str [])
          trigger := "scheduled"
          status := (field fields "status").getD (.str (plain "error"))
          startedAt := ranAt
          finishedAt := ranAt
          durationS := 0
          error := if failed then lines.getLast?.getD [] else []
          lineCount := lineCount }

def importItems (moment : Moment) : ℕ → List Json → Action (List Entry)
  | _, [] => pure []
  | position, .obj fields :: items => do
      let record ← importEntry py moment (moment.ids position) fields
      let records ← importItems moment (position + 1) items
      pure (record :: records)
  | position, _ :: items => importItems moment (position + 1) items

def LegacyFile.parsed : LegacyFile → List Json
  | .json (.arr items) => items
  | _ => []

def merged (now : ℚ) (records entries : List Entry) : List Entry :=
  (records ++ entries).mergeSort fun a b => parseTs py b.startedAt now ≤ parseTs py a.startedAt now

def migrateLegacyLog (moment : Moment) : Action Unit := do
  match (← get).legacy with
  | none => pure ()
  | some legacy =>
    let records ← importItems py moment 0 legacy.parsed
    modify fun s => { s with
      index := if records.isEmpty then s.index else merged py moment.now records s.index
      legacy := none
      migrated := some legacy }

def loadIndex (moment : Moment) : Action (List Entry) := do
  migrateLegacyLog py moment
  return (← get).index

def selectKept (now : ℚ) (entries : List Entry) (protectId : String) : List Entry × List Entry :=
  let keeps := fun e : Entry =>
    e.id = protectId || decide (now - retention ≤ parseTs py e.startedAt now)
  ((entries.take maxEntries).filter keeps,
    entries.drop maxEntries ++ (entries.take maxEntries).filter fun e => !keeps e)

/-- The output files of dropped records go, and old ones without a record. -/
def cleanUp (now : ℚ) (kept dropped : List Entry) (s : Log) : Log :=
  { s with outputs := s.outputs.restrict fun runId =>
      !(runId ≠ "" && (dropped.map Entry.id).contains runId) &&
        ((kept.map Entry.id).contains runId ||
        !(s.outputs.get? runId).any fun file => file.mtime < now - retention) }

/-- Whatever is raised, the result is an empty text. -/
def recordRun (moment : Moment) (run : Run) : Action String :=
  tryCatch
    (do
      let lineCount ← writeOutput run.runId
        (redactText py moment.store (run.output.map plain)) moment.now
      let entries ← loadIndex py moment
      let selected := selectKept py moment.now (.ofRecord (run.record py.dates lineCount) ::
        entries) run.runId
      modify fun s => cleanUp moment.now selected.1 selected.2 { s with index := selected.1 }
      pure run.runId)
    fun _ => pure ""

/-- The arguments of `get_recent`. An empty text filters nothing. -/
structure Query where
  limit : ℕ := 100
  status : String := ""
  trigger : String := ""
  kind : String := ""

def Query.apply (query : Query) (entries : List Entry) : List Entry :=
  let entries := if query.status ≠ "" then entries.filter fun e =>
    e.status.isText query.status else entries
  let entries := if query.trigger ≠ "" then entries.filter fun e =>
    e.trigger = query.trigger else entries
  let entries := if query.kind ≠ "" then entries.filter fun e => e.kind = query.kind else entries
  entries.take query.limit

def getRecent (moment : Moment) (query : Query) : Action (List Entry) :=
  query.apply <$> loadIndex py moment

end Source

section Exec

variable {α β : Type} {s s' : Log}

@[simp] theorem exec_pure (a : α) (s : Log) : Action.exec (pure a) s = (.ok a, s) := rfl

@[simp] theorem exec_throw (e : PyError) (s : Log) :
    Action.exec (throw e : Action α) s = (.error e, s) := rfl

@[simp] theorem exec_modify (f : Log → Log) (s : Log) :
    Action.exec (modify f) s = (.ok ⟨⟩, f s) := rfl

@[simp] theorem exec_get (s : Log) : Action.exec get s = (.ok s, s) := rfl

theorem exec_bind_ok {prog : Action α} {a : α} (h : Action.exec prog s = (.ok a, s'))
    (k : α → Action β) : Action.exec (prog >>= k) s = Action.exec (k a) s' := by
  have hrun : (prog >>= k).run.run s =
    (ExceptT.bindCont k (prog.run.run s).1).run (prog.run.run s).2 := rfl
  rw [Action.exec] at h
  rw [Action.exec, hrun, h]
  rfl

theorem exec_bind_error {prog : Action α} {e : PyError} (h : Action.exec prog s = (.error e, s'))
    (k : α → Action β) : Action.exec (prog >>= k) s = (.error e, s') := by
  have hrun : (prog >>= k).run.run s =
    (ExceptT.bindCont k (prog.run.run s).1).run (prog.run.run s).2 := rfl
  rw [Action.exec] at h
  rw [Action.exec, hrun, h]
  rfl

theorem exec_tryCatch_ok {prog : Action α} {a : α} (h : Action.exec prog s = (.ok a, s'))
    (k : PyError → Action α) : Action.exec (tryCatch prog k) s = (.ok a, s') := by
  rw [Action.exec] at h
  rw [Action.exec, ExceptT.run_tryCatch, StateT.run_bind, h]
  rfl

end Exec

section Texts

variable {py : Interpreter} {text : PyText} {lines : List PyText}

theorem encodable_cons {c : PyChar} :
    Encodable (c :: text) ↔ (∀ n, c ≠ .surrogate n) ∧ Encodable text := by
  simp only [Encodable, List.mem_cons, not_or, forall_and, ne_comm, ne_eq]

theorem encodable_plain (s : String) : Encodable (plain s) := by
  intro n hmem
  obtain ⟨c, _, hc⟩ := List.mem_map.mp hmem
  cases hc

theorem encode_some (h : Encodable text) : ∃ cs, encode text = some cs := by
  induction text with
  | nil => exact ⟨[], rfl⟩
  | cons c text ih =>
      obtain ⟨hfirst, hrest⟩ := encodable_cons.mp h
      obtain ⟨cs, hcs⟩ := ih hrest
      cases c with
      | char c => exact ⟨c :: cs, by rw [encode, hcs, Option.map_some]⟩
      | surrogate n => exact absurd rfl (hfirst n)

theorem encode_none (h : ¬ Encodable text) : encode text = none := by
  induction text with
  | nil => exact absurd (fun _ => List.not_mem_nil) h
  | cons c text ih =>
      cases c with
      | char c =>
          have hrest : ¬ Encodable text := fun hrest => h (encodable_cons.mpr ⟨nofun, hrest⟩)
          rw [encode, ih hrest, Option.map_none]
      | surrogate n => rfl

/-- Splitting and joining at newlines moves no other character. -/
theorem mem_splitNewlines {c : PyChar} (hc : c ≠ .char '\n') :
    (∃ piece ∈ splitNewlines text, c ∈ piece) ↔ c ∈ text := by
  induction text with
  | nil => simp [splitNewlines]
  | cons d text ih =>
      rw [splitNewlines]
      split
      · rename_i hd
        subst hd
        simp only [List.mem_cons, exists_eq_or_imp, List.not_mem_nil, false_or, ih, hc]
      · rw [List.mem_cons, ← ih]
        cases splitNewlines text with
        | nil => simp
        | cons w ws =>
            simp only [List.mem_cons, exists_eq_or_imp, or_assoc]

theorem mem_intercalate_iff {c sep : PyChar} (hc : c ≠ sep) {pieces : List PyText} :
    c ∈ [sep].intercalate pieces ↔ ∃ piece ∈ pieces, c ∈ piece := by
  refine ⟨fun h => (Masking.mem_intercalate h).resolve_left hc, ?_⟩
  rintro ⟨piece, hpiece, hin⟩
  exact (Masking.infix_intercalate hpiece).subset hin

theorem encodable_output : Encodable ([.char '\n'].intercalate (lines.flatMap splitNewlines)) ↔
    ∀ line ∈ lines, Encodable line := by
  have hmem : ∀ n, PyChar.surrogate n ∈ [.char '\n'].intercalate (lines.flatMap splitNewlines) ↔
      ∃ line ∈ lines, PyChar.surrogate n ∈ line := by
    intro n
    have hne : PyChar.surrogate n ≠ .char '\n' := nofun
    rw [mem_intercalate_iff hne]
    constructor
    · rintro ⟨piece, hpiece, hin⟩
      obtain ⟨line, hline, hsplit⟩ := List.mem_flatMap.mp hpiece
      exact ⟨line, hline, (mem_splitNewlines hne).mp ⟨piece, hsplit, hin⟩⟩
    · rintro ⟨line, hline, hin⟩
      obtain ⟨piece, hsplit, hpiece⟩ := (mem_splitNewlines hne).mpr hin
      exact ⟨piece, List.mem_flatMap.mpr ⟨line, hline, hsplit⟩, hpiece⟩
  constructor
  · exact fun h line hline n hin => h n ((hmem n).mpr ⟨line, hline, hin⟩)
  · intro h n hin
    obtain ⟨line, hline, hn⟩ := (hmem n).mp hin
    exact h line hline n hn

/-- No secret has a surrogate, so that masking removes none. -/
theorem encodable_redact (store : Option Store) :
    (∀ line ∈ redactText py store lines, Encodable line) ↔
    ∀ line ∈ lines, Encodable line := by
  cases store with
  | none => rfl
  | some store =>
      have hline : ∀ line,
          Encodable (Masking.mask (plain redacted) ((orderedSecrets py.env store).map plain) line) ↔
            Encodable line := by
        intro line
        apply forall_congr'
        intro n
        apply not_congr
        apply Masking.mem_mask_iff (encodable_plain redacted n)
        · intro part hpart hnil
          obtain ⟨secret, hsecret, rfl⟩ := List.mem_map.mp hpart
          exact secretValues_ne_nil (mem_orderedSecrets.mp hsecret) (List.map_eq_nil_iff.mp hnil)
        · intro part hpart
          obtain ⟨secret, _, rfl⟩ := List.mem_map.mp hpart
          exact encodable_plain secret n
      simp only [redactText, List.mem_map, forall_exists_index,
        and_imp, forall_apply_eq_imp_iff₂, hline]

end Texts

section Importing

variable {py : Interpreter} {moment : Moment} {fields : List (PyText × Json)}

/-- A value of `lines` that can be iterated over, without a text that cannot be written. -/
def Json.Writable : Json → Prop
  | .arr items => ∀ text, .str text ∈ items → Encodable text
  | .str text => Encodable text
  | .obj inner => ∀ entry ∈ inner, Encodable entry.1
  | _ => False

/-- A value that can be looked up in a dictionary. -/
def Json.Hashable : Json → Prop
  | .arr _ | .obj _ => False
  | _ => True

/-- An entry with lines that can be written and a type that can be looked up, or without. -/
def ImportableEntry (fields : List (PyText × Json)) : Prop :=
  (∀ value ∈ field fields "lines", value.Writable) ∧ ∀ value ∈ field fields "type", value.Hashable

/-- All entries of the log are such ones. What is no list has no entries. -/
def LegacyFile.Importable (legacy : LegacyFile) : Prop :=
  ∀ fields, .obj fields ∈ legacy.parsed → ImportableEntry fields

theorem encodable_pyStr {value : Json} :
    Encodable (pyStr py value) ↔ ∀ text, value = .str text → Encodable text := by
  cases value with
  | str text => exact ⟨fun h text' htext => by cases htext; exact h, fun h => h text rfl⟩
  | _ => exact iff_of_true (encodable_plain _) nofun

variable (py) in
theorem linesOf_writable :
    (∃ lines, linesOf py fields = some lines ∧ ∀ line ∈ lines, Encodable line) ↔
    ∀ value ∈ field fields "lines", value.Writable := by
  rw [linesOf]
  cases field fields "lines" with
  | none => exact iff_of_true ⟨[], rfl, nofun⟩ nofun
  | some value =>
      simp only [Option.mem_some_iff, forall_eq']
      cases value with
      | arr items =>
          simp only [Option.some_inj, exists_eq_left', List.forall_mem_map, encodable_pyStr]
          exact ⟨fun h text hmem => h _ hmem text rfl, fun h value hmem text htext =>
            h text (htext ▸ hmem)⟩
      | str text =>
          simp only [Option.some_inj, exists_eq_left', List.forall_mem_map]
          constructor
          · exact fun h n hmem => h _ hmem n (List.mem_singleton_self _)
          · exact fun h c hc n hmem => h n (List.mem_singleton.mp hmem ▸ hc)
      | obj inner => simp only [Option.some_inj, exists_eq_left',
          List.forall_mem_map, Json.Writable]
      | _ => exact iff_of_false (by rintro ⟨_, h, _⟩; cases h) id

theorem kindOf_hashable :
    (∃ kind, kindOf fields = some kind) ↔ ∀ value ∈ field fields "type", value.Hashable := by
  rw [kindOf]
  cases field fields "type" with
  | none => exact iff_of_true ⟨_, rfl⟩ nofun
  | some value =>
      simp only [Option.mem_some_iff, forall_eq']
      cases value with
      | arr _ | obj _ => exact iff_of_false nofun id
      | _ => exact iff_of_true ⟨_, rfl⟩ trivial

/-- A write changes only output files, and is done exactly if the lines can be encoded. -/
theorem writeOutput_exec (runId : String) (lines : List PyText) (now : ℚ) (s : Log) : ∃ outputs,
    ((∀ line ∈ lines, Encodable line) → ∃ count,
      (writeOutput runId lines now).exec s = (.ok count, { s with outputs := outputs })) ∧
    (¬ (∀ line ∈ lines, Encodable line) →
      (writeOutput runId lines now).exec s =
          (.error .unicodeEncodeError, { s with outputs := outputs })) := by
  by_cases h : ∀ line ∈ lines, Encodable line
  · obtain ⟨cs, hcs⟩ := encode_some (encodable_output.mpr h)
    refine ⟨s.outputs.set runId ⟨String.ofList cs, now⟩,
      fun _ => ⟨(lines.flatMap splitNewlines).length, ?_⟩, fun hnot => absurd h hnot⟩
    simp only [writeOutput, hcs]
    exact exec_bind_ok (exec_modify _ s) _
  · have hnone := encode_none fun hall => h (encodable_output.mp hall)
    refine ⟨s.outputs.set runId ⟨"", now⟩, fun hall => absurd hall h, fun _ => ?_⟩
    simp only [writeOutput, hnone]
    exact exec_bind_ok (exec_modify _ s) _

variable (py moment) in
/-- An entry is imported exactly if it can be. Only output files change. -/
theorem importEntry_exec (runId : String) (fields : List (PyText × Json)) (s : Log) : ∃ outputs,
    (ImportableEntry fields → ∃ record,
      (importEntry py moment runId fields).exec s = (.ok record, { s with outputs := outputs })) ∧
    (¬ ImportableEntry fields → ∃ e,
      (importEntry py moment runId fields).exec s = (.error e, { s with outputs := outputs })) := by
  cases hlines : linesOf py fields with
  | none =>
      have hnot : ¬ ImportableEntry fields := by
        intro h
        obtain ⟨lines, hsome, _⟩ := (linesOf_writable py).mpr h.1
        rw [hlines] at hsome
        cases hsome
      refine ⟨s.outputs, fun h => absurd h hnot, fun _ => ⟨.typeError, ?_⟩⟩
      simp only [importEntry, hlines, exec_throw]
  | some lines =>
      cases hkind : kindOf fields with
      | none =>
          have hnot : ¬ ImportableEntry fields := by
            intro h
            obtain ⟨kind, hsome⟩ := kindOf_hashable.mpr h.2
            rw [hkind] at hsome
            cases hsome
          refine ⟨s.outputs, fun h => absurd h hnot, fun _ => ⟨.typeError, ?_⟩⟩
          simp only [importEntry, hlines, hkind, exec_throw]
      | some kind =>
          have himportable : ImportableEntry fields ↔
              ∀ line ∈ redactText py moment.store lines, Encodable line := by
            rw [encodable_redact, ImportableEntry, ← linesOf_writable py,
              ← kindOf_hashable, hlines, hkind]
            simp
          obtain ⟨outputs, hdone, hfailed⟩ :=
            writeOutput_exec runId (redactText py moment.store lines) moment.now s
          refine ⟨outputs, fun h => ?_, fun h => ⟨.unicodeEncodeError, ?_⟩⟩
          · obtain ⟨count, hcount⟩ := hdone (himportable.mp h)
            simp only [importEntry, hlines, hkind]
            exact ⟨_, exec_bind_ok hcount _⟩
          · simp only [importEntry, hlines, hkind]
            exact exec_bind_error (hfailed fun hall => h (himportable.mpr hall)) _

variable (py moment) in
theorem importItems_exec (position : ℕ) (items : List Json) (s : Log) : ∃ outputs,
    ((∀ fields, .obj fields ∈ items → ImportableEntry fields) → ∃ records,
      (importItems py moment position items).exec s =
        (.ok records, { s with outputs := outputs })) ∧
    (¬ (∀ fields, .obj fields ∈ items → ImportableEntry fields) → ∃ e,
      (importItems py moment position items).exec s =
          (.error e, { s with outputs := outputs })) := by
  induction items generalizing position s with
  | nil => exact ⟨s.outputs, fun _ => ⟨[], rfl⟩, fun h => absurd (fun _ => nofun) h⟩
  | cons item items ih =>
      by_cases hfields : ∃ fields, item = .obj fields
      · obtain ⟨fields, rfl⟩ := hfields
        have hall : (∀ fields', Json.obj fields' ∈ .obj fields :: items → ImportableEntry fields') ↔
            ImportableEntry fields ∧ ∀ fields', .obj fields' ∈ items → ImportableEntry fields' := by
          simp
        rw [hall, importItems]
        obtain ⟨outputs, hdone, hfailed⟩ :=
          importEntry_exec py moment (moment.ids position) fields s
        by_cases hfirst : ImportableEntry fields
        · obtain ⟨record, hrecord⟩ := hdone hfirst
          obtain ⟨outputs', hrest, hraised⟩ := ih (position + 1) { s with outputs := outputs }
          refine ⟨outputs', fun h => ?_, fun h => ?_⟩
          · obtain ⟨records, hrecords⟩ := hrest h.2
            exact ⟨record :: records, (exec_bind_ok hrecord _).trans (exec_bind_ok hrecords _)⟩
          · obtain ⟨e, he⟩ := hraised fun hlater => h ⟨hfirst, hlater⟩
            exact ⟨e, (exec_bind_ok hrecord _).trans (exec_bind_error he _)⟩
        · obtain ⟨e, he⟩ := hfailed hfirst
          exact ⟨outputs, fun h => absurd h.1 hfirst, fun _ => ⟨e, exec_bind_error he _⟩⟩
      · have hother : ∀ fields, Json.obj fields ∈ item :: items ↔ .obj fields ∈ items := by
          intro fields
          rw [List.mem_cons]
          exact or_iff_right fun h => hfields ⟨fields, h.symm⟩
        have hskip : importItems py moment position (item :: items) =
            importItems py moment (position + 1) items := by
          cases item with
          | obj fields => exact absurd ⟨fields, rfl⟩ hfields
          | _ => rfl
        simp only [hother, hskip]
        exact ih (position + 1) s

/-- There is no old log that cannot be imported. -/
def Log.Unblocked (s : Log) : Prop := ∀ legacy ∈ s.legacy, legacy.Importable

variable (py moment) in
/-- The old log is put away, or an error is raised and it stays. -/
theorem migrateLegacyLog_exec (s : Log) :
    (s.Unblocked → ∃ s', (migrateLegacyLog py moment).exec s = (.ok (), s') ∧ s'.legacy = none ∧
      (s.legacy = none → s' = s) ∧ (s.legacy ≠ none → s'.migrated = s.legacy)) ∧
    (¬ s.Unblocked → ∃ e s', (migrateLegacyLog py moment).exec s = (.error e, s')) := by
  cases hlegacy : s.legacy with
  | none =>
      refine ⟨fun _ => ⟨s, ?_, hlegacy, fun _ => rfl, fun h => absurd rfl h⟩, fun h => absurd ?_ h⟩
      · rw [migrateLegacyLog, exec_bind_ok (exec_get s), hlegacy]
        rfl
      · intro legacy hmem
        rw [hlegacy] at hmem
        cases hmem
  | some legacy =>
      have hunblocked : s.Unblocked ↔ legacy.Importable := by
        simp [Log.Unblocked, hlegacy]
      obtain ⟨outputs, hdone, hfailed⟩ := importItems_exec py moment 0 legacy.parsed s
      rw [hunblocked, migrateLegacyLog, exec_bind_ok (exec_get s), hlegacy]
      constructor
      · intro h
        obtain ⟨records, hrecords⟩ := hdone h
        exact ⟨_, (exec_bind_ok hrecords _).trans (exec_modify _ _), rfl, nofun, fun _ => rfl⟩
      · intro h
        obtain ⟨e, he⟩ := hfailed h
        exact ⟨e, _, exec_bind_error he _⟩

end Importing

section Typed

variable (py : Interpreter)

theorem char_injective : Function.Injective PyChar.char := fun _ _ h => by injection h

theorem plain_inj {s t : String} : plain s = plain t ↔ s = t := by
  constructor
  · intro h
    apply String.toList_inj.mp
    exact List.map_injective_iff.mpr (fun c d hcd => by injection hcd) h
  · exact fun h => h ▸ rfl

/-- The fields that are there. -/
def present (pairs : List (String × Option Json)) : List (PyText × Json) :=
  pairs.filterMap fun pair => pair.2.map (plain pair.1, ·)

theorem field_present {pairs : List (String × Option Json)} (hnames : (pairs.map Prod.fst).Nodup)
    (name : String) :
    field (present pairs) name = (pairs.lookup name).join := by
  induction pairs with
  | nil => rfl
  | cons pair pairs ih =>
      obtain ⟨key, value⟩ := pair
      obtain ⟨hfirst, hrest⟩ := List.nodup_cons.mp hnames
      by_cases hname : name = key
      · subst hname
        rw [List.lookup_cons_self, Option.join_some]
        cases value with
        | some value => exact List.lookup_cons_self
        | none =>
            have hnone : pairs.lookup name = none := by
              apply List.lookup_eq_none_iff.mpr
              intro pair hpair
              exact bne_iff_ne.mpr fun h => hfirst (List.mem_map.mpr ⟨pair, hpair, h.symm⟩)
            have hlater := ih hrest
            rw [hnone] at hlater
            exact hlater
      · have hskip : (name == key) = false := beq_false_of_ne hname
        rw [List.lookup_cons, hskip]
        cases value with
        | some value =>
            have hplain : (plain name == plain key) = false :=
              beq_false_of_ne fun h => hname (plain_inj.mp h)
            have hmore : present ((key, some value) :: pairs) =
              (plain key, value) :: present pairs := rfl
            rw [field, hmore, List.lookup_cons, hplain]
            exact ih hrest
        | none => exact ih hrest

def textValue (text : Option String) : Option Json := text.map fun text => .str (plain text)

def linesValue (lines : Option (List String)) : Option Json :=
  lines.map fun lines => .arr (lines.map fun line => .str (plain line))

def entryPairs (entry : LegacyEntry) : List (String × Option Json) :=
  [("type", textValue entry.type), ("target", textValue entry.target),
    ("target_name", textValue entry.targetName), ("status", textValue entry.status),
    ("ran_at", textValue entry.ranAt), ("lines", linesValue entry.lines)]

/-- The JSON of an element of the old log whose fields are texts. -/
def itemJson : LegacyItem → Json
  | .entry entry => .obj (present (entryPairs entry))
  | .other => .null

theorem field_entry (entry : LegacyEntry) (name : String) :
    field (present (entryPairs entry)) name = ((entryPairs entry).lookup name).join := by
  have hnames : ((entryPairs entry).map Prod.fst).Nodup := by
    change ["type", "target", "target_name", "status", "ran_at", "lines"].Nodup
    decide
  exact field_present hnames name

theorem splitNewlines_plain (text : String) :
    splitNewlines (plain text) = (Text.splitOn '\n' text).map plain := by
  have hchars : ∀ cs : List Char, splitNewlines (cs.map .char) =
      (Text.splitChars (· == '\n') cs).map (List.map .char) := by
    intro cs
    induction cs with
    | nil => rfl
    | cons c cs ih =>
        rw [List.map_cons, splitNewlines, ih, Text.splitChars]
        by_cases hc : c = '\n'
        · subst hc
          rfl
        · rw [if_neg fun h => hc (char_injective h), if_neg fun h => hc (beq_iff_eq.mp h)]
          cases Text.splitChars (· == '\n') cs <;> rfl
  have hplain : plain ∘ String.ofList = List.map .char := funext fun cs => by
    rw [Function.comp_apply, plain, String.toList_ofList]
  rw [plain, hchars, Text.splitOn, List.map_map, hplain]

theorem encode_plain (text : String) : encode (plain text) = some text.toList := by
  have hchars : ∀ cs : List Char, encode (cs.map .char) = some cs := by
    intro cs
    induction cs with
    | nil => rfl
    | cons c cs ih => rw [List.map_cons, encode, ih, Option.map_some]
  exact hchars text.toList

theorem redactText_plain (store : Option Store) (lines : List String) :
    redactText py store (lines.map plain) = (redact py.env store lines).map plain := by
  cases store with
  | none => rfl
  | some store =>
      rw [redactText, redact, List.map_map, List.map_map]
      apply List.map_congr_left
      intro line _
      have hparts : (orderedSecrets py.env store).map plain =
          ((orderedSecrets py.env store).map String.toList).map (List.map .char) :=
            (List.map_map ..).symm
      rw [Function.comp_apply, Function.comp_apply, hparts, plain,
        plain, Masking.mask_map char_injective, redactLine,
        plain, String.toList_ofList]

/-- Texts are written as the model of texts has it. -/
theorem writeOutput_plain (runId : String) (lines : List String) (now : ℚ) (s : Log) :
    (writeOutput runId (lines.map plain) now).exec s = (.ok (flatLines lines).length,
      { s with outputs := s.outputs.set runId ⟨outputText lines, now⟩ }) := by
  have hflat : (lines.map plain).flatMap splitNewlines = (flatLines lines).map plain := by
    rw [List.flatMap_map, flatLines, List.map_flatMap]
    exact congrArg lines.flatMap (funext splitNewlines_plain)
  have htext : encode ([.char '\n'].intercalate ((flatLines lines).map plain)) =
      some (outputText lines).toList := by
    rw [← encode_plain, outputText, plain, String.toList_intercalate,
      Masking.map_intercalate, List.map_map]
    rfl
  simp only [writeOutput, hflat, htext, String.ofList_toList, List.length_map]
  exact exec_bind_ok (exec_modify _ s) _

theorem linesOf_typed (entry : LegacyEntry) :
    linesOf py (present (entryPairs entry)) = some ((entry.lines.getD []).map plain) := by
  have hfield : field (present (entryPairs entry)) "lines" = linesValue entry.lines :=
    field_entry entry "lines"
  rw [linesOf, hfield]
  cases entry.lines with
  | none => rfl
  | some lines => exact congrArg some (List.map_map ..)

theorem find_plain (kinds : List (String × String)) (text : String) :
    (kinds.find? fun kind => plain kind.1 = plain text).map Prod.snd = kinds.lookup text := by
  induction kinds with
  | nil => rfl
  | cons kind kinds ih =>
      rw [List.lookup_cons, List.find?_cons]
      by_cases hkind : text = kind.1
      · rw [decide_eq_true (congrArg plain hkind.symm), beq_iff_eq.mpr hkind]
        rfl
      · rw [decide_eq_false fun h => hkind (plain_inj.mp h).symm, beq_false_of_ne hkind]
        exact ih

theorem kindOf_typed (entry : LegacyEntry) :
    kindOf (present (entryPairs entry)) =
      some ((legacyKinds.lookup (entry.type.getD "")).getD "os_upgrade") := by
  have hfield : field (present (entryPairs entry)) "type" = textValue entry.type :=
    field_entry entry "type"
  rw [kindOf, hfield]
  cases entry.type with
  | none => rfl
  | some text =>
      dsimp only [textValue, Option.map_some, Option.getD_some]
      rw [find_plain]

theorem field_text (entry : LegacyEntry) {name : String} {text : Option String}
    (h : ((entryPairs entry).lookup name).join = textValue text) (default : String) :
    (field (present (entryPairs entry)) name).getD (.str (plain default)) =
      .str (plain (text.getD default)) := by
  rw [field_entry, h]
  cases text <;> rfl

theorem failed_typed (entry : LegacyEntry) :
    (field (present (entryPairs entry)) "status").any (Json.isText "error") =
      decide (entry.status = some "error") := by
  have hfield : field (present (entryPairs entry)) "status" = textValue entry.status :=
    field_entry entry "status"
  rw [hfield]
  cases entry.status with
  | none => rfl
  | some status =>
      rw [Bool.eq_iff_iff, decide_eq_true_iff, Option.some_inj, ← plain_inj]
      exact beq_iff_eq

/-- The output of an entry whose lines are texts. -/
def importedLines (moment : Moment) (entry : LegacyEntry) : List String :=
  redact py.env moment.store (entry.lines.getD [])

/-- An entry whose fields are texts gets the record that the model of texts has. -/
theorem importEntry_typed (moment : Moment) (runId : String) (entry : LegacyEntry) (position : ℕ)
    (s : Log) :
    (importEntry py moment runId (present (entryPairs entry))).exec s =
      (.ok (.ofRecord (entry.record runId
        (flatLines (importedLines py moment entry)).length position)),
        { s with outputs :=
            s.outputs.set runId ⟨outputText (importedLines py moment entry), moment.now⟩ }) := by
  have htarget : (field (present (entryPairs entry)) "target").getD (.str []) =
      .str (plain (entry.target.getD "")) :=
    field_text entry rfl ""
  have hname : (field (present (entryPairs entry)) "target_name").getD (.str []) =
      .str (plain (entry.targetName.getD "")) := field_text entry rfl ""
  have hstatus : (field (present (entryPairs entry)) "status").getD (.str (plain "error")) =
      .str (plain (entry.status.getD "error")) := field_text entry rfl "error"
  have hran : (field (present (entryPairs entry)) "ran_at").getD (.str []) =
      .str (plain (entry.ranAt.getD "")) :=
    field_text entry rfl ""
  have herror : (if entry.status = some "error"
    then ((entry.lines.getD []).map plain).getLast?.getD [] else []) =
      plain (if entry.status = some "error" then (entry.lines.getD []).getLast?.getD ""
          else "") := by
    rw [apply_ite plain, List.getLast?_map]
    cases (entry.lines.getD []).getLast? <;> rfl
  simp only [importEntry, linesOf_typed, kindOf_typed, redactText_plain]
  rw [exec_bind_ok (writeOutput_plain ..), exec_pure]
  simp only [htarget, hname, hstatus, hran, failed_typed, decide_eq_true_eq, herror]
  rfl

/-- Where all fields are texts, the import is that of the model of texts. -/
theorem importItems_typed (moment : Moment) (position : ℕ) (items : List LegacyItem) (d : Disk)
    (s : Log) (hruns : d.runs = s.outputs) :
    Completes (Activity.importItems py.env moment position items) d fun d' records =>
      (importItems py moment position (items.map itemJson)).exec s =
        (.ok (records.map .ofRecord), { s with outputs := d'.runs }) := by
  induction items generalizing position d s with
  | nil => exact completes_ret (by rw [hruns]; rfl)
  | cons item items ih =>
      cases item with
      | other => exact ih (position + 1) d s hruns
      | entry entry =>
          let lines := importedLines py moment entry
          let d₁ := (d.perform (.writeOutput (moment.ids position) (outputText lines) moment.now)).1
          let outputs := s.outputs.set (moment.ids position) ⟨outputText lines, moment.now⟩
          let s₁ : Log := { s with outputs := outputs }
          have hruns₁ : d₁.runs = s₁.outputs := by
            dsimp only [d₁, s₁, outputs, Disk.perform]
            rw [hruns]
          have hfirst := importEntry_typed py moment (moment.ids position) entry position s
          refine completes_bind (Q := fun d' count => d' = d₁ ∧ count = (flatLines lines).length)
            (completes_call (completes_ret ⟨rfl, rfl⟩)) ?_
          rintro _ _ ⟨rfl, rfl⟩
          refine completes_bind (ih (position + 1) d₁ s₁ hruns₁) fun d' records hrest =>
            completes_ret ?_
          rw [List.map_cons, itemJson, importItems, exec_bind_ok hfirst, exec_bind_ok hrest]
          rfl

end Typed

section Calls

variable (py : Interpreter)

inductive LogCall where
  | record (moment : Moment) (run : Run)
  | recent (moment : Moment) (query : Query)

def LogCall.after (s : Log) : LogCall → Log
  | .record moment run => ((recordRun py moment run).exec s).2
  | .recent moment query => ((getRecent py moment query).exec s).2

/-- A recorder stores its run in front and returns its id. A reader returns what is stored. -/
def Answers (s : Log) : LogCall → Prop
  | .record moment run => ((recordRun py moment run).exec s).1 = .ok run.runId ∧
      ∃ lineCount rest, ((recordRun py moment run).exec s).2.index =
        .ofRecord (run.record py.dates lineCount) :: rest
  | .recent moment query => ((getRecent py moment query).exec s).1 =
      .ok (query.apply ((getRecent py moment query).exec s).2.index)

/-- The import ends without an error and puts the old log away. All calls that come with it
or after it do what they are for. -/
def Harmless (moment : Moment) (s : Log) : Prop :=
  ∃ s', (migrateLegacyLog py moment).exec s = (.ok (), s') ∧ s'.legacy = none ∧
    s'.migrated = s.legacy ∧
    ∀ calls, Meets (LogCall.after py) (Answers py) s calls ∧
      Meets (LogCall.after py) (Answers py) s' calls

variable {py} {s : Log}

theorem Log.Unblocked.of_none (h : s.legacy = none) : s.Unblocked := by
  intro legacy hmem
  rw [h] at hmem
  cases hmem

variable (py) in
theorem loadIndex_exec (moment : Moment) (h : s.Unblocked) :
    ∃ s', (loadIndex py moment).exec s = (.ok s'.index, s') ∧ s'.legacy = none := by
  obtain ⟨s', hexec, hnone, _⟩ := (migrateLegacyLog_exec py moment s).1 h
  exact ⟨s', exec_bind_ok hexec _, hnone⟩

variable (py) in
/-- The record of a run is kept in front. -/
theorem selectKept_front (now : ℚ) (entry : Entry) (entries : List Entry) :
    ∃ rest, (selectKept py now (entry :: entries) entry.id).1 = entry :: rest := by
  have hkeeps : (decide (entry.id = entry.id) ||
      decide (now - retention ≤ parseTs py entry.startedAt now)) = true := by
    rw [decide_eq_true rfl, Bool.true_or]
  have htake : (entry :: entries).take maxEntries = entry :: entries.take 499 := rfl
  rw [selectKept, htake]
  exact ⟨_, List.filter_cons_of_pos (p := fun e : Entry => e.id = entry.id ||
    decide (now - retention ≤ parseTs py e.startedAt now)) hkeeps⟩

variable (py) in
theorem recordRun_exec (moment : Moment) (run : Run) (h : s.Unblocked) : ∃ s' lineCount rest,
    (recordRun py moment run).exec s = (.ok run.runId, s') ∧ s'.legacy = none ∧
      s'.index = .ofRecord (run.record py.dates lineCount) :: rest := by
  have hwritable : ∀ line ∈ redactText py moment.store (run.output.map plain), Encodable line := by
    apply (encodable_redact moment.store).mpr
    intro line hline
    obtain ⟨text, _, rfl⟩ := List.mem_map.mp hline
    exact encodable_plain text
  obtain ⟨outputs, hdone, _⟩ :=
    writeOutput_exec run.runId (redactText py moment.store (run.output.map plain))
    moment.now s
  obtain ⟨lineCount, hwritten⟩ := hdone hwritable
  have hstill : ({ s with outputs := outputs } : Log).Unblocked := h
  obtain ⟨s₁, hloaded, hnone⟩ := loadIndex_exec py moment hstill
  let selected := selectKept py moment.now (.ofRecord (run.record py.dates lineCount) ::
    s₁.index) run.runId
  let s₂ := cleanUp moment.now selected.1 selected.2 { s₁ with index := selected.1 }
  have hsaved : Action.exec (do
      modify fun s => cleanUp moment.now selected.1 selected.2 { s with index := selected.1 }
      pure run.runId) s₁ = (.ok run.runId, s₂) := exec_bind_ok (exec_modify _ s₁) _
  have hrecorded : (recordRun py moment run).exec s = (.ok run.runId, s₂) := by
    apply exec_tryCatch_ok
    rw [exec_bind_ok hwritten, exec_bind_ok hloaded]
    exact hsaved
  obtain ⟨rest, hrest⟩ :=
    selectKept_front py moment.now (.ofRecord (run.record py.dates lineCount)) s₁.index
  exact ⟨s₂, lineCount, rest, hrecorded, hnone, hrest⟩

theorem answers_unblocked (h : s.Unblocked) (call : LogCall) :
    Answers py s call ∧ (call.after py s).Unblocked := by
  cases call with
  | record moment run =>
      obtain ⟨s', lineCount, rest, hexec, hnone, hindex⟩ := recordRun_exec py moment run h
      rw [Answers, LogCall.after, hexec]
      exact ⟨⟨rfl, lineCount, rest, hindex⟩, .of_none hnone⟩
  | recent moment query =>
      obtain ⟨s', hexec, hnone⟩ := loadIndex_exec py moment h
      have hread : (getRecent py moment query).exec s = (.ok (query.apply s'.index), s') := by
        rw [getRecent, map_eq_pure_bind]
        exact exec_bind_ok hexec _
      rw [Answers, LogCall.after, hread]
      exact ⟨rfl, .of_none hnone⟩

theorem meets_unblocked (h : s.Unblocked) (calls : List LogCall) :
    Meets (LogCall.after py) (Answers py) s calls := by
  have hkeep : ∀ t call, Log.Unblocked t → True → (LogCall.after py t call).Unblocked :=
    fun t call ht _ => (answers_unblocked ht call).2
  have hall : Meets (LogCall.after py) (fun _ _ => True) s calls :=
    meets_of_forall fun _ _ _ => trivial
  have hanswers : ∀ t call, Log.Unblocked t → True → Answers py t call :=
    fun t call ht _ => (answers_unblocked ht call).1
  exact meets_of_reached hanswers (reached_all hkeep h hall) hall

end Calls

/-- An old log that is JSON is harmless exactly if its entries have lines that can be
written and a type that can be looked up, or do not have them. -/
theorem legacy_harmless_iff (py : Interpreter) (moment : Moment) (s : Log) (value : Json) :
    Harmless py moment { s with legacy := some (.json value) } ↔
      (LegacyFile.json value).Importable := by
  let found : Log := { s with legacy := some (.json value) }
  have hunblocked : found.Unblocked ↔ (LegacyFile.json value).Importable := by
    simp [Log.Unblocked, found]
  obtain ⟨hdone, hfailed⟩ := migrateLegacyLog_exec py moment found
  rw [← hunblocked]
  constructor
  · rintro ⟨s', hexec, _⟩
    by_contra hblocked
    obtain ⟨e, t, hraised⟩ := hfailed hblocked
    rw [hexec] at hraised
    cases hraised
  · intro h
    obtain ⟨s', hexec, hnone, _, haside⟩ := hdone h
    exact ⟨s', hexec, hnone, haside nofun, fun calls =>
      ⟨meets_unblocked h calls, meets_unblocked (.of_none hnone) calls⟩⟩

def plainInterpreter : Interpreter where
  env := plainSurroundings
  dates := epoch
  fromisoformat text := if text = plain "1970-01-01T00:00:00+00:00" then some 0 else none
  fromisoformat_plain s := by simp only [plain_inj, epoch]
  render _ := "None"

/-- One entry, without lines but with their field. -/
def nullLines : Json := .arr [.obj [(plain "lines", .null)]]

theorem nullLines_block :
    ¬ Harmless plainInterpreter firstCall.moment { legacy := some (.json nullLines) } := by
  rintro ⟨s', hexec, _⟩
  have hraised : (migrateLegacyLog plainInterpreter firstCall.moment).exec
    { legacy := some (.json nullLines) } =
      (.error .typeError, { legacy := some (.json nullLines) }) := rfl
  rw [hraised] at hexec
  cases hexec

end Keepup.Activity.Untyped
