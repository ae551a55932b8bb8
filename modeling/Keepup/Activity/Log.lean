import Keepup.Activity.Redaction
import Keepup.Lib.Remote
import Mathlib.Algebra.Order.Ring.Rat

/-!
The activity log on disk: an index of the runs, a file with the output of each,
and the log of an older version that is imported once. What the log does are
programs of filesystem steps, each of which can fail, or be the last one before
a crash.
-/

namespace Keepup.Activity

open Lib Remote

section Disk

/-- A record of the index. `origin` is not part of the file: it says from which
entry of the old log an imported record comes. -/
structure Record where
  id : String
  kind : String
  target : String
  targetName : String
  trigger : String
  status : String
  startedAt : String
  finishedAt : String
  durationS : ℚ
  error : String
  lineCount : ℕ
  origin : Option ℕ := none
deriving DecidableEq

structure LegacyEntry where
  type : Option String := none
  target : Option String := none
  targetName : Option String := none
  status : Option String := none
  ranAt : Option String := none
  lines : Option (List String) := none
deriving DecidableEq

/-- An element of the old log. Only dictionaries are imported. -/
inductive LegacyItem where
  | entry (entry : LegacyEntry)
  | other

inductive LegacyText where
  | items (items : List LegacyItem)
  | unreadable

/-- The contents of an index file: all of a list of records, or less. -/
inductive IndexText where
  | full (entries : List Record)
  | torn

structure RunFile where
  text : String
  mtime : ℚ

structure Disk where
  index : Option IndexText := none
  indexTmp : Option IndexText := none
  indexCorrupt : Option IndexText := none
  runs : Dict String RunFile := ∅
  legacy : Option LegacyText := none
  migrated : Option LegacyText := none

inductive Step where
  | writeOutput (runId text : String) (now : ℚ)
  | readIndex
  | quarantine
  | writeTmp (entries : List Record)
  | replaceIndex
  | unlink (runId : String)
  | listRuns
  | sweep (runId : String) (cutoff : ℚ)
  | readLegacy
  | renameLegacy

inductive Answer where
  | done
  | failed
  | index (text : Option IndexText)
  | runs (runIds : List String)
  | legacy (text : Option LegacyText)

/-- What becomes of a step. A write that does not come to its end may leave some
text behind. -/
inductive Fate where
  | done
  | failed (left : Option String)
  | crashed (left : Option String)

def Disk.perform (d : Disk) : Step → Disk × Answer
  | .writeOutput runId text now => ({ d with runs := d.runs.set runId ⟨text, now⟩ }, .done)
  | .readIndex => (d, .index d.index)
  | .quarantine => ({ d with index := none, indexCorrupt := d.index }, .done)
  | .writeTmp entries => ({ d with indexTmp := some (.full entries) }, .done)
  | .replaceIndex => ({ d with index := d.indexTmp, indexTmp := none }, .done)
  | .unlink runId => ({ d with runs := d.runs.pop runId }, .done)
  | .listRuns => (d, .runs d.runs.keys)
  | .sweep runId cutoff =>
      (if (d.runs.get? runId).any fun file => file.mtime < cutoff then
        { d with runs := d.runs.pop runId } else d, .done)
  | .readLegacy => (d, .legacy d.legacy)
  | .renameLegacy => ({ d with legacy := none, migrated := d.legacy }, .done)

/-- What a step that was not done leaves. -/
def Disk.tear (d : Disk) : Step → Option String → Disk
  | .writeOutput runId _ now, some text => { d with runs := d.runs.set runId ⟨text, now⟩ }
  | .writeTmp _, some _ => { d with indexTmp := some .torn }
  | _, _ => d

/-- The filesystem. What is there can be read; all other steps can fail. -/
def serve : Server Disk Step Answer Unit Fate := fun d step fate =>
  match fate, step with
  | .crashed left, step => (d.tear step left, .error ())
  | .failed _, .readIndex => ((d.perform .readIndex).1, .ok (d.perform .readIndex).2)
  | .failed _, .readLegacy => ((d.perform .readLegacy).1, .ok (d.perform .readLegacy).2)
  | .failed left, step => (d.tear step left, .ok .failed)
  | .done, step => ((d.perform step).1, .ok (d.perform step).2)

end Disk

section Source

abbrev Program (α : Type) := Remote Step Answer Unit α

/-- What the code takes from the library for dates. -/
structure Dates where
  fromisoformat : String → Option ℚ
  isoformat : ℚ → String
  /-- `round(seconds, 1)` -/
  tenths : ℚ → ℚ

def Dates.parseTs (dates : Dates) (value : String) (default : ℚ) : ℚ :=
  (dates.fromisoformat value).getD default

def maxEntries : ℕ := 500

def maxAgeDays : ℕ := 90

def retention : ℚ := maxAgeDays * 86400

def legacyKinds : List (String × String) := [("os", "os_upgrade"), ("docker", "container_redeploy")]

variable (env : Surroundings) (dates : Dates)

/-- The part that is kept, and the part that is dropped. -/
def selectKept (now : ℚ) (entries : List Record) (protectId : String) : List Record × List Record :=
  let keeps := fun e : Record =>
    e.id = protectId || decide (now - retention ≤ dates.parseTs e.startedAt now)
  ((entries.take maxEntries).filter keeps,
    entries.drop maxEntries ++ (entries.take maxEntries).filter fun e => !keeps e)

def writeOutput (runId : String) (lines : List String) (now : ℚ) : Program ℕ :=
  .call (.writeOutput runId (outputText lines) now) fun
    | .done => .ret (flatLines lines).length
    | _ => .ret 0

def readIndexFile : Program (List Record) :=
  .call .readIndex fun
    | .index (some (.full entries)) => .ret entries
    | .index (some .torn) => .call .quarantine fun _ => .ret []
    | _ => .ret []

/-- Whether the index has been saved. -/
def saveIndex (entries : List Record) : Program Bool :=
  .call (.writeTmp entries) fun
    | .done => .call .replaceIndex fun
        | .done => .ret true
        | _ => .ret false
    | _ => .ret false

/-- The moment at which something is done: the time, the ids that are drawn for
imported entries, and the credential store, `none` where it cannot be loaded. -/
structure Moment where
  now : ℚ
  ids : ℕ → String
  store : Option Store

def LegacyEntry.record (entry : LegacyEntry) (runId : String) (lineCount position : ℕ) :
    Record where
  id := runId
  kind := (legacyKinds.lookup (entry.type.getD "")).getD "os_upgrade"
  target := entry.target.getD ""
  targetName := entry.targetName.getD ""
  trigger := "scheduled"
  status := entry.status.getD "error"
  startedAt := entry.ranAt.getD ""
  finishedAt := entry.ranAt.getD ""
  durationS := 0
  error := if entry.status = some "error" then ((entry.lines.getD []).getLast?).getD "" else ""
  lineCount := lineCount
  origin := some position

/-- The records for the elements from a position on. -/
def importItems (moment : Moment) : ℕ → List LegacyItem → Program (List Record)
  | _, [] => .ret []
  | position, .other :: items => importItems moment (position + 1) items
  | position, .entry entry :: items => do
      let lineCount ←
        writeOutput (moment.ids position) (redact env moment.store (entry.lines.getD [])) moment.now
      let records ← importItems moment (position + 1) items
      .ret (entry.record (moment.ids position) lineCount position :: records)

/-- The imported records among the others, the newest first. -/
def merged (now : ℚ) (records entries : List Record) : List Record :=
  (records ++ entries).mergeSort fun a b =>
    dates.parseTs b.startedAt now ≤ dates.parseTs a.startedAt now

def LegacyText.parsed : LegacyText → List LegacyItem
  | .items list => list
  | .unreadable => []

def renameLegacy : Program Unit := .call .renameLegacy fun _ => .ret ()

/-- Save what was imported, if anything was, and put the old log away. -/
def finishMigration (moment : Moment) (records : List Record) : Program Unit :=
  if records = [] then renameLegacy
  else do
    let entries ← readIndexFile
    let saved ← saveIndex (merged dates moment.now records entries)
    if saved then renameLegacy else .ret ()

def migrateLegacyLog (moment : Moment) : Program Unit :=
  .call .readLegacy fun
    | .legacy (some text) => do
        let records ← importItems env moment 0 text.parsed
        finishMigration dates moment records
    | _ => .ret ()

def loadIndex (moment : Moment) : Program (List Record) := do
  migrateLegacyLog env dates moment
  readIndexFile

def deleteOutputFiles : List String → Program Unit
  | [] => .ret ()
  | runId :: runIds =>
      if runId = "" then deleteOutputFiles runIds
      else .call (.unlink runId) fun _ => deleteOutputFiles runIds

def sweepEach (cutoff : ℚ) : List String → Program Unit
  | [] => .ret ()
  | runId :: runIds => .call (.sweep runId cutoff) fun _ => sweepEach cutoff runIds

def sweepAgedOrphans (now : ℚ) (keepIds : List String) : Program Unit :=
  .call .listRuns fun
    | .runs runIds => sweepEach (now - retention) (runIds.filter fun runId => runId ∉ keepIds)
    | _ => .ret ()

/-- The arguments of `record_run`, with the id that is drawn and the time at which
the run has finished. -/
structure Run where
  runId : String
  finished : ℚ
  kind : String
  target : String
  targetName : String
  trigger : String
  status : String
  output : List String
  startedAt : String := ""
  error : String := ""

def Run.record (run : Run) (lineCount : ℕ) : Record where
  id := run.runId
  kind := run.kind
  target := run.target
  targetName := run.targetName
  trigger := run.trigger
  status := run.status
  startedAt := dates.isoformat (dates.parseTs run.startedAt run.finished)
  finishedAt := dates.isoformat run.finished
  durationS := dates.tenths (max (run.finished - dates.parseTs run.startedAt run.finished) 0)
  error := run.error
  lineCount := lineCount

/-- The index after a run, and the records that are dropped from it. -/
def Run.selected (run : Run) (now : ℚ) (lineCount : ℕ) (entries : List Record) :
    List Record × List Record :=
  selectKept dates now (run.record dates lineCount :: entries) run.runId

def recordRun (moment : Moment) (run : Run) : Program String := do
  let lineCount ← writeOutput run.runId (redact env moment.store run.output) moment.now
  let entries ← loadIndex env dates moment
  let selected := run.selected dates moment.now lineCount entries
  let saved ← saveIndex selected.1
  if saved then
    deleteOutputFiles (env.iterate (selected.2.map Record.id).dedup)
    sweepAgedOrphans moment.now (selected.1.map Record.id)
    .ret run.runId
  else .ret ""

end Source

end Keepup.Activity
