import Keepup.Activity.Jobs
import Keepup.Lib.Markup

/-!
The output of a job on the page, a line in an element of its own. Whatever a command has printed, a
reader of the page finds these elements and no other markup.
-/

namespace Keepup.LogPage

open Lib Markup Jobs

section Source

/- `str.lower` -/
variable (lower : String → String)

def classifyLogLine (line : String) : String :=
  if ["error", "fail", "e:"].any fun k => Text.isIn k (lower line) then "log-line-red"
  else if ["warn", "reboot"].any fun k => Text.isIn k (lower line) then "log-line-yellow"
  else if ["Get:", "Unpacking", "Setting up", "Processing"].any fun p =>
    Text.startsWith line p then "log-line-dim"
  else if ["upgraded", "installed", "done"].any fun k => Text.isIn k (lower line) then "log-line-ok"
  else "log-line-white"

def logLine (line : String) : String :=
  "<div class=\"" ++ classifyLogLine lower line ++ "\">" ++ String.ofList (escape line.toList) ++
    "</div>"

def formatLogLines (lines : List String) : String := Text.joinOn '\n' (lines.map (logLine lower))

def jobModalBody (desk : Desk) (jobId : String) : String :=
  match desk.jobs.get? jobId with
  | none => ""
  | some job => formatLogLines lower job.lines

end Source

section Reading

variable (lower : String → String)

/-- The classes that the style sheet knows. -/
def logLineClasses : List String :=
  ["log-line-red", "log-line-yellow", "log-line-dim", "log-line-ok", "log-line-white"]

theorem classify_mem (line : String) : classifyLogLine lower line ∈ logLineClasses := by
  unfold classifyLogLine
  split
  · decide
  split
  · decide
  split
  · decide
  split <;> decide

/-- What a reader finds of a line. -/
def linePieces (line : String) : List Piece :=
  element ("div class=\"".toList ++ (classifyLogLine lower line).toList ++
    ['"']) line.toList "/div".toList

def pagePieces (lines : List String) : List Piece :=
  [Piece.text ['\n']].intercalate (lines.map (linePieces lower))

theorem class_closed {cls : String} (h : cls ∈ logLineClasses) :
    '>' ∉ "div class=\"".toList ++ cls.toList ++ ['"'] := by
  have hall : ∀ cls ∈ logLineClasses, '>' ∉ "div class=\"".toList ++
    cls.toList ++ ['"'] := by decide
  exact hall cls h

theorem logLine_toList (line : String) : (logLine lower line).toList =
    '<' :: ("div class=\"".toList ++ (classifyLogLine lower line).toList ++ ['"'] ++ '>' ::
      (escape line.toList ++ '<' :: ("/div".toList ++ ['>']))) := by
  simp [logLine]

theorem pieces_logLine (line : String) (rest : List Char) :
    pieces ((logLine lower line).toList ++ rest) = linePieces lower line ++ pieces rest := by
  have hread := @pieces_element _ "/div".toList (class_closed (classify_mem lower line))
    (by decide) line.toList rest
  rw [linePieces, ← hread, logLine_toList]
  simp

theorem pieces_format (lines : List String) :
    pieces (formatLogLines lower lines).toList = pagePieces lower lines := by
  induction lines with
  | nil => rfl
  | cons line lines ih =>
      cases lines with
      | nil =>
          have hline := pieces_logLine lower line []
          simpa [formatLogLines, Text.joinOn, pagePieces, List.intercalate, pieces, scan, shownText]
            using hline
      | cons next rest =>
          have hjoin : (formatLogLines lower (line :: next :: rest)).toList =
              (logLine lower line).toList ++ '\n' ::
                  (formatLogLines lower (next :: rest)).toList := by
            simp [formatLogLines, Text.joinOn]
          obtain ⟨tail, htail⟩ : ∃ tail, (formatLogLines lower (next :: rest)).toList =
              '<' :: tail := by
            cases rest <;> simp [formatLogLines, Text.joinOn, logLine]
          have hbreak := @pieces_text ['\n'] (by decide) tail
          rw [hjoin, pieces_logLine, htail, ← List.singleton_append, hbreak, ← htail, ih]
          simp [pagePieces, List.intercalate, shownText, unescape]

/-- The page of a job has one element for each line of its output, with a class that is
known and the line itself as its text, and a line break between two of them. Nothing in a
line is read as markup. -/
theorem modal_shows_lines (desk : Desk) (jobId : String) :
    (∀ job, desk.jobs.get? jobId = some job →
      pieces (jobModalBody lower desk jobId).toList = pagePieces lower job.lines) ∧
    (desk.jobs.get? jobId = none → pieces (jobModalBody lower desk jobId).toList = []) ∧
    ∀ line, classifyLogLine lower line ∈ logLineClasses := by
  refine ⟨fun job hjob => ?_, fun hnone => ?_, classify_mem lower⟩
  · rw [jobModalBody, hjob]
    exact pieces_format lower job.lines
  · rw [jobModalBody, hnone]
    rfl

end Reading

end Keepup.LogPage
