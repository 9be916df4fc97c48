import EventLoop.Number.Word
import EventLoop.Timeline.Snapshot

/-!
# Reports

A timeline in words: a summary has a line for each snapshot, a detail shows all of one snapshot.
-/

namespace EventLoop

/-- The text with blanks before it, at least as wide as told. -/
def padLeft (width : Nat) (text : String) : String :=
  "".pushn ' ' (width - text.length) ++ text

/-- The text with blanks after it, at least as wide as told. -/
def padRight (width : Nat) (text : String) : String :=
  text.pushn ' ' (width - text.length)

/-- A line number in a column of its own. -/
def lineLabel : Option Nat → String
  | some line => s!"L{line}"
  | none => "-"

/-- A line with a title and the labels of some things in a row. -/
def labelLine {α : Type} (title : String) (label : α → String) (separator : String)
    (items : List α) : String :=
  "  " ++ padRight 12 title ++
    (if items.isEmpty then "(empty)" else separator.intercalate (items.map label)) ++ "\n"

def PendingTimer.label (timer : PendingTimer) : String :=
  s!"timer#{timer.id} ({timer.delay}ms)"

def QueuedTask.label (task : QueuedTask) : String :=
  s!"{task.name}#{task.id}"

/-- Each line behind some blanks and ended by a line feed. -/
def listLines (indent : String) (lines : List String) : String :=
  String.join (lines.map fun line => indent ++ line ++ "\n")

/-- The line of a summary that stands for a snapshot. -/
def Snapshot.summaryLine (s : Snapshot) : String :=
  padLeft 4 (toString s.id) ++ "  " ++ padRight 18 s.phase.shown ++ "  " ++
    padLeft 5 (lineLabel s.highlightLine) ++ "  " ++ s.description

/-- The number of the step that a snapshot shows: steps are counted from one, in machine words. -/
def Snapshot.step (s : Snapshot) : Nat :=
  (s.id + 1) % Number.wordCount

/-- All of a snapshot. The total is that of the snapshots in its timeline. -/
def Snapshot.detail (s : Snapshot) (total : Nat) : String :=
  s!"step {s.step}/{total}  [{s.phase.shown}]  {s.description}\n" ++
    (match s.highlightLine with
      | some line => s!"  line        {line}\n"
      | none => "") ++
    labelLine "call stack" Frame.name " > " s.stack ++
    labelLine "web apis" PendingTimer.label ", " s.pendingTimers ++
    labelLine "microtasks" QueuedTask.label ", " s.deferredQueue ++
    labelLine "macrotasks" QueuedTask.label ", " s.readyQueue ++
    "  console\n" ++ listLines "    " s.output

namespace Timeline

/-- A line for each snapshot, and what had been printed at the end. -/
def summary (timeline : Timeline) : String :=
  listLines "" (timeline.snapshots.toList.map Snapshot.summaryLine) ++ "\noutput:\n" ++
    listLines "  " timeline.finalOutput

/-- All of the snapshot under a cursor. -/
def detailAt? (timeline : Timeline) (cursor : Nat) : Option String :=
  (timeline.at? cursor).map (·.detail timeline.size)

/-- All of each snapshot from a place on. -/
def detailsFrom (timeline : Timeline) (start : Nat) : List String :=
  (timeline.snapshots.toList.drop start).map (·.detail timeline.size)

end Timeline

end EventLoop
