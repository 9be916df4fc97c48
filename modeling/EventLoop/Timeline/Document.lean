import EventLoop.Json.Basic
import EventLoop.Timeline.Snapshot

/-!
# Timelines as documents

A timeline is written as an array of objects. Reading is more liberal than writing: an object may
have further members, and an array of all fields in order stands for a record. Numbers have to fit
machine words. An object may leave out a line that is absent; every other field has to be there.
-/

namespace EventLoop

namespace SlotKey

def toJson (key : SlotKey) : Json :=
  .natural key.code

def ofJson? (json : Json) : Option SlotKey :=
  json.word?.map ofCode

end SlotKey

/-- The value of a field that has to be there. -/
def required {α : Type} (read : Json → Option α) (field : Option Json) : Option α :=
  field.bind read

/-- The value of a field that is absent, null or a number. -/
def optionalWord (field : Option Json) : Option (Option Nat) :=
  match field with
  | some json => json.nullable? Json.word?
  | none => some none

namespace Frame

def fieldNames : List String :=
  ["id", "name", "kind", "line"]

def toJson (frame : Frame) : Json :=
  .object
    [ ("id", .natural frame.id), ("name", .text frame.name), ("kind", .text frame.kind.word),
      ("line", .ofOption .natural frame.line) ]

def ofJson? (json : Json) : Option Frame := do
  match ← json.fields? fieldNames fieldNames.length with
  | [id, name, kind, line] =>
    return {
      id := ← required Json.word? id
      name := ← required Json.text? name
      kind := ← required (Json.oneOf? FrameKind.ofWord?) kind
      line := ← optionalWord line }
  | _ => none

end Frame

namespace PendingTimer

def fieldNames : List String :=
  ["id", "delay", "remaining", "seq", "callback"]

def toJson (timer : PendingTimer) : Json :=
  .object
    [ ("id", .natural timer.id), ("delay", .natural timer.delay),
      ("remaining", .natural timer.remaining), ("seq", .natural timer.seq),
      ("callback", timer.callback.toJson) ]

def ofJson? (json : Json) : Option PendingTimer := do
  match ← json.fields? fieldNames fieldNames.length with
  | [id, delay, remaining, seq, callback] =>
    return {
      id := ← required Json.word? id
      delay := ← required Json.word? delay
      remaining := ← required Json.word? remaining
      seq := ← required Json.word? seq
      callback := ← required SlotKey.ofJson? callback }
  | _ => none

end PendingTimer

namespace QueuedTask

def fieldNames : List String :=
  ["id", "name", "kind", "callback"]

def toJson (task : QueuedTask) : Json :=
  .object
    [ ("id", .natural task.id), ("name", .text task.name), ("kind", .text task.kind.word),
      ("callback", task.callback.toJson) ]

def ofJson? (json : Json) : Option QueuedTask := do
  match ← json.fields? fieldNames fieldNames.length with
  | [id, name, kind, callback] =>
    return {
      id := ← required Json.word? id
      name := ← required Json.text? name
      kind := ← required (Json.oneOf? TaskKind.ofWord?) kind
      callback := ← required SlotKey.ofJson? callback }
  | _ => none

end QueuedTask

namespace Phase

def toJson (phase : Phase) : Json :=
  .text phase.word

def ofJson? (json : Json) : Option Phase :=
  json.oneOf? ofWord?

end Phase

namespace Snapshot

def fieldNames : List String :=
  [ "id", "stack", "pending_timers", "deferred_queue", "ready_queue", "output", "highlight_line",
    "description", "phase" ]

def toJson (s : Snapshot) : Json :=
  .object
    [ ("id", .natural s.id), ("stack", .ofList Frame.toJson s.stack),
      ("pending_timers", .ofList PendingTimer.toJson s.pendingTimers),
      ("deferred_queue", .ofList QueuedTask.toJson s.deferredQueue),
      ("ready_queue", .ofList QueuedTask.toJson s.readyQueue),
      ("output", .ofList Json.text s.output),
      ("highlight_line", .ofOption .natural s.highlightLine), ("description", .text s.description),
      ("phase", s.phase.toJson) ]

def ofJson? (json : Json) : Option Snapshot := do
  match ← json.fields? fieldNames fieldNames.length with
  | [id, stack, timers, deferred, ready, output, line, description, phase] =>
    return {
      id := ← required Json.word? id
      stack := ← required (Json.list? Frame.ofJson?) stack
      pendingTimers := ← required (Json.list? PendingTimer.ofJson?) timers
      deferredQueue := ← required (Json.list? QueuedTask.ofJson?) deferred
      readyQueue := ← required (Json.list? QueuedTask.ofJson?) ready
      output := ← required (Json.list? Json.text?) output
      highlightLine := ← optionalWord line
      description := ← required Json.text? description
      phase := ← required Phase.ofJson? phase }
  | _ => none

end Snapshot

namespace Timeline

def toJson (timeline : Timeline) : Json :=
  .ofList Snapshot.toJson timeline.snapshots.toList

def ofJson? (json : Json) : Option Timeline :=
  (json.list? Snapshot.ofJson?).map fun snapshots => ⟨snapshots.toArray⟩

end Timeline

end EventLoop
