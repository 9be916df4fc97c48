import EventLoop.Json.Reading
import EventLoop.Semantics.Host

/-!
# Settings

What bounds a run and how it is shown. Settings come from a document: an object, or an array of the
first of them in order. What it leaves out has its usual value, and members of other names do not
count; but a value of the wrong kind, null included, makes the document invalid.
-/

namespace EventLoop

/-- How the line of a call to a built-in is found. -/
inductive LineMode where
  /-- By searching the source for the text of the call. -/
  | heuristic
  /-- It is the line of the call expression. -/
  | callSite
deriving DecidableEq, Repr

namespace LineMode

/-- The word for a mode. -/
def word : LineMode → String
  | heuristic => "heuristic"
  | callSite => "call-site"

/-- Reads the word for a mode. -/
def ofWord? : String → Option LineMode
  | "heuristic" => some heuristic
  | "call-site" => some callSite
  | _ => none

end LineMode

structure Settings where
  /-- Passes of the event loop before a run is cut. -/
  maxIterations : Nat
  /-- Deferred callbacks run in one pass before a run is cut. -/
  maxDeferredPerCheckpoint : Nat
  /-- Does a run that was cut end with a snapshot that says so? -/
  announceIterationLimit : Bool
  lineMode : LineMode
  /-- Statements and calls in a run. -/
  maxSteps : Nat
  /-- Calls that have begun and not ended. -/
  maxCallDepth : Nat
  /-- How deeply a script may be nested. -/
  maxNesting : Nat
deriving DecidableEq, Repr

namespace Settings

/-- The usual settings. -/
def usual : Settings where
  maxIterations := 50
  maxDeferredPerCheckpoint := 1000
  announceIterationLimit := true
  lineMode := .heuristic
  maxSteps := 100000
  maxCallDepth := 64
  maxNesting := 64

/-- What bounds the evaluation of the script. -/
def limits (settings : Settings) : Limits :=
  ⟨settings.maxSteps, settings.maxCallDepth⟩

def fieldNames : List String :=
  [ "max_iterations", "max_deferred_per_checkpoint", "announce_iteration_limit", "line_mode",
    "max_steps", "max_call_depth", "max_nesting" ]

/-- The value of a field, or its usual value if it is left out. -/
def fieldOr {α : Type} (usual : α) (read : Json → Option α) : Option Json → Option α
  | some json => read json
  | none => some usual

/-- Reads settings from a document. -/
def ofJson? (json : Json) : Option Settings := do
  match ← json.fields? fieldNames 0 with
  | [iterations, deferred, announce, mode, steps, depth, nesting] =>
    return {
      maxIterations := ← fieldOr usual.maxIterations Json.word? iterations
      maxDeferredPerCheckpoint := ← fieldOr usual.maxDeferredPerCheckpoint Json.word? deferred
      announceIterationLimit := ← fieldOr usual.announceIterationLimit Json.bool? announce
      lineMode := ← fieldOr usual.lineMode (Json.oneOf? LineMode.ofWord?) mode
      maxSteps := ← fieldOr usual.maxSteps Json.word? steps
      maxCallDepth := ← fieldOr usual.maxCallDepth Json.word? depth
      maxNesting := ← fieldOr usual.maxNesting Json.word? nesting }
  | _ => none

/-- Reads settings from the text of a document. -/
def ofText? (source : String) : Option Settings := do
  ofJson? (← Json.ofText? source)

end Settings

/-- Settings given beside a document. They count more than it does. -/
structure Overrides where
  maxIterations : Option Nat
  lineMode : Option LineMode
deriving DecidableEq, Repr

/-- The settings with some of them replaced. -/
def Settings.override (settings : Settings) (overrides : Overrides) : Settings :=
  { settings with
    maxIterations := overrides.maxIterations.getD settings.maxIterations
    lineMode := overrides.lineMode.getD settings.lineMode }

end EventLoop
