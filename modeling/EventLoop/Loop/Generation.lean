import EventLoop.Language.Parsing
import EventLoop.Loop.Primitives
import EventLoop.Semantics.Evaluation

/-!
# The event loop

The script runs first. Then the loop makes passes while there is anything to run: a pass runs the
deferred callbacks until none is left, those included that are deferred meanwhile, and then one
timer's. A run is cut when it has made as many passes as it may, or has run as many deferred
callbacks in one pass as it may. A failure of the script ends it.
-/

namespace EventLoop

/-- How the passes of an event loop end. -/
inductive Ending where
  /-- Nothing is left to run. -/
  | idle
  /-- A bound was reached with work left. -/
  | cut
deriving DecidableEq, Repr

namespace Generation

variable (settings : Settings)

/-- Records a snapshot without a line. -/
def snap (description : String) (phase : Phase) : Eval Session Unit :=
  Eval.onHost (Session.snap none description phase)

/-- A question about the session. -/
def ask {α : Type} (f : Session → α) : Eval Session α := do
  return f (← get).host

/-- What the snapshots of a run of a task are called. -/
structure TaskWords where
  /-- The name of the frame. -/
  frame : String
  kind : FrameKind
  started : String
  finished : String

/-- The words for a deferred task. -/
def deferredWords (task : QueuedTask) : TaskWords where
  frame := if task.isContinuation then "Promise Callback" else "Microtask Callback"
  kind := .deferredCallback
  started := "Run Microtask"
  finished := "Microtask finished"

/-- The words for the task of a timer. -/
def timerWords : TaskWords where
  frame := "Timeout Callback"
  kind := .timerCallback
  started := "Run Macrotask"
  finished := "Macrotask finished"

/-- Runs the callback of a task that has left its queue, in a frame of its own. -/
def runTask (words : TaskWords) (task : QueuedTask) : Eval Session Unit := do
  Eval.onHost (Session.pushFrame words.frame words.kind none)
  snap words.started .idle
  match ← Eval.askHost (Session.takeCallback task) with
  | some callback =>
    Eval.runCallback settings.limits (Session.host settings.lineMode) callback
  | none => pure ()
  Eval.onHost Session.popFrame
  snap words.finished .idle

/-- Runs deferred callbacks until none is left. The number bounds them. -/
def checkpoint : Nat → Eval Session Ending
  | 0 => do
    return if ← ask Session.hasDeferred then .cut else .idle
  | bound + 1 => do
    match ← Eval.askHost Session.popDeferred with
    | none => return .idle
    | some task =>
      snap "Event Loop: Moving Microtask to Call Stack" .promotingDeferred
      runTask settings (deferredWords task) task
      if ← ask Session.hasDeferred then
        snap "Event Loop: Checking next Microtask..." .checking
      checkpoint bound

/-- Runs the callback of the timer that comes next. -/
def runTimer : Eval Session Unit := do
  snap "Event Loop: Microtasks empty. Checking Macrotasks..." .checking
  Eval.onHost Session.promoteTimer
  snap "Timer finished -> Macrotask Queue" .idle
  snap "Event Loop: Moving Macrotask to Call Stack" .promotingReady
  match ← Eval.askHost Session.popReady with
  | some task => runTask settings timerWords task
  | none => return ()

/-- Makes passes until nothing is left to run. A pass does nothing while something is on the stack.
The number bounds the passes; the first of all says so if it found no timer. -/
def passes (first : Bool) : Nat → Eval Session Ending
  | 0 => do
    return if ← ask Session.hasWork then .cut else .idle
  | bound + 1 => do
    if ← ask Session.hasWork then
      snap "Event Loop: Checking Call Stack..." .checking
      if ← ask Session.stackIsEmpty then
        if ← ask Session.hasDeferred then snap "Event Loop: Microtasks found!" .checking
        match ← checkpoint settings settings.maxDeferredPerCheckpoint with
        | .cut => return .cut
        | .idle =>
          if ← ask Session.hasTimers then runTimer settings
          else if first && !(← ask Session.hasDeferred) then
            snap "Event Loop: No tasks in queues" .checking
          passes false bound
      else passes false bound
    else return .idle

/-- Runs a script, and then the loop. -/
def run (script : Script) : Eval Session Unit := do
  Eval.runScript settings.limits (Session.host settings.lineMode) script
  Eval.onHost Session.popFrame
  snap "Main script finished" .idle
  match ← passes settings true settings.maxIterations with
  | .cut =>
    if settings.announceIterationLimit then snap "Event Loop: iteration limit reached" .idle
  | .idle => return ()

/-- A session about to run a script: two snapshots show it without a frame and with the frame of the
outermost statements. -/
def start (source : String) : Session :=
  (((Session.ofSource source).snap none "Idle" .idle).pushFrame "main()" .main (some 1)).snap
    (some 1) "Start script execution" .idle

end Generation

/-- The timeline of a script. Failures of the script are part of it. -/
def Timeline.ofSource (settings : Settings) (source : String) : Timeline :=
  let session := Generation.start source
  match parse settings.maxNesting source with
  | .error e => (session.failReading e).close
  | .ok script =>
    match (Generation.run settings script).run (.initial session) with
    | (.ok (), machine) => machine.host.close
    | (.error e, machine) => (machine.host.failRunning e).close

end EventLoop
