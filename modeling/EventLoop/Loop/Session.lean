import EventLoop.Language.Fault
import EventLoop.Loop.Locator
import EventLoop.Semantics.Value
import EventLoop.Settings
import EventLoop.Timeline.Snapshot

/-!
# The state of an event loop

A session is what an event loop holds, the callbacks that its timers and tasks stand for, and the
timeline recorded so far. Frames, tasks and timers are numbered as they come; timers and deferred
tasks share one count.
-/

namespace EventLoop

structure Session where
  collections : Collections
  /-- The callbacks of all timers and tasks that have not run. -/
  callbacks : Arena Callback
  locator : Locator
  /-- How many frames there have been. -/
  frames : Nat
  /-- How many timers and deferred tasks there have been. -/
  tasks : Nat
  /-- How many timers there have been. -/
  timers : Nat
  timeline : Timeline

namespace Session

/-- An event loop that holds nothing. -/
def ofSource (source : String) : Session where
  collections := .empty
  callbacks := .empty
  locator := .ofSource source
  frames := 0
  tasks := 0
  timers := 0
  timeline := .empty

/-- Records a snapshot of what the loop holds. -/
def snap (line : Option Nat) (description : String) (phase : Phase) (s : Session) : Session :=
  { s with timeline := s.timeline.record s.collections line description phase }

/-- Puts a new frame on top of the stack. -/
def pushFrame (name : String) (kind : FrameKind) (line : Option Nat) (s : Session) : Session :=
  { s with
    frames := s.frames + 1
    collections :=
      { s.collections with stack := s.collections.stack ++ [⟨s.frames, name, kind, line⟩] } }

/-- Takes the frame on top of the stack away. -/
def popFrame (s : Session) : Session :=
  { s with collections := { s.collections with stack := s.collections.stack.dropLast } }

/-- Takes all frames away. -/
def clearStack (s : Session) : Session :=
  { s with collections := { s.collections with stack := [] } }

/-- Adds a line of output. -/
def printLine (text : String) (s : Session) : Session :=
  { s with collections := { s.collections with output := s.collections.output ++ [text] } }

/-- Registers a timer for a callback. The number returned is the timer's id. -/
def addTimer (callback : Callback) (delay : Nat) (s : Session) : Nat × Session :=
  let id := s.tasks + 1
  let (key, callbacks) := s.callbacks.insert callback
  let timer := { id, delay, remaining := delay, seq := s.timers, callback := key }
  (id,
    { s with
      callbacks
      tasks := id
      timers := s.timers + 1
      collections :=
        { s.collections with pendingTimers := s.collections.pendingTimers.insert timer } })

/-- Queues a deferred callback, as a task of the given kind. -/
def addDeferred (task : Nat → SlotKey → QueuedTask) (callback : Callback) (s : Session) : Session :=
  let id := s.tasks + 1
  let (key, callbacks) := s.callbacks.insert callback
  { s with
    callbacks
    tasks := id
    collections :=
      { s.collections with deferredQueue := s.collections.deferredQueue.push (task id key) } }

/-- Takes the next deferred task out of its queue. -/
def popDeferred (s : Session) : Option QueuedTask × Session :=
  let (task, deferredQueue) := s.collections.deferredQueue.pop
  (task, { s with collections := { s.collections with deferredQueue } })

/-- Moves the timer that comes next to the queue of tasks that are ready. -/
def promoteTimer (s : Session) : Session :=
  match s.collections.pendingTimers.take with
  | (some timer, pendingTimers) =>
    { s with
      collections :=
        { s.collections with
          pendingTimers
          readyQueue := s.collections.readyQueue.push (.ready timer) } }
  | (none, _) => s

/-- Takes the next task that is ready out of its queue. -/
def popReady (s : Session) : Option QueuedTask × Session :=
  let (task, readyQueue) := s.collections.readyQueue.pop
  (task, { s with collections := { s.collections with readyQueue } })

/-- Takes the callback of a task out of the arena. -/
def takeCallback (task : QueuedTask) (s : Session) : Option Callback × Session :=
  let (callback, callbacks) := s.callbacks.take task.callback
  (callback, { s with callbacks })

def stackIsEmpty (s : Session) : Bool :=
  s.collections.stack.isEmpty

def hasDeferred (s : Session) : Bool :=
  !s.collections.deferredQueue.isEmpty

def hasTimers (s : Session) : Bool :=
  !s.collections.pendingTimers.isEmpty

/-- Is anything left to run? -/
def hasWork (s : Session) : Bool :=
  s.hasDeferred || s.hasTimers || !s.collections.readyQueue.isEmpty

/-- Reports a failure as a line of output, and records it. -/
def fail (description : String) (e : ScriptError) (s : Session) : Session :=
  (s.printLine ("Uncaught " ++ e.message)).snap e.line? description .idle

/-- Reports that the script could not be read. Nothing ran, so nothing is on the stack. -/
def failReading (e : ScriptError) (s : Session) : Session :=
  s.clearStack.fail "Error parsing code" e

/-- Reports a failure of the script. -/
def failRunning (e : ScriptError) (s : Session) : Session :=
  s.fail "Error executing code" e

/-- The timeline of a session that has ended. If the last snapshot shows frames, one more shows that
they are gone. -/
def close (s : Session) : Timeline :=
  match s.timeline.last? with
  | some last =>
    if last.stack.isEmpty then s.timeline
    else (s.clearStack.snap none "Execution finished" .idle).timeline
  | none => s.timeline

end Session

end EventLoop
