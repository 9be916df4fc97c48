import EventLoop.Queue.Arena

/-!
# Frames, timers and tasks

What an event loop holds at a moment. Timers and tasks name their callback by the key under which
the loop stores it.
-/

namespace EventLoop

/-- What kind of call a frame stands for. -/
inductive FrameKind where
  /-- The script's outermost statements. -/
  | main
  /-- A built-in function that schedules something. -/
  | primitive
  /-- A function of the script, called by the script. -/
  | function
  | deferredCallback
  | timerCallback
  | print
deriving DecidableEq, Repr

namespace FrameKind

/-- The word for a kind in documents. -/
def word : FrameKind → String
  | main => "main"
  | primitive => "primitive"
  | function => "function"
  | deferredCallback => "deferred_callback"
  | timerCallback => "timer_callback"
  | print => "print"

/-- Reads the word for a kind. -/
def ofWord? : String → Option FrameKind
  | "main" => some main
  | "primitive" => some primitive
  | "function" => some function
  | "deferred_callback" => some deferredCallback
  | "timer_callback" => some timerCallback
  | "print" => some print
  | _ => none

@[simp] theorem ofWord?_word (kind : FrameKind) : ofWord? kind.word = some kind := by
  cases kind <;> rfl

end FrameKind

/-- A call that has begun and not ended. -/
structure Frame where
  id : Nat
  name : String
  kind : FrameKind
  line : Option Nat
deriving DecidableEq, Repr

/-- A timer that waits for its turn. No time passes: a delay only orders timers, so what remains of
it is all of it. -/
structure PendingTimer where
  id : Nat
  delay : Nat
  remaining : Nat
  /-- How many timers were registered before. -/
  seq : Nat
  callback : SlotKey
deriving DecidableEq, Repr

inductive TaskKind where
  | microtask
  /-- A continuation of a promise. -/
  | continuation
  | timer
deriving DecidableEq, Repr

namespace TaskKind

/-- The word for a kind in documents. -/
def word : TaskKind → String
  | microtask => "microtask"
  | continuation => "continuation"
  | timer => "timer"

/-- Reads the word for a kind. -/
def ofWord? : String → Option TaskKind
  | "microtask" => some microtask
  | "continuation" => some continuation
  | "timer" => some timer
  | _ => none

@[simp] theorem ofWord?_word (kind : TaskKind) : ofWord? kind.word = some kind := by
  cases kind <;> rfl

end TaskKind

/-- A callback that waits in a queue. -/
structure QueuedTask where
  id : Nat
  name : String
  kind : TaskKind
  callback : SlotKey
deriving DecidableEq, Repr

namespace QueuedTask

/-- The task for a callback that a script deferred itself. -/
def microtask (id : Nat) (callback : SlotKey) : QueuedTask :=
  ⟨id, "microtask", .microtask, callback⟩

/-- The task for a continuation of a promise. -/
def continuation (id : Nat) (callback : SlotKey) : QueuedTask :=
  ⟨id, "promise.then", .continuation, callback⟩

/-- The task for a timer whose turn has come. It keeps the timer's id. -/
def ready (timer : PendingTimer) : QueuedTask :=
  ⟨timer.id, "Macrotask", .timer, timer.callback⟩

/-- Does the task continue a promise? -/
def isContinuation (task : QueuedTask) : Bool :=
  task.kind = .continuation

end QueuedTask

/-- What the loop is doing at a moment. -/
inductive Phase where
  | idle
  | checking
  | promotingDeferred
  | promotingReady
deriving DecidableEq, Repr

namespace Phase

/-- The word for a phase in documents. -/
def word : Phase → String
  | idle => "idle"
  | checking => "checking"
  | promotingDeferred => "promoting_deferred"
  | promotingReady => "promoting_ready"

/-- Reads the word for a phase. -/
def ofWord? : String → Option Phase
  | "idle" => some idle
  | "checking" => some checking
  | "promoting_deferred" => some promotingDeferred
  | "promoting_ready" => some promotingReady
  | _ => none

@[simp] theorem ofWord?_word (phase : Phase) : ofWord? phase.word = some phase := by
  cases phase <;> rfl

/-- How reports name a phase. -/
def shown : Phase → String
  | idle => "idle"
  | checking => "checking"
  | promotingDeferred => "promoting-deferred"
  | promotingReady => "promoting-ready"

end Phase

end EventLoop
