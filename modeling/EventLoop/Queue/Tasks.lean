import EventLoop.Timeline.Entities

/-!
# Task queues

Tasks leave a queue in the order in which they entered it.
-/

namespace EventLoop

/-- Tasks in the order in which they are to run. -/
abbrev TaskQueue := List QueuedTask

namespace TaskQueue

/-- Adds a task at the back. -/
def push (queue : TaskQueue) (task : QueuedTask) : TaskQueue :=
  queue ++ [task]

/-- Takes the task at the front. -/
def pop : TaskQueue → Option QueuedTask × TaskQueue
  | [] => (none, [])
  | task :: rest => (some task, rest)

end TaskQueue

end EventLoop
