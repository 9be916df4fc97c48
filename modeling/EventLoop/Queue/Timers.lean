import EventLoop.Timeline.Entities

/-!
# Pending timers

Timers are kept in the order of their registration. Next comes the one with the least delay; among
equal delays, the one with the least `seq`; among those, the one registered first.
-/

namespace EventLoop

/-- Does the timer come before the other, wherever the two stand? -/
def PendingTimer.precedes (a b : PendingTimer) : Bool :=
  a.delay < b.delay || (a.delay == b.delay && a.seq < b.seq)

/-- Timers in the order of their registration. -/
abbrev Timers := List PendingTimer

namespace Timers

/-- Registers a timer. -/
def insert (timers : Timers) (timer : PendingTimer) : Timers :=
  timers ++ [timer]

/-- The timer that comes next, and the others in the order of their registration. -/
def next? : Timers → Option (PendingTimer × Timers)
  | [] => none
  | timer :: rest =>
    match next? rest with
    | some (best, others) =>
      if best.precedes timer then some (best, timer :: others) else some (timer, rest)
    | none => some (timer, [])

/-- Takes the timer that comes next. -/
def take (timers : Timers) : Option PendingTimer × Timers :=
  match next? timers with
  | some (timer, rest) => (some timer, rest)
  | none => (none, timers)

end Timers

end EventLoop
