import EventLoop.Queue.Tasks
import EventLoop.Queue.Timers

/-!
# Snapshots and timelines

A snapshot records all that an event loop holds at a moment, with a word about what has just
happened; a timeline is the snapshots of a run. Snapshots are numbered from zero as they are
recorded. A timeline that was read from a document may number them otherwise.
-/

namespace EventLoop

/-- What an event loop holds at a moment. -/
structure Collections where
  /-- Frames, the outermost first. -/
  stack : List Frame
  pendingTimers : Timers
  deferredQueue : TaskQueue
  readyQueue : TaskQueue
  /-- Lines printed so far. -/
  output : List String
deriving DecidableEq, Repr

/-- Nothing at all. -/
def Collections.empty : Collections :=
  ⟨[], [], [], [], []⟩

/-- A moment of a run. -/
structure Snapshot extends Collections where
  id : Nat
  highlightLine : Option Nat
  description : String
  phase : Phase
deriving DecidableEq, Repr

/-- Are two snapshots equal but for their ids? -/
def Snapshot.sameState (a b : Snapshot) : Bool :=
  { a with id := b.id } = b

/-- The snapshots of a run, in order. -/
structure Timeline where
  snapshots : Array Snapshot
deriving DecidableEq, Repr

namespace Timeline

/-- No snapshots. -/
def empty : Timeline :=
  ⟨#[]⟩

def size (timeline : Timeline) : Nat :=
  timeline.snapshots.size

def isEmpty (timeline : Timeline) : Bool :=
  timeline.snapshots.isEmpty

/-- Adds a snapshot, with the next number as its id. -/
def record (timeline : Timeline) (collections : Collections) (line : Option Nat)
    (description : String) (phase : Phase) : Timeline :=
  ⟨timeline.snapshots.push
    { toCollections := collections, id := timeline.size, highlightLine := line, description,
      phase }⟩

/-- The snapshot at a place. -/
def get? (timeline : Timeline) (index : Nat) : Option Snapshot :=
  timeline.snapshots[index]?

/-- The snapshot under a cursor; beyond the end it is the last. -/
def at? (timeline : Timeline) (cursor : Nat) : Option Snapshot :=
  timeline.get? (min cursor (timeline.size - 1))

def last? (timeline : Timeline) : Option Snapshot :=
  timeline.snapshots.back?

/-- What had been printed at the end. -/
def finalOutput (timeline : Timeline) : List String :=
  (timeline.last?.map (·.output)).getD []

end Timeline

end EventLoop
