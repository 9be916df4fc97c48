import Mathlib.Data.List.Basic
import EventLoop.Proofs.Timeline.Moves

/-!
# Numbers read off a timeline

Which timers and tasks were ever queued, which ever left their queues, and which ever began to run
can be read off the snapshots. What is read grows as more is recorded.
-/

namespace EventLoop

/-- What is recorded when a task begins to run. -/
def runWords : List String :=
  ["Run Microtask", "Run Macrotask"]

/-- The numbers of the timers and tasks that wait. -/
def Collections.ids (c : Collections) : List Nat :=
  c.pendingTimers.map (·.id) ++ c.deferredQueue.map (·.id) ++ c.readyQueue.map (·.id)

/-- The numbers of the timers and deferred tasks that are behind those there were before. -/
def Collections.added (before after : Collections) : List Nat :=
  (after.pendingTimers.drop before.pendingTimers.length).map (·.id) ++
    (after.deferredQueue.drop before.deferredQueue.length).map (·.id)

/-- The numbers of the tasks that have left the front of their queues. -/
def Collections.dequeued (before after : Collections) : List Nat :=
  let deferred := before.deferredQueue.length - after.deferredQueue.length
  let ready := before.readyQueue.length - after.readyQueue.length
  (before.deferredQueue.take deferred).map (·.id) ++ (before.readyQueue.take ready).map (·.id)

namespace Timeline

/-- What can be read off all places of a timeline, in order. -/
def gather {α : Type} (read : Timeline → Nat → List α) (timeline : Timeline) : List α :=
  (List.range timeline.size).flatMap (read timeline)

/-- What the snapshot at a place tells together with the one before it. At the first place there is
none before it, and nothing to tell. -/
def compared (tell : Collections → Collections → List Nat) (timeline : Timeline) (i : Nat) :
    List Nat :=
  match timeline.get? (i - 1), timeline.get? i with
  | some before, some after => tell before.toCollections after.toCollections
  | _, _ => []

/-- The numbers of all timers and tasks that were ever registered or deferred. -/
def added (timeline : Timeline) : List Nat :=
  timeline.gather (compared Collections.added)

/-- The numbers of all tasks that ever left a queue to run. -/
def dequeued (timeline : Timeline) : List Nat :=
  timeline.gather (compared Collections.dequeued)

/-- Where a snapshot says that a task begins to run, the number of that task: the first deferred
task two snapshots before, or the task that was ready one snapshot before. -/
def runAt (timeline : Timeline) (i : Nat) : List (Option Nat) :=
  match timeline.get? i with
  | some s =>
    if s.description = "Run Microtask" then
      [(timeline.get? (i - 2)).bind fun earlier => earlier.deferredQueue.head?.map (·.id)]
    else if s.description = "Run Macrotask" then
      [(timeline.get? (i - 1)).bind fun earlier => earlier.readyQueue.head?.map (·.id)]
    else []
  | none => []

/-- The tasks that ever began to run, with an entry for each snapshot that says so. -/
def runs (timeline : Timeline) : List (Option Nat) :=
  timeline.gather runAt

/-- The numbers of the timers and tasks that wait in the last snapshot. -/
def left (timeline : Timeline) : List Nat :=
  (timeline.last?.map (·.toCollections.ids)).getD []

theorem get?_record_of_lt (timeline : Timeline) (c : Collections) (line : Option Nat)
    (description : String) (phase : Phase) {i : Nat} (h : i < timeline.size) :
    (timeline.record c line description phase).get? i = timeline.get? i := by
  rw [get?_record, if_neg (Nat.ne_of_lt h)]

theorem size_record (timeline : Timeline) (c : Collections) (line : Option Nat)
    (description : String) (phase : Phase) :
    (timeline.record c line description phase).size = timeline.size + 1 :=
  Array.size_push _

/-- What is read off a timeline that was recorded further is what was read off it before, and what
is read off the new place. -/
theorem gather_record {α : Type} {read : Timeline → Nat → List α} {timeline longer : Timeline}
    (size : longer.size = timeline.size + 1)
    (same : ∀ i < timeline.size, read longer i = read timeline i) :
    longer.gather read = timeline.gather read ++ read longer timeline.size := by
  unfold gather
  rw [size, List.range_succ, List.flatMap_append, List.flatMap_singleton]
  congr 1
  exact List.flatMap_congr fun i member => same i (List.mem_range.mp member)

theorem get?_of_last? {timeline : Timeline} {last : Snapshot} (found : timeline.last? = some last) :
    timeline.get? (timeline.size - 1) = some last := by
  unfold last? at found
  rw [Array.back?_eq_getElem?] at found
  exact found

section

variable {timeline : Timeline} {last : Snapshot} (found : timeline.last? = some last)
  (c : Collections) (line : Option Nat) (description : String) (phase : Phase)

include found

theorem gather_compared_record (tell : Collections → Collections → List Nat) :
    (timeline.record c line description phase).gather (compared tell) =
      timeline.gather (compared tell) ++ tell last.toCollections c := by
  have positive := size_pos_of_last? found
  rw [gather_record (size_record timeline c line description phase) fun i bound => ?_]
  · congr 1
    unfold compared
    rw [get?_record_of_lt _ _ _ _ _ (by omega), get?_of_last? found, get?_record, if_pos rfl]
  · unfold compared
    rw [get?_record_of_lt _ _ _ _ _ bound, get?_record_of_lt _ _ _ _ _ (by omega)]

theorem runs_record :
    (timeline.record c line description phase).runs =
      timeline.runs ++
        if description = "Run Microtask" then
          [(timeline.get? (timeline.size - 2)).bind fun earlier =>
            earlier.deferredQueue.head?.map (·.id)]
        else if description = "Run Macrotask" then [last.readyQueue.head?.map (·.id)]
        else [] := by
  have positive := size_pos_of_last? found
  unfold runs
  rw [gather_record (size_record timeline c line description phase) fun i bound => ?_]
  · congr 1
    unfold runAt
    rw [get?_record, if_pos rfl]
    dsimp only
    rw [get?_record_of_lt _ _ _ _ _ (by omega), get?_record_of_lt _ _ _ _ _ (by omega),
      get?_of_last? found]
    rfl
  · unfold runAt
    rw [get?_record_of_lt _ _ _ _ _ bound, get?_record_of_lt _ _ _ _ _ (by omega),
      get?_record_of_lt _ _ _ _ _ (by omega)]

end

end Timeline

end EventLoop
