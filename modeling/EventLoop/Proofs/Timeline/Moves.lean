import Mathlib.Logic.ExistsUnique
import EventLoop.Timeline.Snapshot

/-!
# Moves of an event loop

From one snapshot to the next an event loop makes one move. A move names the collections that it
changes, and says how; all others stay as they are. New frames, tasks and timers have greater
numbers than any that were seen before.
-/

namespace EventLoop

/-- What can happen between two snapshots. -/
inductive Move where
  /-- Nothing changes. -/
  | rest
  /-- A new frame is on top of the stack, or the one on top is gone. -/
  | frame
  /-- A line is printed. -/
  | print
  /-- A timer is registered. -/
  | timer
  /-- A task is deferred. -/
  | defer
  /-- The next deferred task leaves its queue. -/
  | dequeue
  /-- The next timer becomes a task that is ready. -/
  | promote
  /-- The task that is ready leaves its queue, and its frame is on the stack. -/
  | start
  /-- The frame of a script that cannot be read is gone, and its failure is printed. -/
  | reject
deriving DecidableEq, Repr

namespace Move

/-- The moves that change one collection, or move a timer on. -/
def plain : List Move :=
  [rest, frame, print, timer, defer, dequeue, promote]

/-- All moves. -/
def all : List Move :=
  plain ++ [start, reject]

/-- No frame seen so far has such a great number. -/
def NewFrame (seen : List Snapshot) (id : Nat) : Prop :=
  ∀ s ∈ seen, ∀ frame ∈ s.stack, frame.id < id

/-- No task or timer seen so far has such a great number. -/
def NewTask (seen : List Snapshot) (id : Nat) : Prop :=
  ∀ s ∈ seen, (∀ timer ∈ s.pendingTimers, timer.id < id) ∧
    (∀ task ∈ s.deferredQueue, task.id < id) ∧ ∀ task ∈ s.readyQueue, task.id < id

/-- All timers seen so far were registered before. -/
def NewSeq (seen : List Snapshot) (seq : Nat) : Prop :=
  ∀ s ∈ seen, ∀ timer ∈ s.pendingTimers, timer.seq < seq

/-- The move leads from the first collections to the second, after the snapshots that were seen so
far. -/
def Holds (seen : List Snapshot) (a b : Collections) : Move → Prop
  | rest => b = a
  | frame =>
    (∃ frame, NewFrame seen frame.id ∧ b = { a with stack := a.stack ++ [frame] }) ∨
    ∃ frame, a.stack = b.stack ++ [frame] ∧ b = { a with stack := b.stack }
  | print => ∃ line, b = { a with output := a.output ++ [line] }
  | timer => ∃ timer, NewTask seen timer.id ∧ NewSeq seen timer.seq ∧
      timer.remaining = timer.delay ∧ b = { a with pendingTimers := a.pendingTimers ++ [timer] }
  | defer => ∃ task, NewTask seen task.id ∧
      b = { a with deferredQueue := a.deferredQueue ++ [task] }
  | dequeue => a.stack = [] ∧
      ∃ task, a.deferredQueue = task :: b.deferredQueue ∧
        b = { a with deferredQueue := b.deferredQueue }
  | promote => ∃ timer task before after, a.pendingTimers = before ++ timer :: after ∧
      (∀ other ∈ before ++ after, timer.precedes other = true) ∧
      task.id = timer.id ∧ task.callback = timer.callback ∧ a.readyQueue = [] ∧
      b = { a with pendingTimers := before ++ after, readyQueue := [task] }
  | start => a.stack = [] ∧ ∃ task frame, NewFrame seen frame.id ∧ a.readyQueue = [task] ∧
      b = { a with readyQueue := [], stack := [frame] }
  | reject => ∃ frame line, a.stack = [frame] ∧
      b = { a with stack := [], output := a.output ++ [line] }

end Move

/-- A number for what an event loop holds, so chosen that each move changes it by an amount of its
own. -/
def Collections.weight (c : Collections) : Int :=
  c.stack.length + 3 * c.output.length + 10 * c.pendingTimers.length +
    100 * c.deferredQueue.length + 1000 * c.readyQueue.length

namespace Move

/-- The move changes the weight by this amount. -/
def Changes (amount : Int) : Move → Prop
  | rest => amount = 0
  | frame => amount = 1 ∨ amount = -1
  | print => amount = 3
  | timer => amount = 10
  | defer => amount = 100
  | dequeue => amount = -100
  | promote => amount = 990
  | start => amount = -999
  | reject => amount = 2

theorem Holds.changes {seen : List Snapshot} {a b : Collections} {move : Move}
    (h : move.Holds seen a b) : move.Changes (b.weight - a.weight) := by
  cases move with
  | rest =>
    cases h
    exact Int.sub_self _
  | frame =>
    rcases h with ⟨frame, -, rfl⟩ | ⟨frame, stack, same⟩
    · left
      simp only [Collections.weight, List.length_append, List.length_singleton]
      omega
    · right
      rw [same]
      simp only [Collections.weight, stack, List.length_append, List.length_singleton]
      omega
  | print =>
    obtain ⟨line, rfl⟩ := h
    simp only [Changes, Collections.weight, List.length_append, List.length_singleton]
    omega
  | timer =>
    obtain ⟨timer, -, -, -, rfl⟩ := h
    simp only [Changes, Collections.weight, List.length_append, List.length_singleton]
    omega
  | defer =>
    obtain ⟨task, -, rfl⟩ := h
    simp only [Changes, Collections.weight, List.length_append, List.length_singleton]
    omega
  | dequeue =>
    obtain ⟨-, task, queue, same⟩ := h
    rw [same]
    simp only [Changes, Collections.weight, queue, List.length_cons]
    omega
  | promote =>
    obtain ⟨timer, task, before, after, timers, -, -, -, ready, rfl⟩ := h
    simp only [Changes, Collections.weight, timers, ready, List.length_append, List.length_cons,
      List.length_nil]
    omega
  | start =>
    obtain ⟨stack, task, frame, -, ready, rfl⟩ := h
    simp only [Changes, Collections.weight, stack, ready, List.length_cons, List.length_nil]
    omega
  | reject =>
    obtain ⟨frame, line, stack, rfl⟩ := h
    simp only [Changes, Collections.weight, stack, List.length_append, List.length_cons,
      List.length_nil]
    omega

/-- No two moves lead from one to the other. -/
theorem Holds.unique {seen : List Snapshot} {a b : Collections} {m₁ m₂ : Move}
    (h₁ : m₁.Holds seen a b) (h₂ : m₂.Holds seen a b) : m₁ = m₂ := by
  have changes₁ := h₁.changes
  have changes₂ := h₂.changes
  generalize b.weight - a.weight = amount at changes₁ changes₂
  cases m₁ <;> cases m₂ <;> first | rfl | (simp only [Changes] at changes₁ changes₂; omega)

end Move

namespace Timeline

/-- The snapshots up to a place, that at the place included. -/
def upTo (timeline : Timeline) (i : Nat) : List Snapshot :=
  timeline.snapshots.toList.take (i + 1)

/-- A timeline starts with nothing, numbers its snapshots from zero, and makes one move from each to
the next. Timers are promoted only while nothing is deferred. -/
structure IsRun (moves : List Move) (timeline : Timeline) : Prop where
  starts : ∃ first, timeline.get? 0 = some first ∧ first.toCollections = .empty
  numbered : ∀ i s, timeline.get? i = some s → s.id = i
  moves : ∀ i a b, timeline.get? i = some a → timeline.get? (i + 1) = some b →
    ∃! move, move ∈ moves ∧ move.Holds (timeline.upTo i) a.toCollections b.toCollections
  patient : ∀ i a b, timeline.get? i = some a → timeline.get? (i + 1) = some b →
    Move.promote.Holds (timeline.upTo i) a.toCollections b.toCollections → a.deferredQueue = []

/-- From a snapshot of one weight to a snapshot of another, a run makes a move that changes the
weight so. -/
theorem IsRun.changes {moves : List Move} {timeline : Timeline} (run : timeline.IsRun moves)
    (i : Nat) (w₁ w₂ : Int)
    (first : (timeline.get? i).map (·.toCollections.weight) = some w₁)
    (second : (timeline.get? (i + 1)).map (·.toCollections.weight) = some w₂) :
    ∃ move ∈ moves, move.Changes (w₂ - w₁) := by
  obtain ⟨a, foundA, rfl⟩ := Option.map_eq_some_iff.mp first
  obtain ⟨b, foundB, rfl⟩ := Option.map_eq_some_iff.mp second
  obtain ⟨move, ⟨allowed, holds⟩, -⟩ := run.moves i a b foundA foundB
  exact ⟨move, allowed, holds.changes⟩

theorem get?_record (timeline : Timeline) (c : Collections) (line : Option Nat)
    (description : String) (phase : Phase) (i : Nat) :
    (timeline.record c line description phase).get? i =
      if i = timeline.size then some
        { toCollections := c, id := timeline.size, highlightLine := line, description, phase }
      else timeline.get? i := by
  unfold get? record size
  rw [Array.getElem?_push]

theorem get?_eq_none {timeline : Timeline} {i : Nat} :
    timeline.get? i = none ↔ timeline.size ≤ i :=
  Array.getElem?_eq_none_iff

theorem toList_record (timeline : Timeline) (c : Collections) (line : Option Nat)
    (description : String) (phase : Phase) :
    (timeline.record c line description phase).snapshots.toList =
      timeline.snapshots.toList ++ [⟨c, timeline.size, line, description, phase⟩] :=
  Array.toList_push ..

/-- What was seen up to a place does not change when more is recorded. -/
theorem upTo_record (timeline : Timeline) (c : Collections) (line : Option Nat)
    (description : String) (phase : Phase) {i : Nat} (h : i < timeline.size) :
    (timeline.record c line description phase).upTo i = timeline.upTo i := by
  unfold upTo
  rw [toList_record, List.take_append_of_le_length (Nat.succ_le_of_lt h)]

theorem upTo_of_size_le {timeline : Timeline} {i : Nat} (h : timeline.size ≤ i + 1) :
    timeline.upTo i = timeline.snapshots.toList :=
  List.take_of_length_le h

theorem size_pos_of_last? {timeline : Timeline} {last : Snapshot}
    (found : timeline.last? = some last) : 0 < timeline.size := by
  unfold last? at found
  rw [Array.back?_eq_getElem?] at found
  obtain ⟨bound, -⟩ := Array.getElem?_eq_some_iff.mp found
  unfold size
  omega

/-- Two snapshots in a row in a timeline that was recorded further: they were there before, or the
first was the last one and the second is the new one. -/
theorem consecutive_record {timeline : Timeline} {last : Snapshot}
    (found : timeline.last? = some last) {c : Collections} {line : Option Nat}
    {description : String} {phase : Phase} {i : Nat} {a b : Snapshot}
    (first : (timeline.record c line description phase).get? i = some a)
    (second : (timeline.record c line description phase).get? (i + 1) = some b) :
    (timeline.get? i = some a ∧ timeline.get? (i + 1) = some b ∧ i < timeline.size) ∨
    (a = last ∧ b.toCollections = c ∧
      (timeline.record c line description phase).upTo i = timeline.snapshots.toList) := by
  rw [get?_record] at first second
  by_cases new : i + 1 = timeline.size
  · rw [if_neg (by omega)] at first
    rw [if_pos new] at second
    cases second
    unfold last? at found
    rw [Array.back?_eq_getElem?] at found
    have place : timeline.snapshots.size - 1 = i := by
      unfold size at new
      omega
    rw [place] at found
    refine .inr ⟨Option.some.inj (first.symm.trans found), rfl, ?_⟩
    have all : i + 1 = timeline.snapshots.toList.length := new
    unfold upTo
    rw [toList_record, all, List.take_left]
  · rw [if_neg new] at second
    have bound : i + 1 < timeline.size := by
      refine Nat.lt_of_not_le ?_
      intro outside
      rw [get?_eq_none.mpr outside] at second
      cases second
    rw [if_neg (by omega)] at first
    exact .inl ⟨first, second, by omega⟩

/-- One more move makes a longer run. -/
theorem IsRun.record {moves : List Move} {timeline : Timeline} {last : Snapshot}
    (run : timeline.IsRun moves) (found : timeline.last? = some last) (c : Collections)
    (line : Option Nat) (description : String) (phase : Phase) {move : Move}
    (allowed : move ∈ moves)
    (holds : move.Holds timeline.snapshots.toList last.toCollections c)
    (patient : move = .promote → last.deferredQueue = []) :
    (timeline.record c line description phase).IsRun moves := by
  refine ⟨?_, ?_, ?_, ?_⟩
  · obtain ⟨snapshot, start, nothing⟩ := run.starts
    refine ⟨snapshot, ?_, nothing⟩
    rw [get?_record, if_neg (Nat.ne_of_lt (size_pos_of_last? found)), start]
  · intro i s found
    rw [get?_record] at found
    split at found
    · rename_i new
      cases found
      exact new.symm
    · exact run.numbered i s found
  · intro i a b first second
    rcases consecutive_record found first second with ⟨first, second, bound⟩ | ⟨rfl, new, seen⟩
    · rw [upTo_record _ _ _ _ _ bound]
      exact run.moves i a b first second
    · rw [seen, new]
      exact ⟨move, ⟨allowed, holds⟩, fun other also => also.2.unique holds⟩
  · intro i a b first second promote
    rcases consecutive_record found first second with ⟨first, second, bound⟩ | ⟨rfl, new, seen⟩
    · rw [upTo_record _ _ _ _ _ bound] at promote
      exact run.patient i a b first second promote
    · rw [seen, new] at promote
      exact patient (holds.unique promote)

end Timeline

end EventLoop
