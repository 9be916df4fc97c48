import Mathlib.Data.List.Chain
import EventLoop.Proofs.Loop.Recorded

/-!
# Accounting for callbacks

The numbers of timers and tasks tell of a timeline what the keys tell of an arena: what was queued
was run, once, or is still in its queue.
-/

namespace EventLoop

open Relation

/-- The number of the task that is on its way to the stack. -/
def Hand.onItsWay : Hand → List Nat
  | moving task => [task.id]
  | _ => []

/-- What was queued and is queued no more has left its queue, and what is new is the timer or task
that was numbered last. -/
structure Tallies (s t : Session) (gone : List Nat) : Prop where
  dequeued : s.collections.dequeued t.collections = gone
  balance : (s.collections.ids ++ s.collections.added t.collections).Perm
    (gone ++ t.collections.ids)
  fresh : (s.collections.added t.collections = [] ∧ t.tasks = s.tasks) ∨
    (s.collections.added t.collections = [s.tasks + 1] ∧ t.tasks = s.tasks + 1)

namespace Tallies

variable {s t : Session}

/-- Nothing is queued, and nothing leaves a queue. -/
theorem of_queues (pending : t.collections.pendingTimers = s.collections.pendingTimers)
    (deferred : t.collections.deferredQueue = s.collections.deferredQueue)
    (ready : t.collections.readyQueue = s.collections.readyQueue) (tasks : t.tasks = s.tasks) :
    Tallies s t [] := by
  have added : s.collections.added t.collections = [] := by
    simp [Collections.added, pending, deferred]
  refine ⟨by simp [Collections.dequeued, deferred, ready], ?_, .inl ⟨added, tasks⟩⟩
  rw [added, List.append_nil, List.nil_append, Collections.ids, Collections.ids, pending,
    deferred, ready]

theorem addTimer (s : Session) (callback : Callback) (delay : Nat) :
    Tallies s (s.addTimer callback delay).2 [] := by
  have added : s.collections.added (s.addTimer callback delay).2.collections = [s.tasks + 1] := by
    simp [Collections.added, Session.addTimer, Timers.insert]
  refine ⟨by simp [Collections.dequeued, Session.addTimer], ?_, .inr ⟨added, rfl⟩⟩
  rw [added]
  simp only [Collections.ids, Session.addTimer, Timers.insert, List.map_append, List.map_cons,
    List.map_nil, List.append_assoc, List.nil_append, List.singleton_append]
  refine List.Perm.append_left _ ?_
  rw [← List.append_assoc]
  exact List.perm_append_singleton _ _

theorem addDeferred (s : Session) {task : Nat → SlotKey → QueuedTask}
    (numbers : ∀ id key, (task id key).id = id) (callback : Callback) :
    Tallies s (s.addDeferred task callback) [] := by
  have added : s.collections.added (s.addDeferred task callback).collections = [s.tasks + 1] := by
    simp [Collections.added, Session.addDeferred, TaskQueue.push, numbers]
  refine ⟨by simp [Collections.dequeued, Session.addDeferred, TaskQueue.push], ?_,
    .inr ⟨added, rfl⟩⟩
  rw [added]
  simp only [Collections.ids, Session.addDeferred, TaskQueue.push, List.map_append, List.map_cons,
    List.map_nil, numbers, List.append_assoc, List.nil_append, List.singleton_append]
  exact ((List.perm_append_singleton _ _).append_left _).append_left _

theorem popDeferred {s : Session} {task : QueuedTask} {rest : TaskQueue}
    (queue : s.collections.deferredQueue = task :: rest) :
    Tallies s s.popDeferred.2 [task.id] := by
  have added : s.collections.added s.popDeferred.2.collections = [] := by
    simp [Collections.added, Session.popDeferred, TaskQueue.pop, queue]
  refine ⟨by simp [Collections.dequeued, Session.popDeferred, TaskQueue.pop, queue], ?_,
    .inl ⟨added, rfl⟩⟩
  rw [added]
  simp only [Collections.ids, Session.popDeferred, TaskQueue.pop, queue, List.map_cons,
    List.append_assoc, List.cons_append, List.append_nil, List.nil_append]
  exact List.perm_middle

theorem promoteTimer {s : Session} (ready : s.collections.readyQueue = [])
    (timers : s.collections.pendingTimers ≠ []) : Tallies s s.promoteTimer [] := by
  obtain ⟨timer, others, before, after, taken, selects⟩ := Timers.take_cons timers
  rw [Session.promoteTimer_eq taken]
  have added : s.collections.added { s.collections with
      pendingTimers := others, readyQueue := s.collections.readyQueue ++ [.ready timer] } = [] := by
    simp [Collections.added, selects.timers, selects.others]
  refine ⟨by simp [Collections.dequeued, ready], ?_, .inl ⟨added, rfl⟩⟩
  rw [added]
  simp only [Collections.ids, selects.timers, selects.others, ready, List.map_append,
    List.map_cons, List.map_nil, List.append_assoc, List.nil_append, List.cons_append,
    List.append_nil]
  refine List.Perm.append_left _ (.trans List.perm_middle.symm (.append_left _ ?_))
  exact (List.perm_append_singleton _ _).symm

/-- The task that is ready leaves its queue, and its frame is pushed. -/
theorem popReady {s : Session} {task : QueuedTask} (ready : s.collections.readyQueue = [task])
    (name : String) (kind : FrameKind) (line : Option Nat) :
    Tallies s (s.popReady.2.pushFrame name kind line) [task.id] := by
  have added : s.collections.added (s.popReady.2.pushFrame name kind line).collections = [] := by
    simp [Collections.added, Session.popReady, Session.pushFrame]
  refine ⟨by simp [Collections.dequeued, Session.popReady, Session.pushFrame, TaskQueue.pop, ready],
    ?_, .inl ⟨added, rfl⟩⟩
  rw [added]
  simp only [Collections.ids, Session.popReady, Session.pushFrame, TaskQueue.pop, ready,
    List.map_cons, List.map_nil, List.append_nil, List.cons_append, List.nil_append]
  exact List.perm_append_singleton _ _

/-- New numbers are above those that were given before. -/
theorem nodup_append {gone numbers : List Nat} (tallies : Tallies s t gone)
    (distinct : numbers.Nodup) (bounded : ∀ id ∈ numbers, id ≤ s.tasks) :
    (numbers ++ s.collections.added t.collections).Nodup := by
  rcases tallies.fresh with ⟨new, -⟩ | ⟨new, -⟩
  · rw [new, List.append_nil]
    exact distinct
  · rw [new]
    refine List.nodup_append.mpr ⟨distinct, by simp, ?_⟩
    intro old member id fresh
    have := bounded old member
    rw [List.mem_singleton.mp fresh]
    omega

theorem le_of_mem_append {gone numbers : List Nat} (tallies : Tallies s t gone)
    (bounded : ∀ id ∈ numbers, id ≤ s.tasks) {id : Nat}
    (member : id ∈ numbers ++ s.collections.added t.collections) : id ≤ t.tasks := by
  rcases List.mem_append.mp member with old | fresh
  · have := bounded id old
    rcases tallies.fresh with ⟨-, tasks⟩ | ⟨-, tasks⟩ <;> omega
  · rcases tallies.fresh with ⟨new, -⟩ | ⟨new, tasks⟩
    · rw [new] at fresh
      cases fresh
    · rw [new] at fresh
      rw [tasks, List.mem_singleton.mp fresh]

end Tallies

theorem Change.tallies {a b : Instant} (change : Change a b) :
    Tallies a.session b.session b.hand.onItsWay := by
  cases change with
  | rest | push | pop | print | reject => exact .of_queues rfl rfl rfl rfl
  | addTimer s callback delay => exact .addTimer s callback delay
  | addMicrotask s callback => exact .addDeferred s (fun _ _ => rfl) callback
  | addContinuation s callback => exact .addDeferred s (fun _ _ => rfl) callback
  | dequeue s task rest _ queue => exact .popDeferred queue
  | promote s _ _ ready timers => exact .promoteTimer ready timers

/-- What was queued, what left its queue and what began to run so far, and what waits now. -/
structure Instant.Tallied (a : Instant) : Prop where
  distinct : a.session.timeline.added.Nodup
  bounded : ∀ id ∈ a.session.timeline.added, id ≤ a.session.tasks
  split : a.session.timeline.added.Perm
    (a.session.timeline.dequeued ++ a.session.collections.ids)
  runs : a.session.timeline.runs ++ a.hand.onItsWay.map some = a.session.timeline.dequeued.map some
  moving : ∀ task, a.hand = .moving task → ∃ earlier,
    a.session.timeline.get? (a.session.timeline.size - 2) = some earlier ∧
      earlier.deferredQueue.head? = some task

theorem Instant.tallied_first (source : String) : (Instant.first source).Tallied where
  distinct := List.nodup_nil
  bounded id member := by cases member
  split := .refl _
  runs := rfl
  moving task hand := by cases hand

/-- A snapshot tells what has changed since the one before it. -/
theorem Session.Shown.gather_snap {s t : Session} (shown : s.Shown)
    (same : t.timeline = s.timeline) (tell : Collections → Collections → List Nat)
    (line : Option Nat) (description : String) (phase : Phase) :
    (t.snap line description phase).timeline.gather (Timeline.compared tell) =
      s.timeline.gather (Timeline.compared tell) ++ tell s.collections t.collections := by
  obtain ⟨last, found, showing⟩ := shown
  show (t.timeline.record t.collections line description phase).gather _ = _
  rw [same, Timeline.gather_compared_record found, showing]

/-- The snapshot before the last one is the one that was the last. -/
theorem Session.Shown.get?_snap {s t : Session} (shown : s.Shown) (same : t.timeline = s.timeline)
    (line : Option Nat) (description : String) (phase : Phase) :
    ∃ earlier, (t.snap line description phase).timeline.get?
        ((t.snap line description phase).timeline.size - 2) = some earlier ∧
      earlier.toCollections = s.collections := by
  obtain ⟨last, found, showing⟩ := shown
  have positive := Timeline.size_pos_of_last? found
  refine ⟨last, ?_, showing⟩
  show (t.timeline.record t.collections line description phase).get?
    ((t.timeline.record t.collections line description phase).size - 2) = _
  rw [same, Timeline.size_record, Timeline.get?_record_of_lt _ _ _ _ _ (by omega)]
  exact Timeline.get?_of_last? found

/-- A snapshot of a change. What began to run with it had left its queue. -/
theorem Instant.Tallied.record {a : Instant} {t : Session} {gone : List Nat} {hand : Hand}
    (tallied : a.Tallied) (shown : a.session.Shown) (tallies : Tallies a.session t gone)
    (same : t.timeline = a.session.timeline) (line : Option Nat) (description : String)
    (phase : Phase)
    (runs : (t.snap line description phase).timeline.runs ++ hand.onItsWay.map some =
      (a.session.timeline.dequeued ++ gone).map some)
    (moving : ∀ task, hand = .moving task → a.session.collections.deferredQueue.head? = some task) :
    (Instant.mk hand (t.snap line description phase)).Tallied := by
  have added : (t.snap line description phase).timeline.added =
      a.session.timeline.added ++ a.session.collections.added t.collections :=
    shown.gather_snap same _ line description phase
  have dequeued : (t.snap line description phase).timeline.dequeued =
      a.session.timeline.dequeued ++ gone := by
    rw [← tallies.dequeued]
    exact shown.gather_snap same _ line description phase
  refine ⟨?_, ?_, ?_, ?_, ?_⟩
  · rw [added]
    exact tallies.nodup_append tallied.distinct tallied.bounded
  · intro id member
    rw [added] at member
    exact tallies.le_of_mem_append tallied.bounded member
  · show List.Perm _ (_ ++ t.collections.ids)
    rw [added, dequeued, List.append_assoc]
    refine (tallied.split.append_right _).trans ?_
    rw [List.append_assoc]
    exact tallies.balance.append_left _
  · rw [dequeued]
    exact runs
  · intro task hand
    obtain ⟨earlier, place, showing⟩ := shown.get?_snap same line description phase
    refine ⟨earlier, place, ?_⟩
    show earlier.toCollections.deferredQueue.head? = some task
    rw [showing]
    exact moving task hand

theorem Change.hand_eq {a b : Instant} (change : Change a b) : a.hand = .empty := by
  cases change <;> rfl

/-- A task that is on its way to the stack was the first of those deferred. -/
theorem Change.head_deferred {a b : Instant} {task : QueuedTask} (change : Change a b)
    (hand : b.hand = .moving task) : a.session.collections.deferredQueue.head? = some task := by
  cases change with
  | dequeue s task rest _ queue =>
    cases hand
    show s.collections.deferredQueue.head? = _
    rw [queue]
    rfl
  | _ => cases hand

/-- A step keeps the tally. -/
theorem Step.tallied {a b : Instant} (step : Step a b) (shown : a.session.Shown)
    (tallied : a.Tallied) : b.Tallied := by
  obtain ⟨last, found, showing⟩ := id shown
  have runs := tallied.runs
  cases step with
  | record line description phase change other =>
    refine tallied.record shown change.tallies change.timeline line description phase ?_
      fun task hand => change.head_deferred hand
    simp only [runWords, List.mem_cons, List.not_mem_nil, or_false, not_or] at other
    show (Timeline.record _ _ line description phase).runs ++ _ = _
    rw [change.hand_eq] at runs
    rw [change.timeline, Timeline.runs_record found, if_neg other.1, if_neg other.2,
      List.append_nil, List.map_append, ← runs]
    simp only [Hand.onItsWay, List.map_nil, List.append_nil]
  | begin s task name stack =>
    obtain ⟨earlier, place, head⟩ := tallied.moving task rfl
    refine tallied.record (t := s.pushFrame name .deferredCallback none) shown
      (.of_queues rfl rfl rfl rfl) rfl none _ .idle ?_ (by simp)
    show (Timeline.record s.timeline _ none _ .idle).runs ++ [] = _
    rw [Timeline.runs_record found, if_pos rfl, place, List.append_nil, List.append_nil, ← runs]
    simp only [Option.bind_some, head, Option.map_some, Hand.onItsWay, List.map_cons, List.map_nil]
  | start s task name _ ready =>
    refine tallied.record (t := s.popReady.2.pushFrame name .timerCallback none) shown
      (.popReady ready _ _ _) rfl none _ .idle ?_ (by simp)
    show (Timeline.record s.timeline _ none _ .idle).runs ++ [] = _
    have first : last.readyQueue.head? = some task := by
      show last.toCollections.readyQueue.head? = some task
      rw [showing, ready]
      rfl
    rw [Timeline.runs_record found, if_neg (by decide), if_pos rfl, first, List.append_nil,
      List.map_append, ← runs]
    simp only [Hand.onItsWay, List.map_nil, List.append_nil, Option.map_some, List.map_cons]
  | take s task =>
    exact ⟨tallied.distinct, tallied.bounded, tallied.split, tallied.runs, (by simp)⟩
  | look s locator =>
    exact ⟨tallied.distinct, tallied.bounded, tallied.split, tallied.runs, tallied.moving⟩

/-- The tally is right at every instant. -/
theorem Later.tallied {source : String} {a : Instant} (later : Later (.first source) a) :
    a.Tallied := by
  induction later with
  | refl => exact Instant.tallied_first source
  | tail earlier step ih => exact step.tallied (Later.shown earlier) ih

/-- A history of an event loop: from its first instant to one at which it has recorded the timeline,
step by step. For each snapshot it passes through the instant at which that was recorded. -/
structure IsHistory (source : String) (timeline : Timeline) (history : List Instant) : Prop where
  chain : history.IsChain Step
  first : history.head? = some (.first source)
  last : ∃ a, history.getLast? = some a ∧ a.session.timeline = timeline
  shown : ∀ i s, timeline.get? i = some s → ∃ a ∈ history,
    a.session.timeline.snapshots.toList = timeline.upTo i ∧ a.session.collections = s.toCollections

/-- A history passes only through instants that an event loop can reach. -/
theorem IsHistory.later {source : String} {timeline : Timeline} {history : List Instant}
    (isHistory : IsHistory source timeline history) : ∀ a ∈ history, Later (.first source) a := by
  refine isHistory.chain.induction (Later (.first source)) history
    (fun _ _ step later => later.tail step) ?_
  intro nonempty
  have first := isHistory.first
  rw [List.head?_eq_some_head nonempty] at first
  rw [Option.some.inj first]

/-- A snapshot that is there after a step was there before, or the step has recorded it. -/
theorem Step.get?_cases {a b : Instant} (step : Step a b) {i : Nat} {s : Snapshot}
    (found : b.session.timeline.get? i = some s) :
    (a.session.timeline.get? i = some s ∧
      b.session.timeline.upTo i = a.session.timeline.upTo i) ∨
    (b.session.timeline.snapshots.toList = b.session.timeline.upTo i ∧
      b.session.collections = s.toCollections) := by
  rcases step.timeline_cases with same | ⟨line, description, phase, same⟩
  · rw [same] at found
    exact .inl ⟨found, by rw [same]⟩
  · by_cases bound : i < a.session.timeline.size
    · rw [same, Timeline.get?_record_of_lt _ _ _ _ _ bound] at found
      exact .inl ⟨found, by rw [same, Timeline.upTo_record _ _ _ _ _ bound]⟩
    · right
      constructor
      · rw [Timeline.upTo_of_size_le]
        rw [same, Timeline.size_record]
        omega
      · rw [same, Timeline.get?_record] at found
        split at found
        · cases found
          rfl
        · rw [Timeline.get?_eq_none.mpr (Nat.le_of_not_lt bound)] at found
          cases found

/-- One more step makes a longer history. -/
theorem IsHistory.step {source : String} {a b : Instant} {history : List Instant}
    (isHistory : IsHistory source a.session.timeline history) (last : history.getLast? = some a)
    (step : Step a b) : IsHistory source b.session.timeline (history ++ [b]) := by
  refine ⟨?_, ?_, ⟨b, List.getLast?_concat, rfl⟩, ?_⟩
  · refine isHistory.chain.append (.singleton b) ?_
    intro x member y same
    rw [last] at member
    cases member
    cases same
    exact step
  · rw [List.head?_append, isHistory.first]
    rfl
  · intro i s found
    rcases step.get?_cases found with ⟨before, seen⟩ | recorded
    · obtain ⟨c, member, recorded⟩ := isHistory.shown i s before
      rw [seen]
      exact ⟨c, List.mem_append_left _ member, recorded⟩
    · exact ⟨b, List.mem_append_right _ (List.mem_singleton_self b), recorded⟩

/-- Whatever has been reached has been reached by a history. -/
theorem Later.history {source : String} {a : Instant} (later : Later (.first source) a) :
    ∃ history, IsHistory source a.session.timeline history ∧ history.getLast? = some a := by
  induction later with
  | refl =>
    refine ⟨[.first source], ⟨.singleton _, rfl, ⟨_, rfl, rfl⟩, ?_⟩, rfl⟩
    intro i s found
    refine ⟨.first source, List.mem_singleton_self _, ?_⟩
    cases i with
    | zero => cases found; exact ⟨rfl, rfl⟩
    | succ i => cases found
  | @tail b c _ step ih =>
    obtain ⟨history, isHistory, last⟩ := ih
    exact ⟨history ++ [c], isHistory.step last step, List.getLast?_concat⟩

end EventLoop
