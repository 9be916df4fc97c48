import EventLoop.Proofs.Loop.Course
import EventLoop.Proofs.Timeline.Moves

/-!
# The timeline of a generation is a run

The counts of a session are above all numbers that were given out, and so above those in every
snapshot. That makes each change of a session a move, and each step of the loop keeps it so.
-/

namespace EventLoop

/-- The numbers of all that is held are among those given out so far: of frames, of tasks and
timers, and of registrations. -/
structure Collections.Below (frames tasks timers : Nat) (c : Collections) : Prop where
  frames : ∀ frame ∈ c.stack, frame.id < frames
  timers : ∀ timer ∈ c.pendingTimers, timer.id ≤ tasks ∧ timer.seq < timers
  deferred : ∀ task ∈ c.deferredQueue, task.id ≤ tasks
  ready : ∀ task ∈ c.readyQueue, task.id ≤ tasks

theorem Collections.Below.mono {f₁ f₂ k₁ k₂ t₁ t₂ : Nat} {c : Collections}
    (below : c.Below f₁ k₁ t₁) (frames : f₁ ≤ f₂) (tasks : k₁ ≤ k₂) (timers : t₁ ≤ t₂) :
    c.Below f₂ k₂ t₂ where
  frames frame member := Nat.lt_of_lt_of_le (below.frames frame member) frames
  timers timer member :=
    ⟨Nat.le_trans (below.timers timer member).1 tasks,
      Nat.lt_of_lt_of_le (below.timers timer member).2 timers⟩
  deferred task member := Nat.le_trans (below.deferred task member) tasks
  ready task member := Nat.le_trans (below.ready task member) tasks

namespace Session

/-- All numbers in a session and in its timeline were given out by it, and its timers were
registered in their order. -/
structure Orderly (s : Session) : Prop where
  seen : ∀ snapshot ∈ s.timeline.snapshots.toList,
    snapshot.toCollections.Below s.frames s.tasks s.timers
  held : s.collections.Below s.frames s.tasks s.timers
  growing : s.collections.pendingTimers.Pairwise (·.seq < ·.seq)

namespace Orderly

variable {s : Session}

theorem ofSource (source : String) : (Session.ofSource source).Orderly where
  seen _ member := by cases member
  held := by
    constructor
    all_goals simp [Session.ofSource, Collections.empty]
  growing := .nil

/-- No frame that was seen has the number of the next one. -/
theorem newFrame (orderly : s.Orderly) : Move.NewFrame s.timeline.snapshots.toList s.frames :=
  fun snapshot member => (orderly.seen snapshot member).frames

/-- No timer or task that was seen has the number of the next one. -/
theorem newTask (orderly : s.Orderly) : Move.NewTask s.timeline.snapshots.toList (s.tasks + 1) :=
  fun snapshot member =>
    ⟨fun timer held => Nat.lt_succ_of_le ((orderly.seen snapshot member).timers timer held).1,
      fun task held => Nat.lt_succ_of_le ((orderly.seen snapshot member).deferred task held),
      fun task held => Nat.lt_succ_of_le ((orderly.seen snapshot member).ready task held)⟩

theorem newSeq (orderly : s.Orderly) : Move.NewSeq s.timeline.snapshots.toList s.timers :=
  fun snapshot member timer held => ((orderly.seen snapshot member).timers timer held).2

theorem snap (orderly : s.Orderly) (line : Option Nat) (description : String) (phase : Phase) :
    (s.snap line description phase).Orderly where
  seen snapshot member := by
    have member : snapshot ∈ (s.timeline.record _ _ _ _).snapshots.toList := member
    rw [Timeline.toList_record] at member
    rcases List.mem_append.mp member with old | new
    · exact orderly.seen snapshot old
    · rw [List.mem_singleton.mp new]
      exact orderly.held
  held := orderly.held
  growing := orderly.growing

theorem pushFrame (orderly : s.Orderly) (name : String) (kind : FrameKind) (line : Option Nat) :
    (s.pushFrame name kind line).Orderly where
  seen snapshot member := (orderly.seen snapshot member).mono (Nat.le_succ _) (Nat.le_refl _)
    (Nat.le_refl _)
  held := by
    have below := orderly.held.mono (Nat.le_succ _)
      (Nat.le_refl _) (Nat.le_refl _)
    refine ⟨?_, below.timers, below.deferred, below.ready⟩
    intro frame member
    rcases List.mem_append.mp member with old | new
    · exact below.frames frame old
    · rw [List.mem_singleton.mp new]
      exact Nat.lt_succ_self _
  growing := orderly.growing

theorem popFrame (orderly : s.Orderly) : s.popFrame.Orderly where
  seen := orderly.seen
  held := ⟨fun frame member => orderly.held.frames frame (List.dropLast_subset _ member),
    orderly.held.timers, orderly.held.deferred, orderly.held.ready⟩
  growing := orderly.growing

theorem printLine (orderly : s.Orderly) (text : String) : (s.printLine text).Orderly :=
  ⟨orderly.seen, ⟨orderly.held.frames, orderly.held.timers, orderly.held.deferred,
    orderly.held.ready⟩, orderly.growing⟩

theorem clearStack (orderly : s.Orderly) : s.clearStack.Orderly :=
  ⟨orderly.seen, ⟨fun _ member => (by cases member), orderly.held.timers, orderly.held.deferred,
    orderly.held.ready⟩, orderly.growing⟩

theorem addTimer (orderly : s.Orderly) (callback : Callback) (delay : Nat) :
    (s.addTimer callback delay).2.Orderly where
  seen snapshot member := (orderly.seen snapshot member).mono (Nat.le_refl _) (Nat.le_succ _)
    (Nat.le_succ _)
  held := by
    have below := orderly.held.mono (Nat.le_refl _)
      (Nat.le_succ _) (Nat.le_succ _)
    refine ⟨below.frames, ?_, below.deferred, below.ready⟩
    intro timer member
    rcases List.mem_append.mp member with old | new
    · exact below.timers timer old
    · rw [List.mem_singleton.mp new]
      exact ⟨Nat.le_refl _, Nat.lt_succ_self _⟩
  growing := by
    refine List.pairwise_append.mpr ⟨orderly.growing, List.pairwise_singleton _ _, ?_⟩
    intro timer old new member
    rw [List.mem_singleton.mp member]
    exact (orderly.held.timers timer old).2

theorem addDeferred (orderly : s.Orderly) {task : Nat → SlotKey → QueuedTask}
    (numbers : ∀ id key, (task id key).id = id) (callback : Callback) :
    (s.addDeferred task callback).Orderly where
  seen snapshot member := (orderly.seen snapshot member).mono (Nat.le_refl _) (Nat.le_succ _)
    (Nat.le_refl _)
  held := by
    have below := orderly.held.mono (Nat.le_refl _)
      (Nat.le_succ _) (Nat.le_refl _)
    refine ⟨below.frames, below.timers, ?_, below.ready⟩
    intro queued member
    rcases List.mem_append.mp member with old | new
    · exact below.deferred queued old
    · rw [List.mem_singleton.mp new, numbers]
      exact Nat.le_refl _
  growing := orderly.growing

theorem popDeferred (orderly : s.Orderly) {task : QueuedTask} {rest : TaskQueue}
    (queue : s.collections.deferredQueue = task :: rest) : s.popDeferred.2.Orderly where
  seen := orderly.seen
  held := by
    refine ⟨orderly.held.frames, orderly.held.timers, ?_, orderly.held.ready⟩
    intro queued member
    refine orderly.held.deferred queued ?_
    rw [Session.popDeferred, queue] at member
    rw [queue]
    exact List.mem_cons_of_mem _ member
  growing := orderly.growing

theorem popReady (orderly : s.Orderly) {task : QueuedTask}
    (queue : s.collections.readyQueue = [task]) : s.popReady.2.Orderly where
  seen := orderly.seen
  held := by
    refine ⟨orderly.held.frames, orderly.held.timers, orderly.held.deferred, ?_⟩
    intro queued member
    rw [Session.popReady, queue] at member
    cases member
  growing := orderly.growing

/-- Promoting a timer makes it the task that is ready. -/
theorem promoteTimer (orderly : s.Orderly) (ready : s.collections.readyQueue = [])
    (timers : s.collections.pendingTimers ≠ []) :
    s.promoteTimer.Orderly ∧
      Move.promote.Holds s.timeline.snapshots.toList s.collections s.promoteTimer.collections := by
  obtain ⟨timer, others, before, after, taken, selects⟩ := Timers.take_cons timers
  rw [Session.promoteTimer_eq taken]
  have sublist : List.Sublist others s.collections.pendingTimers := by
    rw [selects.timers, selects.others]
    exact (List.Sublist.refl before).append (List.sublist_cons_self timer after)
  have member : timer ∈ s.collections.pendingTimers := by
    rw [selects.timers]
    exact List.mem_append_right before List.mem_cons_self
  constructor
  · refine ⟨orderly.seen, ⟨orderly.held.frames, ?_, orderly.held.deferred,
      ?_⟩, orderly.growing.sublist sublist⟩
    · intro other held
      exact orderly.held.timers other (sublist.subset held)
    · intro task held
      rw [ready] at held
      rw [List.mem_singleton.mp held]
      exact (orderly.held.timers timer member).1
  · refine ⟨timer, .ready timer, before, after, selects.timers, ?_, rfl, rfl,
      ready, ?_⟩
    · intro other held
      exact selects.least orderly.growing (by rw [selects.others]; exact held)
    · rw [selects.others, ready]
      rfl

end Orderly

end Session

/-- A change keeps a session orderly. -/
theorem Change.orderly {a b : Instant} (change : Change a b) (orderly : a.session.Orderly) :
    b.session.Orderly := by
  cases change with
  | rest => exact orderly
  | push s name kind line => exact orderly.pushFrame name kind line
  | pop => exact orderly.popFrame
  | print s text => exact orderly.printLine text
  | addTimer s callback delay => exact orderly.addTimer callback delay
  | addMicrotask s callback => exact orderly.addDeferred (fun _ _ => rfl) callback
  | addContinuation s callback => exact orderly.addDeferred (fun _ _ => rfl) callback
  | dequeue s task rest _ queue => exact orderly.popDeferred queue
  | promote s _ _ ready timers => exact (orderly.promoteTimer ready timers).1
  | reject s frame text _ => exact orderly.clearStack.printLine text

/-- A change is a move from what was held to what is held. -/
theorem Change.holds {a b : Instant} (change : Change a b) (orderly : a.session.Orderly) :
    ∃ move ∈ Move.all,
      move.Holds a.session.timeline.snapshots.toList a.session.collections b.session.collections ∧
      (move = .promote → a.session.collections.deferredQueue = []) := by
  cases change with
  | rest => exact ⟨.rest, by decide, rfl, (by simp)⟩
  | push s name kind line => exact ⟨.frame, by decide, .inl ⟨_, orderly.newFrame, rfl⟩, (by simp)⟩
  | pop s nonempty =>
    refine ⟨.frame, by decide, .inr ⟨s.collections.stack.getLast nonempty, ?_, rfl⟩, (by simp)⟩
    exact (List.dropLast_concat_getLast nonempty).symm
  | print s text => exact ⟨.print, by decide, ⟨text, rfl⟩, (by simp)⟩
  | addTimer s callback delay =>
    exact ⟨.timer, by decide, ⟨_, orderly.newTask, orderly.newSeq, rfl, rfl⟩, (by simp)⟩
  | addMicrotask s callback => exact ⟨.defer, by decide, ⟨_, orderly.newTask, rfl⟩, (by simp)⟩
  | addContinuation s callback => exact ⟨.defer, by decide, ⟨_, orderly.newTask, rfl⟩, (by simp)⟩
  | dequeue s task rest stack queue =>
    refine ⟨.dequeue, by decide, ⟨stack, task, ?_, rfl⟩, (by simp)⟩
    rw [Session.popDeferred, queue]
    rfl
  | promote s _ deferred ready timers =>
    exact ⟨.promote, by decide, (orderly.promoteTimer ready timers).2, fun _ => deferred⟩
  | reject s frame text stack => exact ⟨.reject, by decide, ⟨frame, text, stack, rfl⟩, (by simp)⟩

/-- The session is orderly, its last snapshot shows it, and its timeline is a run. -/
structure Session.Recorded (s : Session) : Prop where
  shown : s.Shown
  orderly : s.Orderly
  run : s.timeline.IsRun Move.all

/-- A snapshot of a move. -/
theorem Session.Recorded.record {s t : Session} (recorded : s.Recorded) (orderly : t.Orderly)
    (same : t.timeline = s.timeline) {move : Move} (allowed : move ∈ Move.all)
    (holds : move.Holds s.timeline.snapshots.toList s.collections t.collections)
    (patient : move = .promote → s.collections.deferredQueue = []) (line : Option Nat)
    (description : String) (phase : Phase) : (t.snap line description phase).Recorded where
  shown := Session.shown_snap ..
  orderly := orderly.snap line description phase
  run := by
    obtain ⟨last, found, shown⟩ := recorded.shown
    rw [← shown] at holds patient
    show (t.timeline.record t.collections line description phase).IsRun Move.all
    rw [same]
    exact recorded.run.record found t.collections line description phase allowed holds patient

/-- A step keeps the timeline a run. -/
theorem Step.recorded {a b : Instant} (step : Step a b) (recorded : a.session.Recorded) :
    b.session.Recorded := by
  cases step with
  | record line description phase change _ =>
    obtain ⟨move, allowed, holds, patient⟩ := change.holds recorded.orderly
    exact recorded.record (change.orderly recorded.orderly) change.timeline allowed holds patient
      line description phase
  | begin s task name _ =>
    have pushed : Move.frame.Holds s.timeline.snapshots.toList s.collections
        (s.pushFrame name .deferredCallback none).collections :=
      .inl ⟨_, recorded.orderly.newFrame, rfl⟩
    exact recorded.record (recorded.orderly.pushFrame name .deferredCallback none) rfl
      (by decide) pushed (by simp) none _ .idle
  | start s task name stack ready =>
    have started : Move.start.Holds s.timeline.snapshots.toList s.collections
        (s.popReady.2.pushFrame name .timerCallback none).collections := by
      refine ⟨stack, task, ⟨s.frames, name, .timerCallback, none⟩, recorded.orderly.newFrame,
        ready, ?_⟩
      simp only [Session.pushFrame, Session.popReady, ready, stack, TaskQueue.pop, List.nil_append]
    exact recorded.record ((recorded.orderly.popReady ready).pushFrame name .timerCallback none)
      rfl (by decide) started (by simp) none _ .idle
  | take s task =>
    exact ⟨recorded.shown, ⟨recorded.orderly.seen, recorded.orderly.held,
      recorded.orderly.growing⟩, recorded.run⟩
  | look s locator =>
    exact ⟨recorded.shown, ⟨recorded.orderly.seen, recorded.orderly.held,
      recorded.orderly.growing⟩, recorded.run⟩

/-- The timeline of an event loop at any time is a run. -/
theorem Later.recorded {source : String} {a : Instant} (later : Later (.first source) a) :
    a.session.Recorded := by
  induction later with
  | refl =>
    refine ⟨Session.shown_snap .., (Session.Orderly.ofSource source).snap none "Idle" .idle, ?_⟩
    refine ⟨⟨_, rfl, rfl⟩, ?_, ?_, ?_⟩
    · intro i s found
      cases i with
      | zero => cases found; rfl
      | succ i => cases found
    · intro i a b _ second
      cases second
    · intro i a b _ second
      cases second
  | tail _ step ih => exact step.recorded ih

/-- The timeline of any script is a run of an event loop: it starts with nothing, and from each
snapshot to the next exactly one move is made. -/
theorem Timeline.ofSource_isRun (settings : Settings) (source : String) :
    (Timeline.ofSource settings source).IsRun Move.all := by
  obtain ⟨s, later, same, -, -⟩ := Timeline.ofSource_later settings source
  rw [same]
  exact later.recorded.run

/-- The last two kinds of moves are needed: a task that is ready leaves its queue together with the
push of its frame, and a script that cannot be read loses its frame together with the report. -/
theorem Timeline.ofSource_not_isRun_plain :
    ¬ (Timeline.ofSource .usual "setTimeout(() => null)").IsRun Move.plain ∧
      ¬ (Timeline.ofSource .usual ")").IsRun Move.plain := by
  constructor
  · intro run
    obtain ⟨move, allowed, changes⟩ :=
      run.changes 9 1000 1 (by decide +kernel) (by decide +kernel)
    cases move <;> first | (simp [Move.plain] at allowed; done) | simp [Move.Changes] at changes
  · intro run
    obtain ⟨move, allowed, changes⟩ :=
      run.changes 1 1 3 (by decide +kernel) (by decide +kernel)
    cases move <;> first | (simp [Move.plain] at allowed; done) | simp [Move.Changes] at changes

end EventLoop
