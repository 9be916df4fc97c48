import EventLoop.Proofs.Loop.Reached

/-!
# The course of a generation

Read once, function by function: from its first moment on, an event loop that runs a script takes
steps. Between two tasks nothing is on the stack and no task is ready; when a script or a callback
fails, the frame that stands for it is alone on the stack.
-/

namespace EventLoop

namespace Generation

variable {α β : Type} {source : String} {settings : Settings} {m : Machine Session}

/-- How a part of the loop ends: at rest, with a value that has the property, or in a failure with
one frame on the stack. -/
def Ends (holds : α → Machine Session → Prop) (m : Machine Session) :
    Except ScriptError α → Prop
  | .ok a => m.host.AtRest ∧ holds a m
  | .error _ => ∃ frame, m.host.collections.stack = [frame]

/-- From a machine that was reached, a part of the loop goes on as a loop does. -/
def Leads (source : String) (m : Machine Session) (x : Eval Session α)
    (holds : α → Machine Session → Prop) : Prop :=
  Reached source .empty (x.run m).2 ∧ Ends holds (x.run m).2 (x.run m).1

theorem Leads.pure {holds : α → Machine Session → Prop} (reached : Reached source .empty m)
    (rest : m.host.AtRest) {a : α} (h : holds a m) : Leads source m (Pure.pure a) holds :=
  ⟨reached, rest, h⟩

theorem Leads.bind {x : Eval Session α} {f : α → Eval Session β} {mid : α → Machine Session → Prop}
    {holds : β → Machine Session → Prop} (hx : Leads source m x mid)
    (hf : ∀ a m', Reached source .empty m' → m'.host.AtRest → mid a m' →
      Leads source m' (f a) holds) : Leads source m (x >>= f) holds := by
  unfold Leads at hx
  rcases run : x.run m with ⟨result, m'⟩
  rw [run] at hx
  obtain ⟨reached, ends⟩ := hx
  cases result with
  | error e =>
    unfold Leads
    rw [Eval.run_bind_error run]
    exact ⟨reached, ends⟩
  | ok a =>
    have rest := hf a m' reached ends.1 ends.2
    unfold Leads at rest ⊢
    rw [Eval.run_bind_ok run]
    exact rest

theorem run_ask (f : Session → α) (m : Machine Session) : (ask f).run m = (.ok (f m.host), m) := rfl

theorem run_snap (description : String) (phase : Phase) (m : Machine Session) :
    (snap description phase).run m = (.ok ⟨⟩, m.onHost (Session.snap none description phase)) := rfl

theorem ask_bind {f : Session → α} {g : α → Eval Session β} {holds : β → Machine Session → Prop}
    (h : Leads source m (g (f m.host)) holds) : Leads source m (ask f >>= g) holds := h

/-- A snapshot between two tasks. -/
theorem snap_leads (reached : Reached source .empty m) (rest : m.host.AtRest)
    {description : String} (phase : Phase) (other : description ∉ runWords) :
    Leads source m (snap description phase)
      fun _ m' => m' = m.onHost (Session.snap none description phase) :=
  ⟨reached.snap _ phase other, rest.snap _ _ _, rfl⟩

/-- The machine with the frame of a task on the stack, and a snapshot of it. -/
def opened (words : TaskWords) (m : Machine Session) : Machine Session :=
  m.onHost fun s => (s.pushFrame words.frame words.kind none).snap none words.started .idle

/-- The callback of a task runs in the task's frame. -/
theorem runCallback_reached (settings : Settings) (callback : Callback)
    (reached : Reached source .empty m)
    (known : ∀ value, callback.argument = some value → value.Within m.promises.size) :
    let ran := (Eval.runCallback settings.limits (Session.host settings.lineMode) callback).run m
    Reached source .empty ran.2 ∧ m.host.Serves ran.2.host := by
  rcases Eval.runCallback_cases callback reached.inOrder known with
    ⟨e, run, -⟩ | ⟨-, m', path, ⟨e, run, -⟩ | ⟨value, known, run⟩⟩
  · rw [run]
    exact ⟨reached, .refl _⟩
  · rw [run]
    exact ⟨(reached.deeper.path path).shallower, path.serves⟩
  · have after : Reached source .empty m'.shallower := (reached.deeper.path path).shallower
    have finished := after.finish settings.lineMode callback.settles known
    rw [run]
    exact ⟨finished.1, path.serves.trans finished.2⟩

/-- The machine on which the callback of a task runs: it was taken out of the arena. -/
def called (words : TaskWords) (task : QueuedTask) (m : Machine Session) : Machine Session :=
  (opened words m).onHost fun s => (s.takeCallback task).2

theorem depth_called (words : TaskWords) (task : QueuedTask) (m : Machine Session) :
    (called words task m).depth = m.depth := rfl

theorem called_reached {words : TaskWords} {task : QueuedTask}
    (framed : Reached source (.framed task) (opened words m)) :
    Reached source .empty (called words task m) where
  later := framed.later.tail (.take _ task)
  inOrder := ⟨framed.inOrder.scopes, framed.inOrder.promises⟩
  stored := framed.stored.take task

/-- The callback of a task is there, and it is run. -/
theorem run_runTask (settings : Settings) {words : TaskWords} {task : QueuedTask}
    (framed : Reached source (.framed task) (opened words m)) :
    ∃ callback, m.host.callbacks.get? task.callback = some callback ∧
      (runTask settings words task).run m = (do
        Eval.runCallback settings.limits (Session.host settings.lineMode) callback
        Eval.onHost Session.popFrame
        snap words.finished .idle : Eval Session Unit).run (called words task m) := by
  have there := framed.later.accounted.take.1
  obtain ⟨callback, found⟩ := Option.isSome_iff_exists.mp there
  have asked : (Eval.askHost (Session.takeCallback task)).run (opened words m) =
      (.ok (some callback), called words task m) := by
    rw [Eval.run_askHost, found]
    rfl
  refine ⟨callback, (Arena.take_fst _ _).symm.trans found, ?_⟩
  rw [runTask, Eval.run_bind_ok (Eval.run_onHost ..), Eval.run_bind_ok (run_snap ..)]
  exact Eval.run_bind_ok asked

theorem runTask_leads {words : TaskWords} {task : QueuedTask}
    (framed : Reached source (.framed task) (opened words m)) (rest : m.host.AtRest)
    (other : words.finished ∉ runWords) :
    Leads source m (runTask settings words task) fun _ _ => True := by
  obtain ⟨callback, found, start⟩ := run_runTask settings framed
  have alone : (called words task m).host.collections.stack =
      [⟨m.host.frames, words.frame, words.kind, none⟩] := by
    show m.host.collections.stack ++ _ = _
    rw [rest.stack]
    rfl
  have known : ∀ value, callback.argument = some value →
      value.Within (called words task m).promises.size := fun value argument =>
    framed.stored.within task.callback callback value found argument
  have ran := runCallback_reached settings callback (called_reached framed) known
  unfold Leads
  rw [start]
  rcases run : (Eval.runCallback settings.limits (Session.host settings.lineMode) callback).run
      (called words task m) with ⟨result, m'⟩
  rw [run] at ran
  have stack : m'.host.collections.stack = _ := ran.2.stack.trans alone
  cases result with
  | error e =>
    rw [Eval.run_bind_error run]
    exact ⟨ran.1, _, stack⟩
  | ok _ =>
    have popped := Session.AtRest.popFrame stack (ran.2.ready.trans rest.ready)
    rw [Eval.run_bind_ok run]
    exact ⟨ran.1.popFrame stack _ other, popped.snap _ _ _, trivial⟩

/-- A task is to run next, and the session has come as far as to the push of its frame. Beside the
queues nothing has changed that callbacks can tell. -/
structure Picked (source : String) (m : Machine Session) (words : TaskWords) (task : QueuedTask)
    (s : Session) : Prop where
  framed : Reached source (.framed task) (opened words { m with host := s })
  rest : s.AtRest
  output : s.collections.output = m.host.collections.output
  callbacks : s.callbacks = m.host.callbacks
  tasks : s.tasks = m.host.tasks

theorem popDeferred_nil {s : Session} (nil : s.collections.deferredQueue = []) :
    s.popDeferred = (none, s) := by
  obtain ⟨⟨stack, pending, deferred, ready, output⟩, _, _, _, _, _, _⟩ := s
  cases nil
  rfl

theorem hasDeferred_eq_false {s : Session} :
    s.hasDeferred = false ↔ s.collections.deferredQueue = [] := by
  simp [Session.hasDeferred]

theorem run_checkpoint_nil (bound : Nat) (queue : m.host.collections.deferredQueue = []) :
    (checkpoint settings (bound + 1)).run m = (.ok .idle, m) := by
  have same : m.onHost (fun s => s.popDeferred.2) = m := by
    rw [Machine.onHost, popDeferred_nil queue]
  rw [checkpoint, Eval.run_bind_ok (Eval.run_askHost ..), same, popDeferred_nil queue]
  rfl

/-- The machine when the task that was deferred first has left its queue. -/
def fetched (m : Machine Session) : Machine Session :=
  m.onHost fun s =>
    s.popDeferred.2.snap none "Event Loop: Moving Microtask to Call Stack" .promotingDeferred

section

variable {task : QueuedTask} {others : TaskQueue}
  (queue : m.host.collections.deferredQueue = task :: others)

include queue

theorem collections_fetched :
    (fetched m).host.collections = { m.host.collections with deferredQueue := others } := by
  show { m.host.collections with deferredQueue := m.host.collections.deferredQueue.pop.2 } = _
  rw [queue]
  rfl

theorem fetched_picked (reached : Reached source .empty m) (rest : m.host.AtRest) :
    Picked source m (deferredWords task) task (fetched m).host := by
  have moving : Reached source (.moving task) (fetched m) :=
    reached.of_step
      (f := fun s => s.popDeferred.2.snap none
        "Event Loop: Moving Microtask to Call Stack" .promotingDeferred)
      (.record none _ .promotingDeferred (.dequeue m.host task others rest.stack queue) (by decide))
      rfl
  exact ⟨moving.of_step (.begin (fetched m).host task _ rest.stack) rfl, ⟨rest.stack, rest.ready⟩,
    rfl, rfl, rfl⟩

theorem run_checkpoint_fetched (settings : Settings) (bound : Nat) :
    (checkpoint settings (bound + 1)).run m = (do
      runTask settings (deferredWords task) task
      if ← ask Session.hasDeferred then
        snap "Event Loop: Checking next Microtask..." .checking
      checkpoint settings bound : Eval Session Ending).run (fetched m) := by
  have popped : m.host.popDeferred.1 = some task := by
    rw [Session.popDeferred, queue]
    rfl
  rw [checkpoint, Eval.run_bind_ok (Eval.run_askHost ..), popped]
  rfl

end

/-- The task that was deferred first is picked. -/
theorem run_checkpoint_cons (settings : Settings) (bound : Nat) (reached : Reached source .empty m)
    (rest : m.host.AtRest) {task : QueuedTask} {others : TaskQueue}
    (queue : m.host.collections.deferredQueue = task :: others) :
    ∃ s, Picked source m (deferredWords task) task s ∧ s.collections.deferredQueue = others ∧
      s.collections.pendingTimers = m.host.collections.pendingTimers ∧
      (checkpoint settings (bound + 1)).run m = (do
        runTask settings (deferredWords task) task
        if ← ask Session.hasDeferred then
          snap "Event Loop: Checking next Microtask..." .checking
        checkpoint settings bound : Eval Session Ending).run { m with host := s } :=
  ⟨(fetched m).host, fetched_picked queue reached rest,
    congrArg Collections.deferredQueue (collections_fetched queue), rfl,
    run_checkpoint_fetched queue settings bound⟩

/-- Deferred tasks run one after another. If the loop says that it is idle, none is left. -/
theorem checkpoint_leads (bound : Nat) (reached : Reached source .empty m)
    (rest : m.host.AtRest) :
    Leads source m (checkpoint settings bound)
      fun ending m' => ending = .idle → m'.host.collections.deferredQueue = [] := by
  induction bound generalizing m with
  | zero =>
    refine .pure reached rest ?_
    intro idle
    cases more : m.host.hasDeferred with
    | true =>
      rw [more] at idle
      cases idle
    | false => exact hasDeferred_eq_false.mp more
  | succ bound ih =>
    unfold Leads
    cases queue : m.host.collections.deferredQueue with
    | nil =>
      rw [run_checkpoint_nil bound queue]
      exact ⟨reached, rest, fun _ => queue⟩
    | cons task others =>
      obtain ⟨s, picked, -, -, run⟩ :=
        run_checkpoint_cons settings bound reached rest queue
      rw [run]
      refine (runTask_leads picked.framed picked.rest
        (show "Microtask finished" ∉ runWords by decide)).bind ?_
      intro _ m₂ reached₂ rest₂ _
      refine ask_bind ?_
      cases more : m₂.host.hasDeferred with
      | true =>
        refine (snap_leads reached₂ rest₂ .checking (by decide)).bind
          ?_
        intro _ m₃ reached₃ rest₃ _
        exact ih reached₃ rest₃
      | false => exact ih reached₂ rest₂

theorem hasTimers_eq_false {s : Session} :
    s.hasTimers = false ↔ s.collections.pendingTimers = [] := by
  simp [Session.hasTimers]

theorem hasTimers_eq_true {s : Session} :
    s.hasTimers = true ↔ s.collections.pendingTimers ≠ [] := by
  simp [Session.hasTimers]

theorem hasWork_eq_false {s : Session} : s.hasWork = false ↔
    (s.collections.deferredQueue = [] ∧ s.collections.pendingTimers = []) ∧
      s.collections.readyQueue = [] := by
  simp [Session.hasWork, hasDeferred_eq_false, hasTimers_eq_false]

/-- The machine when the loop has found that only timers are left. -/
def onlyTimers (m : Machine Session) : Machine Session :=
  m.onHost (Session.snap none "Event Loop: Microtasks empty. Checking Macrotasks..." .checking)

/-- The machine when the timer that comes next has become a task that is ready. -/
def readied (m : Machine Session) : Machine Session :=
  ((onlyTimers m).onHost fun s =>
    s.promoteTimer.snap none "Timer finished -> Macrotask Queue" .idle).onHost
      (Session.snap none "Event Loop: Moving Macrotask to Call Stack" .promotingReady)

section

variable {timer : PendingTimer} {others : Timers}
  (taken : m.host.collections.pendingTimers.take = (some timer, others))

include taken

theorem collections_readied (rest : m.host.AtRest) :
    (readied m).host.collections =
      { m.host.collections with pendingTimers := others, readyQueue := [.ready timer] } := by
  have promoted := Session.promoteTimer_eq (s := (onlyTimers m).host) taken
  refine (congrArg Session.collections promoted).trans ?_
  have ready : (onlyTimers m).host.collections.readyQueue = [] := rest.ready
  rw [ready]
  rfl

theorem callbacks_readied : (readied m).host.callbacks = m.host.callbacks := by
  have promoted := Session.promoteTimer_eq (s := (onlyTimers m).host) taken
  exact (congrArg Session.callbacks promoted).trans rfl

theorem tasks_readied : (readied m).host.tasks = m.host.tasks := by
  have promoted := Session.promoteTimer_eq (s := (onlyTimers m).host) taken
  exact (congrArg Session.tasks promoted).trans rfl

end

theorem readied_reached (reached : Reached source .empty m) (rest : m.host.AtRest)
    (deferred : m.host.collections.deferredQueue = [])
    (timers : m.host.collections.pendingTimers ≠ []) : Reached source .empty (readied m) := by
  obtain ⟨timer, others, before, after, taken, -⟩ := Timers.take_cons timers
  have checked : Reached source .empty (onlyTimers m) := reached.snap _ .checking (by decide)
  have promoted := checked.of_step
    (f := fun s => s.promoteTimer.snap none "Timer finished -> Macrotask Queue" .idle)
    (.record none _ .idle
      (.promote (onlyTimers m).host rest.stack deferred rest.ready timers) (by decide))
    (callbacks_readied taken)
  exact promoted.snap _ .promotingReady (by decide)

/-- The machine when the task of the timer that comes next has left its queue. -/
def promoted (m : Machine Session) : Machine Session :=
  (readied m).onHost fun s => s.popReady.2

section

variable {timer : PendingTimer} {others : Timers}
  (taken : m.host.collections.pendingTimers.take = (some timer, others)) (rest : m.host.AtRest)

include taken rest

theorem collections_promoted :
    (promoted m).host.collections = { m.host.collections with pendingTimers := others } := by
  have collections := collections_readied taken rest
  show { (readied m).host.collections with
    readyQueue := (readied m).host.collections.readyQueue.pop.2 } = _
  rw [collections, ← rest.ready]
  rfl

theorem promoted_picked (reached : Reached source .empty m)
    (deferred : m.host.collections.deferredQueue = []) :
    Picked source m timerWords (.ready timer) (promoted m).host := by
  have timers : m.host.collections.pendingTimers ≠ [] := by
    intro none
    rw [none] at taken
    cases taken
  have collections := collections_readied taken rest
  have ready : (readied m).host.collections.readyQueue = [.ready timer] := by rw [collections]
  have stack : (readied m).host.collections.stack = [] := by
    rw [collections]
    exact rest.stack
  have framed : Reached source (.framed (.ready timer)) (opened timerWords (promoted m)) :=
    (readied_reached reached rest deferred timers).of_step
      (f := fun s => (s.popReady.2.pushFrame timerWords.frame timerWords.kind none).snap none
        timerWords.started .idle)
      (.start (readied m).host (.ready timer) _ stack ready) rfl
  have same := collections_promoted taken rest
  refine ⟨framed, ⟨?_, ?_⟩, ?_, callbacks_readied taken, tasks_readied taken⟩
  · rw [same]
    exact rest.stack
  · rw [same]
    exact rest.ready
  · rw [same]

theorem run_runTimer_promoted (settings : Settings) :
    (runTimer settings).run m =
      (runTask settings timerWords (.ready timer)).run (promoted m) := by
  have asked : (Eval.askHost Session.popReady).run (readied m) =
      (.ok (some (.ready timer)), promoted m) := by
    rw [Eval.run_askHost, Session.popReady, collections_readied taken rest]
    rfl
  rw [runTimer, Eval.run_bind_ok (run_snap ..), Eval.run_bind_ok (Eval.run_onHost ..),
    Eval.run_bind_ok (run_snap ..), Eval.run_bind_ok (run_snap ..)]
  exact Eval.run_bind_ok asked

end

/-- The timer that comes next is picked. -/
theorem run_runTimer (settings : Settings) (reached : Reached source .empty m)
    (rest : m.host.AtRest) (deferred : m.host.collections.deferredQueue = [])
    (timers : m.host.collections.pendingTimers ≠ []) :
    ∃ timer before after s, Timers.Selects m.host.collections.pendingTimers timer
        s.collections.pendingTimers before after ∧
      Picked source m timerWords (.ready timer) s ∧ s.collections.deferredQueue = [] ∧
      (runTimer settings).run m =
        (runTask settings timerWords (.ready timer)).run { m with host := s } := by
  obtain ⟨timer, others, before, after, taken, selects⟩ := Timers.take_cons timers
  have collections := collections_promoted taken rest
  refine ⟨timer, before, after, (promoted m).host, ?_, promoted_picked taken rest reached deferred,
    ?_, run_runTimer_promoted taken rest settings⟩
  · rw [collections]
    exact selects
  · rw [collections]
    exact deferred

/-- A timer's task runs while nothing is deferred. -/
theorem runTimer_leads (reached : Reached source .empty m) (rest : m.host.AtRest)
    (deferred : m.host.collections.deferredQueue = [])
    (timers : m.host.collections.pendingTimers ≠ []) :
    Leads source m (runTimer settings) fun _ _ => True := by
  obtain ⟨timer, before, after, s, -, picked, -, run⟩ :=
    run_runTimer settings reached rest deferred timers
  unfold Leads
  rw [run]
  exact runTask_leads picked.framed picked.rest (show "Macrotask finished" ∉ runWords by decide)

/-- What a pass does after it has said what it found, and the passes after it. -/
def restOfPass (settings : Settings) (first : Bool) (bound : Nat) : Eval Session Ending := do
  match ← checkpoint settings settings.maxDeferredPerCheckpoint with
  | .cut => return .cut
  | .idle =>
    if ← ask Session.hasTimers then runTimer settings
    else if first && !(← ask Session.hasDeferred) then
      snap "Event Loop: No tasks in queues" .checking
    passes settings false bound

theorem restOfPass_leads (first : Bool) (bound : Nat)
    (later : ∀ {m : Machine Session}, Reached source .empty m → m.host.AtRest →
      Leads source m (passes settings false bound)
        fun ending m' => ending = .idle → m'.host.hasWork = false)
    (reached : Reached source .empty m) (rest : m.host.AtRest) :
    Leads source m (restOfPass settings first bound)
      fun ending m' => ending = .idle → m'.host.hasWork = false := by
  unfold restOfPass
  refine (checkpoint_leads _ reached rest).bind ?_
  intro ending m₁ reached₁ rest₁ drained
  cases ending with
  | cut =>
    refine .pure reached₁ rest₁ ?_
    intro idle
    cases idle
  | idle =>
    refine ask_bind ?_
    cases timers : m₁.host.hasTimers with
    | true =>
      have nonempty := hasTimers_eq_true.mp timers
      refine (runTimer_leads reached₁ rest₁ (drained rfl) nonempty).bind ?_
      intro _ m₂ reached₂ rest₂ _
      exact later reached₂ rest₂
    | false =>
      refine ask_bind ?_
      cases first && !m₁.host.hasDeferred with
      | true =>
        refine (snap_leads reached₁ rest₁ .checking (by decide)).bind ?_
        intro _ m₂ reached₂ rest₂ _
        exact later reached₂ rest₂
      | false => exact later reached₁ rest₁

/-- Passes are made one after another. If the loop says that it is idle, nothing is left to run. -/
theorem passes_leads (bound : Nat) (first : Bool) (reached : Reached source .empty m)
    (rest : m.host.AtRest) :
    Leads source m (passes settings first bound)
      fun ending m' => ending = .idle → m'.host.hasWork = false := by
  induction bound generalizing first m with
  | zero =>
    refine .pure reached rest ?_
    intro idle
    cases work : m.host.hasWork with
    | true =>
      rw [work] at idle
      cases idle
    | false => rfl
  | succ bound ih =>
    rw [passes]
    refine ask_bind ?_
    cases work : m.host.hasWork with
    | false =>
      refine .pure reached rest ?_
      intro _
      exact work
    | true =>
      refine (snap_leads reached rest .checking (by decide)).bind ?_
      intro _ m₁ reached₁ rest₁ _
      refine ask_bind ?_
      rw [rest₁.stackIsEmpty]
      refine ask_bind ?_
      cases deferred : m₁.host.hasDeferred with
      | true =>
        refine (snap_leads reached₁ rest₁ .checking (by decide)).bind ?_
        intro _ m₂ reached₂ rest₂ _
        exact restOfPass_leads first bound (ih false) reached₂ rest₂
      | false => exact restOfPass_leads first bound (ih false) reached₁ rest₁

variable (settings)

/-- A run up to the place where the loop knows how it ends. -/
def untilEnding (script : Script) : Eval Session Ending := do
  Eval.runScript settings.limits (Session.host settings.lineMode) script
  Eval.onHost Session.popFrame
  snap "Main script finished" .idle
  passes settings true settings.maxIterations

/-- A run is a run up to its end, and a last snapshot if it was cut. -/
theorem run_eq_untilEnding (script : Script) :
    run settings script = (do
      match ← untilEnding settings script with
      | .cut =>
        if settings.announceIterationLimit then snap "Event Loop: iteration limit reached" .idle
      | .idle => return ()) := by
  symm
  refine (bind_assoc _ _ _).trans (congrArg _ (funext ?_))
  intro _
  refine (bind_assoc _ _ _).trans (congrArg _ (funext ?_))
  intro _
  exact bind_assoc _ _ _

/-- How a generation ends: in a failure, or with nothing left to run, or cut. -/
def ending (source : String) : Except ScriptError Ending :=
  match parse settings.maxNesting source with
  | .error e => .error e
  | .ok script => ((untilEnding settings script).run (.initial (start source))).1

variable {settings}

theorem start_reached (source : String) :
    Reached source .empty (.initial (start source)) where
  later := .single (.record (some 1) "Start script execution" .idle
    (.push _ "main()" .main (some 1)) (by decide))
  inOrder := Machine.InOrder.initial _
  stored := ⟨Arena.sound_empty, fun key callback value found => by
    have found : (Arena.empty : Arena Callback).get? key = some callback := found
    simp at found⟩

/-- The outermost statements run in the frame that is there. -/
theorem runScript_reached (settings : Settings) (script : Script)
    (reached : Reached source .empty m) :
    let ran := (Eval.runScript settings.limits (Session.host settings.lineMode) script).run m
    Reached source .empty ran.2 ∧ m.host.Serves ran.2.host := by
  have tracked : Eval.Tracked settings.limits (Session.host settings.lineMode) m
      (Eval.runScript settings.limits (Session.host settings.lineMode) script) fun _ _ => True :=
    Eval.runScript_tracked script reached.inOrder
  exact ⟨reached.path tracked.1, tracked.1.serves⟩

theorem untilEnding_leads (script : Script) {frame : Frame} (reached : Reached source .empty m)
    (stack : m.host.collections.stack = [frame]) (ready : m.host.collections.readyQueue = []) :
    Leads source m (untilEnding settings script)
      fun ending m' => ending = .idle → m'.host.hasWork = false := by
  have ran := runScript_reached settings script reached
  unfold Leads untilEnding
  rcases run : (Eval.runScript settings.limits (Session.host settings.lineMode) script).run m with
    ⟨result, m'⟩
  rw [run] at ran
  have stack' : m'.host.collections.stack = [frame] := ran.2.stack.trans stack
  cases result with
  | error e =>
    rw [Eval.run_bind_error run]
    exact ⟨ran.1, frame, stack'⟩
  | ok _ =>
    have popped := Session.AtRest.popFrame stack' (ran.2.ready.trans ready)
    rw [Eval.run_bind_ok run]
    exact passes_leads _ true (ran.1.popFrame stack' "Main script finished" (by decide))
      (popped.snap _ _ _)

end Generation

theorem Session.close_of_stack_nil {s : Session} (shown : s.Shown)
    (stack : s.collections.stack = []) : s.close = s.timeline := by
  obtain ⟨last, found, same⟩ := shown
  unfold Session.close
  rw [found]
  have : last.stack = [] := by rw [same, stack]
  simp [this]

theorem Session.close_of_stack_singleton {s : Session} {frame : Frame} (shown : s.Shown)
    (stack : s.collections.stack = [frame]) :
    s.close = (s.popFrame.snap none "Execution finished" .idle).timeline := by
  obtain ⟨last, found, same⟩ := shown
  unfold Session.close
  rw [found]
  have : last.stack = [frame] := by rw [same, stack]
  have cleared : s.clearStack = s.popFrame := by
    rw [Session.clearStack, Session.popFrame, stack]
    rfl
  simp [this, cleared]

/-- A failure of the script is reported, and the frame that it left is taken away. -/
def Session.endFailed (e : ScriptError) (s : Session) : Session :=
  (s.failRunning e).popFrame.snap none "Execution finished" .idle

theorem Session.close_failRunning {s : Session} {frame : Frame}
    (stack : s.collections.stack = [frame]) (e : ScriptError) :
    (s.failRunning e).close = (s.endFailed e).timeline :=
  close_of_stack_singleton (shown_snap ..) stack

theorem Session.endFailed_later {source : String} {s : Session} {frame : Frame}
    (later : Later (.first source) ⟨.empty, s⟩) (stack : s.collections.stack = [frame])
    (e : ScriptError) : Later (.first source) ⟨.empty, s.endFailed e⟩ := by
  have failed : Later (.first source) ⟨.empty, s.failRunning e⟩ :=
    later.tail (.record e.line? "Error executing code" .idle (.print s _) (by decide))
  have left : (s.failRunning e).collections.stack = [frame] := stack
  exact failed.tail (.record none "Execution finished" .idle (.pop _ (by simp [left])) (by decide))

namespace Generation

variable {settings : Settings} {source : String}

/-- What is recorded last, when the passes have ended. -/
def closing (settings : Settings) (result : Except ScriptError Ending) (s : Session) : Session :=
  match result with
  | .error e => s.endFailed e
  | .ok .idle => s
  | .ok .cut =>
    if settings.announceIterationLimit then s.snap none "Event Loop: iteration limit reached" .idle
    else s

theorem ending_eq {script : Script} (parsed : parse settings.maxNesting source = .ok script)
    {result : Except ScriptError Ending} {m : Machine Session}
    (run : (untilEnding settings script).run (.initial (start source)) = (result, m)) :
    ending settings source = result := by
  unfold ending
  rw [parsed]
  exact congrArg Prod.fst run

theorem ending_of_malformed {e : ScriptError}
    (failed : parse settings.maxNesting source = .error e) : ending settings source = .error e := by
  unfold ending
  rw [failed]

/-- The timeline of a script that could be read is that of its run up to the end of the passes, and
what is recorded last. -/
theorem ofSource_eq_closing {script : Script}
    (parsed : parse settings.maxNesting source = .ok script)
    {result : Except ScriptError Ending} {m : Machine Session}
    (run : (untilEnding settings script).run (.initial (start source)) = (result, m)) :
    Timeline.ofSource settings source = (closing settings result m.host).timeline := by
  have leads : Leads source (.initial (start source)) (untilEnding settings script) _ :=
    untilEnding_leads script (start_reached source) rfl rfl
  unfold Leads at leads
  rw [run] at leads
  obtain ⟨reached, ends⟩ := leads
  unfold Timeline.ofSource
  rw [parsed]
  dsimp only
  rw [run_eq_untilEnding]
  cases result with
  | error e =>
    obtain ⟨frame, stack⟩ := ends
    rw [Eval.run_bind_error run]
    exact Session.close_failRunning stack e
  | ok ending =>
    obtain ⟨rest, -⟩ := ends
    rw [Eval.run_bind_ok run]
    cases ending with
    | idle => exact Session.close_of_stack_nil reached.later.shown rest.stack
    | cut =>
      rw [closing]
      cases settings.announceIterationLimit with
      | true => exact Session.close_of_stack_nil (Session.shown_snap ..) rest.stack
      | false => exact Session.close_of_stack_nil reached.later.shown rest.stack

/-- The timeline of a script that cannot be read. -/
theorem ofSource_eq_failReading {e : ScriptError}
    (failed : parse settings.maxNesting source = .error e) :
    Timeline.ofSource settings source = ((start source).failReading e).timeline := by
  unfold Timeline.ofSource
  rw [failed]
  exact Session.close_of_stack_nil (Session.shown_snap ..) rfl

/-- What is recorded last are steps, too. A failure has left one frame. -/
theorem closing_later {result : Except ScriptError Ending} {m : Machine Session}
    (reached : Reached source .empty m)
    (failed : ∀ e, result = .error e → ∃ frame, m.host.collections.stack = [frame]) :
    Later (.first source) ⟨.empty, closing settings result m.host⟩ := by
  cases result with
  | error e => exact Session.endFailed_later reached.later (failed e rfl).choose_spec e
  | ok ending =>
    cases ending with
    | idle => exact reached.later
    | cut =>
      rw [closing]
      split
      · exact (reached.snap "Event Loop: iteration limit reached" .idle (by decide)).later
      · exact reached.later

/-- So is the report that a script could not be read. -/
theorem failReading_later (source : String) (e : ScriptError) :
    Later (.first source) ⟨.empty, (start source).failReading e⟩ :=
  (start_reached source).later.tail
    (.record e.line? "Error parsing code" .idle (.reject _ _ _ rfl) (by decide))

end Generation

open Generation in
/-- The timeline of a script is that of an event loop that has taken steps from its first moment on
and has come to rest. If it ends idle, nothing is left to run. -/
theorem Timeline.ofSource_later (settings : Settings) (source : String) :
    ∃ s : Session, Later (.first source) ⟨.empty, s⟩ ∧
      Timeline.ofSource settings source = s.timeline ∧ s.collections.stack = [] ∧
      (ending settings source = .ok .idle → s.hasWork = false) := by
  unfold ending
  cases parsed : parse settings.maxNesting source with
  | error e =>
    exact ⟨_, failReading_later source e, ofSource_eq_failReading parsed, rfl,
      fun idle => by cases idle⟩
  | ok script =>
    have leads : Leads source (.initial (start source)) (untilEnding settings script) _ :=
      untilEnding_leads script (start_reached source) rfl rfl
    dsimp only
    rcases run : (untilEnding settings script).run (.initial (start source)) with ⟨result, m⟩
    unfold Leads at leads
    rw [run] at leads
    obtain ⟨reached, ends⟩ := leads
    refine ⟨closing settings result m.host, ?_, ofSource_eq_closing parsed run, ?_, ?_⟩
    · refine closing_later reached fun e failed => ?_
      subst failed
      exact ends
    · cases result with
      | error e =>
        obtain ⟨frame, stack⟩ := ends
        show (m.host.collections.stack).dropLast = []
        rw [stack]
        rfl
      | ok ending =>
        cases ending with
        | idle => exact ends.1.stack
        | cut =>
          rw [closing]
          split <;> exact ends.1.stack
    · intro idle
      obtain rfl : result = .ok .idle := idle
      exact ends.2 rfl

end EventLoop
