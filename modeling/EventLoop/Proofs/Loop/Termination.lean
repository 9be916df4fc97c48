import Mathlib.Algebra.BigOperators.Group.List.Basic
import Mathlib.Algebra.GroupWithZero.Nat
import EventLoop.Proofs.Evaluation.Budget
import EventLoop.Proofs.Loop.Accounting
import EventLoop.Proofs.Loop.Marks
import EventLoop.Proofs.Promise.Handlers

/-!
# Event loops come to an end

A timer, a deferred callback and a handler each cost the step of the call that makes them, and a
handler that waits is queued once, when its promise is settled. Running a callback costs nothing by
itself. So however often a script schedules itself again, no more tasks are ever queued than the
budget has steps, no more callbacks are run, and no more passes are made.
-/

namespace EventLoop

namespace Session

variable (mode : LineMode) (callback : Callback) (line : Nat) (s : Session)

theorem tasks_print (text : String) : (print mode text line s).tasks = s.tasks := by
  cases mode <;> rfl

theorem tasks_registerTimer (delay : Nat) :
    (registerTimer mode callback delay line s).2.tasks = s.tasks + 1 := by
  cases mode <;> rfl

theorem tasks_defer : (defer mode callback line s).tasks = s.tasks + 1 := by
  cases mode <;> rfl

theorem tasks_chain_some : (chain mode (some callback) line s).tasks = s.tasks + 1 := by
  cases mode <;> rfl

theorem tasks_chain_none : (chain mode none line s).tasks = s.tasks := by
  cases mode <;> rfl

theorem tasks_leave : s.leave.tasks = s.tasks := by
  unfold leave
  split <;> rfl

theorem tasks_release (callbacks : List Callback) :
    (s.release callbacks).tasks = s.tasks + callbacks.length := by
  induction callbacks generalizing s with
  | nil => rfl
  | cons callback rest ih =>
    refine (ih _).trans ?_
    show s.tasks + 1 + rest.length = s.tasks + (rest.length + 1)
    omega

end Session

namespace Machine

variable {limits : Limits} {m m' : Machine Session}

/-- The tasks that were queued so far, and those that the handlers that wait can become. -/
def charges (m : Machine Session) : Nat :=
  m.host.tasks + m.promises.handled.length

/-- Each task that was queued, or can still be, has its step, and these steps are in the budget. -/
def Afforded (limits : Limits) (m : Machine Session) : Prop :=
  m.charges ≤ m.steps ∧ m.charges ≤ limits.maxSteps

namespace Afforded

theorem mono (afforded : m.Afforded limits) (charges : m'.charges ≤ m.charges)
    (steps : m.steps ≤ m'.steps) : m'.Afforded limits :=
  ⟨(charges.trans afforded.1).trans steps, charges.trans afforded.2⟩

/-- A step that is in the budget affords one more task. -/
theorem charge (afforded : m.Afforded limits) (unspent : m.steps < limits.maxSteps)
    (charges : m'.charges ≤ m.charges + 1) (steps : m'.steps = m.steps + 1) :
    m'.Afforded limits := by
  obtain ⟨paid, -⟩ := afforded
  exact ⟨by omega, by omega⟩

/-- A settlement queues those handlers that no longer wait. -/
theorem settle (afforded : m.Afforded limits) (mode : LineMode) (p : PromiseId) (value : Value) :
    (m.settle (Session.host mode) p value).Afforded limits := by
  refine afforded.mono (Nat.le_of_eq ?_) (Nat.le_refl m.steps)
  show (m.settle (Session.host mode) p value).host.tasks + _ = m.host.tasks + _
  rw [Session.host_settle, Session.tasks_release, Nat.add_assoc]
  exact congrArg _ (Promises.length_settle m.promises p value)

end Afforded

end Machine

/-- Evaluation pays a step for each task that it queues and for each handler that waits. -/
theorem Path.afforded {limits : Limits} {mode : LineMode} {m m' : Machine Session}
    (path : Path limits (Session.host mode) m m') (afforded : m.Afforded limits) :
    m'.Afforded limits := by
  induction path with
  | trans _ _ ih₁ ih₂ => exact ih₂ (ih₁ afforded)
  | tick m => exact afforded.mono (Nat.le_refl _) (Nat.le_succ m.steps)
  | print m text line _ =>
    refine afforded.mono (Nat.le_of_eq ?_) (Nat.le_succ m.steps)
    exact congrArg (· + _) (Session.tasks_print ..)
  | registerTimer m function delay line unspent =>
    refine afforded.charge unspent (Nat.le_of_eq ?_) rfl
    refine (congrArg (· + _) (Session.tasks_registerTimer ..)).trans ?_
    exact Nat.add_right_comm ..
  | defer m function line unspent =>
    refine afforded.charge unspent (Nat.le_of_eq ?_) rfl
    refine (congrArg (· + _) (Session.tasks_defer ..)).trans ?_
    exact Nat.add_right_comm ..
  | resolve m value _ _ _ =>
    refine afforded.mono (Nat.le_of_eq ?_) (Nat.le_succ m.steps)
    show m.host.tasks + (Promises.handled (m.promises.push _)).length = _
    rw [Promises.handled_push, PromiseState.handled, List.append_nil]
    rfl
  | chain m receiver value function line unspent _ =>
    refine afforded.charge unspent (Nat.le_of_eq ?_) rfl
    show (Session.chain mode (some _) line m.host).tasks +
      (Promises.handled (m.promises.push _)).length = _
    rw [Session.tasks_chain_some, Promises.handled_push]
    exact (congrArg _ (by simp [PromiseState.handled])).trans (Nat.add_right_comm ..)
  | park m receiver waiting function line unspent found =>
    have kept := Promises.getElem?_push_of_some found (.pending [])
    have more := (Promises.handled_wait kept
      (Reaction.handler function m.promises.size)).length_eq
    rw [Promises.handled_push, PromiseState.handled, List.filterMap_nil, List.append_nil,
      List.length_append] at more
    refine afforded.charge unspent (Nat.le_of_eq ?_) rfl
    refine (congrArg₂ (· + ·) (Session.tasks_chain_none mode line m.host) more).trans ?_
    exact congrArg (m.host.tasks + ·) (Nat.add_comm 1 m.promises.handled.length)
  | call m m' name line _ _ _ ih =>
    have inside := ih (afforded.mono (Nat.le_refl _) (Nat.le_succ m.steps))
    refine inside.mono (Nat.le_of_eq ?_) (Nat.le_refl _)
    exact congrArg (· + _) (Session.tasks_leave m'.host)
  | refuse m name line _ =>
    refine afforded.mono (Nat.le_of_eq ?_) (Nat.le_succ m.steps)
    exact congrArg (· + _) (Session.tasks_leave _)
  | _ => exact afforded

namespace Generation

variable {settings : Settings} {source : String} {m : Machine Session}

theorem called_afforded {limits : Limits} (afforded : m.Afforded limits) (words : TaskWords)
    (task : QueuedTask) : (called words task m).Afforded limits :=
  afforded

theorem promoted_afforded {limits : Limits} (afforded : m.Afforded limits) {timer : PendingTimer}
    {others : Timers} (taken : m.host.collections.pendingTimers.take = (some timer, others)) :
    (promoted m).Afforded limits :=
  afforded.mono (Nat.le_of_eq (congrArg (· + _) (tasks_readied taken))) (Nat.le_refl m.steps)

/-- A callback pays for what it queues; what waited for its promise was paid for before. -/
theorem runCallback_afforded (settings : Settings) (callback : Callback)
    (reached : Reached source .empty m)
    (known : ∀ value, callback.argument = some value → value.Within m.promises.size)
    (afforded : m.Afforded settings.limits) :
    ((Eval.runCallback settings.limits (Session.host settings.lineMode) callback).run m).2.Afforded
      settings.limits := by
  rcases Eval.runCallback_cases callback reached.inOrder known with
    ⟨e, run, -⟩ | ⟨-, m', path, ⟨e, run, -⟩ | ⟨value, -, run⟩⟩
  · rw [run]
    exact afforded
  · rw [run]
    exact path.afforded afforded
  · rw [run]
    have after : m'.shallower.Afforded settings.limits := path.afforded afforded
    cases callback.settles with
    | none => exact after
    | some p => exact after.settle settings.lineMode p value

/-- At all times the tasks that were queued, and those that may be without further steps, are paid
for. -/
theorem afforded_invariant (settings : Settings) (source : String) :
    Invariant settings source
      (fun _ m => m.Afforded settings.limits)
      (fun _ _ m => m.Afforded settings.limits)
      (fun _ _ _ m => m.Afforded settings.limits) where
  script _ _ script _ reached _ afforded :=
    (Eval.runScript_tracked script reached.inOrder).1.afforded afforded
  callback _ callback _ _ reached _ known afforded :=
    runCallback_afforded settings callback reached known afforded
  finish _ _ _ _ _ _ _ _ afforded := afforded
  check _ _ _ _ afforded := afforded
  note _ _ _ _ _ _ afforded := afforded
  deferred _ _ m task _ _ _ _ _ _ afforded :=
    called_afforded (m := fetched m) afforded (deferredWords task) task
  timer _ _ _ timer _ _ _ _ _ taken _ afforded :=
    called_afforded (promoted_afforded afforded taken) timerWords (.ready timer)

/-- A generation ends with a loop that has come to rest, and has queued no more tasks than the
budget has steps. -/
theorem ofSource_affords (settings : Settings) (source : String) :
    ∃ s : Session, Later (.first source) ⟨.empty, s⟩ ∧
      Timeline.ofSource settings source = s.timeline ∧ s.tasks ≤ settings.maxSteps ∧
      (ending settings source = .ok .cut → s.hasWork = true) := by
  cases parsed : parse settings.maxNesting source with
  | error e =>
    refine ⟨_, failReading_later source e, ofSource_eq_failReading parsed, Nat.zero_le _, ?_⟩
    rw [ending_of_malformed parsed]
    exact fun cut => by cases cut
  | ok script =>
    rcases run : (untilEnding settings script).run (.initial (start source)) with ⟨result, m⟩
    have begun : (Machine.initial (start source)).Afforded settings.limits :=
      ⟨Nat.le_refl 0, Nat.zero_le _⟩
    obtain ⟨reached, passes, -, outcome⟩ :=
      (afforded_invariant settings source).outcome parsed begun run
    have later : Later (.first source) ⟨.empty, closing settings result m.host⟩ := by
      refine closing_later reached fun e failed => ?_
      subst failed
      exact outcome.1
    have afforded : m.Afforded settings.limits := by
      cases result with
      | error e => exact outcome.2.choose_spec
      | ok ending => exact outcome.2.1
    have tasks : (closing settings result m.host).tasks = m.host.tasks := by
      unfold closing
      repeat' split
      all_goals rfl
    refine ⟨_, later, ofSource_eq_closing parsed run, ?_, ?_⟩
    · rw [tasks]
      exact (Nat.le_add_right _ _).trans afforded.2
    · intro cut
      obtain rfl : result = .ok .cut := (ending_eq parsed run).symm.trans cut
      have work : m.host.hasWork = true := by
        by_contra none
        cases outcome.2.2.mpr (Bool.eq_false_iff.mpr none)
      rw [closing]
      split <;> exact work

end Generation

/-- As many timers and tasks are new as are numbered. -/
theorem Tallies.tasks {s t : Session} {gone : List Nat} (tallies : Tallies s t gone) :
    t.tasks = s.tasks + (s.collections.added t.collections).length := by
  rcases tallies.fresh with ⟨new, same⟩ | ⟨new, more⟩
  · rw [new, same]
    rfl
  · rw [new, more]
    rfl

/-- As many timers and tasks were ever queued as are numbered, and each snapshot that says so shows
the beginning of one run. -/
structure Instant.Counted (a : Instant) : Prop where
  added : a.session.timeline.added.length = a.session.tasks
  runs : a.session.timeline.runs.length =
    a.session.timeline.snapshots.toList.countP (·.description = "Run Microtask") +
      a.session.timeline.snapshots.toList.countP (·.description = "Run Macrotask")

theorem Step.added_length {a b : Instant} (step : Step a b) (shown : a.session.Shown)
    (counted : a.session.timeline.added.length = a.session.tasks) :
    b.session.timeline.added.length = b.session.tasks := by
  have record {t : Session} {gone : List Nat} (tallies : Tallies a.session t gone)
      (same : t.timeline = a.session.timeline) (line : Option Nat) (description : String)
      (phase : Phase) : (t.snap line description phase).timeline.added.length = t.tasks := by
    have grown : (t.snap line description phase).timeline.added = _ :=
      shown.gather_snap same Collections.added line description phase
    rw [grown, List.length_append, tallies.tasks, ← counted]
    rfl
  cases step with
  | record line description phase change _ =>
    exact record change.tallies change.timeline line description phase
  | begin s task name _ =>
    exact record (t := s.pushFrame name .deferredCallback none) (.of_queues rfl rfl rfl rfl) rfl ..
  | start s task name _ ready =>
    exact record (t := s.popReady.2.pushFrame name .timerCallback none) (.popReady ready ..) rfl ..
  | take | look => exact counted

theorem Step.counted {a b : Instant} (step : Step a b) (shown : a.session.Shown)
    (counted : a.Counted) : b.Counted := by
  refine ⟨step.added_length shown counted.added, ?_⟩
  obtain ⟨last, found, -⟩ := id shown
  rcases step.timeline_cases with same | ⟨line, description, phase, same⟩
  · rw [same]
    exact counted.runs
  · rw [same, Timeline.toList_record, Timeline.runs_record found, List.length_append,
      counted.runs, List.countP_append, List.countP_append, List.countP_singleton,
      List.countP_singleton]
    by_cases deferred : description = "Run Microtask"
    · subst deferred
      simp
      omega
    · by_cases ready : description = "Run Macrotask"
      · subst ready
        simp
        omega
      · simp [deferred, ready]

theorem Later.counted {source : String} {a : Instant} (later : Later (.first source) a) :
    a.Counted := by
  induction later with
  | refl => exact ⟨rfl, rfl⟩
  | tail earlier step ih => exact step.counted (Later.shown earlier) ih

/-- The marks of passes show how many tasks they have run. -/
theorem Pass.count_ran (passes : List Pass) :
    (passes.flatMap Pass.marks).count "Run Microtask" +
      (passes.flatMap Pass.marks).count "Run Macrotask" = (passes.map Pass.ran).sum := by
  induction passes with
  | nil => rfl
  | cons pass passes ih =>
    rw [List.flatMap_cons, List.count_append, List.count_append, List.map_cons, List.sum_cons, ← ih]
    have deferred : pass.marks.count "Run Microtask" = pass.deferred := by
      simp [Pass.marks, checkWord, List.count_replicate]
    have timer : pass.marks.count "Run Macrotask" = pass.timer.toNat := by
      simp [Pass.marks, checkWord, List.count_replicate]
    rw [deferred, timer, Pass.ran]
    omega

namespace PassesEnd

variable {iterations most : Nat} {passes : List Pass} {result : Except ScriptError Ending}

theorem length_le_sum {passes : List Pass} (ran : ∀ pass ∈ passes, 0 < pass.ran) :
    passes.length ≤ (passes.map Pass.ran).sum := by
  rw [← List.length_map (f := Pass.ran)]
  exact List.length_le_sum_of_one_le _ (List.forall_mem_map.mpr ran)

/-- Each pass has run something, but for the one in which the loop was cut. -/
theorem length_le (ends : PassesEnd iterations most passes result) :
    passes.length ≤ (passes.map Pass.ran).sum + if result = .ok .cut then 1 else 0 := by
  by_cases cut : result = .ok .cut
  · rw [if_pos cut]
    rcases ends.cut cut with ⟨-, all⟩ | ⟨earlier, rfl, all⟩
    · exact (length_le_sum all).trans (Nat.le_succ _)
    · have := length_le_sum all
      simp only [List.length_append, List.length_singleton, List.map_append, List.sum_append]
      omega
  · rw [if_neg cut]
    exact length_le_sum (ends.ran cut)

/-- When the loop was cut, it has run as many tasks as one of its bounds. -/
theorem le_of_cut (ends : PassesEnd iterations most passes (.ok .cut)) :
    iterations ≤ (passes.map Pass.ran).sum ∨ most ≤ (passes.map Pass.ran).sum := by
  rcases ends.cut rfl with ⟨rfl, all⟩ | ⟨earlier, rfl, -⟩
  · exact .inl (length_le_sum all)
  · right
    simp [Pass.ran]

end PassesEnd

open Generation in
/-- Every generation ends. Every expression and every statement, on any machine and for any host,
ends or fails for want of steps; over the whole generation no more timers and tasks are queued than
the budget has steps, no more callbacks are run and no more passes are made. So a loop that may do
as much is never cut. -/
theorem Timeline.ofSource_terminates (settings : Settings) (source : String) :
    (∀ {σ : Type} (host : Host σ) (env : Env) (m : Machine σ),
      (∀ e, Eval.Terminates settings.limits m fun calls _ =>
        Eval.eval settings.limits host (Eval.invoke settings.limits host calls) env e) ∧
      (∀ statement, Eval.Terminates settings.limits m fun calls rounds =>
        Eval.exec settings.limits host (Eval.invoke settings.limits host calls) rounds env
          statement)) ∧
    (Timeline.ofSource settings source).added.length ≤ settings.maxSteps ∧
    (Timeline.ofSource settings source).runs.length ≤ settings.maxSteps ∧
    (Timeline.ofSource settings source).snapshots.toList.countP
      (·.description = "Event Loop: Checking Call Stack...") ≤ settings.maxSteps ∧
    (settings.maxSteps ≤ settings.maxIterations →
      settings.maxSteps ≤ settings.maxDeferredPerCheckpoint →
      ending settings source ≠ .ok .cut) := by
  obtain ⟨s, later, same, tasks, work⟩ := ofSource_affords settings source
  obtain ⟨passes, ends, checks, marks⟩ := ofSource_counts settings source
  have tallied := later.tallied
  have counted := later.counted
  have split : s.timeline.added.length = (s.timeline.dequeued ++ s.collections.ids).length :=
    tallied.split.length_eq
  have runs : s.timeline.runs.length = s.timeline.dequeued.length := by
    have begun := congrArg List.length tallied.runs
    simpa only [Hand.onItsWay, List.map_nil, List.append_nil, List.length_map] using begun
  have queued : s.timeline.added.length = s.tasks := counted.added
  have deferred := marks "Run Microtask" (by decide) (by decide)
  have timers := marks "Run Macrotask" (by decide) (by decide)
  have ran : s.timeline.runs.length = (passes.map Pass.ran).sum := by
    rw [← Pass.count_ran, ← deferred, ← timers, same]
    exact counted.runs
  have waiting : ending settings source = .ok .cut → 0 < s.collections.ids.length := fun cut => by
    refine List.length_pos_iff.mpr fun none => ?_
    simp only [Collections.ids, List.append_eq_nil_iff, List.map_eq_nil_iff] at none
    rw [hasWork_eq_false.mpr ⟨⟨none.1.2, none.1.1⟩, none.2⟩] at work
    cases work cut
  rw [List.length_append] at split
  have length := ends.length_le
  refine ⟨fun host env m => ⟨fun e => Eval.eval_terminates settings.limits host env m e,
    fun statement => Eval.exec_terminates settings.limits host env m statement⟩, ?_, ?_, ?_, ?_⟩
  · rw [same, queued]
    exact tasks
  · rw [same]
    omega
  · refine (Nat.le_of_eq checks).trans ?_
    split at length
    · have := waiting (by assumption)
      omega
    · omega
  · intro iterations most cut
    have := waiting cut
    rw [cut] at ends
    have := ends.le_of_cut
    omega

end EventLoop
