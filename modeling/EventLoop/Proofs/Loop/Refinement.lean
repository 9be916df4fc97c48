import EventLoop.Proofs.Loop.Mirrors
import EventLoop.Proofs.Loop.Recorded

/-!
# The event loop does what the plain one does

Each task that a session runs is a round of the plain loop that the session mirrors, and what the
session does between two tasks is none. So what is printed is the same unless the session's run is
cut.
-/

namespace EventLoop

namespace Generation

variable {α β : Type} {source : String} {settings : Settings} {limits : Limits}
  {m : Machine Session} {n : Machine Plain}

/-- What a part of the loop has done, the plain loop does in some rounds; where it has failed, the
plain loop ends. -/
def Shadowed (source : String) (limits : Limits) (n : Machine Plain) :
    Except ScriptError α × Machine Session → Prop
  | (.ok _, m) => ∃ n', Plain.Rounds limits n n' ∧ m.Alike (Session.Follows source) n'
  | (.error e, m) => ∃ n', Plain.Runs limits n (some e) n' ∧ m.Alike (Session.Follows source) n'

theorem Shadowed.after {n' : Machine Plain} {ran : Except ScriptError α × Machine Session}
    (rounds : Plain.Rounds limits n n') (shadowed : Shadowed source limits n' ran) :
    Shadowed source limits n ran := by
  obtain ⟨_ | _, m⟩ := ran
  · obtain ⟨n'', runs, alike⟩ := shadowed
    exact ⟨n'', runs.after rounds, alike⟩
  · obtain ⟨n'', more, alike⟩ := shadowed
    exact ⟨n'', rounds.trans more, alike⟩

theorem Shadowed.bind {x : Eval Session α} {f : α → Eval Session β}
    {mid : α → Machine Session → Prop} (leads : Leads source m x mid)
    (first : Shadowed source limits n (x.run m))
    (rest : ∀ a m' n', Reached source .empty m' → m'.host.AtRest → mid a m' →
      m'.Alike (Session.Follows source) n' → Shadowed source limits n' ((f a).run m')) :
    Shadowed source limits n ((x >>= f).run m) := by
  unfold Leads at leads
  rcases run : x.run m with ⟨_ | a, m'⟩
  · rw [run] at first
    rw [Eval.run_bind_error run]
    exact first
  · rw [run] at first leads
    rw [Eval.run_bind_ok run]
    obtain ⟨n', rounds, alike⟩ := first
    exact (rest a m' n' leads.1 leads.2.1 leads.2.2 alike).after rounds

/-- What callbacks cannot tell, the plain loop does nothing for. -/
theorem Shadowed.still {f : Session → Session} (alike : m.Alike (Session.Follows source) n)
    (reached : Reached source .empty (m.onHost f)) (mirrors : (f m.host).Mirrors n.host) (a : α) :
    Shadowed source limits n (.ok a, m.onHost f) :=
  ⟨n, .refl, alike.withHost ⟨reached.later, mirrors⟩⟩

theorem snap_shadowed (reached : Reached source .empty m)
    (alike : m.Alike (Session.Follows source) n) {description : String} (phase : Phase)
    (other : description ∉ runWords) :
    Shadowed source limits n ((snap description phase).run m) :=
  .still alike (reached.snap description phase other)
    (alike.host.2.of_same rfl rfl rfl rfl rfl) ()

/-- A session that has picked a task mirrors the plain loop whose lists are those of its queues. -/
theorem Picked.mirrors {words : TaskWords} {task : QueuedTask} {s : Session}
    (picked : Picked source m words task s) {p q : Plain} (mirrors : m.host.Mirrors p)
    (output : q.output = p.output) (ids : q.ids = p.ids)
    (deferred : s.collections.deferredQueue.map (fun task => m.host.callbacks.get? task.callback) =
      q.deferred.map some)
    (waiting : s.collections.pendingTimers.map (Session.delayed m.host.callbacks) =
      q.waiting.map some) : s.Mirrors q where
  output := (output.trans mirrors.output).trans picked.output.symm
  ids := (ids.trans mirrors.ids).trans picked.tasks.symm
  deferred := by
    rw [picked.callbacks]
    exact deferred
  waiting := by
    rw [picked.callbacks]
    exact waiting

/-- What a part of the loop has done is one round of the plain loop. -/
def Plays (source : String) (limits : Limits) (n : Machine Plain)
    (ran : Except ScriptError Unit × Machine Session) : Prop :=
  ∃ n', Plain.Round limits n ran.1 n' ∧ ran.2.Alike (Session.Follows source) n'

theorem Plays.shadowed {ran : Except ScriptError Unit × Machine Session}
    (plays : Plays source limits n ran) : Shadowed source limits n ran := by
  obtain ⟨_ | _, m⟩ := ran
  · obtain ⟨n', round, alike⟩ := plays
    exact ⟨n', .fails round, alike⟩
  · obtain ⟨n', round, alike⟩ := plays
    exact ⟨n', .single round, alike⟩

/-- A task that was picked is a round of the plain loop. -/
theorem runTask_plays {words : TaskWords} {task : QueuedTask} {s : Session}
    (picked : Picked source m words task s) (other : words.finished ∉ runWords)
    (alike : m.Alike (Session.Follows source) n) {callback : Callback} {p : Plain}
    (found : m.host.callbacks.get? task.callback = some callback)
    (next : Plain.Next n.host callback p) (mirrors : s.Mirrors p) :
    Plays source settings.limits n ((runTask settings words task).run { m with host := s }) := by
  obtain ⟨callback', found', start⟩ := run_runTask settings picked.framed
  have found' : s.callbacks.get? task.callback = some callback' := found'
  rw [picked.callbacks, found] at found'
  cases found'
  let m₁ := called words task { m with host := s }
  let n₁ : Machine Plain := { n with host := p }
  have leads : Leads source _ (runTask settings words task) fun _ _ => True :=
    runTask_leads picked.framed picked.rest other
  have alike₁ : m₁.Alike (Session.Follows source) n₁ := by
    have framed : (opened words { m with host := s }).host.Mirrors p :=
      mirrors.of_same rfl rfl rfl rfl rfl
    exact alike.withHost ⟨(called_reached picked.framed).later,
      framed.takeCallback picked.framed.later.accounted⟩
  have matched : Eval.MatchAt (Session.Follows source) (fun _ => False) m₁ n₁ _ _ :=
    Eval.runCallback_match (.refl settings.limits) (Session.host_agree source settings.lineMode)
      callback m₁ n₁ alike₁
  obtain ⟨result, m₂, n₂, run₁, run₂, alike₂⟩ := matched.same
  have round : Plain.Round settings.limits n result n₂ := ⟨callback, p, next, run₂⟩
  unfold Leads at leads
  rw [start] at leads ⊢
  cases result with
  | error e =>
    rw [Eval.run_bind_error run₁]
    exact ⟨n₂, round, alike₂⟩
  | ok _ =>
    rw [Eval.run_bind_ok run₁] at leads ⊢
    have popped : m₂.host.popFrame.snap none words.finished .idle |>.Mirrors n₂.host :=
      alike₂.host.2.of_same rfl rfl rfl rfl rfl
    exact ⟨n₂, round, alike₂.withHost ⟨leads.1.later, popped⟩⟩

/-- The task that was deferred first is a round of the plain loop. -/
theorem run_checkpoint_plays (bound : Nat) (reached : Reached source .empty m)
    (rest : m.host.AtRest) (alike : m.Alike (Session.Follows source) n) {task : QueuedTask}
    {others : TaskQueue} (queue : m.host.collections.deferredQueue = task :: others) :
    ∃ m', Leads source m' (runTask settings (deferredWords task) task) (fun _ _ => True) ∧
      Plays source settings.limits n ((runTask settings (deferredWords task) task).run m') ∧
      (checkpoint settings (bound + 1)).run m = (do
        runTask settings (deferredWords task) task
        if ← ask Session.hasDeferred then
          snap "Event Loop: Checking next Microtask..." .checking
        checkpoint settings bound : Eval Session Ending).run m' := by
  obtain ⟨s, picked, left, pending, run⟩ := run_checkpoint_cons settings bound reached rest queue
  obtain ⟨callback, waiting, found, next, same⟩ := alike.host.2.next_deferred queue
  have mirrors : s.Mirrors { n.host with deferred := waiting } := by
    refine picked.mirrors alike.host.2 rfl rfl ?_ ?_
    · rw [left]
      exact same
    · rw [pending]
      exact alike.host.2.waiting
  have finished : (deferredWords task).finished ∉ runWords :=
    show "Microtask finished" ∉ runWords by decide
  exact ⟨{ m with host := s }, runTask_leads picked.framed picked.rest finished,
    runTask_plays picked finished alike found next mirrors, run⟩

/-- The deferred tasks of a checkpoint are rounds of the plain loop. -/
theorem checkpoint_shadowed (bound : Nat) (reached : Reached source .empty m)
    (rest : m.host.AtRest) (alike : m.Alike (Session.Follows source) n) :
    Shadowed source settings.limits n ((checkpoint settings bound).run m) := by
  induction bound generalizing m n with
  | zero => exact ⟨n, .refl, alike⟩
  | succ bound ih =>
    cases queue : m.host.collections.deferredQueue with
    | nil =>
      rw [run_checkpoint_nil bound queue]
      exact ⟨n, .refl, alike⟩
    | cons task others =>
      obtain ⟨m₁, leads, plays, run⟩ := run_checkpoint_plays bound reached rest alike queue
      rw [run]
      refine .bind leads plays.shadowed ?_
      intro _ m₂ n₂ reached₂ rest₂ _ alike₂
      rw [Eval.run_bind_ok (run_ask ..)]
      cases m₂.host.hasDeferred with
      | true =>
        exact .bind (snap_leads reached₂ rest₂ .checking (by decide))
          (snap_shadowed reached₂ alike₂ .checking (by decide))
          fun _ m₃ n₃ reached₃ rest₃ _ alike₃ => ih reached₃ rest₃ alike₃
      | false => exact ih reached₂ rest₂ alike₂

/-- The task of a timer is a round of the plain loop. -/
theorem runTimer_plays (reached : Reached source .empty m) (rest : m.host.AtRest)
    (deferred : m.host.collections.deferredQueue = [])
    (timers : m.host.collections.pendingTimers ≠ [])
    (alike : m.Alike (Session.Follows source) n) :
    Plays source settings.limits n ((runTimer settings).run m) := by
  obtain ⟨timer, before, after, s, selects, picked, empty, run⟩ :=
    run_runTimer settings reached rest deferred timers
  have growing := reached.later.recorded.orderly.growing
  obtain ⟨callback, waiting, found, next, same⟩ :=
    alike.host.2.next_timer deferred growing selects
  have mirrors : s.Mirrors { n.host with waiting } := by
    refine picked.mirrors alike.host.2 rfl rfl ?_ same
    rw [empty, alike.host.2.deferred_eq_nil deferred]
    rfl
  rw [run]
  exact runTask_plays picked (show "Macrotask finished" ∉ runWords by decide) alike found next
    mirrors

/-- A snapshot between two parts of the loop, and what follows it. -/
theorem snap_bind_shadowed {description : String} {phase : Phase}
    {x : Eval Session α} (other : description ∉ runWords) (reached : Reached source .empty m)
    (rest : m.host.AtRest) (alike : m.Alike (Session.Follows source) n)
    (follows : ∀ {m : Machine Session} {n : Machine Plain}, Reached source .empty m →
      m.host.AtRest → m.Alike (Session.Follows source) n → Shadowed source limits n (x.run m)) :
    Shadowed source limits n ((do snap description phase; x).run m) := by
  refine .bind (snap_leads reached rest phase other) (snap_shadowed reached alike phase other) ?_
  intro _ m' n' reached' rest' _ alike'
  exact follows reached' rest' alike'

/-- What a pass does after it has said what it found is rounds of the plain loop, if the passes
after it are. -/
theorem restOfPass_shadowed (first : Bool) (bound : Nat)
    (later : ∀ {m : Machine Session} {n : Machine Plain}, Reached source .empty m →
      m.host.AtRest → m.Alike (Session.Follows source) n →
      Shadowed source settings.limits n ((passes settings false bound).run m))
    (reached : Reached source .empty m) (rest : m.host.AtRest)
    (alike : m.Alike (Session.Follows source) n) :
    Shadowed source settings.limits n ((restOfPass settings first bound).run m) := by
  unfold restOfPass
  refine .bind (checkpoint_leads _ reached rest) (checkpoint_shadowed _ reached rest alike) ?_
  intro ending m₁ n₁ reached₁ rest₁ drained alike₁
  cases ending with
  | cut => exact ⟨n₁, .refl, alike₁⟩
  | idle =>
    dsimp only
    rw [Eval.run_bind_ok (run_ask ..)]
    cases timers : m₁.host.hasTimers with
    | true =>
      have nonempty := hasTimers_eq_true.mp timers
      refine .bind (runTimer_leads reached₁ rest₁ (drained rfl) nonempty)
        (runTimer_plays reached₁ rest₁ (drained rfl) nonempty alike₁).shadowed ?_
      intro _ m₂ n₂ reached₂ rest₂ _ alike₂
      exact later reached₂ rest₂ alike₂
    | false =>
      rw [if_neg Bool.false_ne_true, Eval.run_bind_ok (run_ask ..)]
      cases first && !m₁.host.hasDeferred with
      | true => exact snap_bind_shadowed (by decide) reached₁ rest₁ alike₁ later
      | false => exact later reached₁ rest₁ alike₁

/-- The passes of the loop are rounds of the plain loop. -/
theorem passes_shadowed (bound : Nat) (first : Bool) (reached : Reached source .empty m)
    (rest : m.host.AtRest) (alike : m.Alike (Session.Follows source) n) :
    Shadowed source settings.limits n ((passes settings first bound).run m) := by
  induction bound generalizing first m n with
  | zero => exact ⟨n, .refl, alike⟩
  | succ bound ih =>
    rw [passes, Eval.run_bind_ok (run_ask ..)]
    cases m.host.hasWork with
    | false => exact ⟨n, .refl, alike⟩
    | true =>
      refine snap_bind_shadowed (by decide) reached rest alike ?_
      intro m₁ n₁ reached₁ rest₁ alike₁
      rw [Eval.run_bind_ok (run_ask ..), rest₁.stackIsEmpty, if_pos rfl,
        Eval.run_bind_ok (run_ask ..)]
      cases m₁.host.hasDeferred with
      | true =>
        refine snap_bind_shadowed (by decide) reached₁ rest₁ alike₁ ?_
        intro m₂ n₂ reached₂ rest₂ alike₂
        exact restOfPass_shadowed first bound (ih false) reached₂ rest₂ alike₂
      | false => exact restOfPass_shadowed first bound (ih false) reached₁ rest₁ alike₁

/-- A run and the plain loop fail alike in the outermost statements, or come to the passes alike. -/
theorem untilEnding_main (settings : Settings) (source : String) (script : Script) :
    match (Eval.runScript settings.limits Plain.host script).run (.initial .empty) with
    | (.error e, n) => ∃ m, (untilEnding settings script).run (.initial (start source)) =
        (.error e, m) ∧ m.Alike (Session.Follows source) n
    | (.ok _, n) => ∃ m, (untilEnding settings script).run (.initial (start source)) =
        (passes settings true settings.maxIterations).run m ∧ Reached source .empty m ∧
          m.host.AtRest ∧ m.Alike (Session.Follows source) n := by
  have reached : Reached source .empty (.initial (start source)) := start_reached source
  have ran := runScript_reached settings script reached
  have matched : Eval.MatchAt (Session.Follows source) (fun _ => False) (.initial (start source))
      (.initial .empty) _ _ :=
    Eval.runScript_match (.refl settings.limits) (Session.host_agree source settings.lineMode)
      script _ _ (.initial ⟨reached.later, .start source⟩)
  obtain ⟨result, m, n, run₁, run₂, alike⟩ := matched.same
  unfold untilEnding
  rw [run₂]
  rw [run₁] at ran
  cases result with
  | error e => exact ⟨m, Eval.run_bind_error run₁, alike⟩
  | ok _ =>
    have stack : m.host.collections.stack = [⟨0, "main()", .main, some 1⟩] := ran.2.stack
    have popped := ran.1.popFrame stack "Main script finished" (by decide)
    have rest := Session.AtRest.popFrame stack ran.2.ready
    exact ⟨_, Eval.run_bind_ok run₁, popped, rest.snap _ _ _,
      alike.withHost ⟨popped.later, alike.host.2.of_same rfl rfl rfl rfl rfl⟩⟩

end Generation

theorem Session.Shown.finalOutput {s : Session} (shown : s.Shown) :
    s.timeline.finalOutput = s.collections.output := by
  obtain ⟨last, found, showing⟩ := shown
  rw [Timeline.finalOutput, found, ← showing]
  rfl

/-- Closing a session adds nothing to the output. -/
theorem Session.finalOutput_close {s : Session} (shown : s.Shown) :
    s.close.finalOutput = s.collections.output := by
  obtain ⟨last, found, -⟩ := id shown
  unfold Session.close
  rw [found]
  dsimp only
  split
  · exact shown.finalOutput
  · exact (shown_snap s.clearStack none "Execution finished" .idle).finalOutput

namespace Session.Mirrors

variable {s : Session} {p : Plain}

/-- A failure is reported after all that was printed before it. -/
theorem finalOutput_failRunning (mirrors : s.Mirrors p) (e : ScriptError) :
    (s.failRunning e).close.finalOutput = p.output ++ [Plain.report e] := by
  have shown : (s.failRunning e).Shown := shown_snap ..
  rw [finalOutput_close shown, mirrors.output]
  rfl

/-- If nothing is left to run for the session, nothing is for the plain loop. -/
theorem idle (mirrors : s.Mirrors p) (idle : s.hasWork = false) : p.Idle := by
  obtain ⟨⟨deferred, pending⟩, -⟩ := Generation.hasWork_eq_false.mp idle
  have mirrored := mirrors.waiting
  rw [pending] at mirrored
  exact ⟨mirrors.deferred_eq_nil deferred, List.map_eq_nil_iff.mp mirrored.symm⟩

end Session.Mirrors

open Generation in
/-- If a generation is not cut, the plain event loop prints its output. -/
theorem Plain.prints_finalOutput {settings : Settings} {source : String}
    (uncut : ending settings source ≠ .ok .cut) :
    Plain.Prints settings source (Timeline.ofSource settings source).finalOutput := by
  unfold Plain.Prints Timeline.ofSource
  unfold ending at uncut
  cases read : parse settings.maxNesting source with
  | error e => exact Session.finalOutput_close (Session.shown_snap ..)
  | ok script =>
    rw [read] at uncut
    have shadowed := untilEnding_main settings source script
    have leads : Leads source (.initial (start source)) (untilEnding settings script) _ :=
      untilEnding_leads script (start_reached source) rfl rfl
    unfold Leads at leads
    dsimp only at uncut ⊢
    rw [run_eq_untilEnding]
    rcases run : (untilEnding settings script).run (.initial (start source)) with ⟨result, m⟩
    rw [run] at shadowed leads uncut
    rcases main : (Eval.runScript settings.limits Plain.host script).run (.initial .empty) with
      ⟨e | _, n⟩
    · rw [main] at shadowed
      obtain ⟨m', same, alike⟩ := shadowed
      cases same
      rw [Eval.run_bind_error run]
      exact alike.host.2.finalOutput_failRunning e
    · rw [main] at shadowed
      obtain ⟨m₁, same, reached, rest, alike₁⟩ := shadowed
      have shadowed : Shadowed source settings.limits n (result, m) := by
        rw [same]
        exact passes_shadowed _ true reached rest alike₁
      cases result with
      | error e =>
        obtain ⟨n', runs, alike⟩ := shadowed
        rw [Eval.run_bind_error run]
        exact ⟨some e, n', runs, alike.host.2.finalOutput_failRunning e⟩
      | ok ending =>
        obtain ⟨n', rounds, alike⟩ := shadowed
        rw [Eval.run_bind_ok run]
        cases ending with
        | cut => exact absurd rfl uncut
        | idle =>
          have idle : n'.host.Idle := alike.host.2.idle (leads.2.2 rfl)
          refine ⟨none, n', (Plain.Runs.idle n' idle).after rounds, ?_⟩
          show m.host.close.finalOutput = n'.host.output ++ []
          rw [Session.finalOutput_close leads.1.later.shown, alike.host.2.output, List.append_nil]

open Generation in
/-- The output of a generation that is not cut is what the plain event loop prints, and nothing else
is. -/
theorem Plain.prints_iff_eq_finalOutput (settings : Settings) (source : String)
    (uncut : ending settings source ≠ .ok .cut) (lines : List String) :
    Plain.Prints settings source lines ↔
      lines = (Timeline.ofSource settings source).finalOutput := by
  constructor
  · exact fun prints => prints.unique (Plain.prints_finalOutput uncut)
  · rintro rfl
    exact Plain.prints_finalOutput uncut

open Generation in
/-- A deferred callback prints before that of a timer which was registered earlier. -/
theorem Plain.prints_deferred_before_timer :
    ending .usual "setTimeout(() => console.log('b')); queueMicrotask(() => console.log('a'))" ≠
        .ok .cut ∧
      Plain.Prints .usual
        "setTimeout(() => console.log('b')); queueMicrotask(() => console.log('a'))"
        ["a", "b"] := by
  have uncut : ending .usual
      "setTimeout(() => console.log('b')); queueMicrotask(() => console.log('a'))" ≠
        .ok .cut := by
    decide +kernel
  exact ⟨uncut, (Plain.prints_iff_eq_finalOutput _ _ uncut _).mpr (by decide +kernel)⟩

end EventLoop
