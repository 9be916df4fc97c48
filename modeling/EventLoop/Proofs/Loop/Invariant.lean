import EventLoop.Proofs.Loop.Course

/-!
# Invariants of an event loop

What holds of a generation is shown by statements that each of its parts keeps up: one about the
machine between two tasks, one about it when a script or a callback is about to run, and one about
it when that has run. The statements may speak of the passes made so far. The loop is read once
here; then a statement need only be checked for the snapshots between tasks, for a task that leaves
its queue and for the evaluation of the script and of callbacks.
-/

namespace EventLoop

/-- What a pass of an event loop has run: deferred callbacks, and then a timer's, if it has. -/
structure Pass where
  deferred : Nat
  timer : Bool
deriving DecidableEq, Repr

/-- How many callbacks a pass has run. -/
def Pass.ran (pass : Pass) : Nat :=
  pass.deferred + pass.timer.toNat

/-- What the passes of a loop have run, if it may make so many passes and run so many deferred
callbacks in each, and ends this way. Each pass has run something, but the one in which the loop
was cut may not have. -/
structure PassesEnd (iterations most : Nat) (passes : List Pass)
    (result : Except ScriptError Ending) : Prop where
  length : passes.length ≤ iterations
  deferred : ∀ pass ∈ passes, pass.deferred ≤ most
  ran : result ≠ .ok .cut → ∀ pass ∈ passes, 0 < pass.ran
  cut : result = .ok .cut →
    (passes.length = iterations ∧ ∀ pass ∈ passes, 0 < pass.ran) ∨
    ∃ earlier, passes = earlier ++ [⟨most, false⟩] ∧ ∀ pass ∈ earlier, 0 < pass.ran

namespace PassesEnd

variable {iterations most : Nat} {passes : List Pass} {result : Except ScriptError Ending}

/-- No pass was made. -/
theorem nil (uncut : result = .ok .cut → iterations = 0) :
    PassesEnd iterations most [] result where
  length := Nat.zero_le _
  deferred _ member := by cases member
  ran _ _ member := by cases member
  cut cut := .inl ⟨(uncut cut).symm, fun _ member => by cases member⟩

/-- A pass that has run something, and the passes after it. -/
theorem cons {pass : Pass} (deferred : pass.deferred ≤ most) (ran : 0 < pass.ran)
    (rest : PassesEnd iterations most passes result) :
    PassesEnd (iterations + 1) most (pass :: passes) result where
  length := Nat.succ_le_succ rest.length
  deferred := List.forall_mem_cons.mpr ⟨deferred, rest.deferred⟩
  ran finished := List.forall_mem_cons.mpr ⟨ran, rest.ran finished⟩
  cut cut := by
    rcases rest.cut cut with ⟨length, all⟩ | ⟨earlier, rfl, all⟩
    · exact .inl ⟨congrArg (· + 1) length, List.forall_mem_cons.mpr ⟨ran, all⟩⟩
    · exact .inr ⟨pass :: earlier, rfl, List.forall_mem_cons.mpr ⟨ran, all⟩⟩

/-- A pass in which as many deferred callbacks have run as may. -/
theorem full (iterations most : Nat) :
    PassesEnd (iterations + 1) most [⟨most, false⟩] (.ok .cut) where
  length := Nat.succ_le_succ (Nat.zero_le _)
  deferred := List.forall_mem_singleton.mpr (Nat.le_refl most)
  ran finished := absurd rfl finished
  cut _ := .inr ⟨[], rfl, fun _ member => by cases member⟩

/-- A pass that has run something, and then failed. -/
theorem failed {pass : Pass} (deferred : pass.deferred ≤ most) (ran : 0 < pass.ran)
    (e : ScriptError) : PassesEnd (iterations + 1) most [pass] (.error e) :=
  cons deferred ran (nil fun cut => by cases cut)

end PassesEnd

namespace Generation

variable {α β : Type} {source : String} {settings : Settings} {m : Machine Session}

/-- What is recorded between two tasks beside the beginning of a pass. -/
def noteWords : List String :=
  [ "Event Loop: Microtasks found!", "Event Loop: Checking next Microtask...",
    "Event Loop: No tasks in queues" ]

/-- What is recorded when the script or a callback has run and its frame is gone. -/
def finishWords : List String :=
  ["Main script finished", "Microtask finished", "Macrotask finished"]

/-- Statements about the passes made so far and the machine that a generation keeps up: `Rest`
between two tasks, `Begun` when the script, or this callback, is about to run in a frame of its own,
and `Ended` when it has run with this result. -/
structure Invariant (settings : Settings) (source : String)
    (Rest : List Pass → Machine Session → Prop)
    (Begun : List Pass → Option Callback → Machine Session → Prop)
    (Ended : List Pass → Option Callback → Except ScriptError Unit → Machine Session → Prop) :
    Prop where
  script : ∀ (m : Machine Session) (frame : Frame) (script : Script),
    parse settings.maxNesting source = .ok script → Reached source .empty m →
    m.host.collections.stack = [frame] → Begun [] none m →
    let ran := (Eval.runScript settings.limits (Session.host settings.lineMode) script).run m
    Ended [] none ran.1 ran.2
  callback : ∀ (passes : List Pass) (callback : Callback) (m : Machine Session) (frame : Frame),
    Reached source .empty m → m.host.collections.stack = [frame] →
    (∀ value, callback.argument = some value → value.Within m.promises.size) →
    Begun passes (some callback) m →
    let ran := (Eval.runCallback settings.limits (Session.host settings.lineMode) callback).run m
    Ended passes (some callback) ran.1 ran.2
  finish : ∀ (passes : List Pass) (callback : Option Callback) (m : Machine Session)
    (frame : Frame) (word : String), Reached source .empty m →
    m.host.collections.stack = [frame] → word ∈ finishWords → Ended passes callback (.ok ()) m →
    Rest passes (m.onHost fun s => s.popFrame.snap none word .idle)
  check : ∀ (passes : List Pass) (m : Machine Session), Reached source .empty m → m.host.AtRest →
    Rest passes m →
    Rest (passes ++ [⟨0, false⟩])
      (m.onHost (Session.snap none "Event Loop: Checking Call Stack..." .checking))
  note : ∀ (passes : List Pass) (m : Machine Session) (word : String), Reached source .empty m →
    m.host.AtRest → word ∈ noteWords → Rest passes m →
    Rest passes (m.onHost (Session.snap none word .checking))
  deferred : ∀ (passes : List Pass) (k : Nat) (m : Machine Session) (task : QueuedTask)
    (others : TaskQueue) (callback : Callback), Reached source .empty m → m.host.AtRest →
    m.host.collections.deferredQueue = task :: others →
    m.host.callbacks.get? task.callback = some callback → Rest (passes ++ [⟨k, false⟩]) m →
    Begun (passes ++ [⟨k + 1, false⟩]) (some callback)
      (called (deferredWords task) task (fetched m))
  timer : ∀ (passes : List Pass) (k : Nat) (m : Machine Session) (timer : PendingTimer)
    (others : Timers) (callback : Callback), Reached source .empty m → m.host.AtRest →
    m.host.collections.deferredQueue = [] →
    m.host.collections.pendingTimers.take = (some timer, others) →
    m.host.callbacks.get? timer.callback = some callback → Rest (passes ++ [⟨k, false⟩]) m →
    Begun (passes ++ [⟨k, true⟩]) (some callback) (called timerWords (.ready timer) (promoted m))

/-- The statement about what a part of the loop ends with: its value, or its failure. -/
def Outcome (holds : α → Machine Session → Prop) (fails : ScriptError → Machine Session → Prop)
    (m : Machine Session) : Except ScriptError α → Prop
  | .ok a => holds a m
  | .error e => fails e m

/-- From a machine that was reached, a part of the loop goes on as a loop does, and the statements
hold of what it ends with. -/
structure Keeps (source : String) (m : Machine Session) (x : Eval Session α)
    (holds : α → Machine Session → Prop) (fails : ScriptError → Machine Session → Prop) : Prop where
  leads : Leads source m x fun _ _ => True
  outcome : Outcome holds fails (x.run m).2 (x.run m).1

namespace Keeps

variable {holds : α → Machine Session → Prop} {fails : ScriptError → Machine Session → Prop}

theorem pure (reached : Reached source .empty m) (rest : m.host.AtRest) {a : α} (h : holds a m) :
    Keeps source m (Pure.pure a) holds fails :=
  ⟨.pure reached rest trivial, h⟩

theorem bind {x : Eval Session α} {f : α → Eval Session β}
    {further : β → Machine Session → Prop} (hx : Keeps source m x holds fails)
    (hf : ∀ a m', Reached source .empty m' → m'.host.AtRest → holds a m' →
      Keeps source m' (f a) further fails) : Keeps source m (x >>= f) further fails := by
  obtain ⟨⟨reached, ends⟩, outcome⟩ := hx
  rcases run : x.run m with ⟨result, m'⟩
  rw [run] at reached ends outcome
  cases result with
  | error e =>
    have failed := Eval.run_bind_error (f := f) run
    refine ⟨⟨?_, ?_⟩, ?_⟩
    · rw [failed]
      exact reached
    · rw [failed]
      exact ends
    · rw [failed]
      exact outcome
  | ok a =>
    have after := hf a m' reached ends.1 outcome
    have ran := Eval.run_bind_ok (f := f) run
    refine ⟨⟨?_, ?_⟩, ?_⟩
    · rw [ran]
      exact after.leads.1
    · rw [ran]
      exact after.leads.2
    · rw [ran]
      exact after.outcome

theorem ask_bind {f : Session → α} {g : α → Eval Session β} {further : β → Machine Session → Prop}
    (h : Keeps source m (g (f m.host)) further fails) :
    Keeps source m (ask f >>= g) further fails :=
  ⟨h.leads, h.outcome⟩

theorem of_run {n : Machine Session} {x y : Eval Session α} (run : x.run m = y.run n)
    (h : Keeps source n y holds fails) : Keeps source m x holds fails := by
  obtain ⟨⟨reached, ends⟩, outcome⟩ := h
  exact ⟨⟨by rw [run]; exact reached, by rw [run]; exact ends⟩, by rw [run]; exact outcome⟩

theorem mono {x : Eval Session α} {weaker : α → Machine Session → Prop}
    {less : ScriptError → Machine Session → Prop} (hx : Keeps source m x holds fails)
    (h : ∀ a m', holds a m' → weaker a m') (h' : ∀ e m', fails e m' → less e m') :
    Keeps source m x weaker less := by
  refine ⟨hx.leads, ?_⟩
  have outcome := hx.outcome
  revert outcome
  cases (x.run m).1 with
  | ok a => exact h a _
  | error e => exact h' e _

/-- A snapshot between two tasks. -/
theorem snap (reached : Reached source .empty m) (rest : m.host.AtRest) {word : String}
    (phase : Phase) (other : word ∉ runWords) (holds : Unit → Machine Session → Prop)
    (h : holds () (m.onHost (Session.snap none word phase))) :
    Keeps source m (Generation.snap word phase) holds fails :=
  ⟨⟨reached.snap _ phase other, rest.snap _ _ _, trivial⟩, h⟩

end Keeps

/-- A checkpoint that may run so many deferred callbacks has run `j`, and ends this way. -/
structure Drained (bound j : Nat) (m : Machine Session) (ending : Ending) (m' : Machine Session) :
    Prop where
  most : j ≤ bound
  cut : ending = .cut → j = bound ∧ m'.host.collections.deferredQueue ≠ []
  idle : ending = .idle → m'.host.collections.deferredQueue = []
  none : j = 0 → m' = m

/-- After a checkpoint that ran nothing nothing has changed. -/
theorem Drained.zero (bound : Nat) {ending : Ending}
    (ends : ending = if m.host.hasDeferred then .cut else .idle)
    (most : m.host.hasDeferred = true → bound = 0) : Drained bound 0 m ending m where
  most := Nat.zero_le bound
  cut cut := by
    cases more : m.host.hasDeferred with
    | true => exact ⟨(most more).symm, fun none => by simp [hasDeferred_eq_false.mpr none] at more⟩
    | false =>
      rw [more, cut] at ends
      cases ends
  idle idle := by
    cases more : m.host.hasDeferred with
    | true =>
      rw [more, idle] at ends
      cases ends
    | false => exact hasDeferred_eq_false.mp more
  none _ := rfl

theorem Drained.succ {bound j : Nat} {m₁ m' : Machine Session} {ending : Ending}
    (drained : Drained bound j m₁ ending m') (m : Machine Session) :
    Drained (bound + 1) (j + 1) m ending m' where
  most := Nat.succ_le_succ drained.most
  cut cut := ⟨congrArg (· + 1) (drained.cut cut).1, (drained.cut cut).2⟩
  idle := drained.idle
  none zero := absurd zero (Nat.succ_ne_zero j)

namespace Invariant

variable {Rest : List Pass → Machine Session → Prop}
  {Begun : List Pass → Option Callback → Machine Session → Prop}
  {Ended : List Pass → Option Callback → Except ScriptError Unit → Machine Session → Prop}
  (inv : Invariant settings source Rest Begun Ended)

include inv

theorem runTask {passes : List Pass} {words : TaskWords} {task : QueuedTask}
    (framed : Reached source (.framed task) (opened words m)) (rest : m.host.AtRest)
    (word : words.finished ∈ finishWords)
    (begun : ∀ callback, m.host.callbacks.get? task.callback = some callback →
      Begun passes (some callback) (called words task m)) :
    Keeps source m (runTask settings words task) (fun _ m' => Rest passes m')
      (fun e m' => ∃ callback, Ended passes callback (.error e) m') := by
  have other : words.finished ∉ runWords := by
    revert word
    generalize words.finished = word
    rintro (_ | ⟨_, _ | ⟨_, _ | ⟨_, ⟨⟩⟩⟩⟩) <;> decide
  refine ⟨runTask_leads framed rest other, ?_⟩
  obtain ⟨callback, found, start⟩ := run_runTask settings framed
  have alone : (called words task m).host.collections.stack =
      [⟨m.host.frames, words.frame, words.kind, none⟩] := by
    show m.host.collections.stack ++ _ = _
    rw [rest.stack]
    rfl
  have known : ∀ value, callback.argument = some value →
      value.Within (called words task m).promises.size := fun value argument =>
    framed.stored.within task.callback callback value found argument
  have reached := called_reached framed
  have ran := runCallback_reached settings callback reached known
  have ended := inv.callback passes callback _ _ reached alone known (begun callback found)
  rw [start]
  rcases run : (Eval.runCallback settings.limits (Session.host settings.lineMode) callback).run
      (called words task m) with ⟨result, m'⟩
  rw [run] at ran ended
  cases result with
  | error e =>
    rw [Eval.run_bind_error run]
    exact ⟨some callback, ended⟩
  | ok _ =>
    rw [Eval.run_bind_ok run]
    exact inv.finish passes (some callback) m' _ words.finished ran.1 (ran.2.stack.trans alone)
      word ended

/-- Deferred tasks run one after another, after `k` that have run in this pass before. -/
theorem checkpoint (bound : Nat) {passes : List Pass} {k : Nat} (reached : Reached source .empty m)
    (rest : m.host.AtRest) (h : Rest (passes ++ [⟨k, false⟩]) m) :
    Keeps source m (checkpoint settings bound)
      (fun ending m' => ∃ j, Drained bound j m ending m' ∧ Rest (passes ++ [⟨k + j, false⟩]) m')
      (fun e m' => ∃ j < bound, ∃ callback,
        Ended (passes ++ [⟨k + (j + 1), false⟩]) callback (.error e) m') := by
  induction bound generalizing k m with
  | zero =>
    refine .ask_bind ?_
    refine .pure reached rest ?_
    exact ⟨0, .zero 0 rfl fun _ => rfl, h⟩
  | succ bound ih =>
    cases queue : m.host.collections.deferredQueue with
    | nil =>
      have idle : (Generation.checkpoint settings (bound + 1)).run m = (.ok .idle, m) :=
        run_checkpoint_nil bound queue
      refine .of_run idle (.pure reached rest ⟨0, .zero _ ?_ ?_, h⟩)
      · rw [hasDeferred_eq_false.mpr queue]
        rfl
      · rw [hasDeferred_eq_false.mpr queue]
        exact fun more => by cases more
    | cons task others =>
      have picked := fetched_picked queue reached rest
      have next {m₁ : Machine Session} (reached₁ : Reached source .empty m₁)
          (rest₁ : m₁.host.AtRest) (h₁ : Rest (passes ++ [⟨k + 1, false⟩]) m₁) :
          Keeps source m₁ (Generation.checkpoint settings bound)
            (fun ending m' => ∃ j, Drained (bound + 1) j m ending m' ∧
              Rest (passes ++ [⟨k + j, false⟩]) m')
            (fun e m' => ∃ j < bound + 1, ∃ callback,
              Ended (passes ++ [⟨k + (j + 1), false⟩]) callback (.error e) m') := by
        refine (ih reached₁ rest₁ h₁).mono ?_ ?_
        · rintro ending m' ⟨j, drained, h'⟩
          rw [Nat.add_assoc, Nat.add_comm 1 j] at h'
          exact ⟨j + 1, drained.succ m, h'⟩
        · rintro e m' ⟨j, lt, callback, ended⟩
          rw [Nat.add_assoc, Nat.add_comm 1 (j + 1)] at ended
          exact ⟨j + 1, Nat.succ_lt_succ lt, callback, ended⟩
      refine .of_run (run_checkpoint_fetched queue settings bound) (Keeps.bind
        ((inv.runTask picked.framed picked.rest (List.mem_cons_of_mem _ List.mem_cons_self)
          fun callback found =>
            inv.deferred passes k m task others callback reached rest queue found h).mono
          (fun _ _ rest => rest) ?_) ?_)
      · rintro e m' ⟨callback, ended⟩
        exact ⟨0, Nat.succ_pos _, callback, ended⟩
      · intro _ m₂ reached₂ rest₂ h₂
        refine .ask_bind ?_
        cases more : m₂.host.hasDeferred with
        | true =>
          have noted := inv.note _ m₂ "Event Loop: Checking next Microtask..." reached₂ rest₂
            (by decide) h₂
          refine .bind (.snap reached₂ rest₂ .checking (by decide)
            (fun _ m' => Rest (passes ++ [⟨k + 1, false⟩]) m') noted) ?_
          intro _ m₃ reached₃ rest₃ h₃
          exact next reached₃ rest₃ h₃
        | false => exact next reached₂ rest₂ h₂

/-- The timer that comes next runs, after `k` deferred callbacks have run in this pass. -/
theorem runTimer {passes : List Pass} {k : Nat} (reached : Reached source .empty m)
    (rest : m.host.AtRest) (deferred : m.host.collections.deferredQueue = [])
    (timers : m.host.collections.pendingTimers ≠ []) (h : Rest (passes ++ [⟨k, false⟩]) m) :
    Keeps source m (runTimer settings) (fun _ m' => Rest (passes ++ [⟨k, true⟩]) m')
      (fun e m' => ∃ callback, Ended (passes ++ [⟨k, true⟩]) callback (.error e) m') := by
  obtain ⟨timer, others, before, after, taken, -⟩ := Timers.take_cons timers
  have picked := promoted_picked taken rest reached deferred
  refine .of_run (run_runTimer_promoted taken rest settings) ?_
  refine inv.runTask picked.framed picked.rest
    (List.mem_cons_of_mem _ (List.mem_cons_of_mem _ List.mem_cons_self)) ?_
  intro callback found
  have stored : m.host.callbacks.get? timer.callback = some callback := by
    rw [← picked.callbacks]
    exact found
  exact inv.timer passes k m timer others callback reached rest deferred taken stored h

/-- The statements about what the passes of a loop end with, if so many passes may be made after
those made before. -/
abbrev PassesKeep (settings : Settings) (source : String)
    (Rest : List Pass → Machine Session → Prop)
    (Ended : List Pass → Option Callback → Except ScriptError Unit → Machine Session → Prop)
    (passes : List Pass) (bound : Nat) (m : Machine Session) (x : Eval Session Ending) : Prop :=
  Keeps source m x
    (fun ending m' => ∃ more,
      PassesEnd bound settings.maxDeferredPerCheckpoint more (.ok ending) ∧
      Rest (passes ++ more) m' ∧ (ending = .idle ↔ m'.host.hasWork = false))
    (fun e m' => ∃ more callback,
      PassesEnd bound settings.maxDeferredPerCheckpoint more (.error e) ∧
      Ended (passes ++ more) callback (.error e) m')

theorem restOfPass (first : Bool) (bound : Nat) {passes : List Pass}
    (later : ∀ {passes : List Pass} {m : Machine Session}, Reached source .empty m →
      m.host.AtRest → Rest passes m →
      PassesKeep settings source Rest Ended passes bound m (Generation.passes settings false bound))
    (reached : Reached source .empty m) (rest : m.host.AtRest) (work : m.host.hasWork = true)
    (h : Rest (passes ++ [⟨0, false⟩]) m) :
    PassesKeep settings source Rest Ended passes (bound + 1) m
      (Generation.restOfPass settings first bound) := by
  -- what the passes after this one keep up, this one and those after it keep up
  have next {pass : Pass} (deferred : pass.deferred ≤ settings.maxDeferredPerCheckpoint)
      (ran : 0 < pass.ran) {m₁ : Machine Session} (reached₁ : Reached source .empty m₁)
      (rest₁ : m₁.host.AtRest) (h₁ : Rest (passes ++ [pass]) m₁) :
      PassesKeep settings source Rest Ended passes (bound + 1) m₁
        (Generation.passes settings false bound) := by
    refine (later reached₁ rest₁ h₁).mono ?_ ?_
    · rintro ending m' ⟨more, ends, h', idle⟩
      rw [List.append_assoc] at h'
      exact ⟨pass :: more, ends.cons deferred ran, h', idle⟩
    · rintro e m' ⟨more, callback, ends, ended⟩
      rw [List.append_assoc] at ended
      exact ⟨pass :: more, callback, ends.cons deferred ran, ended⟩
  refine Keeps.bind ((inv.checkpoint _ reached rest h).mono (fun _ _ h => h) ?_) ?_
  · rintro e m' ⟨j, lt, callback, ended⟩
    rw [Nat.zero_add] at ended
    exact ⟨_, callback, .failed lt (Nat.lt_of_lt_of_le (Nat.succ_pos j) (Nat.le_add_right _ _)) e,
      ended⟩
  rintro ending m₁ reached₁ rest₁ ⟨j, drained, h₁⟩
  rw [Nat.zero_add] at h₁
  cases ending with
  | cut =>
    obtain ⟨rfl, left⟩ := drained.cut rfl
    refine .pure reached₁ rest₁ ⟨_, .full bound _, h₁, ?_⟩
    refine ⟨fun idle => (by cases idle), fun none => absurd (hasWork_eq_false.mp none).1.1 left⟩
  | idle =>
    have empty := drained.idle rfl
    refine .ask_bind ?_
    cases timers : m₁.host.hasTimers with
    | true =>
      have ran : 0 < (Pass.mk j true).ran := Nat.succ_pos j
      refine .bind ((inv.runTimer reached₁ rest₁ empty (hasTimers_eq_true.mp timers) h₁).mono
        (fun _ _ h => h) ?_) ?_
      · rintro e m' ⟨callback, ended⟩
        exact ⟨_, callback, .failed drained.most ran e, ended⟩
      · intro _ m₂ reached₂ rest₂ h₂
        exact next drained.most ran reached₂ rest₂ h₂
    | false =>
      -- a checkpoint that ran nothing has left the timers, so there would be one
      have ran : 0 < (Pass.mk j false).ran := by
        refine Nat.pos_of_ne_zero fun zero => ?_
        obtain rfl := drained.none zero
        rw [hasWork_eq_false.mpr ⟨⟨empty, hasTimers_eq_false.mp timers⟩, rest₁.ready⟩] at work
        cases work
      refine .ask_bind ?_
      cases first && !m₁.host.hasDeferred with
      | true =>
        refine .bind (.snap reached₁ rest₁ .checking (by decide)
          (fun _ m' => Rest (passes ++ [⟨j, false⟩]) m')
          (inv.note _ m₁ "Event Loop: No tasks in queues" reached₁ rest₁ (by decide) h₁)) ?_
        intro _ m₂ reached₂ rest₂ h₂
        exact next drained.most ran reached₂ rest₂ h₂
      | false => exact next drained.most ran reached₁ rest₁ h₁

/-- Passes are made one after another. -/
theorem passes (bound : Nat) (first : Bool) {passes : List Pass} (reached : Reached source .empty m)
    (rest : m.host.AtRest) (h : Rest passes m) :
    PassesKeep settings source Rest Ended passes bound m
      (Generation.passes settings first bound) := by
  induction bound generalizing first passes m with
  | zero =>
    refine .ask_bind ?_
    refine .pure reached rest ?_
    refine ⟨[], .nil fun _ => rfl, by rwa [List.append_nil], ?_⟩
    cases m.host.hasWork <;> simp
  | succ bound ih =>
    rw [Generation.passes]
    refine .ask_bind ?_
    cases work : m.host.hasWork with
    | false =>
      refine .pure reached rest ?_
      exact ⟨[], .nil fun cut => (by cases cut), by rwa [List.append_nil], by simp [work]⟩
    | true =>
      refine .bind (.snap reached rest .checking (by decide)
        (fun _ m' => m'.host.hasWork = true ∧ Rest (passes ++ [⟨0, false⟩]) m')
        ⟨work, inv.check passes m reached rest h⟩) ?_
      rintro _ m₁ reached₁ rest₁ ⟨work₁, h₁⟩
      refine .ask_bind ?_
      rw [rest₁.stackIsEmpty]
      refine .ask_bind ?_
      cases m₁.host.hasDeferred with
      | true =>
        refine .bind (.snap reached₁ rest₁ .checking (by decide)
          (fun _ m' => m'.host.hasWork = true ∧ Rest (passes ++ [⟨0, false⟩]) m')
          ⟨work₁, inv.note _ m₁ "Event Loop: Microtasks found!" reached₁ rest₁ (by decide) h₁⟩) ?_
        rintro _ m₂ reached₂ rest₂ ⟨work₂, h₂⟩
        exact inv.restOfPass first bound (ih false) reached₂ rest₂ work₂ h₂
      | false => exact inv.restOfPass first bound (ih false) reached₁ rest₁ work₁ h₁

/-- A generation is run from its start to the end of its passes. -/
theorem untilEnding {script : Script} (parsed : parse settings.maxNesting source = .ok script)
    (begun : Begun [] none (.initial (start source))) :
    PassesKeep settings source Rest Ended [] settings.maxIterations (.initial (start source))
      (Generation.untilEnding settings script) := by
  have reached := start_reached source
  have ran := runScript_reached settings script reached
  have ended := inv.script _ ⟨0, "main()", .main, some 1⟩ script parsed reached rfl begun
  unfold Generation.untilEnding
  rcases run : (Eval.runScript settings.limits (Session.host settings.lineMode) script).run
      (.initial (start source)) with ⟨result, m⟩
  rw [run] at ran ended
  have stack : m.host.collections.stack = [⟨0, "main()", .main, some 1⟩] := ran.2.stack
  cases result with
  | error e =>
    refine .of_run (n := m) (y := throw e) (Eval.run_bind_error run) ⟨⟨ran.1, _, stack⟩, ?_⟩
    exact ⟨[], none, .nil fun cut => (by cases cut), ended⟩
  | ok _ =>
    have popped := Session.AtRest.popFrame stack ran.2.ready
    have rested := inv.finish [] none m _ "Main script finished" ran.1 stack List.mem_cons_self
      ended
    have after : PassesKeep settings source Rest Ended [] settings.maxIterations _ _ :=
      inv.passes settings.maxIterations true
        (ran.1.popFrame stack "Main script finished" (by decide)) (popped.snap _ _ _) rested
    refine .of_run ?_ after
    exact Eval.run_bind_ok run

/-- What a generation keeps up holds of the machine that its passes end with. -/
theorem outcome {script : Script} (parsed : parse settings.maxNesting source = .ok script)
    (begun : Begun [] none (.initial (start source))) {result : Except ScriptError Ending}
    (run : (Generation.untilEnding settings script).run (.initial (start source)) = (result, m)) :
    Reached source .empty m ∧ ∃ passes,
      PassesEnd settings.maxIterations settings.maxDeferredPerCheckpoint passes result ∧
      match result with
      | .ok ending => m.host.AtRest ∧ Rest passes m ∧ (ending = .idle ↔ m.host.hasWork = false)
      | .error e => (∃ frame, m.host.collections.stack = [frame]) ∧
        ∃ callback, Ended passes callback (.error e) m := by
  obtain ⟨⟨reached, ends⟩, outcome⟩ := inv.untilEnding parsed begun
  rw [run] at reached ends outcome
  refine ⟨reached, ?_⟩
  cases result with
  | ok ending =>
    obtain ⟨passes, passesEnd, h, idle⟩ := outcome
    exact ⟨passes, passesEnd, ends.1, h, idle⟩
  | error e =>
    obtain ⟨passes, callback, passesEnd, ended⟩ := outcome
    exact ⟨passes, passesEnd, ends, callback, ended⟩

end Invariant

end Generation

end EventLoop
