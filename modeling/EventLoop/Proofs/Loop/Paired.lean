import EventLoop.Proofs.Evaluation.Simulation
import EventLoop.Proofs.Loop.Course

/-!
# Two runs of the event loop side by side

Two sessions that are related in some way take the same course if the relation is kept up by all
that the loop does to a session by itself, and by all that a script tells its host. The loop asks a
session only what is left to run and whether anything is on the stack, so related sessions have to
agree on that. The evaluation of the second run may be bounded more loosely; then the runs agree up
to a failure of the first that is excused.
-/

namespace EventLoop

variable {α : Type}

/-- The relation is kept up by what the loop does to a session by itself, and related sessions
answer the questions of the loop alike. -/
structure Session.Keeps (R : Session → Session → Prop) : Prop where
  snap : ∀ description phase s t, R s t →
    R (s.snap none description phase) (t.snap none description phase)
  pushFrame : ∀ name kind s t, R s t → R (s.pushFrame name kind none) (t.pushFrame name kind none)
  popFrame : ∀ s t, R s t → R s.popFrame t.popFrame
  promoteTimer : ∀ s t, R s t → R s.promoteTimer t.promoteTimer
  popDeferred : ∀ s t, R s t → t.popDeferred.1 = s.popDeferred.1 ∧ R s.popDeferred.2 t.popDeferred.2
  popReady : ∀ s t, R s t → t.popReady.1 = s.popReady.1 ∧ R s.popReady.2 t.popReady.2
  takeCallback : ∀ task s t, R s t →
    (t.takeCallback task).1 = (s.takeCallback task).1 ∧
      R (s.takeCallback task).2 (t.takeCallback task).2
  hasDeferred : ∀ s t, R s t → t.hasDeferred = s.hasDeferred
  hasTimers : ∀ s t, R s t → t.hasTimers = s.hasTimers
  hasWork : ∀ s t, R s t → t.hasWork = s.hasWork
  stackIsEmpty : ∀ s t, R s t → t.stackIsEmpty = s.stackIsEmpty

namespace Generation

open Eval (Match)

variable {R : Session → Session → Prop} {excused : ScriptError → Prop}

theorem askHost_match {f g : Session → α × Session}
    (h : ∀ s t, R s t → (g t).1 = (f s).1 ∧ R (f s).2 (g t).2) :
    Match R excused (Eval.askHost f) (Eval.askHost g) := by
  refine .modifyGet ?_
  intro m n alike
  obtain ⟨same, related⟩ := h m.host n.host alike.host
  exact ⟨same, alike.withHost related⟩

theorem ask_match {f : Session → α} (h : ∀ s t, R s t → f t = f s) :
    Match R excused (ask f) (ask f) := by
  intro m n alike
  refine .inr ⟨?_, alike⟩
  show Except.ok (f n.host) = Except.ok (f m.host)
  rw [h m.host n.host alike.host]

section

variable (keeps : Session.Keeps R)

include keeps

theorem snap_match (description : String) (phase : Phase) :
    Match R excused (snap description phase) (snap description phase) :=
  Eval.onHost_match (keeps.snap description phase)

theorem popFrame_match :
    Match R excused (Eval.onHost Session.popFrame) (Eval.onHost Session.popFrame) :=
  Eval.onHost_match keeps.popFrame

variable {settings₁ settings₂ : Settings}
  (looser : settings₁.limits.Looser excused settings₂.limits)
  (agree : (Session.host settings₁.lineMode).Agree R (Session.host settings₂.lineMode))

include looser agree

theorem runTask_match (words : TaskWords) (task : QueuedTask) :
    Match R excused (runTask settings₁ words task) (runTask settings₂ words task) := by
  have finish : Match R excused
      (do Eval.onHost Session.popFrame; snap words.finished .idle)
      (do Eval.onHost Session.popFrame; snap words.finished .idle) :=
    (popFrame_match keeps).bind fun _ => snap_match keeps _ _
  refine (Eval.onHost_match (keeps.pushFrame words.frame words.kind)).bind ?_
  intro _
  refine (snap_match keeps words.started .idle).bind ?_
  intro _
  refine (askHost_match (keeps.takeCallback task)).bind ?_
  intro callback
  cases callback with
  | some callback => exact (Eval.runCallback_match looser agree callback).bind fun _ => finish
  | none => exact finish

theorem checkpoint_match (bound : Nat) :
    Match R excused (checkpoint settings₁ bound) (checkpoint settings₂ bound) := by
  induction bound with
  | zero => exact (ask_match keeps.hasDeferred).bind fun _ => .pure _
  | succ bound ih =>
    refine (askHost_match keeps.popDeferred).bind ?_
    intro task
    cases task with
    | none => exact .pure _
    | some task =>
      refine (snap_match keeps _ _).bind ?_
      intro _
      refine (runTask_match keeps looser agree _ task).bind ?_
      intro _
      refine (ask_match keeps.hasDeferred).bind ?_
      intro more
      cases more with
      | true => exact (snap_match keeps _ _).bind fun _ => ih
      | false => exact ih

theorem runTimer_match : Match R excused (runTimer settings₁) (runTimer settings₂) := by
  refine (snap_match keeps _ _).bind ?_
  intro _
  refine (Eval.onHost_match keeps.promoteTimer).bind ?_
  intro _
  refine (snap_match keeps _ _).bind ?_
  intro _
  refine (snap_match keeps _ _).bind ?_
  intro _
  refine (askHost_match keeps.popReady).bind ?_
  intro task
  cases task with
  | some task => exact runTask_match keeps looser agree timerWords task
  | none => exact .pure _

variable (deferred : settings₂.maxDeferredPerCheckpoint = settings₁.maxDeferredPerCheckpoint)

include deferred

theorem restOfPass_match (first : Bool) {bound : Nat}
    (later : Match R excused (passes settings₁ false bound) (passes settings₂ false bound)) :
    Match R excused (restOfPass settings₁ first bound) (restOfPass settings₂ first bound) := by
  unfold restOfPass
  rw [deferred]
  refine (checkpoint_match keeps looser agree _).bind ?_
  intro ending
  cases ending with
  | cut => exact .pure _
  | idle =>
    refine (ask_match keeps.hasTimers).bind ?_
    intro timers
    cases timers with
    | true => exact (runTimer_match keeps looser agree).bind fun _ => later
    | false =>
      refine (ask_match keeps.hasDeferred).bind ?_
      intro deferred
      cases first && !deferred with
      | true => exact (snap_match keeps _ _).bind fun _ => later
      | false => exact later

theorem passes_match (first : Bool) (bound : Nat) :
    Match R excused (passes settings₁ first bound) (passes settings₂ first bound) := by
  induction bound generalizing first with
  | zero => exact (ask_match keeps.hasWork).bind fun _ => .pure _
  | succ bound ih =>
    have rest := restOfPass_match keeps looser agree deferred first (ih false)
    rw [passes, passes]
    refine (ask_match keeps.hasWork).bind ?_
    intro work
    cases work with
    | false => exact .pure _
    | true =>
      refine (snap_match keeps _ _).bind ?_
      intro _
      refine (ask_match keeps.stackIsEmpty).bind ?_
      intro empty
      cases empty with
      | false => exact ih false
      | true =>
        refine (ask_match keeps.hasDeferred).bind ?_
        intro found
        cases found with
        | true => exact (snap_match keeps _ _).bind fun _ => rest
        | false => exact rest

/-- The runs of a script keep up the relation, as long as the same number of passes and of deferred
callbacks bounds them. -/
theorem untilEnding_match (iterations : settings₂.maxIterations = settings₁.maxIterations)
    (script : Script) :
    Match R excused (untilEnding settings₁ script) (untilEnding settings₂ script) := by
  unfold untilEnding
  rw [iterations]
  refine (Eval.runScript_match looser agree script).bind ?_
  intro _
  refine (popFrame_match keeps).bind ?_
  intro _
  refine (snap_match keeps _ _).bind ?_
  intro _
  exact passes_match keeps looser agree deferred true _

end

end Generation

end EventLoop
