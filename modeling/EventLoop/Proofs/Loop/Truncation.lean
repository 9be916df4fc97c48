import EventLoop.Proofs.Loop.Balance
import EventLoop.Proofs.Loop.Marks

/-!
# Cutting is truncation

The bounds on passes and on deferred callbacks only decide where a run stops. A run with looser
bounds does the same up to there, and goes on.
-/

namespace EventLoop

/-- The timeline of the first session begins that of the second. -/
def Session.Before (s t : Session) : Prop :=
  s.timeline.snapshots.toList <+: t.timeline.snapshots.toList

namespace Session.Before

variable {s t u : Session}

theorem refl (s : Session) : Before s s :=
  List.prefix_rfl

theorem trans (h₁ : Before s t) (h₂ : Before t u) : Before s u :=
  List.IsPrefix.trans h₁ h₂

theorem of_timeline (same : t.timeline = s.timeline) : Before s t := by
  unfold Before
  rw [same]

theorem snap (s : Session) (line : Option Nat) (description : String) (phase : Phase) :
    Before s (s.snap line description phase) :=
  ⟨_, (Timeline.toList_record ..).symm⟩

theorem of_step {a b : Instant} (step : Step a b) : a.session.Before b.session := by
  rcases step.timeline_cases with same | ⟨line, description, phase, same⟩
  · exact .of_timeline same
  · unfold Before
    rw [same]
    exact snap { a.session with collections := b.session.collections } line description phase

theorem of_later {a b : Instant} (later : Later a b) : a.session.Before b.session := by
  induction later with
  | refl => exact .refl _
  | tail _ step ih => exact ih.trans (.of_step step)

end Session.Before

namespace Generation

variable {α β : Type} {settings settings' : Settings}

/-- What a pass does after its checkpoint has ended, and the passes after it. -/
def afterCheckpoint (settings : Settings) (first : Bool) (bound : Nat) (ending : Ending) :
    Eval Session Ending := do
  match ending with
  | .cut => return .cut
  | .idle =>
    if ← ask Session.hasTimers then runTimer settings
    else if first && !(← ask Session.hasDeferred) then
      snap "Event Loop: No tasks in queues" .checking
    passes settings false bound

/-- On every machine, the computation only adds to the timeline. -/
def Grows (x : Eval Session α) : Prop :=
  ∀ m : Machine Session, m.host.Before (x.run m).2.host

namespace Grows

theorem pure (a : α) : Grows (Pure.pure a) :=
  fun m => .refl m.host

theorem bind {x : Eval Session α} {f : α → Eval Session β} (first : Grows x)
    (second : ∀ a, Grows (f a)) : Grows (x >>= f) := by
  intro m
  have before := first m
  rw [Eval.run_bind]
  generalize x.run m = ran at before ⊢
  obtain ⟨_ | a, m'⟩ := ran
  · exact before
  · exact before.trans (second a m')

theorem onHost {f : Session → Session} (h : ∀ s : Session, s.Before (f s)) :
    Grows (Eval.onHost f) :=
  fun m => h m.host

theorem askHost {f : Session → α × Session} (h : ∀ s : Session, s.Before (f s).2) :
    Grows (Eval.askHost f) :=
  fun m => h m.host

theorem ask (f : Session → α) : Grows (ask f) :=
  fun m => .refl m.host

theorem snap (description : String) (phase : Phase) : Grows (snap description phase) :=
  .onHost fun s => .snap s none description phase

theorem of_balances {x : Eval Session α} (balances : Eval.Balances x) : Grows x :=
  fun m => .of_later (balances m).serves.later

theorem runTask (settings : Settings) (words : TaskWords) (task : QueuedTask) :
    Grows (runTask settings words task) := by
  have finish : Grows (do Eval.onHost Session.popFrame; Generation.snap words.finished .idle) :=
    .bind (.onHost fun s => .of_timeline rfl) fun _ => .snap _ _
  refine .bind (.onHost fun s => .of_timeline rfl) fun _ => .bind (.snap _ _) fun _ => ?_
  refine .bind (.askHost fun s => .of_timeline rfl) fun callback => ?_
  cases callback with
  | some callback =>
    exact .bind (.of_balances (Eval.runCallback_balances _ _ callback)) fun _ => finish
  | none => exact finish

theorem checkpoint (settings : Settings) (bound : Nat) : Grows (checkpoint settings bound) := by
  induction bound with
  | zero => exact .bind (.ask _) fun _ => .pure _
  | succ bound ih =>
    refine .bind (.askHost fun s => .of_timeline rfl) fun task => ?_
    cases task with
    | none => exact .pure _
    | some task =>
      refine .bind (.snap _ _) fun _ => .bind (.runTask settings _ task) fun _ => ?_
      refine .bind (.ask _) fun more => ?_
      cases more with
      | true => exact .bind (.snap _ _) fun _ => ih
      | false => exact ih

theorem runTimer (settings : Settings) : Grows (runTimer settings) := by
  have promotes (s : Session) : s.Before s.promoteTimer := by
    refine .of_timeline ?_
    unfold Session.promoteTimer
    split <;> rfl
  refine .bind (.snap _ _) fun _ => .bind (.onHost promotes) fun _ => ?_
  refine .bind (.snap _ _) fun _ => .bind (.snap _ _) fun _ => ?_
  refine .bind (.askHost fun s => .of_timeline rfl) fun task => ?_
  cases task with
  | some task => exact .runTask settings timerWords task
  | none => exact .pure _

/-- What follows a checkpoint in a pass, and the passes after it. -/
theorem afterCheckpoint {first : Bool} {bound : Nat} (later : Grows (passes settings false bound))
    (ending : Ending) : Grows (afterCheckpoint settings first bound ending) := by
  cases ending with
  | cut => exact .pure _
  | idle =>
    refine .bind (.ask _) fun timers => ?_
    cases timers with
    | true => exact .bind (.runTimer settings) fun _ => later
    | false =>
      refine .bind (.ask _) fun deferred => ?_
      cases first && !deferred with
      | true => exact .bind (.snap _ _) fun _ => later
      | false => exact later

theorem restOfPass {first : Bool} {bound : Nat} (later : Grows (passes settings false bound)) :
    Grows (restOfPass settings first bound) :=
  .bind (.checkpoint settings _) (.afterCheckpoint later)

theorem passes (settings : Settings) (first : Bool) (bound : Nat) :
    Grows (passes settings first bound) := by
  induction bound generalizing first with
  | zero => exact .bind (.ask _) fun _ => .pure _
  | succ bound ih =>
    rw [Generation.passes]
    refine .bind (.ask _) fun work => ?_
    cases work with
    | false => exact .pure _
    | true =>
      refine .bind (.snap _ _) fun _ => .bind (.ask _) fun empty => ?_
      cases empty with
      | false => exact ih false
      | true =>
        refine .bind (.ask _) fun deferred => ?_
        cases deferred with
        | true => exact .bind (.snap _ _) fun _ => .restOfPass (ih false)
        | false => exact .restOfPass (ih false)

end Grows

/-- Computations that do the same on every machine are the same. -/
theorem Eval.ext {x y : Eval Session α} (h : ∀ m, x.run m = y.run m) : x = y :=
  funext h

section

variable (limits : settings'.limits = settings.limits)
  (mode : settings'.lineMode = settings.lineMode)

include limits mode

theorem runTask_congr : runTask settings' = runTask settings := by
  funext words task
  unfold runTask
  rw [limits, mode]

theorem runTimer_congr : runTimer settings' = runTimer settings := by
  unfold runTimer
  rw [runTask_congr limits mode]

theorem checkpoint_congr (bound : Nat) :
    checkpoint settings' bound = checkpoint settings bound := by
  induction bound with
  | zero => rfl
  | succ bound ih => rw [checkpoint, checkpoint, ih, runTask_congr limits mode]

end

/-- Passes depend on nothing but the limits of evaluation, the way lines are found and the bound on
deferred callbacks. -/
theorem passes_congr (limits : settings'.limits = settings.limits)
    (mode : settings'.lineMode = settings.lineMode)
    (deferred : settings'.maxDeferredPerCheckpoint = settings.maxDeferredPerCheckpoint)
    (first : Bool) (bound : Nat) : passes settings' first bound = passes settings first bound := by
  induction bound generalizing first with
  | zero => rfl
  | succ bound ih =>
    rw [passes, passes, ih, runTimer_congr limits mode, checkpoint_congr limits mode, deferred]

/-- Whether it is announced that the loop was cut makes no difference before that. -/
theorem untilEnding_announce (settings : Settings) (announce : Bool) (script : Script) :
    untilEnding { settings with announceIterationLimit := announce } script =
      untilEnding settings script := by
  let other : Settings := { settings with announceIterationLimit := announce }
  have limits : other.limits = settings.limits := rfl
  have mode : other.lineMode = settings.lineMode := rfl
  have deferred : other.maxDeferredPerCheckpoint = settings.maxDeferredPerCheckpoint := rfl
  unfold untilEnding
  rw [passes_congr limits mode deferred]
  rfl

/-- A checkpoint that may run more deferred callbacks does what the other does, and goes on where
that is cut. -/
theorem checkpoint_add (settings : Settings) (bound more : Nat) :
    checkpoint settings (bound + more) = (do
      match ← checkpoint settings bound with
      | .cut => checkpoint settings more
      | .idle => return .idle) := by
  induction bound with
  | zero =>
    rw [Nat.zero_add]
    refine Eval.ext fun m => ?_
    rw [Eval.run_bind_ok (show (checkpoint settings 0).run m =
      (.ok (if m.host.hasDeferred then .cut else .idle), m) from rfl)]
    cases deferred : m.host.hasDeferred with
    | true => rfl
    | false =>
      show (checkpoint settings more).run m = (.ok .idle, m)
      cases more with
      | zero =>
        show (Except.ok (if m.host.hasDeferred then Ending.cut else Ending.idle), m) = _
        rw [deferred]
        rfl
      | succ more => exact run_checkpoint_nil more (hasDeferred_eq_false.mp deferred)
  | succ bound ih =>
    rw [Nat.add_right_comm, checkpoint, checkpoint, ih, bind_assoc]
    congr 1
    funext task
    cases task with
    | none => rfl
    | some task =>
      simp only [bind_assoc]
      congr 1
      funext _
      congr 1
      funext _
      congr 1
      funext deferred
      cases deferred <;> simp only [if_true, Bool.false_eq_true, if_false, bind_assoc]

/-- The second of two runs does the same as the first, or goes on where the first was cut. -/
def Truncates (ran ran' : Except ScriptError Ending × Machine Session) : Prop :=
  (ran.1 ≠ .ok .cut ∧ ran' = ran) ∨ (ran.1 = .ok .cut ∧ ran.2.host.Before ran'.2.host)

/-- On every machine, the second computation does the same as the first, or goes on where the first
is cut. -/
def Cuts (x y : Eval Session Ending) : Prop :=
  ∀ m : Machine Session, Truncates (x.run m) (y.run m)

namespace Cuts

theorem refl (x : Eval Session Ending) : Cuts x x := by
  intro m
  by_cases cut : (x.run m).1 = .ok .cut
  · exact .inr ⟨cut, .refl _⟩
  · exact .inl ⟨cut, rfl⟩

theorem bind (x : Eval Session α) {f g : α → Eval Session Ending} (h : ∀ a, Cuts (f a) (g a)) :
    Cuts (x >>= f) (x >>= g) := by
  intro m
  rw [Eval.run_bind, Eval.run_bind]
  obtain ⟨_ | a, m'⟩ := x.run m
  · exact .inl ⟨fun cut => (by cases cut), rfl⟩
  · exact h a m'

/-- Where the first computation is cut, the second may do anything. -/
theorem cut {y : Eval Session Ending} (grows : Grows y) : Cuts (Pure.pure .cut) y :=
  fun m => .inr ⟨rfl, grows m⟩

end Cuts

section

variable (limits : settings'.limits = settings.limits)
  (mode : settings'.lineMode = settings.lineMode)
  (deferred : settings.maxDeferredPerCheckpoint ≤ settings'.maxDeferredPerCheckpoint)

include limits mode deferred

theorem restOfPass_cuts (first : Bool) {bound bound' : Nat}
    (later : Cuts (passes settings false bound) (passes settings' false bound')) :
    Cuts (restOfPass settings first bound) (restOfPass settings' first bound') := by
  obtain ⟨more, same⟩ := Nat.exists_eq_add_of_le deferred
  unfold restOfPass
  rw [checkpoint_congr limits mode, same, checkpoint_add, bind_assoc]
  refine .bind _ fun ending => ?_
  cases ending with
  | cut =>
    exact .cut (.bind (.checkpoint settings more)
      (.afterCheckpoint (.passes settings' false bound')))
  | idle =>
    rw [pure_bind, runTimer_congr limits mode]
    refine .bind _ fun timers => ?_
    cases timers with
    | true => exact .bind _ fun _ => later
    | false =>
      refine .bind _ fun deferred => ?_
      cases first && !deferred with
      | true => exact .bind _ fun _ => later
      | false => exact later

/-- Passes with looser bounds go on where the passes are cut. -/
theorem passes_cuts (first : Bool) {bound bound' : Nat} (le : bound ≤ bound') :
    Cuts (passes settings first bound) (passes settings' first bound') := by
  induction bound generalizing first bound' with
  | zero =>
    intro m
    show Truncates (.ok (if m.host.hasWork then .cut else .idle), m) _
    cases work : m.host.hasWork with
    | true => exact .inr ⟨rfl, Grows.passes settings' first bound' m⟩
    | false =>
      refine .inl ⟨fun cut => (by cases cut), ?_⟩
      cases bound' with
      | zero =>
        show (Except.ok (if m.host.hasWork then Ending.cut else Ending.idle), m) = _
        rw [work]
      | succ bound' =>
        rw [passes, Eval.run_bind_ok (run_ask Session.hasWork m), work]
        rfl
  | succ bound ih =>
    obtain ⟨bound', rfl⟩ := Nat.exists_eq_succ_of_ne_zero (Nat.ne_of_gt (Nat.zero_lt_of_lt le))
    have later := ih false (Nat.le_of_succ_le_succ le)
    rw [passes, passes]
    refine .bind _ fun work => ?_
    cases work with
    | false => exact .refl (Pure.pure .idle)
    | true =>
      refine .bind _ fun _ => .bind _ fun empty => ?_
      cases empty with
      | false => exact later
      | true =>
        refine .bind _ fun found => ?_
        cases found with
        | true => exact .bind _ fun _ => restOfPass_cuts limits mode deferred first later
        | false => exact restOfPass_cuts limits mode deferred first later

/-- A run with looser bounds goes on where the run is cut. -/
theorem untilEnding_cuts (iterations : settings.maxIterations ≤ settings'.maxIterations)
    (script : Script) : Cuts (untilEnding settings script) (untilEnding settings' script) := by
  unfold untilEnding
  rw [limits, mode]
  exact .bind _ fun _ => .bind _ fun _ => .bind _ fun _ =>
    passes_cuts limits mode deferred true iterations

end

/-- What is recorded last only adds to the timeline. -/
theorem closing_before (settings : Settings) (result : Except ScriptError Ending) (s : Session) :
    s.Before (closing settings result s) := by
  cases result with
  | error e => exact .trans (.snap (s.printLine _) _ _ _) (.snap (s.failRunning e).popFrame _ _ _)
  | ok ending =>
    cases ending with
    | idle => exact .refl s
    | cut =>
      rw [closing]
      split
      · exact .snap s _ _ _
      · exact .refl s

end Generation

namespace Timeline

open Generation

/-- The snapshots of a timeline without a last one that announces that the loop was cut. -/
def unannounced (timeline : Timeline) : List Snapshot :=
  if timeline.last?.map (·.description) = some limitWord then timeline.snapshots.toList.dropLast
  else timeline.snapshots.toList

theorem unannounced_snap (s : Session) :
    (s.snap none limitWord .idle).timeline.unannounced = s.timeline.snapshots.toList := by
  have last : (s.snap none limitWord .idle).timeline.last? =
      some ⟨s.collections, s.timeline.size, none, limitWord, .idle⟩ := Array.back?_push
  unfold unannounced
  rw [last, Option.map_some, if_pos rfl]
  refine (congrArg List.dropLast (toList_record ..)).trans ?_
  exact List.dropLast_concat

/-- The announcement is there if and only if a bound has cut the loop and is to be announced. -/
theorem ofSource_announces (settings : Settings) (source : String) :
    (∃ s ∈ (ofSource settings source).snapshots.toList, s.description = limitWord) ↔
      ending settings source = .ok .cut ∧ settings.announceIterationLimit = true := by
  obtain ⟨passes, -, marks⟩ := ofSource_marks settings source
  have none : limitWord ∉ passes.flatMap Pass.marks := by
    intro member
    obtain ⟨pass, -, member⟩ := List.mem_flatMap.mp member
    simp [Pass.marks, limitWord, checkWord] at member
  have shown : (∃ s ∈ (ofSource settings source).snapshots.toList, s.description = limitWord) ↔
      limitWord ∈ (ofSource settings source).marks := by
    simp [Timeline.marks, marksIn, markWords]
  rw [shown, marks, List.mem_append, or_iff_right none]
  unfold announced
  simp

/-- What a timeline is without the announcement. -/
theorem unannounced_ofSource {settings : Settings} {source : String} {script : Script}
    (parsed : parse settings.maxNesting source = .ok script) {m : Machine Session}
    (run : (untilEnding settings script).run (.initial (start source)) = (.ok .cut, m)) :
    (ofSource settings source).unannounced = m.host.timeline.snapshots.toList := by
  have closes := ofSource_eq_closing parsed run
  cases announce : settings.announceIterationLimit with
  | true =>
    rw [closes, closing, if_pos announce]
    exact unannounced_snap m.host
  | false =>
    have silent := (ofSource_announces settings source).not.mpr fun both => by
      rw [announce] at both
      exact Bool.false_ne_true both.2
    rw [closing, if_neg (by rw [announce]; exact Bool.false_ne_true)] at closes
    rw [closes] at silent ⊢
    unfold unannounced
    rw [if_neg]
    intro last
    obtain ⟨s, found, word⟩ := Option.map_eq_some_iff.mp last
    exact silent ⟨s, Array.mem_toList_iff.mpr (Array.mem_of_back? found), word⟩

/-- With looser bounds a timeline goes on where it was cut. -/
theorem ofSource_looser (settings : Settings) (source : String) {iterations deferred : Nat}
    (moreIterations : settings.maxIterations ≤ iterations)
    (moreDeferred : settings.maxDeferredPerCheckpoint ≤ deferred) :
    let looser := { settings with
      maxIterations := iterations, maxDeferredPerCheckpoint := deferred }
    (ending settings source ≠ .ok .cut → ofSource looser source = ofSource settings source) ∧
    (ending settings source = .ok .cut →
      (ofSource settings source).unannounced <+: (ofSource looser source).snapshots.toList) := by
  intro looser
  cases parsed : parse settings.maxNesting source with
  | error e =>
    have failed : parse looser.maxNesting source = .error e := parsed
    rw [ending_of_malformed parsed, ofSource_eq_failReading parsed, ofSource_eq_failReading failed]
    exact ⟨fun _ => rfl, fun cut => by cases cut⟩
  | ok script =>
    have parsed' : parse looser.maxNesting source = .ok script := parsed
    have limits : looser.limits = settings.limits := rfl
    have mode : looser.lineMode = settings.lineMode := rfl
    have cuts : Cuts (untilEnding settings script) (untilEnding looser script) :=
      untilEnding_cuts limits mode moreDeferred moreIterations script
    have truncates := cuts (.initial (start source))
    rcases run : (untilEnding settings script).run (.initial (start source)) with ⟨result, m⟩
    rcases run' : (untilEnding looser script).run (.initial (start source)) with ⟨result', m'⟩
    rw [run, run'] at truncates
    rw [ending_eq parsed run]
    rcases truncates with ⟨uncut, same⟩ | ⟨cut, before⟩
    · cases same
      refine ⟨fun _ => ?_, fun cut => absurd cut uncut⟩
      rw [ofSource_eq_closing parsed run, ofSource_eq_closing parsed' run']
      rfl
    · obtain rfl : result = .ok .cut := cut
      refine ⟨fun uncut => absurd rfl uncut, fun _ => ?_⟩
      rw [unannounced_ofSource parsed run, ofSource_eq_closing parsed' run']
      exact before.trans (closing_before looser result' m'.host)

/-- A timeline with the announcement is the timeline without it, and one more snapshot if a bound
has cut the loop. -/
theorem ofSource_announce (settings : Settings) (source : String) :
    ∃ last : Snapshot, last.description = limitWord ∧
      (ofSource { settings with announceIterationLimit := true } source).snapshots.toList =
        (ofSource { settings with announceIterationLimit := false } source).snapshots.toList ++
          if ending settings source = .ok .cut then [last] else [] := by
  let loud : Settings := { settings with announceIterationLimit := true }
  let silent : Settings := { settings with announceIterationLimit := false }
  cases parsed : parse settings.maxNesting source with
  | error e =>
    have parsed₁ : parse loud.maxNesting source = .error e := parsed
    have parsed₂ : parse silent.maxNesting source = .error e := parsed
    refine ⟨⟨.empty, 0, none, limitWord, .idle⟩, rfl, ?_⟩
    rw [ofSource_eq_failReading parsed₁, ofSource_eq_failReading parsed₂,
      ending_of_malformed parsed, if_neg (by simp), List.append_nil]
  | ok script =>
    have parsed₁ : parse loud.maxNesting source = .ok script := parsed
    have parsed₂ : parse silent.maxNesting source = .ok script := parsed
    rcases run : (untilEnding settings script).run (.initial (start source)) with ⟨result, m⟩
    have run₁ : (untilEnding loud script).run (.initial (start source)) = (result, m) := by
      rw [untilEnding_announce, run]
    have run₂ : (untilEnding silent script).run (.initial (start source)) = (result, m) := by
      rw [untilEnding_announce, run]
    refine ⟨⟨m.host.collections, m.host.timeline.size, none, limitWord, .idle⟩, rfl, ?_⟩
    rw [ofSource_eq_closing parsed₁ run₁, ofSource_eq_closing parsed₂ run₂, ending_eq parsed run]
    cases result with
    | error e =>
      rw [if_neg (by simp), List.append_nil]
      rfl
    | ok ending =>
      cases ending with
      | idle =>
        rw [if_neg (by simp), List.append_nil]
        rfl
      | cut =>
        rw [if_pos rfl]
        exact toList_record ..

/-- When the loop is cut the stack is empty, and something is left to run. -/
theorem ofSource_cut_last {settings : Settings} {source : String}
    (cut : ending settings source = .ok .cut) :
    ∃ last, (ofSource settings source).last? = some last ∧ last.stack = [] ∧
      (last.deferredQueue ≠ [] ∨ last.pendingTimers ≠ []) := by
  cases parsed : parse settings.maxNesting source with
  | error e =>
    rw [ending_of_malformed parsed] at cut
    cases cut
  | ok script =>
    rcases run : (untilEnding settings script).run (.initial (start source)) with ⟨result, m⟩
    obtain rfl : result = .ok .cut := (ending_eq parsed run).symm.trans cut
    obtain ⟨reached, passes, -, rest, -, idle⟩ :=
      (marks_invariant settings source).outcome parsed rfl run
    have shown : (closing settings (.ok .cut) m.host).Shown := by
      rw [closing]
      split
      · exact Session.shown_snap ..
      · exact reached.later.shown
    have same : (closing settings (.ok .cut) m.host).collections = m.host.collections := by
      rw [closing]
      split <;> rfl
    obtain ⟨last, found, showing⟩ := shown
    rw [same] at showing
    refine ⟨last, by rw [ofSource_eq_closing parsed run]; exact found, ?_, ?_⟩
    · rw [showing]
      exact rest.stack
    · rw [showing]
      by_contra none
      push Not at none
      cases idle.mpr (hasWork_eq_false.mpr ⟨none, rest.ready⟩)

/-- A generation that was cut is the beginning of what it is with looser bounds, and one that was
not is the same with them; the last snapshot may announce the cut, if and only if the settings say
so, and nothing else depends on that. In each pass no more deferred callbacks run than may and at
most one timer's, no more passes are made than may be, and when the loop is cut the stack is empty
and something is left to run. -/
theorem ofSource_truncated (settings : Settings) (source : String) :
    (∀ iterations deferred, settings.maxIterations ≤ iterations →
      settings.maxDeferredPerCheckpoint ≤ deferred →
      let looser := { settings with
        maxIterations := iterations, maxDeferredPerCheckpoint := deferred }
      (ending settings source ≠ .ok .cut → ofSource looser source = ofSource settings source) ∧
      (ending settings source = .ok .cut →
        (ofSource settings source).unannounced <+: (ofSource looser source).snapshots.toList)) ∧
    (∀ stretch, stretch <:+: (ofSource settings source).snapshots.toList →
      (∀ s ∈ stretch, s.description ≠ "Event Loop: Checking Call Stack...") →
      stretch.countP (·.description = "Run Microtask") ≤ settings.maxDeferredPerCheckpoint ∧
      stretch.countP (·.description = "Run Macrotask") ≤ 1) ∧
    (ofSource settings source).snapshots.toList.countP
        (·.description = "Event Loop: Checking Call Stack...") ≤ settings.maxIterations ∧
    (ending settings source = .ok .cut → ∃ last, (ofSource settings source).last? = some last ∧
      last.stack = [] ∧ (last.deferredQueue ≠ [] ∨ last.pendingTimers ≠ [])) ∧
    (∃ last : Snapshot, last.description = "Event Loop: iteration limit reached" ∧
      (ofSource { settings with announceIterationLimit := true } source).snapshots.toList =
        (ofSource { settings with announceIterationLimit := false } source).snapshots.toList ++
          if ending settings source = .ok .cut then [last] else []) ∧
    ((∃ s ∈ (ofSource settings source).snapshots.toList,
        s.description = "Event Loop: iteration limit reached") ↔
      ending settings source = .ok .cut ∧ settings.announceIterationLimit = true) := by
  have bounded := ofSource_bounded settings source
  exact ⟨fun _ _ => ofSource_looser settings source, bounded.1, bounded.2, ofSource_cut_last,
    ofSource_announce settings source, ofSource_announces settings source⟩

end Timeline

end EventLoop
