import EventLoop.Proofs.Loop.Refinement

/-!
# Bounds that suffice

The event loop counts its passes and the deferred callbacks of each pass, and is cut when it has
counted far enough. The plain loop counts nothing, but its rounds can be counted: those of a pass up
to the round of a timer, and the passes. If the counts stay within the bounds, the event loop is not
cut, and prints what the plain loop does.
-/

namespace EventLoop

namespace Plain

/-- All that is deferred runs in so many rounds, what is deferred meanwhile included. -/
inductive Drains (limits : Limits) : Nat → Machine Plain → Machine Plain → Prop
  | nil (n : Machine Plain) : n.host.deferred = [] → Drains limits 0 n n
  | round {count : Nat} {n n' n'' : Machine Plain} : n.host.deferred ≠ [] →
    Round limits n (.ok ()) n' → Drains limits count n' n'' → Drains limits (count + 1) n n''

/-- Nothing is left to run after so many passes, in none of which more than so many deferred
callbacks run. -/
inductive Completes (limits : Limits) (bound : Nat) : Nat → Machine Plain → Machine Plain → Prop
  | idle (n : Machine Plain) : n.host.Idle → Completes limits bound 0 n n
  | last {count : Nat} {n n' : Machine Plain} : Drains limits count n n' → count ≤ bound →
    n'.host.waiting = [] → Completes limits bound 1 n n'
  | pass {count passes : Nat} {n n₁ n₂ n' : Machine Plain} : Drains limits count n n₁ →
    count ≤ bound → n₁.host.waiting ≠ [] → Round limits n₁ (.ok ()) n₂ →
    Completes limits bound passes n₂ n' → Completes limits bound (passes + 1) n n'

theorem Drains.deferred {limits : Limits} {count : Nat} {n n' : Machine Plain}
    (drains : Drains limits count n n') : n'.host.deferred = [] := by
  induction drains with
  | nil _ none => exact none
  | round _ _ _ ih => exact ih

theorem Drains.eq_of_nil {limits : Limits} {count : Nat} {n n' : Machine Plain}
    (drains : Drains limits count n n') (none : n.host.deferred = []) : n' = n := by
  cases drains with
  | nil => rfl
  | round some => exact absurd none some

end Plain

namespace Session.Mirrors

variable {s : Session} {p : Plain}

theorem deferred_iff (mirrors : s.Mirrors p) :
    s.collections.deferredQueue = [] ↔ p.deferred = [] := by
  have lengths := congrArg List.length mirrors.deferred
  simp only [List.length_map] at lengths
  rw [← List.length_eq_zero_iff, lengths, List.length_eq_zero_iff]

theorem waiting_iff (mirrors : s.Mirrors p) :
    s.collections.pendingTimers = [] ↔ p.waiting = [] := by
  have lengths := congrArg List.length mirrors.waiting
  simp only [List.length_map] at lengths
  rw [← List.length_eq_zero_iff, lengths, List.length_eq_zero_iff]

end Session.Mirrors

namespace Generation

variable {α β : Type} {source : String} {settings : Settings} {m : Machine Session}
  {n n' : Machine Plain}

/-- Between two tasks, a machine that was reached stands where the plain loop does. -/
structure Stands (source : String) (m : Machine Session) (n : Machine Plain) : Prop where
  reached : Reached source .empty m
  rest : m.host.AtRest
  alike : m.Alike (Session.Follows source) n

/-- A part of the loop has gone on, with this value, to where the plain loop is. -/
def Arrives (source : String) (n : Machine Plain) (a : α)
    (ran : Except ScriptError α × Machine Session) : Prop :=
  ran.1 = .ok a ∧ Stands source ran.2 n

theorem Arrives.bind {x : Eval Session α} {f : α → Eval Session β} {a : α} {b : β}
    (first : Arrives source n a (x.run m))
    (rest : ∀ m', Stands source m' n → Arrives source n' b ((f a).run m')) :
    Arrives source n' b ((x >>= f).run m) := by
  rcases run : x.run m with ⟨result, m'⟩
  rw [run] at first
  obtain ⟨same, stands⟩ := first
  cases same
  rw [Eval.run_bind_ok run]
  exact rest m' stands

/-- Where the plain loop has made a round without a failure, the loop is at rest again. -/
theorem Plays.arrives {x : Eval Session Unit} (plays : Plays source settings.limits n (x.run m))
    (leads : Leads source m x fun _ _ => True)
    (round : Plain.Round settings.limits n (.ok ()) n') : Arrives source n' () (x.run m) := by
  unfold Leads at leads
  obtain ⟨n'', made, alike⟩ := plays
  obtain ⟨same, rfl⟩ := made.unique round
  rw [same] at leads
  exact ⟨same, leads.1, leads.2.1, alike⟩

namespace Stands

theorem snap (stands : Stands source m n) {description : String} (phase : Phase)
    (other : description ∉ runWords) :
    Arrives source n () ((snap description phase).run m) :=
  ⟨rfl, stands.reached.snap description phase other, stands.rest.snap _ _ _,
    stands.alike.withHost ⟨(stands.reached.snap description phase other).later,
      stands.alike.host.2.of_same rfl rfl rfl rfl rfl⟩⟩

theorem hasDeferred (stands : Stands source m n) :
    m.host.hasDeferred = false ↔ n.host.deferred = [] :=
  hasDeferred_eq_false.trans stands.alike.host.2.deferred_iff

theorem hasTimers (stands : Stands source m n) :
    m.host.hasTimers = false ↔ n.host.waiting = [] :=
  hasTimers_eq_false.trans stands.alike.host.2.waiting_iff

theorem hasWork (stands : Stands source m n) :
    m.host.hasWork = false ↔ n.host.Idle := by
  rw [hasWork_eq_false, stands.alike.host.2.deferred_iff, stands.alike.host.2.waiting_iff]
  exact and_iff_left stands.rest.ready

/-- A checkpoint ends when nothing is deferred any more, if it may run as many callbacks as that
takes. -/
theorem checkpoint {count bound : Nat} (drains : Plain.Drains settings.limits count n n')
    (enough : count ≤ bound) (stands : Stands source m n) :
    Arrives source n' .idle ((checkpoint settings bound).run m) := by
  induction drains generalizing bound m with
  | nil n none =>
    have queue := stands.alike.host.2.deferred_iff.mpr none
    cases bound with
    | zero =>
      rw [Generation.checkpoint, Eval.run_bind_ok (run_ask ..), stands.hasDeferred.mpr none]
      exact ⟨rfl, stands⟩
    | succ bound =>
      rw [run_checkpoint_nil bound queue]
      exact ⟨rfl, stands⟩
  | round some round _ ih =>
    obtain ⟨bound, rfl⟩ := Nat.exists_eq_add_of_le' (Nat.zero_lt_of_lt enough)
    obtain ⟨task, others, queue⟩ :=
      List.exists_cons_of_ne_nil (mt stands.alike.host.2.deferred_iff.mp some)
    obtain ⟨m₁, leads, plays, run⟩ :=
      run_checkpoint_plays bound stands.reached stands.rest stands.alike queue
    rw [run]
    refine (plays.arrives leads round).bind ?_
    intro m₂ stands₂
    rw [Eval.run_bind_ok (run_ask ..)]
    have within := Nat.le_of_succ_le_succ enough
    cases m₂.host.hasDeferred with
    | true => exact (stands₂.snap .checking (by decide)).bind fun m₃ stands₃ => ih within stands₃
    | false => exact ih within stands₂

/-- With nothing left to run, no more passes are made. -/
theorem passes_idle (bound : Nat) (first : Bool) (idle : n.host.Idle) (stands : Stands source m n) :
    Arrives source n .idle ((passes settings first bound).run m) := by
  have none := stands.hasWork.mpr idle
  cases bound with
  | zero =>
    rw [passes, Eval.run_bind_ok (run_ask ..), none]
    exact ⟨rfl, stands⟩
  | succ bound =>
    rw [passes, Eval.run_bind_ok (run_ask ..), none]
    exact ⟨rfl, stands⟩

/-- A pass says what it has found, and goes on. -/
theorem passes_busy {bound : Nat} {first : Bool} (busy : ¬ n.host.Idle)
    (follows : ∀ m', Stands source m' n →
      Arrives source n' .idle ((restOfPass settings first bound).run m'))
    (stands : Stands source m n) :
    Arrives source n' .idle ((passes settings first (bound + 1)).run m) := by
  have work : m.host.hasWork = true := by
    rw [← Bool.not_eq_false, stands.hasWork]
    exact busy
  rw [passes, Eval.run_bind_ok (run_ask ..), work]
  refine (stands.snap .checking (by decide)).bind ?_
  intro m₁ stands₁
  rw [Eval.run_bind_ok (run_ask ..), stands₁.rest.stackIsEmpty, if_pos rfl,
    Eval.run_bind_ok (run_ask ..)]
  cases m₁.host.hasDeferred with
  | true => exact (stands₁.snap .checking (by decide)).bind follows
  | false => exact follows m₁ stands₁

/-- Passes are made until nothing is left to run, if as many may be made as that takes. -/
theorem passes {count bound : Nat}
    (completes : Plain.Completes settings.limits settings.maxDeferredPerCheckpoint count n n')
    (enough : count ≤ bound) (first : Bool) (stands : Stands source m n) :
    Arrives source n' .idle ((passes settings first bound).run m) := by
  induction completes generalizing bound first m with
  | idle n idle => exact passes_idle bound first idle stands
  | @last count n n' drains within none =>
    obtain ⟨bound, rfl⟩ := Nat.exists_eq_add_of_le' enough
    by_cases idle : n.host.Idle
    · cases drains.eq_of_nil idle.1
      exact passes_idle _ first idle stands
    refine passes_busy idle ?_ stands
    intro m₁ stands₁
    unfold restOfPass
    refine (checkpoint drains within stands₁).bind ?_
    intro m₂ stands₂
    dsimp only
    rw [Eval.run_bind_ok (run_ask ..), stands₂.hasTimers.mpr none, if_neg Bool.false_ne_true,
      Eval.run_bind_ok (run_ask ..)]
    have ended : n'.host.Idle := ⟨drains.deferred, none⟩
    cases first && !m₂.host.hasDeferred with
    | true =>
      exact (stands₂.snap .checking (by decide)).bind fun m₃ stands₃ =>
        passes_idle bound false ended stands₃
    | false => exact passes_idle bound false ended stands₂
  | @pass count passes n n₁ n₂ n' drains within some round _ ih =>
    obtain ⟨bound, rfl⟩ := Nat.exists_eq_add_of_le' (Nat.zero_lt_of_lt enough)
    have busy : ¬ n.host.Idle := by
      rintro ⟨nil, none⟩
      cases drains.eq_of_nil nil
      exact some none
    refine passes_busy busy ?_ stands
    intro m₁ stands₁
    unfold restOfPass
    refine (checkpoint drains within stands₁).bind ?_
    intro m₂ stands₂
    have timers : m₂.host.hasTimers = true := by
      rw [← Bool.not_eq_false, stands₂.hasTimers]
      exact some
    dsimp only
    rw [Eval.run_bind_ok (run_ask ..), timers, if_pos rfl]
    have queue := stands₂.alike.host.2.deferred_iff.mpr drains.deferred
    have nonempty := hasTimers_eq_true.mp timers
    refine ((runTimer_plays stands₂.reached stands₂.rest queue nonempty stands₂.alike).arrives
      (runTimer_leads stands₂.reached stands₂.rest queue nonempty) round).bind ?_
    intro m₃ stands₃
    exact ih (Nat.le_of_succ_le_succ enough) false stands₃

end Stands

end Generation

open Generation in
/-- If the bounds of the event loop suffice for the rounds of the plain loop, the output of a
generation is what the plain loop prints. -/
theorem Plain.Completes.finalOutput {settings : Settings} {source : String} {script : Script}
    {n n' : Machine Plain} {count : Nat} (read : parse settings.maxNesting source = .ok script)
    (main : (Eval.runScript settings.limits Plain.host script).run (.initial .empty) = (.ok (), n))
    (completes : Completes settings.limits settings.maxDeferredPerCheckpoint count n n')
    (enough : count ≤ settings.maxIterations) :
    (Timeline.ofSource settings source).finalOutput = n'.host.output := by
  have arrives : Arrives source n' .idle
      ((untilEnding settings script).run (.initial (start source))) := by
    have began := untilEnding_main settings source script
    rw [main] at began
    obtain ⟨m, same, reached, rest, alike⟩ := began
    rw [same]
    exact Stands.passes completes enough true ⟨reached, rest, alike⟩
  unfold Timeline.ofSource
  rw [read]
  dsimp only
  rw [run_eq_untilEnding]
  rcases run : (untilEnding settings script).run (.initial (start source)) with ⟨result, m⟩
  rw [run] at arrives
  obtain ⟨same, stands⟩ := arrives
  cases same
  rw [Eval.run_bind_ok run]
  show m.host.close.finalOutput = n'.host.output
  rw [Session.finalOutput_close stands.reached.later.shown, stands.alike.host.2.output]

end EventLoop
