import EventLoop.Proofs.Language.Sources
import EventLoop.Proofs.Evaluation.Running

/-!
# Where control flow ends

In a script that was read from a source, values are returned inside functions, and jumps lead out of
loops of the same function. So when such a script runs, no jump leaves a function, and nothing but
its own end, or a failure, ends the script: what is done about other flow when a script or the body
of a function has ended never matters.

The surroundings of a statement say which flow it may end with. That each statement keeps to this is
shown along the evaluator, whatever calls do.
-/

namespace EventLoop

open Parsing (Surroundings)

variable {σ α β : Type}

/-- Can a statement with these surroundings end so? -/
def Flow.Allowed (around : Surroundings) : Flow → Prop
  | normal => True
  | returned _ => around.inFunction
  | broke | continued => around.inLoop

theorem Flow.Allowed.outside {flow : Flow} (allowed : flow.Allowed ⟨false, false⟩) :
    flow = .normal := by
  cases flow with
  | normal => rfl
  | returned _ => cases allowed
  | broke => cases allowed
  | continued => cases allowed

theorem Flow.Allowed.function {flow : Flow} (allowed : flow.Allowed .function) :
    flow = .normal ∨ ∃ value, flow = .returned value := by
  cases flow with
  | normal => exact .inl rfl
  | returned value => exact .inr ⟨value, rfl⟩
  | broke => cases allowed
  | continued => cases allowed

namespace Eval

/-- Whatever the machine, what the computation gives has the property. -/
def Gives (x : Eval σ α) (holds : α → Prop) : Prop :=
  ∀ m a m', x.run m = (.ok a, m') → holds a

namespace Gives

variable {holds : α → Prop} {holds' : β → Prop}

theorem pure {a : α} (h : holds a) : Gives (Pure.pure a : Eval σ α) holds := by
  intro m a' m' run
  cases run
  exact h

theorem throw (e : ScriptError) : Gives (MonadExcept.throw e : Eval σ α) holds := by
  intro m a m' run
  cases run

theorem bind {x : Eval σ α} {f : α → Eval σ β} (first : Gives x holds)
    (second : ∀ a, holds a → Gives (f a) holds') : Gives (x >>= f) holds' := by
  intro m b m' run
  rw [run_bind] at run
  cases ran : x.run m with | mk result m₁ =>
  rw [ran] at run
  cases result with
  | error e => cases run
  | ok a => exact second a (first m a m₁ ran) m₁ b m' run

/-- What a computation gives that comes first does not matter. -/
theorem after {x : Eval σ α} {f : α → Eval σ β} (second : ∀ a, Gives (f a) holds') :
    Gives (x >>= f) holds' := by
  have first : Gives x fun _ => True := fun _ _ _ _ => trivial
  exact first.bind fun a _ => second a

end Gives

variable (limits : Limits) {around : Surroundings}

/-- A loop ends as one of its rounds says. -/
theorem rounds_gives {round : Eval σ (Option Flow)} {holds : Flow → Prop}
    (each : Gives round fun result => ∀ flow ∈ result, holds flow) (bound : Nat) :
    Gives (rounds limits round bound) holds := by
  induction bound with
  | zero => exact .throw _
  | succ bound ih =>
    rw [rounds]
    refine each.bind ?_
    intro result known
    cases result with
    | some flow => exact .pure (known flow rfl)
    | none => exact ih

/-- A loop takes in the jumps of its body. -/
theorem afterBody_gives {flow : Flow} (allowed : flow.Allowed around.loop) (go : Eval σ Unit) :
    Gives (afterBody limits flow go) fun result => ∀ flow ∈ result, flow.Allowed around := by
  cases flow with
  | broke => exact .pure fun _ same => by cases same; trivial
  | returned value => exact .pure fun _ same => by cases same; exact allowed
  | normal | continued => exact .after fun _ => .after fun _ => .pure nofun

variable (host : Host σ) (apply : Apply σ)

theorem forRound_gives (env : Env) (condition update : Option Expr) (name : Option String)
    {body : Env → Eval σ Flow} (each : ∀ inner, Gives (body inner) (Flow.Allowed around.loop)) :
    Gives (forRound limits host apply env condition update name body)
      fun result => ∀ flow ∈ result, flow.Allowed around := by
  unfold forRound
  have finish (goOn : Bool) :
      Gives (if goOn then forBody limits host apply env update name body else return some .normal)
        fun result => ∀ flow ∈ result, flow.Allowed around := by
    cases goOn with
    | true =>
      refine .after fun inner => (each inner).bind ?_
      intro flow allowed
      exact .after fun _ => afterBody_gives limits allowed _
    | false => exact .pure fun _ same => by cases same; trivial
  cases condition with
  | some condition => exact .after fun _ => finish _
  | none => exact finish true

variable (bound : Nat) {inHole : Bool}

mutual

/-- A statement ends in a way that its surroundings allow. -/
theorem exec_gives (env : Env) : ∀ {around : Surroundings} (s : Stmt),
    s.Meets .placed inHole around →
      Gives (exec limits host apply bound env s) (Flow.Allowed around)
  | around, .declare _ word name init, _ => by
    rw [exec]
    have finish (value : Value) :
        Gives (do declare env name value (word = .constWord); pure .normal : Eval σ Flow)
          (Flow.Allowed around) :=
      .after fun _ => .pure trivial
    refine .after fun _ => ?_
    cases init with
    | some e => exact .after finish
    | none => exact finish .undefined
  | around, .define _, _ => by
    simp only [exec]
    exact .after fun _ => .pure trivial
  | around, .empty, _ => by
    simp only [exec]
    exact .after fun _ => .pure trivial
  | around, .choose condition yes no, meets => by
    unfold exec
    refine .after fun _ => .after fun value => ?_
    split
    · exact exec_gives env yes meets.2.2.1
    · cases no with
      | some no => exact exec_gives env no meets.2.2.2
      | none => exact .pure trivial
  | around, .whileLoop condition body, meets => by
    rw [exec]
    refine .after fun _ => rounds_gives limits (.after fun value => ?_) bound
    split
    · refine (exec_gives env body meets.2.2).bind ?_
      intro flow allowed
      exact afterBody_gives limits allowed _
    · exact .pure fun _ same => by cases same; trivial
  | around, .forLoop init condition update body, meets => by
    rw [exec]
    refine .after fun _ => .after fun env => ?_
    have loop := rounds_gives limits (forRound_gives limits host apply env condition update
      (roundName init) fun inner => exec_gives inner body meets.2.2.2.2) bound
    cases init with
    | some init => exact .after fun _ => loop
    | none => exact loop
  | around, .giveBack value, meets => by
    simp only [exec]
    refine .after fun _ => ?_
    cases value with
    | some e => exact .after fun _ => .pure meets.1
    | none => exact .pure meets.1
  | around, .breakLoop, meets => by
    rw [exec]
    exact .after fun _ => .pure meets.1
  | around, .continueLoop, meets => by
    rw [exec]
    exact .after fun _ => .pure meets.1
  | around, .block statements, meets => by
    rw [exec]
    exact .after fun _ => .after fun env => .after fun _ => execAll_gives env statements meets.2
  | around, .evaluate e, _ => by
    rw [exec]
    exact .after fun _ => .after fun _ => .pure trivial

theorem execAll_gives (env : Env) : ∀ {around : Surroundings} (statements : List Stmt),
    Stmt.EachMeets .placed inHole around statements →
      Gives (execAll limits host apply bound env statements) (Flow.Allowed around)
  | around, [], _ => by
    rw [execAll]
    exact .pure trivial
  | around, s :: rest, meets => by
    rw [execAll]
    refine (exec_gives env s meets.1).bind ?_
    intro flow allowed
    cases flow with
    | normal => exact execAll_gives env rest meets.2
    | _ => exact .pure allowed

end

theorem execBlock_gives (env : Env) {statements : List Stmt}
    (meets : Stmt.EachMeets .placed inHole around statements) :
    Gives (execBlock limits host apply bound env statements) (Flow.Allowed around) :=
  .after fun _ => execAll_gives limits host apply bound env statements meets

/-- Runs statements in order, however each of them ends. -/
def execEach (env : Env) : List Stmt → Eval σ Unit
  | [] => return ()
  | s :: rest => do
    let _ ← exec limits host apply bound env s
    execEach env rest

/-- Outside functions and loops, no statement keeps those after it from being run. -/
theorem execAll_outside (env : Env) {statements : List Stmt}
    (meets : Stmt.EachMeets .placed inHole ⟨false, false⟩ statements) (m : Machine σ) :
    (execAll limits host apply bound env statements).run m =
      (do execEach limits host apply bound env statements; return Flow.normal).run m := by
  induction statements generalizing m with
  | nil =>
    rw [execAll]
    rfl
  | cons s rest ih =>
    rw [execAll, execEach, bind_assoc, run_bind, run_bind]
    cases ran : (exec limits host apply bound env s).run m with | mk result m₁ =>
    cases result with
    | error e => rfl
    | ok flow =>
      have normal := (exec_gives limits host apply bound env s meets.1 m flow m₁ ran).outside
      subst normal
      exact ih meets.2 m₁

end Eval

open Eval

/-- Whatever runs it, the script ends with its last statement, unless it fails: no flow skips a
statement, and none is left in the end. -/
def Script.RunsThrough (script : Script) : Prop :=
  ∀ {σ : Type} (limits : Limits) (host : Host σ) (apply : Apply σ) (bound : Nat) (env : Env)
    (m : Machine σ),
    (execBlock limits host apply bound env script).run m =
      (do
        hoist env script
        execEach limits host apply bound env script
        return Flow.normal).run m

/-- Whatever runs it, the block of the function ends with its last statement or returns a value,
unless it fails: no jump leaves it. -/
def Definition.KeepsJumps (definition : Definition) : Prop :=
  ∀ statements, definition.body = .block statements →
    ∀ {σ : Type} (limits : Limits) (host : Host σ) (apply : Apply σ) (bound : Nat) (env : Env),
      (execBlock limits host apply bound env statements).Gives
        fun flow => flow = .normal ∨ ∃ value, flow = .returned value

/-- No jump leaves a function. -/
def Rules.contained : Rules where
  expr _ _ := True
  definition _ definition := definition.KeepsJumps
  stmt _ _ := True

theorem Definition.Meets.keepsJumps {inHole declared : Bool} {definition : Definition}
    (meets : definition.Meets .placed inHole declared) : definition.KeepsJumps := by
  rintro statements block σ limits host apply bound env m flow m' run
  rcases definition with ⟨_, _, body, _⟩
  cases block
  exact (execBlock_gives limits host apply bound env meets.2 m flow m' run).function

/-- Where jumps stand where they can be taken, none leaves a function. -/
theorem Rules.Implies.placed_contained : Rules.placed.Implies .contained where
  expr _ := trivial
  definition meets := meets.keepsJumps
  stmt _ := trivial

theorem Script.Meets.runsThrough {script : Script} (meets : script.Meets .placed) :
    script.RunsThrough := by
  intro σ limits host apply bound env m
  rw [execBlock, run_bind, run_bind]
  rcases (hoist env script).run m with ⟨_ | _, m₁⟩
  · rfl
  · exact execAll_outside limits host apply bound env meets m₁

/-- In a script that was read from a source, values are returned inside functions, and jumps lead
out of loops of the same function. So it runs through, and no jump leaves any of its functions. -/
theorem parse_flow {limit : Nat} {source : String} {script : Script}
    (accepted : parse limit source = .ok script) :
    script.Meets .placed ∧ script.RunsThrough ∧ script.Meets .contained := by
  have outcome := parse_meets limit source ((Rules.Implies.and_right _ _).trans (.and_left _ _))
  rw [accepted] at outcome
  have placed : script.Meets .placed := outcome
  exact ⟨placed, placed.runsThrough, Stmt.EachMeets.mono .placed_contained script placed⟩

theorem parse_flow_jump :
    ∃ script, parse 64 "function f() \x7b while (true) break; return \x7d" = .ok script ∧
      Script.Meets .placed script ∧ Script.RunsThrough script ∧
        Script.Meets .contained script := by
  have accepted :
      (parse 64 "function f() \x7b while (true) break; return \x7d").isOk = true := by
    decide +kernel
  cases found : parse 64 "function f() \x7b while (true) break; return \x7d" with
  | error e =>
    rw [found] at accepted
    cases accepted
  | ok script => exact ⟨script, rfl, parse_flow found⟩

end EventLoop
