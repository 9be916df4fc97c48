import EventLoop.Proofs.Evaluation.Tracking
import EventLoop.Proofs.Language.Rules
import EventLoop.Proofs.Promise.Closures

/-!
# Where closures come from

All closures that a run meets were made from definitions in its script. So if a script complies with
rules, the definitions of the functions that are called, and of those that are handed to the host,
comply with them, too. This is shown along the evaluator: what it adds to scopes and promises it has
read there, or made from a part of the code that it runs. A host may rely on it, and so it keeps
what it can keep when told of such functions only.
-/

namespace EventLoop

open Parsing (Surroundings)

variable {σ α β : Type}

/-- The closure was made from a definition that complies with the rules where it stands. -/
def Closure.Complies (rules : Rules) (closure : Closure) : Prop :=
  ∃ inHole declared, closure.definition.Meets rules inHole declared

/-- If the value is a closure, it complies. -/
abbrev Value.Complies (rules : Rules) (value : Value) : Prop :=
  value.Carries (Closure.Complies rules)

/-- If the statement ends with a closure as value, it complies. -/
def Flow.Complies (rules : Rules) : Flow → Prop
  | .returned value => value.Complies rules
  | _ => True

/-- The closures that a machine can reach comply with the rules, and its host is as stated. -/
structure Machine.Complies (rules : Rules) (Holds : σ → Prop) (m : Machine σ) : Prop where
  scopes : Scopes.Hold (Value.Complies rules) m.scopes
  promises : m.promises.Carries (Closure.Complies rules)
  host : Holds m.host

/-- The host keeps the statement about it when it hears of functions that comply with the rules. -/
structure Host.Upholds (host : Host σ) (rules : Rules) (Holds : σ → Prop) : Prop where
  print : ∀ text line s, Holds s → Holds (host.print text line s)
  registerTimer : ∀ callback delay line s, callback.Carries (Closure.Complies rules) → Holds s →
    Holds (host.registerTimer callback delay line s).2
  defer : ∀ callback line s, callback.Carries (Closure.Complies rules) → Holds s →
    Holds (host.defer callback line s)
  chain : ∀ callback line s, (∀ c ∈ callback, c.Carries (Closure.Complies rules)) → Holds s →
    Holds (host.chain callback line s)
  release : ∀ callbacks s, (∀ c ∈ callbacks, c.Carries (Closure.Complies rules)) → Holds s →
    Holds (host.release callbacks s)
  enter : ∀ (closure : Closure) line s, closure.Complies rules → Holds s →
    Holds (host.enter (closure.name.getD "(anonymous)") line s)
  leave : ∀ s, Holds s → Holds (host.leave s)

namespace Value

variable {rules : Rules}

theorem add_complies (a b : Value) : (a.add b).Complies rules := by
  unfold add
  split <;> trivial

theorem binary_complies (op : BinaryOp) (a b : Value) : (Value.binary op a b).Complies rules := by
  cases op with
  | add => exact add_complies a b
  | less | lessEqual | greater | greaterEqual =>
    simp only [Value.binary, Value.compareWith]
    split <;> trivial
  | _ => trivial

theorem unary_complies (op : UnaryOp) (a : Value) : (Value.unary op a).Complies rules := by
  cases op <;> trivial

end Value

namespace Machine.Complies

variable {rules : Rules} {Holds : σ → Prop} {m : Machine σ}

theorem initial {host : σ} (holds : Holds host) : (Machine.initial host).Complies rules Holds where
  scopes := Scopes.Hold.globals fun _ _ => trivial
  promises p state found := by simp [Machine.initial] at found
  host := holds

theorem setPromises (complies : m.Complies rules Holds) {promises : Promises}
    (carries : promises.Carries (Closure.Complies rules)) :
    { m with promises }.Complies rules Holds :=
  ⟨complies.scopes, carries, complies.host⟩

/-- Settling a promise releases closures that waited for it, to a host that may rely on them. -/
theorem settle (complies : m.Complies rules Holds) {host : Host σ}
    (upholds : host.Upholds rules Holds) (p : PromiseId) {value : Value}
    (carries : value.Complies rules) :
    (m.settle host p value).Complies rules Holds := by
  obtain ⟨after, released⟩ := complies.promises.settle p carries
  refine ⟨complies.scopes, after, ?_⟩
  show Holds (if (m.promises.settle p value).2.isEmpty then m.host
    else host.release (m.promises.settle p value).2 m.host)
  split
  · exact complies.host
  · exact upholds.release _ _ released complies.host

end Machine.Complies

namespace Eval

/-- From a machine whose closures comply, the computation leads to such a machine, and what it gives
has the property. -/
def Keeps (rules : Rules) (Holds : σ → Prop) (x : Eval σ α) (gives : α → Prop) : Prop :=
  ∀ m, m.Complies rules Holds →
    (x.run m).2.Complies rules Holds ∧ ∀ a, (x.run m).1 = .ok a → gives a

namespace Keeps

variable {rules : Rules} {Holds : σ → Prop} {gives : α → Prop} {gives' : β → Prop}

theorem pure {a : α} (h : gives a) : Keeps rules Holds (Pure.pure a : Eval σ α) gives :=
  fun _ complies => ⟨complies, fun _ same => by cases same; exact h⟩

theorem throw (e : ScriptError) : Keeps rules Holds (MonadExcept.throw e : Eval σ α) gives :=
  fun _ complies => ⟨complies, fun _ same => by cases same⟩

theorem bind {x : Eval σ α} {f : α → Eval σ β} (first : Keeps rules Holds x gives)
    (second : ∀ a, gives a → Keeps rules Holds (f a) gives') :
    Keeps rules Holds (x >>= f) gives' := by
  intro m complies
  obtain ⟨complies₁, given⟩ := first m complies
  rw [run_bind]
  rcases ran : x.run m with ⟨e | a, m₁⟩
  · rw [ran] at complies₁
    exact ⟨complies₁, fun _ same => by cases same⟩
  · rw [ran] at complies₁ given
    exact second a (given a rfl) m₁ complies₁

theorem throw_bind (e : ScriptError) (f : α → Eval σ β) :
    Keeps rules Holds (MonadExcept.throw e >>= f) gives' := by
  have failed : Keeps rules Holds (MonadExcept.throw e : Eval σ α) fun _ => False := .throw e
  exact failed.bind nofun

theorem get_bind {f : Machine σ → Eval σ β}
    (h : ∀ m, m.Complies rules Holds →
      ((f m).run m).2.Complies rules Holds ∧ ∀ b, ((f m).run m).1 = .ok b → gives' b) :
    Keeps rules Holds (get >>= f) gives' :=
  fun m complies => by
    rw [run_bind_ok (run_get m)]
    exact h m complies

theorem of_modifyGet {f : Machine σ → α × Machine σ}
    (h : ∀ m, m.Complies rules Holds → gives (f m).1 ∧ (f m).2.Complies rules Holds) :
    Keeps rules Holds (modifyGet f) gives :=
  fun m complies => ⟨(h m complies).2, fun _ same => by cases same; exact (h m complies).1⟩

theorem of_modify {f : Machine σ → Machine σ}
    (h : ∀ m, m.Complies rules Holds → (f m).Complies rules Holds) :
    Keeps rules Holds (modify f) fun _ => True :=
  of_modifyGet fun m complies => ⟨trivial, h m complies⟩

end Keeps

variable {rules : Rules} {Holds : σ → Prop}

theorem tick_keeps (limits : Limits) : Keeps rules Holds (tick limits) fun _ => True := by
  intro m complies
  have ticked : m.tick.Complies rules Holds := ⟨complies.scopes, complies.promises, complies.host⟩
  rw [run_tick]
  split
  · exact ⟨ticked, fun _ _ => trivial⟩
  · exact ⟨ticked, fun _ _ => trivial⟩

theorem read_keeps (env : Env) (name : String) (line : Nat) :
    Keeps rules Holds (read env name line) (Value.Complies rules) := by
  refine .get_bind fun m complies => ?_
  cases found : m.scopes.read env name with
  | some value => exact Keeps.pure (complies.scopes.read found) m complies
  | none => exact Keeps.throw _ m complies

theorem onScopes_keeps {f : Scopes → Scopes}
    (h : ∀ scopes, Scopes.Hold (Value.Complies rules) scopes →
      Scopes.Hold (Value.Complies rules) (f scopes)) :
    Keeps rules Holds (onScopes (σ := σ) f) fun _ => True :=
  .of_modify fun _ complies => ⟨h _ complies.scopes, complies.promises, complies.host⟩

theorem assign_keeps (env : Env) (name : String) {value : Value} (line : Nat)
    (known : value.Complies rules) :
    Keeps rules Holds (assign env name value line) fun _ => True := by
  refine .get_bind fun m complies => ?_
  cases found : m.scopes.resolve env name with
  | none => exact Keeps.throw _ m complies
  | some target =>
    obtain ⟨id, binding⟩ := target
    have assigned : Keeps rules Holds
        (onScopes (σ := σ) (·.declare id name { binding with value })) fun _ => True :=
      onScopes_keeps fun _ hold => hold.declare id name known
    cases fixed : binding.fixed with
    | true =>
      simp only [fixed, if_true]
      exact Keeps.throw_bind _ _ m complies
    | false =>
      simp only [fixed, Bool.false_eq_true, if_false] at assigned ⊢
      exact assigned m complies

theorem declare_keeps (env : Env) (name : String) {value : Value} (fixed : Bool)
    (known : value.Complies rules) :
    Keeps rules Holds (declare env name value fixed) fun _ => True := by
  cases env with
  | nil => exact .pure trivial
  | cons id _ => exact onScopes_keeps fun _ hold => hold.declare id name known

theorem openScope_keeps (env : Env) : Keeps rules Holds (openScope env) fun _ => True :=
  .of_modifyGet fun _ complies =>
    ⟨trivial, complies.scopes.push, complies.promises, complies.host⟩

theorem newClosure_keeps {definition : Definition} (env : Env) {inHole declared : Bool}
    (meets : definition.Meets rules inHole declared) :
    Keeps rules Holds (newClosure definition env) (Closure.Complies rules) :=
  .of_modifyGet fun _ complies => ⟨⟨inHole, declared, meets⟩,
    complies.scopes, complies.promises, complies.host⟩

theorem newPromise_keeps {state : PromiseState}
    (carries : state.Carries (Closure.Complies rules)) :
    Keeps rules Holds (newPromise state) fun _ => True :=
  .of_modifyGet fun _ complies => ⟨trivial, complies.setPromises (complies.promises.push carries)⟩

theorem property_keeps (object : Value) (name : String) (source : Expr) (line : Nat) :
    Keeps rules Holds (property object name source line) (Value.Complies rules) := by
  cases object with
  | undefined | null => exact .throw _
  | native n =>
    cases n with
    | console | promise =>
      simp only [property]
      split <;> exact .pure trivial
    | _ => exact .pure trivial
  | promise p | text p =>
    simp only [property]
    split <;> exact .pure trivial
  | _ => exact .pure trivial

theorem onHost_keeps {f : σ → σ} (h : ∀ s, Holds s → Holds (f s)) :
    Keeps rules Holds (onHost f) fun _ => True :=
  .of_modify fun _ complies => ⟨complies.scopes, complies.promises, h _ complies.host⟩

theorem askHost_keeps {f : σ → α × σ} (h : ∀ s, Holds s → Holds (f s).2) :
    Keeps rules Holds (askHost f) fun _ => True :=
  .of_modifyGet fun _ complies =>
    ⟨trivial, complies.scopes, complies.promises, h _ complies.host⟩

theorem wantFunction_keeps {args : List Value} (known : ∀ value ∈ args, value.Complies rules)
    (primitive : String) (line : Nat) :
    Keeps rules Holds (wantFunction args primitive line) (Closure.Complies rules) := by
  rcases wantFunction_cases (σ := σ) args primitive line with
    ⟨function, rest, rfl, want⟩ | ⟨e, want, -⟩
  · rw [want]
    exact .pure (known _ List.mem_cons_self)
  · rw [want]
    exact .throw e

theorem hoist_keeps (env : Env) {inHole : Bool} {around : Surroundings} :
    ∀ statements : List Stmt, Stmt.EachMeets rules inHole around statements →
      Keeps rules Holds (hoist (σ := σ) env statements) fun _ => True := by
  intro statements meets
  induction statements with
  | nil => exact .pure trivial
  | cons statement rest ih =>
    cases statement with
    | define definition =>
      rw [hoist]
      cases definition.name with
      | none => exact ih meets.2
      | some name =>
        refine (newClosure_keeps env meets.1.2).bind fun closure known => ?_
        have hoisted : (Value.function closure).Complies rules := known
        exact (declare_keeps env name false hoisted).bind fun _ _ => ih meets.2
    | _ =>
      rw [hoist]
      · exact ih meets.2
      · simp

theorem bindParams_keeps (env : Env) (params : List String) {args : List Value}
    (known : ∀ value ∈ args, value.Complies rules) :
    Keeps rules Holds (bindParams (σ := σ) env params args) fun _ => True := by
  induction params generalizing args with
  | nil => exact .pure trivial
  | cons param params ih =>
    have first : (args.head?.getD .undefined).Complies rules := Value.holds_first trivial known
    refine (declare_keeps env param false first).bind fun _ _ => ih ?_
    exact fun value member => known value (List.mem_of_mem_tail member)

theorem openRound_keeps (env : Env) (name : Option String) :
    Keeps rules Holds (openRound (σ := σ) env name) fun _ => True := by
  refine (openScope_keeps env).bind fun inner _ => ?_
  cases name with
  | none => exact .pure trivial
  | some name =>
    refine .get_bind fun m complies => ?_
    exact (declare_keeps inner name false (complies.scopes.read_getD trivial env name)).bind
      (fun _ _ => .pure trivial) m complies

theorem closeRound_keeps (env inner : Env) (name : Option String) :
    Keeps rules Holds (closeRound (σ := σ) env inner name) fun _ => True := by
  cases name with
  | none => exact .pure trivial
  | some name =>
    refine .get_bind fun m complies => ?_
    have known := complies.scopes.read_getD trivial inner name
    cases env with
    | nil => exact Keeps.pure trivial m complies
    | cons id _ =>
      exact onScopes_keeps (fun _ hold => hold.overwrite id name known) m complies

variable (limits : Limits)

/-- What is known of the flow that a round of a loop ends with. -/
abbrev RoundComplies (rules : Rules) (result : Option Flow) : Prop :=
  ∀ flow ∈ result, flow.Complies rules

theorem rounds_keeps {round : Eval σ (Option Flow)}
    (each : Keeps rules Holds round (RoundComplies rules)) (bound : Nat) :
    Keeps rules Holds (rounds limits round bound) (Flow.Complies rules) := by
  induction bound with
  | zero => exact .throw _
  | succ bound ih =>
    rw [rounds]
    refine each.bind fun result known => ?_
    cases result with
    | some flow => exact .pure (known flow rfl)
    | none => exact ih

theorem afterBody_keeps {flow : Flow} (known : flow.Complies rules) {go : Eval σ Unit}
    (goes : Keeps rules Holds go fun _ => True) :
    Keeps rules Holds (afterBody limits flow go) (RoundComplies rules) := by
  cases flow with
  | broke => exact .pure fun _ same => by cases same; trivial
  | returned value => exact .pure fun _ same => by cases same; exact known
  | normal | continued => exact goes.bind fun _ _ => (tick_keeps limits).bind fun _ _ => .pure nofun

variable {host : Host σ} (upholds : host.Upholds rules Holds)

include upholds

theorem chain_keeps (receiver : PromiseId) {args : List Value}
    (known : ∀ value ∈ args, value.Complies rules) (line : Nat) :
    Keeps rules Holds (chain host receiver args line) (Value.Complies rules) := by
  refine (wantFunction_keeps known _ line).bind fun function complying => ?_
  have fresh : (PromiseState.pending []).Carries (Closure.Complies rules) := nofun
  refine (newPromise_keeps fresh).bind fun next _ => .get_bind ?_
  intro m complies
  -- what the receiver holds is known only now, so the machine is fixed here
  cases state : m.promises[receiver]? with
  | none => exact Keeps.throw_bind _ _ m complies
  | some promise =>
    cases promise with
    | resolved value =>
      have released := Callback.Carries.handler complying (complies.promises receiver _ state)
        (some next)
      refine (onHost_keeps fun s holds => ?_).bind (fun _ _ => .pure trivial) m complies
      exact upholds.chain _ line s (fun _ same => by cases same; exact released) holds
    | pending waiting =>
      have waits : (PromiseState.pending (waiting ++ [.handler function next])).Carries
          (Closure.Complies rules) :=
        List.forall_mem_append.mpr
          ⟨complies.promises receiver _ state, List.forall_mem_singleton.mpr complying⟩
      have parked : Keeps rules Holds (modify (m := Eval σ) fun machine =>
          { machine with
            promises := machine.promises.setIfInBounds receiver
              (.pending (waiting ++ [.handler function next])) }) fun _ => True :=
        .of_modify fun m' complies' => complies'.setPromises (complies'.promises.set receiver waits)
      refine parked.bind (fun _ _ => ?_) m complies
      refine (onHost_keeps fun s holds => ?_).bind fun _ _ => .pure trivial
      exact upholds.chain _ line s nofun holds

theorem callNative_keeps (native : Native) {args : List Value}
    (known : ∀ value ∈ args, value.Complies rules) (callee : Expr) (line : Nat) :
    Keeps rules Holds (callNative host native args callee line) (Value.Complies rules) := by
  cases native with
  | console | promise => exact .throw _
  | log =>
    exact (onHost_keeps fun s holds => upholds.print _ line s holds).bind fun _ _ => .pure trivial
  | setTimeout =>
    refine (wantFunction_keeps known "setTimeout" line).bind fun function complying => ?_
    refine (askHost_keeps fun s holds => ?_).bind fun _ _ => .pure trivial
    exact upholds.registerTimer _ _ line s (.plain complying) holds
  | queueMicrotask =>
    refine (wantFunction_keeps known "queueMicrotask" line).bind fun function complying => ?_
    refine (onHost_keeps fun s holds => ?_).bind fun _ _ => .pure trivial
    exact upholds.defer _ line s (.plain complying) holds
  | resolve =>
    have first : (args.head?.getD .undefined).Complies rules := Value.holds_first trivial known
    unfold callNative
    generalize args.head?.getD .undefined = value at first
    have settled : (PromiseState.resolved value).Carries (Closure.Complies rules) := first
    cases value with
    | promise p => exact .pure trivial
    | _ => exact (newPromise_keeps settled).bind fun _ _ => .pure trivial
  | thenOf receiver => exact chain_keeps upholds receiver known line

/-- Running the body of a closure that complies keeps up that all do. -/
def AppliesWithin (rules : Rules) (Holds : σ → Prop) (apply : Apply σ) : Prop :=
  ∀ (closure : Closure) (args : List Value) (line : Nat), closure.Complies rules →
    (∀ value ∈ args, value.Complies rules) →
    Keeps rules Holds (apply closure args line) (Value.Complies rules)

section

variable {apply : Apply σ} (applies : AppliesWithin rules Holds apply)

set_option linter.unusedSectionVars false

include applies

theorem call_keeps {function : Value} {args : List Value} (callee : Expr) (line : Nat)
    (known : function.Complies rules) (knownArgs : ∀ value ∈ args, value.Complies rules) :
    Keeps rules Holds (call limits host apply function args callee line)
      (Value.Complies rules) := by
  refine (tick_keeps limits).bind fun _ _ => ?_
  cases function with
  | native native => exact callNative_keeps upholds native knownArgs callee line
  | function closure =>
    -- the host hears of the end of the call even if it fails
    intro m complies
    obtain ⟨after, given⟩ := applies closure args line known knownArgs
      (m.onHost (host.enter (closure.name.getD "(anonymous)") line))
      ⟨complies.scopes, complies.promises, upholds.enter closure line _ known complies.host⟩
    exact ⟨⟨after.scopes, after.promises, upholds.leave _ after.host⟩, given⟩
  | _ => exact .throw _

mutual

/-- An expression adds closures made from definitions in it. -/
theorem eval_keeps (env : Env) {inHole : Bool} : ∀ e : Expr, e.Meets rules inHole →
    Keeps rules Holds (eval limits host apply env e) (Value.Complies rules)
  | .number _ _, _ | .text _ _, _ | .bool _ _, _ | .null _, _ | .undefined _, _ => .pure trivial
  | .template _ parts, meets => by
    rw [eval]
    exact (evalParts_keeps env parts meets.2).bind fun _ _ => .pure trivial
  | .name line name, _ => by
    rw [eval]
    exact read_keeps env name line
  | .assign line op target e, meets => by
    rw [eval]
    refine (eval_keeps env e meets.2).bind fun right known => ?_
    have finish (value : Value) (known : value.Complies rules) :
        Keeps rules Holds (do assign env target value line; return value)
          (Value.Complies rules) :=
      (assign_keeps env target line known).bind fun _ _ => .pure known
    cases op with
    | set => exact (Keeps.pure known).bind finish
    | add =>
      refine (read_keeps env target line).bind fun old _ => ?_
      exact (Keeps.pure (Value.add_complies old right)).bind finish
    | sub =>
      refine (read_keeps env target line).bind fun old _ => ?_
      have number : (Value.number (old.toNumber - right.toNumber)).Complies rules := trivial
      exact (Keeps.pure number).bind finish
  | .update line count moment target, _ => by
    rw [eval]
    refine (read_keeps env target line).bind fun old _ => ?_
    have number (x : Float) : (Value.number x).Complies rules := trivial
    cases count <;> exact (assign_keeps env target line (number _)).bind fun _ _ => .pure trivial
  | .binary _ op left right, meets => by
    rw [eval]
    refine (eval_keeps env left meets.2.1).bind fun a _ => ?_
    exact (eval_keeps env right meets.2.2).bind fun b _ => .pure (Value.binary_complies op a b)
  | .logical _ op left right, meets => by
    rw [eval]
    refine (eval_keeps env left meets.2.1).bind fun a known => ?_
    cases op <;> cases a.truthy
    · exact .pure known
    · exact eval_keeps env right meets.2.2
    · exact eval_keeps env right meets.2.2
    · exact .pure known
  | .unary _ op operand, meets => by
    rw [eval]
    exact (eval_keeps env operand meets.2).bind fun a _ => .pure (Value.unary_complies op a)
  | .conditional _ condition yes no, meets => by
    rw [eval]
    refine (eval_keeps env condition meets.2.1).bind fun a _ => ?_
    split
    · exact eval_keeps env yes meets.2.2.1
    · exact eval_keeps env no meets.2.2.2
  | .member line object name, meets => by
    rw [eval]
    exact (eval_keeps env object meets.2).bind fun value _ => property_keeps value name object line
  | .call line callee args, meets => by
    rw [eval]
    refine (eval_keeps env callee meets.2.1).bind fun function known => ?_
    refine (evalAll_keeps env args meets.2.2).bind fun values knownArgs => ?_
    exact call_keeps limits upholds applies callee line known knownArgs
  | .function _ definition, meets => by
    rw [eval]
    exact (newClosure_keeps env meets.2).bind fun _ known => .pure known

theorem evalAll_keeps (env : Env) {inHole : Bool} :
    ∀ es : List Expr, Expr.EachMeets rules inHole es →
      Keeps rules Holds (evalAll limits host apply env es)
        fun values => ∀ value ∈ values, value.Complies rules
  | [], _ => by
    rw [evalAll]
    exact .pure nofun
  | e :: rest, meets => by
    rw [evalAll]
    refine (eval_keeps env e meets.1).bind fun value known => ?_
    refine (evalAll_keeps env rest meets.2).bind fun values knowns => ?_
    exact .pure (List.forall_mem_cons.mpr ⟨known, knowns⟩)

theorem evalParts_keeps (env : Env) : ∀ parts : List Part, Part.EachMeets rules parts →
    Keeps rules Holds (evalParts limits host apply env parts) fun _ => True
  | [], _ => by
    rw [evalParts]
    exact .pure trivial
  | .text s :: rest, meets => by
    rw [evalParts]
    exact (evalParts_keeps env rest meets).bind fun _ _ => .pure trivial
  | .value e :: rest, meets => by
    rw [evalParts]
    refine (eval_keeps env e meets.1).bind fun value _ => ?_
    exact (evalParts_keeps env rest meets.2).bind fun _ _ => .pure trivial

end

theorem forRound_keeps (env : Env) {inHole : Bool} {condition update : Option Expr}
    (meetsCondition : Expr.Meets? rules inHole condition)
    (meetsUpdate : Expr.Meets? rules inHole update) (name : Option String)
    {body : Env → Eval σ Flow}
    (each : ∀ inner, Keeps rules Holds (body inner) (Flow.Complies rules)) :
    Keeps rules Holds (forRound limits host apply env condition update name body)
      (RoundComplies rules) := by
  have finish (goOn : Bool) :
      Keeps rules Holds
        (if goOn then forBody limits host apply env update name body else return some .normal)
        (RoundComplies rules) := by
    cases goOn with
    | true =>
      refine (openRound_keeps env name).bind fun inner _ => (each inner).bind fun flow known => ?_
      refine (closeRound_keeps env inner name).bind fun _ _ => afterBody_keeps limits known ?_
      cases update with
      | some update =>
        exact (eval_keeps limits upholds applies env update meetsUpdate).bind
          fun _ _ => .pure trivial
      | none => exact .pure trivial
    | false => exact .pure fun _ same => by cases same; trivial
  unfold forRound
  cases condition with
  | some condition =>
    exact (eval_keeps limits upholds applies env condition meetsCondition).bind fun value _ =>
      finish value.truthy
  | none => exact finish true

mutual

/-- A statement adds closures made from definitions in it. -/
theorem exec_keeps (bound : Nat) (env : Env) {inHole : Bool} :
    ∀ {around : Surroundings} (s : Stmt), s.Meets rules inHole around →
      Keeps rules Holds (exec limits host apply bound env s) (Flow.Complies rules)
  | _, .declare _ word name init, meets => by
    rw [exec]
    have finish (value : Value) (known : value.Complies rules) :
        Keeps rules Holds (do declare env name value (word = .constWord); pure .normal)
          (Flow.Complies rules) :=
      (declare_keeps env name _ known).bind fun _ _ => .pure trivial
    refine (tick_keeps limits).bind fun _ _ => ?_
    cases init with
    | some e => exact (eval_keeps limits upholds applies env e meets.2).bind finish
    | none => exact finish .undefined trivial
  | _, .define _, _ | _, .empty, _ | _, .breakLoop, _ | _, .continueLoop, _ => by
    simp only [exec]
    exact (tick_keeps limits).bind fun _ _ => .pure trivial
  | _, .choose condition yes no, meets => by
    unfold exec
    refine (tick_keeps limits).bind fun _ _ => ?_
    refine (eval_keeps limits upholds applies env condition meets.2.1).bind fun value _ => ?_
    split
    · exact exec_keeps bound env yes meets.2.2.1
    · cases no with
      | some no => exact exec_keeps bound env no meets.2.2.2
      | none => exact .pure trivial
  | _, .whileLoop condition body, meets => by
    rw [exec]
    refine (tick_keeps limits).bind fun _ _ => rounds_keeps limits ?_ bound
    refine (eval_keeps limits upholds applies env condition meets.2.1).bind fun value _ => ?_
    split
    · refine (exec_keeps bound env body meets.2.2).bind fun flow known => ?_
      exact afterBody_keeps limits known (.pure trivial)
    · exact .pure fun _ same => by cases same; trivial
  | _, .forLoop init condition update body, meets => by
    rw [exec]
    refine (tick_keeps limits).bind fun _ _ => (openScope_keeps env).bind fun env _ => ?_
    have loop := rounds_keeps limits (forRound_keeps limits upholds applies env meets.2.2.1
      meets.2.2.2.1 (roundName init) fun inner => exec_keeps bound inner body meets.2.2.2.2) bound
    cases init with
    | some init => exact (exec_keeps bound env init meets.2.1).bind fun _ _ => loop
    | none => exact loop
  | _, .giveBack value, meets => by
    simp only [exec]
    refine (tick_keeps limits).bind fun _ _ => ?_
    cases value with
    | some e =>
      exact (eval_keeps limits upholds applies env e meets.2).bind fun _ known => .pure known
    | none => exact .pure trivial
  | _, .block statements, meets => by
    rw [exec]
    refine (tick_keeps limits).bind fun _ _ => (openScope_keeps env).bind fun env _ => ?_
    exact (hoist_keeps env statements meets.2).bind fun _ _ =>
      execAll_keeps bound env statements meets.2
  | _, .evaluate e, meets => by
    rw [exec]
    refine (tick_keeps limits).bind fun _ _ => ?_
    exact (eval_keeps limits upholds applies env e meets.2).bind fun _ _ => .pure trivial

theorem execAll_keeps (bound : Nat) (env : Env) {inHole : Bool} :
    ∀ {around : Surroundings} (statements : List Stmt),
      Stmt.EachMeets rules inHole around statements →
        Keeps rules Holds (execAll limits host apply bound env statements) (Flow.Complies rules)
  | _, [], _ => by
    rw [execAll]
    exact .pure trivial
  | _, s :: rest, meets => by
    rw [execAll]
    refine (exec_keeps bound env s meets.1).bind fun flow known => ?_
    cases flow with
    | normal => exact execAll_keeps bound env rest meets.2
    | _ => exact .pure known

end

theorem execBlock_keeps (bound : Nat) (env : Env) {inHole : Bool} {around : Surroundings}
    {statements : List Stmt} (meets : Stmt.EachMeets rules inHole around statements) :
    Keeps rules Holds (execBlock limits host apply bound env statements) (Flow.Complies rules) :=
  (hoist_keeps env statements meets).bind fun _ _ =>
    execAll_keeps limits upholds applies bound env statements meets

theorem enterBody_keeps (bound : Nat) {closure : Closure} (complying : closure.Complies rules)
    {args : List Value} (known : ∀ value ∈ args, value.Complies rules) :
    Keeps rules Holds (enterBody limits host apply bound closure args) (Value.Complies rules) := by
  obtain ⟨identity, ⟨name, params, body, line⟩, around⟩ := closure
  obtain ⟨inHole, declared, meets⟩ := complying
  refine (openScope_keeps around).bind fun env _ => ?_
  refine (bindParams_keeps env params known).bind fun _ _ => ?_
  cases body with
  | block statements =>
    refine (execBlock_keeps limits upholds applies bound env meets.2).bind fun flow known => ?_
    cases flow with
    | returned value => exact .pure known
    | _ => exact .pure trivial
  | value e => exact eval_keeps limits upholds applies env e meets.2

end

/-- The induction is on the number of calls that may lie inside one another. -/
theorem invoke_within (bound : Nat) :
    AppliesWithin rules Holds (invoke limits host bound) := by
  induction bound with
  | zero => exact fun _ _ _ _ _ => .throw _
  | succ bound ih =>
    intro closure args line complying known m complies
    rw [invoke_succ, run_nest]
    split
    · exact Keeps.throw _ m complies
    · have inside : m.deeper.Complies rules Holds :=
        ⟨complies.scopes, complies.promises, complies.host⟩
      obtain ⟨after, given⟩ :=
        enterBody_keeps limits upholds ih (bound + 1) complying known m.deeper inside
      exact ⟨⟨after.scopes, after.promises, after.host⟩, given⟩

/-- All closures that a script makes were made from definitions in it. -/
theorem runScript_keeps {script : Script} (meets : script.Meets rules) :
    Keeps rules Holds (runScript limits host script) fun _ => True := by
  have calls := invoke_within limits upholds limits.maxSteps
  exact (execBlock_keeps limits upholds calls _ globalEnv meets).bind fun _ _ => .pure trivial

theorem runCallback_keeps {callback : Callback}
    (carries : callback.Carries (Closure.Complies rules)) :
    Keeps rules Holds (runCallback limits host callback) fun _ => True := by
  have knownArgs : ∀ value ∈ callback.argument.toList, value.Complies rules :=
    fun value member => carries.argument value (Option.mem_toList.mp member)
  refine (invoke_within limits upholds (limits.maxSteps + 1) callback.function _ _ carries.function
    knownArgs).bind fun value known => ?_
  cases callback.settles with
  | none => exact .pure trivial
  | some p =>
    intro m complies
    rw [run_settle]
    exact ⟨complies.settle upholds p known, fun _ _ => trivial⟩

end Eval

end EventLoop
