import EventLoop.Proofs.Evaluation.Path

/-!
# Every evaluation takes a path

Read once, case by case along the evaluator: from a machine in order, what a script, a callback or
any part of them does to the machine is a path, the value they give names only promises that exist,
and their failure, if they fail, is one that a run can end in.
-/

namespace EventLoop

variable {σ α β : Type}

namespace Eval

/-- The value has the property on the machine, or the failure is one that a run can end in. -/
def Yields (holds : α → Machine σ → Prop) (m : Machine σ) : Except ScriptError α → Prop
  | .ok a => holds a m
  | .error e => e.OfRun

/-- Run on the second machine, the computation ends a path from the first, and yields a value with
the property or fails. -/
def TrackedFrom (limits : Limits) (host : Host σ) (start m : Machine σ) (x : Eval σ α)
    (holds : α → Machine σ → Prop) : Prop :=
  Path limits host start (x.run m).2 ∧ Yields holds (x.run m).2 (x.run m).1

/-- From the machine, the computation takes a path. -/
abbrev Tracked (limits : Limits) (host : Host σ) (m : Machine σ) (x : Eval σ α)
    (holds : α → Machine σ → Prop) : Prop :=
  TrackedFrom limits host m m x holds

/-- The property of a value that evaluation keeps up. -/
def Known (value : Value) (m : Machine σ) : Prop :=
  value.Within m.promises.size

namespace TrackedFrom

variable {limits : Limits} {host : Host σ} {start m m' : Machine σ}

theorem of_run {x : Eval σ α} {holds : α → Machine σ → Prop} {a : α}
    (run : x.run m = (.ok a, m')) (path : Path limits host start m') (h : holds a m') :
    TrackedFrom limits host start m x holds := by
  unfold TrackedFrom
  rw [run]
  exact ⟨path, h⟩

theorem of_error {x : Eval σ α} {holds : α → Machine σ → Prop} {e : ScriptError}
    (run : x.run m = (.error e, m')) (path : Path limits host start m') (h : e.OfRun) :
    TrackedFrom limits host start m x holds := by
  unfold TrackedFrom
  rw [run]
  exact ⟨path, h⟩

end TrackedFrom

namespace Tracked

variable {limits : Limits} {host : Host σ} {m : Machine σ}

theorem pure {holds : α → Machine σ → Prop} {a : α} (h : holds a m) :
    Tracked limits host m (Pure.pure a) holds :=
  .of_run (run_pure a m) (.refl m) h

theorem throw {holds : α → Machine σ → Prop} {e : ScriptError} (h : e.OfRun) :
    Tracked limits host m (throw e) holds :=
  .of_error (run_throw e m) (.refl m) h

theorem bind {x : Eval σ α} {f : α → Eval σ β} {mid : α → Machine σ → Prop}
    {holds : β → Machine σ → Prop} (hx : Tracked limits host m x mid)
    (hf : ∀ a m', Path limits host m m' → mid a m' → Tracked limits host m' (f a) holds) :
    Tracked limits host m (x >>= f) holds := by
  unfold Tracked TrackedFrom at hx
  rcases run : x.run m with ⟨result, m'⟩
  rw [run] at hx
  obtain ⟨path, h⟩ := hx
  cases result with
  | error e => exact .of_error (run_bind_error run) path h
  | ok a =>
    have rest := hf a m' path h
    unfold Tracked TrackedFrom at rest ⊢
    rw [run_bind_ok run]
    exact ⟨path.trans rest.1, rest.2⟩

theorem throw_bind {e : ScriptError} {f : α → Eval σ β} {holds : β → Machine σ → Prop}
    (h : e.OfRun) : Tracked limits host m (MonadExcept.throw e >>= f) holds :=
  .of_error (run_bind_error (run_throw e m)) (.refl m) h

theorem get_bind {f : Machine σ → Eval σ β} {holds : β → Machine σ → Prop}
    (h : Tracked limits host m (f m) holds) : Tracked limits host m (get >>= f) holds := by
  unfold Tracked TrackedFrom
  rw [run_bind_ok (run_get m)]
  exact h

end Tracked

variable {limits : Limits} {host : Host σ} {m : Machine σ}

theorem tick_tracked : Tracked limits host m (tick limits) fun _ _ => True := by
  unfold Tracked TrackedFrom
  rw [run_tick]
  split
  · exact ⟨.tick m, trivial⟩
  · exact ⟨.tick m, trivial⟩

theorem read_tracked (inOrder : m.InOrder) (env : Env) (name : String) (line : Nat) :
    Tracked limits host m (read env name line) Known := by
  refine .get_bind ?_
  cases found : m.scopes.read env name with
  | some value => exact .pure (inOrder.read found)
  | none => exact .throw trivial

theorem assign_tracked (env : Env) (name : String) {value : Value} (line : Nat)
    (known : Known value m) :
    Tracked limits host m (assign env name value line) fun _ _ => True := by
  refine .get_bind ?_
  cases found : m.scopes.resolve env name with
  | none => exact .throw trivial
  | some target =>
    obtain ⟨id, binding⟩ := target
    cases fixed : binding.fixed with
    | true =>
      simp only [fixed, if_true]
      exact .throw_bind trivial
    | false =>
      simp only [fixed, Bool.false_eq_true, if_false]
      exact .of_run (run_modify _ m)
        (fixed ▸ .assign m env id name binding value found fixed known) trivial

theorem declare_tracked (env : Env) (name : String) {value : Value} (fixed : Bool)
    (known : Known value m) :
    Tracked limits host m (declare env name value fixed) fun _ _ => True := by
  cases env with
  | nil => exact .pure trivial
  | cons id _ => exact .of_run (run_modify _ m) (.declare m id name ⟨value, fixed⟩ known) trivial

theorem openScope_tracked (env : Env) :
    Tracked limits host m (openScope env) fun _ _ => True :=
  .of_run (run_modifyGet _ m) (.openScope m) trivial

theorem newClosure_tracked (definition : Definition) (env : Env) :
    Tracked limits host m (newClosure definition env) fun _ _ => True :=
  .of_run (run_modifyGet _ m) (.newClosure m) trivial

theorem property_tracked {object : Value} (name : String) (source : Expr) (line : Nat)
    (known : Known object m) :
    Tracked limits host m (property object name source line) Known := by
  cases object with
  | undefined | null => exact .throw trivial
  | native n =>
    cases n with
    | console | promise =>
      simp only [property]
      split <;> exact .pure trivial
    | _ => exact .pure trivial
  | promise p =>
    simp only [property]
    split
    · exact .pure known
    · exact .pure trivial
  | text s =>
    simp only [property]
    split <;> exact .pure trivial
  | _ => exact .pure trivial

theorem wantFunction_cases (args : List Value) (primitive : String) (line : Nat) :
    (∃ function rest, args = .function function :: rest ∧
      wantFunction (σ := σ) args primitive line = pure function) ∨
    ∃ e : ScriptError, wantFunction (σ := σ) args primitive line = throw e ∧ e.OfRun := by
  cases args with
  | nil => exact .inr ⟨_, rfl, trivial⟩
  | cons value rest =>
    cases value with
    | function function => exact .inl ⟨function, rest, rfl, rfl⟩
    | _ => exact .inr ⟨_, rfl, trivial⟩

theorem run_chain_resolved {receiver : PromiseId} {value : Value} {args : List Value}
    {function : Closure} {line : Nat}
    (want : wantFunction args "Promise.then" line = (pure function : Eval σ Closure))
    (found : m.promises[receiver]? = some (.resolved value)) :
    (chain host receiver args line).run m =
      (.ok (.promise m.promises.size),
        { m with promises := m.promises.push (.pending []) }.onHost
          (host.chain (some ⟨function, some value, some m.promises.size⟩) line)) := by
  have kept := Promises.getElem?_push_of_some found (.pending [])
  simp only [chain, want, newPromise, run_bind, run_pure, run_modifyGet, run_get, kept, run_onHost]

theorem run_chain_pending {receiver : PromiseId} {waiting : List Reaction} {args : List Value}
    {function : Closure} {line : Nat}
    (want : wantFunction args "Promise.then" line = (pure function : Eval σ Closure))
    (found : m.promises[receiver]? = some (.pending waiting)) :
    (chain host receiver args line).run m =
      (.ok (.promise m.promises.size),
        { m with
          promises := (m.promises.push (.pending [])).setIfInBounds receiver
            (.pending (waiting ++ [Reaction.handler function m.promises.size])) }.onHost
          (host.chain none line)) := by
  have kept := Promises.getElem?_push_of_some found (.pending [])
  simp only [chain, want, newPromise, run_bind, run_pure, run_modifyGet, run_get, kept, run_onHost,
    run_modify]

/-- A primitive that wants a function fails without one, before it does anything. -/
theorem wantFunction_throws {args : List Value} {primitive : String} {line : Nat}
    {e : ScriptError} {f : Closure → Eval σ α} {holds : α → Machine σ → Prop}
    (want : wantFunction args primitive line = (throw e : Eval σ Closure)) (h : e.OfRun) :
    TrackedFrom limits host m m.tick (wantFunction args primitive line >>= f) holds := by
  rw [want]
  exact .of_error (run_bind_error (run_throw e m.tick)) (.tick m) h

/-- A handler is attached to a promise that exists, and its own promise is the next one. -/
theorem chain_tracked {receiver : PromiseId} (bound : receiver < m.promises.size)
    (args : List Value) (line : Nat) (steps : m.steps < limits.maxSteps) :
    TrackedFrom limits host m m.tick (chain host receiver args line) Known := by
  rcases wantFunction_cases (σ := σ) args "Promise.then" line with
    ⟨function, _, _, want⟩ | ⟨e, want, h⟩
  · have found := Array.getElem?_eq_getElem bound
    cases state : m.promises[receiver] with
    | resolved value =>
      rw [state] at found
      exact .of_run (run_chain_resolved (m := m.tick) want found)
        (.chain m receiver value function line steps found)
        (by simp [Known, Value.Within, Machine.onHost, Machine.tick])
    | pending waiting =>
      rw [state] at found
      exact .of_run (run_chain_pending (m := m.tick) want found)
        (.park m receiver waiting function line steps found)
        (by simp [Known, Value.Within, Machine.onHost, Machine.tick])
  · exact wantFunction_throws want h

theorem callNative_tracked {native : Native} {args : List Value} (callee : Expr) (line : Nat)
    (steps : m.steps < limits.maxSteps) (known : Known (.native native) m)
    (knownArgs : ∀ value ∈ args, Known value m) :
    TrackedFrom limits host m m.tick (callNative host native args callee line) Known := by
  cases native with
  | console | promise => exact .of_error rfl (.tick m) trivial
  | log => exact .of_run rfl (.print m _ line steps) trivial
  | setTimeout =>
    rcases wantFunction_cases (σ := σ) args "setTimeout" line with
      ⟨function, rest, rfl, -⟩ | ⟨e, want, h⟩
    · exact .of_run rfl (.registerTimer m function _ line steps) trivial
    · exact wantFunction_throws want h
  | queueMicrotask =>
    rcases wantFunction_cases (σ := σ) args "queueMicrotask" line with
      ⟨function, rest, rfl, -⟩ | ⟨e, want, h⟩
    · exact .of_run rfl (.defer m function line steps) trivial
    · exact wantFunction_throws want h
  | resolve =>
    have known : Known (args.head?.getD .undefined) m := Value.holds_first trivial knownArgs
    unfold callNative
    generalize args.head?.getD .undefined = value at known
    cases value with
    | promise p => exact .of_run (run_pure _ _) (.tick m) known
    | _ =>
      exact .of_run rfl (.resolve m _ steps (by simp) known)
        (by simp [Known, Value.Within, Machine.tick])
  | thenOf receiver => exact chain_tracked known args line steps

/-- What running the body of a closure does: the call is refused, or its path lies inside the
call. -/
def Applies (limits : Limits) (host : Host σ) (apply : Apply σ) : Prop :=
  ∀ (function : Closure) (args : List Value) (line : Nat) (m : Machine σ), m.InOrder →
    (∀ value ∈ args, Known value m) →
    (∃ e : ScriptError, (apply function args line).run m = (.error e, m) ∧ e.OfRun) ∨
    m.depth < limits.maxCallDepth ∧
      ∃ result m', (apply function args line).run m = (result, m'.shallower) ∧
        Path limits host m.deeper m' ∧ Yields Known m' result

theorem call_tracked {apply : Apply σ} (applies : Applies limits host apply)
    (inOrder : m.InOrder) {function : Value} {args : List Value} (callee : Expr) (line : Nat)
    (known : Known function m) (knownArgs : ∀ value ∈ args, Known value m) :
    Tracked limits host m (call limits host apply function args callee line) Known := by
  by_cases spent : limits.maxSteps ≤ m.steps
  · have run : (tick limits).run m = (.error (.budget limits.maxSteps), m.tick) := by
      rw [run_tick, if_pos spent]
    exact .of_error (run_bind_error run) (.tick m) trivial
  have steps : m.steps < limits.maxSteps := Nat.lt_of_not_le spent
  have run : (tick limits).run m = (.ok ⟨⟩, m.tick) := by rw [run_tick, if_neg spent]
  unfold Tracked TrackedFrom call
  rw [run_bind_ok run]
  cases function with
  | native native => exact callNative_tracked callee line steps known knownArgs
  | function closure =>
    dsimp only
    rw [run_between]
    rcases applies closure args line
        (m.tick.onHost (host.enter (closure.name.getD "(anonymous)") line))
        ⟨inOrder.scopes, inOrder.promises⟩ knownArgs with
      ⟨e, run, h⟩ | ⟨depth, result, m', run, path, h⟩
    · simp only [Machine.onHost] at run
      exact ⟨by simp only [run]; exact .refuse m _ line steps, by simp only [run]; exact h⟩
    · simp only [Machine.onHost] at run
      refine ⟨by simp only [run]; exact .call m m' _ line steps depth path, ?_⟩
      simp only [run]
      cases result with
      | ok value => exact h
      | error e => exact h
  | _ => exact ⟨.tick m, trivial⟩

/-- What is known of a value stays known along a path. -/
theorem Known.along {value : Value} {m' : Machine σ} (known : Known value m)
    (path : Path limits host m m') : Known value m' :=
  Value.Within.mono known path.promises_le

theorem known_undefined : Known .undefined m := trivial

theorem known_number (x : Float) : Known (.number x) m := trivial

theorem known_function (closure : Closure) : Known (.function closure) m := trivial

theorem known_add (a b : Value) : Known (a.add b) m := by
  unfold Value.add
  split <;> trivial

theorem known_binary (op : BinaryOp) (a b : Value) : Known (Value.binary op a b) m := by
  cases op with
  | add => exact known_add a b
  | less | lessEqual | greater | greaterEqual =>
    simp only [Value.binary, Value.compareWith]
    split <;> trivial
  | _ => trivial

section

variable {apply : Apply σ}

mutual

/-- An expression takes a path, and its value names only promises that exist. -/
theorem eval_tracked (applies : Applies limits host apply) (env : Env) :
    ∀ (e : Expr) {m : Machine σ}, m.InOrder →
      Tracked limits host m (eval limits host apply env e) Known
  | .number _ _, _, _ | .text _ _, _, _ | .bool _ _, _, _ | .null _, _, _ | .undefined _, _, _ =>
    .pure trivial
  | .template _ parts, m, inOrder => by
    rw [eval]
    exact (evalParts_tracked applies env parts inOrder).bind fun _ _ _ _ => .pure trivial
  | .name line name, _, inOrder => by
    rw [eval]
    exact read_tracked inOrder env name line
  | .assign line op target e, m, inOrder => by
    rw [eval]
    refine (eval_tracked applies env e inOrder).bind ?_
    intro right m₁ path₁ known
    have inOrder₁ := path₁.inOrder inOrder
    have finish (value : Value) (m' : Machine σ) (known : Known value m') :
        Tracked limits host m' (do assign env target value line; pure value) Known :=
      (assign_tracked env target line known).bind fun _ _ path _ => .pure (known.along path)
    cases op with
    | set => exact (Tracked.pure known).bind fun value m' _ known => finish value m' known
    | add =>
      refine (read_tracked inOrder₁ env target line).bind ?_
      intro old m₂ _ _
      exact (Tracked.pure (known_add old right)).bind fun value m' _ known => finish value m' known
    | sub =>
      refine (read_tracked inOrder₁ env target line).bind ?_
      intro old m₂ _ _
      exact (Tracked.pure (known_number _)).bind fun value m' _ known => finish value m' known
  | .update line count moment target, m, inOrder => by
    rw [eval]
    refine (read_tracked inOrder env target line).bind ?_
    intro old m₁ _ _
    cases count <;>
      exact (assign_tracked env target line (known_number _)).bind fun _ _ _ _ => .pure trivial
  | .binary _ op left right, m, inOrder => by
    rw [eval]
    refine (eval_tracked applies env left inOrder).bind ?_
    intro a m₁ path₁ _
    exact (eval_tracked applies env right (path₁.inOrder inOrder)).bind fun b _ _ _ =>
      .pure (known_binary op a b)
  | .logical _ op left right, m, inOrder => by
    rw [eval]
    refine (eval_tracked applies env left inOrder).bind ?_
    intro a m₁ path₁ known
    have inOrder₁ := path₁.inOrder inOrder
    cases op <;> cases a.truthy
    · exact .pure known
    · exact eval_tracked applies env right inOrder₁
    · exact eval_tracked applies env right inOrder₁
    · exact .pure known
  | .unary _ op operand, m, inOrder => by
    rw [eval]
    refine (eval_tracked applies env operand inOrder).bind ?_
    intro a _ _ _
    cases op <;> exact .pure trivial
  | .conditional _ condition yes no, m, inOrder => by
    rw [eval]
    refine (eval_tracked applies env condition inOrder).bind ?_
    intro a m₁ path₁ _
    have inOrder₁ := path₁.inOrder inOrder
    split
    · exact eval_tracked applies env yes inOrder₁
    · exact eval_tracked applies env no inOrder₁
  | .member line object name, m, inOrder => by
    rw [eval]
    exact (eval_tracked applies env object inOrder).bind fun _ _ _ known =>
      property_tracked name object line known
  | .call line callee args, m, inOrder => by
    rw [eval]
    refine (eval_tracked applies env callee inOrder).bind ?_
    intro function m₁ path₁ known
    have inOrder₁ := path₁.inOrder inOrder
    refine (evalAll_tracked applies env args inOrder₁).bind ?_
    intro values m₂ path₂ knownArgs
    exact call_tracked applies (path₂.inOrder inOrder₁) callee line (known.along path₂) knownArgs
  | .function _ definition, m, _ => by
    rw [eval]
    exact (newClosure_tracked definition env).bind fun _ _ _ _ => .pure trivial

theorem evalAll_tracked (applies : Applies limits host apply) (env : Env) :
    ∀ (es : List Expr) {m : Machine σ}, m.InOrder →
      Tracked limits host m (evalAll limits host apply env es)
        fun values m' => ∀ value ∈ values, Known value m'
  | [], _, _ => by
    rw [evalAll]
    exact .pure (by simp)
  | e :: rest, m, inOrder => by
    rw [evalAll]
    refine (eval_tracked applies env e inOrder).bind ?_
    intro value m₁ path₁ known
    refine (evalAll_tracked applies env rest (path₁.inOrder inOrder)).bind
      ?_
    intro values m₂ path₂ knowns
    refine .pure ?_
    intro other member
    rcases List.mem_cons.mp member with rfl | member
    · exact known.along path₂
    · exact knowns other member

theorem evalParts_tracked (applies : Applies limits host apply) (env : Env) :
    ∀ (parts : List Part) {m : Machine σ}, m.InOrder →
      Tracked limits host m (evalParts limits host apply env parts) fun _ _ => True
  | [], _, _ => by
    rw [evalParts]
    exact .pure trivial
  | .text s :: rest, m, inOrder => by
    rw [evalParts]
    exact (evalParts_tracked applies env rest inOrder).bind fun _ _ _ _ => .pure trivial
  | .value e :: rest, m, inOrder => by
    rw [evalParts]
    refine (eval_tracked applies env e inOrder).bind ?_
    intro value m₁ path₁ _
    exact (evalParts_tracked applies env rest (path₁.inOrder inOrder)).bind
      fun _ _ _ _ => .pure trivial

end

/-- What a statement ends with names only promises that exist. -/
def KnownFlow (flow : Flow) (m : Machine σ) : Prop :=
  match flow with
  | .returned value => Known value m
  | _ => True

theorem hoist_tracked (env : Env) (statements : List Stmt) {m : Machine σ} :
    Tracked limits host m (hoist env statements) fun _ _ => True := by
  induction statements generalizing m with
  | nil => exact .pure trivial
  | cons statement rest ih =>
    cases statement with
    | define definition =>
      rw [hoist]
      cases definition.name with
      | none => exact ih
      | some name =>
        refine (newClosure_tracked definition env).bind ?_
        intro closure m₁ _ _
        exact (declare_tracked env name false (known_function closure)).bind fun _ _ _ _ => ih
    | _ =>
      rw [hoist]
      · exact ih
      · simp

theorem rounds_tracked {round : Eval σ (Option Flow)}
    (tracked : ∀ {m : Machine σ}, m.InOrder → Tracked limits host m round
      fun result m' => ∀ flow, result = some flow → KnownFlow flow m')
    (bound : Nat) {m : Machine σ} (inOrder : m.InOrder) :
    Tracked limits host m (rounds limits round bound) KnownFlow := by
  induction bound generalizing m with
  | zero => exact .throw trivial
  | succ bound ih =>
    rw [rounds]
    refine (tracked inOrder).bind ?_
    intro result m₁ path known
    cases result with
    | some flow => exact .pure (known flow rfl)
    | none => exact ih (path.inOrder inOrder)

theorem afterBody_tracked {flow : Flow} {go : Eval σ Unit} {m : Machine σ}
    (known : KnownFlow flow m) (tracked : Tracked limits host m go fun _ _ => True) :
    Tracked limits host m (afterBody limits flow go)
      fun result m' => ∀ flow, result = some flow → KnownFlow flow m' := by
  cases flow with
  | broke => exact .pure fun _ same => by cases same; trivial
  | returned value => exact .pure fun _ same => by cases same; exact known
  | normal | continued =>
    refine tracked.bind ?_
    intro _ m₁ _ _
    exact tick_tracked.bind fun _ _ _ _ => .pure fun _ same => by cases same

/-- What is read of a name, or undefined, names only promises that exist. -/
theorem known_read {m : Machine σ} (inOrder : m.InOrder) (env : Env) (name : String) :
    Known ((m.scopes.read env name).getD .undefined) m :=
  inOrder.values.read_getD trivial env name

theorem openRound_tracked {m : Machine σ} (inOrder : m.InOrder) (env : Env)
    (name : Option String) : Tracked limits host m (openRound env name) fun _ _ => True := by
  refine (openScope_tracked env).bind ?_
  intro inner m₁ path₁ _
  cases name with
  | none => exact .pure trivial
  | some name =>
    refine .get_bind ?_
    have known := known_read (path₁.inOrder inOrder) env name
    exact (declare_tracked inner name false known).bind fun _ _ _ _ => .pure trivial

theorem closeRound_tracked {m : Machine σ} (inOrder : m.InOrder) (env inner : Env)
    (name : Option String) : Tracked limits host m (closeRound env inner name) fun _ _ => True := by
  cases name with
  | none => exact .pure trivial
  | some name =>
    refine .get_bind ?_
    have known := known_read inOrder inner name
    cases env with
    | nil => exact .pure trivial
    | cons id _ => exact .of_run (run_modify _ m) (.overwrite m id name _ known) trivial

theorem KnownFlow.along {flow : Flow} {m m' : Machine σ} (known : KnownFlow flow m)
    (path : Path limits host m m') : KnownFlow flow m' := by
  cases flow with
  | returned value => exact Known.along known path
  | _ => trivial

/-- A round of a `for` loop takes a path if its body does. -/
theorem forBody_tracked (applies : Applies limits host apply) (env : Env)
    (update : Option Expr) {body : Env → Eval σ Flow} (name : Option String)
    (tracked : ∀ (inner : Env) (m : Machine σ), m.InOrder →
      Tracked limits host m (body inner) KnownFlow)
    {m : Machine σ} (inOrder : m.InOrder) :
    Tracked limits host m (forBody limits host apply env update name body)
      fun result m' => ∀ flow, result = some flow → KnownFlow flow m' := by
  unfold forBody
  refine (openRound_tracked inOrder env name).bind ?_
  intro inner m₁ path₁ _
  have inOrder₁ := path₁.inOrder inOrder
  refine (tracked inner m₁ inOrder₁).bind ?_
  intro flow m₂ path₂ known
  have inOrder₂ := path₂.inOrder inOrder₁
  refine (closeRound_tracked inOrder₂ env inner name).bind ?_
  intro _ m₃ path₃ _
  refine afterBody_tracked (known.along path₃) ?_
  cases update with
  | some update =>
    exact (eval_tracked applies env update (path₃.inOrder inOrder₂)).bind
      fun _ _ _ _ => .pure trivial
  | none => exact .pure trivial

theorem forRound_tracked (applies : Applies limits host apply) (env : Env)
    (condition update : Option Expr) {body : Env → Eval σ Flow} (name : Option String)
    (tracked : ∀ (inner : Env) (m : Machine σ), m.InOrder →
      Tracked limits host m (body inner) KnownFlow)
    {m : Machine σ} (inOrder : m.InOrder) :
    Tracked limits host m (forRound limits host apply env condition update name body)
      fun result m' => ∀ flow, result = some flow → KnownFlow flow m' := by
  have finish (m' : Machine σ) (inOrder' : m'.InOrder) (goOn : Bool) :
      Tracked limits host m'
        (if goOn then forBody limits host apply env update name body else return some .normal)
        fun result m'' => ∀ flow, result = some flow → KnownFlow flow m'' := by
    cases goOn with
    | true => exact forBody_tracked applies env update name tracked inOrder'
    | false =>
      refine .pure ?_
      intro flow same
      cases same
      trivial
  unfold forRound
  cases condition with
  | some condition =>
    refine (eval_tracked applies env condition inOrder).bind ?_
    intro value m₁ path₁ _
    exact finish m₁ (path₁.inOrder inOrder) value.truthy
  | none => exact finish m inOrder true

mutual

/-- A statement takes a path. -/
theorem exec_tracked (applies : Applies limits host apply) (bound : Nat) :
    ∀ (env : Env) (statement : Stmt) {m : Machine σ}, m.InOrder →
      Tracked limits host m (exec limits host apply bound env statement) KnownFlow
  | env, .declare _ word name init, m, inOrder => by
    rw [exec]
    refine tick_tracked.bind ?_
    intro _ m₁ path₁ _
    have inOrder₁ := path₁.inOrder inOrder
    have finish (value : Value) (m' : Machine σ) (known : Known value m') :
        Tracked limits host m'
          (do declare env name value (word = .constWord); pure .normal) KnownFlow :=
      (declare_tracked env name _ known).bind fun _ _ _ _ => .pure trivial
    cases init with
    | some e =>
      exact (eval_tracked applies env e inOrder₁).bind fun value m₂ _ known => finish value m₂ known
    | none =>
      exact (Tracked.pure known_undefined).bind fun value m₂ _ known => finish value m₂ known
  | _, .define _, m, _ => by
    simp only [exec]
    exact tick_tracked.bind fun _ _ _ _ => .pure trivial
  | _, .empty, m, _ => by
    rw [exec]
    exact tick_tracked.bind fun _ _ _ _ => .pure trivial
  | env, .choose condition yes no, m, inOrder => by
    unfold exec
    refine tick_tracked.bind ?_
    intro _ m₁ path₁ _
    have inOrder₁ := path₁.inOrder inOrder
    refine (eval_tracked applies env condition inOrder₁).bind ?_
    intro value m₂ path₂ _
    have inOrder₂ := path₂.inOrder inOrder₁
    split
    · exact exec_tracked applies bound env yes inOrder₂
    · cases no with
      | some no => exact exec_tracked applies bound env no inOrder₂
      | none => exact .pure trivial
  | env, .whileLoop condition body, m, inOrder => by
    rw [exec]
    refine tick_tracked.bind ?_
    intro _ m₁ path₁ _
    refine rounds_tracked (fun {m₁} inOrder₁ => ?_) bound (path₁.inOrder inOrder)
    refine (eval_tracked applies env condition inOrder₁).bind ?_
    intro value m₂ path₂ _
    split
    · refine (exec_tracked applies bound env body (path₂.inOrder inOrder₁)).bind
        ?_
      intro flow m₃ _ known
      exact afterBody_tracked known (.pure trivial)
    · exact .pure fun _ same => by cases same; trivial
  | env, .forLoop init condition update body, m, inOrder => by
    rw [exec]
    refine tick_tracked.bind ?_
    intro _ m₁ path₁ _
    refine (openScope_tracked env).bind ?_
    intro env m₂ path₂ _
    have inOrder₂ := path₂.inOrder (path₁.inOrder inOrder)
    have round (inner : Env) (m' : Machine σ) (inOrder' : m'.InOrder) :=
      exec_tracked applies bound inner body inOrder'
    cases init with
    | some init =>
      refine (exec_tracked applies bound env init inOrder₂).bind ?_
      intro _ m₃ path₃ _
      exact rounds_tracked (forRound_tracked applies env condition update _ round) bound
        (path₃.inOrder inOrder₂)
    | none =>
      exact rounds_tracked (forRound_tracked applies env condition update _ round) bound inOrder₂
  | env, .giveBack value, m, inOrder => by
    simp only [exec]
    refine tick_tracked.bind ?_
    intro _ m₁ path₁ _
    cases value with
    | some e =>
      exact (eval_tracked applies env e (path₁.inOrder inOrder)).bind fun _ _ _ known =>
        .pure known
    | none => exact .pure trivial
  | _, .breakLoop, m, _ => by
    rw [exec]
    exact tick_tracked.bind fun _ _ _ _ => .pure trivial
  | _, .continueLoop, m, _ => by
    rw [exec]
    exact tick_tracked.bind fun _ _ _ _ => .pure trivial
  | env, .block statements, m, inOrder => by
    rw [exec]
    refine tick_tracked.bind ?_
    intro _ m₁ path₁ _
    refine (openScope_tracked env).bind ?_
    intro env m₂ path₂ _
    refine (hoist_tracked env statements).bind ?_
    intro _ m₃ path₃ _
    exact execAll_tracked applies bound env statements
      (path₃.inOrder (path₂.inOrder (path₁.inOrder inOrder)))
  | env, .evaluate e, m, inOrder => by
    rw [exec]
    refine tick_tracked.bind ?_
    intro _ m₁ path₁ _
    exact (eval_tracked applies env e (path₁.inOrder inOrder)).bind fun _ _ _ _ => .pure trivial

theorem execAll_tracked (applies : Applies limits host apply) (bound : Nat) :
    ∀ (env : Env) (statements : List Stmt) {m : Machine σ}, m.InOrder →
      Tracked limits host m (execAll limits host apply bound env statements) KnownFlow
  | _, [], m, _ => by
    rw [execAll]
    exact .pure trivial
  | env, statement :: rest, m, inOrder => by
    rw [execAll]
    refine (exec_tracked applies bound env statement inOrder).bind ?_
    intro flow m₁ path known
    cases flow with
    | normal => exact execAll_tracked applies bound env rest (path.inOrder inOrder)
    | _ => exact .pure known

end

theorem execBlock_tracked (applies : Applies limits host apply) (bound : Nat) (env : Env)
    (statements : List Stmt) {m : Machine σ} (inOrder : m.InOrder) :
    Tracked limits host m (execBlock limits host apply bound env statements) KnownFlow :=
  (hoist_tracked env statements).bind fun _ _ path _ =>
    execAll_tracked applies bound env statements (path.inOrder inOrder)

end

theorem bindParams_tracked (env : Env) (params : List String) {args : List Value}
    {m : Machine σ} (known : ∀ value ∈ args, Known value m) :
    Tracked limits host m (bindParams env params args) fun _ _ => True := by
  induction params generalizing args m with
  | nil => exact .pure trivial
  | cons param params ih =>
    have head : Known (args.head?.getD .undefined) m := Value.holds_first trivial known
    refine (declare_tracked env param false head).bind ?_
    intro _ m₁ path _
    exact ih fun value member => (known value (List.mem_of_mem_tail member)).along path

/-- The body of a closure is run inside a call, or not at all. The induction is on the number of
calls that may lie inside one another. -/
theorem invoke_applies (bound : Nat) : Applies limits host (invoke limits host bound) := by
  induction bound with
  | zero => exact fun _ _ _ m _ _ => .inl ⟨_, rfl, trivial⟩
  | succ bound ih =>
    intro closure args line m inOrder known
    by_cases deep : limits.maxCallDepth ≤ m.depth
    · refine .inl ⟨.callDepth line limits.maxCallDepth, ?_, trivial⟩
      rw [invoke, run_bind_ok (run_get m), if_pos deep]
      exact run_bind_error (run_throw _ m)
    refine .inr ⟨Nat.lt_of_not_le deep, ?_⟩
    have inside : m.deeper.InOrder := ⟨inOrder.scopes, inOrder.promises⟩
    rw [invoke, run_bind_ok (run_get m), if_neg deep]
    refine ⟨_, _, run_between _ _ _ m, ?_⟩
    show Tracked limits host m.deeper _ Known
    refine (openScope_tracked closure.env).bind ?_
    intro env m₁ path₁ _
    have inOrder₁ := path₁.inOrder inside
    have known₁ : ∀ value ∈ args, Known value m₁ := fun value member =>
      (show Known value m.deeper from known value member).along path₁
    refine (bindParams_tracked env _ known₁).bind ?_
    intro _ m₂ path₂ _
    have inOrder₂ := path₂.inOrder inOrder₁
    cases closure.definition.body with
    | block statements =>
      refine (execBlock_tracked ih (bound + 1) env statements inOrder₂).bind ?_
      intro flow m₃ _ known
      cases flow with
      | returned value => exact .pure known
      | _ => exact .pure trivial
    | value e => exact eval_tracked ih env e inOrder₂

/-- A script takes a path. -/
theorem runScript_tracked (script : Script) (inOrder : m.InOrder) :
    Tracked limits host m (runScript limits host script) fun _ _ => True :=
  (execBlock_tracked (invoke_applies limits.maxSteps) _ globalEnv script inOrder).bind
    fun _ _ _ _ => .pure trivial

/-- A callback is refused, or takes a path inside a call; then it fails, or its value settles the
promise that it settles. -/
theorem runCallback_cases (callback : Callback) (inOrder : m.InOrder)
    (known : ∀ value, callback.argument = some value → Known value m) :
    (∃ e : ScriptError, (runCallback limits host callback).run m = (.error e, m) ∧ e.OfRun) ∨
    m.depth < limits.maxCallDepth ∧ ∃ m', Path limits host m.deeper m' ∧
      ((∃ e : ScriptError,
          (runCallback limits host callback).run m = (.error e, m'.shallower) ∧ e.OfRun) ∨
        ∃ value, Known value m' ∧ (runCallback limits host callback).run m =
          (.ok ⟨⟩, m'.shallower.finish host callback.settles value)) := by
  rw [run_runCallback]
  have knownArgs : ∀ value ∈ callback.argument.toList, Known value m := fun value member =>
    known value (Option.mem_toList.mp member)
  rcases invoke_applies (limits.maxSteps + 1) callback.function callback.argument.toList
      callback.function.definition.line m inOrder knownArgs with
    ⟨e, run, h⟩ | ⟨depth, result, m', run, path, yields⟩
  · exact .inl ⟨e, by rw [run], h⟩
  · refine .inr ⟨depth, m', path, ?_⟩
    cases result with
    | error e => exact .inl ⟨e, by rw [run], yields⟩
    | ok value => exact .inr ⟨value, yields, by rw [run]⟩

end Eval
end EventLoop
