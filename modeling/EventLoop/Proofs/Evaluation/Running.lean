import EventLoop.Semantics.Evaluation

/-!
# Running a computation

A computation of a run takes a machine to a result and a machine. Here is what that is for each way
in which computations are built, so that later proofs read a program from its first step to its last
without opening the monad.
-/

namespace EventLoop

variable {σ α β : Type}

/-- A host that does nothing. -/
def Host.silent : Host Unit where
  print _ _ _ := ()
  registerTimer _ _ _ _ := (0, ())
  defer _ _ _ := ()
  chain _ _ _ := ()
  release _ _ := ()

namespace Machine

/-- The machine after one more step. -/
def tick (m : Machine σ) : Machine σ :=
  { m with steps := m.steps + 1 }

/-- The machine after its host was told something. -/
def onHost (f : σ → σ) (m : Machine σ) : Machine σ :=
  { m with host := f m.host }

/-- The machine inside a call. -/
def deeper (m : Machine σ) : Machine σ :=
  { m with depth := m.depth + 1 }

/-- The machine after a call. -/
def shallower (m : Machine σ) : Machine σ :=
  { m with depth := m.depth - 1 }

/-- The machine after a promise was settled and what waited for it was released. -/
def settle (host : Host σ) (p : PromiseId) (value : Value) (m : Machine σ) : Machine σ :=
  { m with
    promises := (m.promises.settle p value).1
    host :=
      if (m.promises.settle p value).2.isEmpty then m.host
      else host.release (m.promises.settle p value).2 m.host }

/-- The machine after a callback gave a value: if its result settles a promise, it did. -/
def finish (host : Host σ) (settles : Option PromiseId) (value : Value) (m : Machine σ) :
    Machine σ :=
  match settles with
  | some p => m.settle host p value
  | none => m

end Machine

namespace Eval

theorem run_pure (a : α) (m : Machine σ) : (pure a : Eval σ α).run m = (.ok a, m) := rfl

theorem run_throw (e : ScriptError) (m : Machine σ) :
    (throw e : Eval σ α).run m = (.error e, m) := rfl

theorem run_get (m : Machine σ) : (get : Eval σ (Machine σ)).run m = (.ok m, m) := rfl

theorem run_modify (f : Machine σ → Machine σ) (m : Machine σ) :
    (modify f : Eval σ PUnit).run m = (.ok ⟨⟩, f m) := rfl

theorem run_modifyGet (f : Machine σ → α × Machine σ) (m : Machine σ) :
    (modifyGet f : Eval σ α).run m = (.ok (f m).1, (f m).2) := rfl

theorem run_bind (x : Eval σ α) (f : α → Eval σ β) (m : Machine σ) :
    (x >>= f).run m = match x.run m with
      | (.ok a, m') => (f a).run m'
      | (.error e, m') => (.error e, m') := by
  show ExceptT.bindCont f (x.run m).1 (x.run m).2 = _
  rcases x.run m with ⟨_ | _, _⟩ <;> rfl

theorem run_bind_ok {x : Eval σ α} {f : α → Eval σ β} {m m' : Machine σ} {a : α}
    (h : x.run m = (.ok a, m')) : (x >>= f).run m = (f a).run m' := by
  rw [run_bind, h]

theorem run_bind_error {x : Eval σ α} {f : α → Eval σ β} {m m' : Machine σ} {e : ScriptError}
    (h : x.run m = (.error e, m')) : (x >>= f).run m = (.error e, m') := by
  rw [run_bind, h]

/-- What ends well did so in its first part. -/
theorem of_run_bind {x : Eval σ α} {f : α → Eval σ β} {m m' : Machine σ} {b : β}
    (run : (x >>= f).run m = (.ok b, m')) :
    ∃ a m₁, x.run m = (.ok a, m₁) ∧ (f a).run m₁ = (.ok b, m') := by
  rcases ran : x.run m with ⟨e | a, m₁⟩
  · cases (run_bind_error ran).symm.trans run
  · exact ⟨a, m₁, rfl, (run_bind_ok ran).symm.trans run⟩

theorem run_between (before after : Machine σ → Machine σ) (x : Eval σ α) (m : Machine σ) :
    (between before after x).run m = ((x.run (before m)).1, after (x.run (before m)).2) := rfl

theorem run_onHost (f : σ → σ) (m : Machine σ) :
    (onHost f).run m = (.ok ⟨⟩, m.onHost f) := rfl

theorem run_askHost (f : σ → α × σ) (m : Machine σ) :
    (askHost f).run m = (.ok (f m.host).1, m.onHost fun host => (f host).2) := rfl

theorem run_tick (limits : Limits) (m : Machine σ) :
    (tick limits).run m =
      if limits.maxSteps ≤ m.steps then (.error (.budget limits.maxSteps), m.tick)
      else (.ok ⟨⟩, m.tick) := by
  simp only [tick, run_bind, run_modify, run_get]
  by_cases h : limits.maxSteps ≤ m.steps
  · rw [if_pos h, if_pos (Nat.lt_succ_of_le h)]
    rfl
  · rw [if_neg h, if_neg (by omega)]
    rfl

theorem run_settle (host : Host σ) (p : PromiseId) (value : Value) (m : Machine σ) :
    (settle host p value).run m = (.ok ⟨⟩, m.settle host p value) := by
  unfold settle Machine.settle
  rw [run_bind, run_modifyGet]
  cases empty : (m.promises.settle p value).2.isEmpty with
  | true => simp only [empty, if_true]; rfl
  | false => simp only [empty, Bool.false_eq_true, if_false]; rfl

theorem run_runCallback (limits : Limits) (host : Host σ) (callback : Callback)
    (m : Machine σ) :
    (runCallback limits host callback).run m =
      match (invoke limits host (limits.maxSteps + 1) callback.function callback.argument.toList
          callback.function.definition.line).run m with
      | (.ok value, m') => (.ok ⟨⟩, m'.finish host callback.settles value)
      | (.error e, m') => (.error e, m') := by
  unfold runCallback
  rw [run_bind]
  rcases (invoke limits host (limits.maxSteps + 1) callback.function callback.argument.toList
      callback.function.definition.line).run m with ⟨_ | value, m'⟩
  · rfl
  · cases callback.settles with
    | some p => exact run_settle host p value m'
    | none => rfl

/-- A computation inside a call, if calls may be nested so deeply. -/
def nest (limits : Limits) (line : Nat) (x : Eval σ α) : Eval σ α := do
  if limits.maxCallDepth ≤ (← get).depth then throw (.callDepth line limits.maxCallDepth)
  between Machine.deeper Machine.shallower x

theorem run_nest (limits : Limits) (line : Nat) (x : Eval σ α) (m : Machine σ) :
    (nest limits line x).run m =
      if limits.maxCallDepth ≤ m.depth then (.error (.callDepth line limits.maxCallDepth), m)
      else ((x.run m.deeper).1, (x.run m.deeper).2.shallower) := by
  unfold nest
  rw [run_bind_ok (run_get m)]
  by_cases deep : limits.maxCallDepth ≤ m.depth
  · rw [if_pos deep, if_pos deep]
    exact run_bind_error (run_throw _ m)
  · rw [if_neg deep, if_neg deep]
    exact run_between _ _ x m

variable (limits : Limits) (host : Host σ) (apply : Apply σ)

/-- What the body of a closure does inside a call: it binds its parameters in a new scope, and
runs. -/
def enterBody (bound : Nat) (closure : Closure) (args : List Value) : Eval σ Value := do
  let env ← openScope closure.env
  bindParams env closure.definition.params args
  match closure.definition.body with
  | .block statements =>
    match ← execBlock limits host apply bound env statements with
    | .returned value => return value
    | _ => return .undefined
  | .value e => eval limits host apply env e

theorem invoke_succ (bound : Nat) (closure : Closure) (args : List Value) (line : Nat) :
    invoke limits host (bound + 1) closure args line =
      nest limits line
        (enterBody limits host (invoke limits host bound) (bound + 1) closure args) :=
  rfl

/-- The rest of a round of a `for` loop whose condition holds. -/
def forBody (env : Env) (update : Option Expr) (name : Option String)
    (body : Env → Eval σ Flow) : Eval σ (Option Flow) := do
  let inner ← openRound env name
  let flow ← body inner
  closeRound env inner name
  afterBody limits flow (match update with
    | some update => do let _ ← eval limits host apply env update
    | none => return ())

/-- A round of a `for` loop. -/
def forRound (env : Env) (condition update : Option Expr) (name : Option String)
    (body : Env → Eval σ Flow) : Eval σ (Option Flow) := do
  let goOn ← match condition with
    | some condition => do pure (← eval limits host apply env condition).truthy
    | none => pure true
  if goOn then forBody limits host apply env update name body else return some .normal

end Eval

end EventLoop
