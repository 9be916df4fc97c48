import EventLoop.Proofs.Evaluation.Tracking
import EventLoop.Proofs.Flat.Script
import EventLoop.Proofs.Loop.Plain
import EventLoop.Proofs.Promise.Settlement

/-!
# What the lines of a flat script do

The expressions of a flat script read no names but those of built-ins, so each takes the machine to
one that can be told: with a line printed, a callback deferred, or a timer registered. What a
callback will do depends on nothing but its function.
-/

namespace EventLoop

open Eval FlatOp

/-! ## Names -/

namespace Scopes

variable {scopes : Scopes} {env : Env}

/-- In this environment, names mean what they mean in a new script. -/
def Sees (scopes : Scopes) (env : Env) : Prop :=
  ∀ name, scopes.read env name = (globalScope.find? name).map Binding.value

theorem Sees.push (sees : scopes.Sees env) : Scopes.Sees (scopes.push []) env := by
  intro name
  rw [read_push, sees]

/-- A new scope binds nothing. -/
theorem Sees.inside (sees : scopes.Sees env) :
    Scopes.Sees (scopes.push []) (scopes.size :: env) := by
  intro name
  have none : Scopes.find? (scopes.push []) scopes.size name = none := by
    simp [Scopes.find?, Scope.find?]
  rw [← sees.push name]
  simp [Scopes.read, Scopes.resolve, none]

end Scopes

/-! ## Callbacks -/

/-- What a callback of a flat script does. -/
inductive Job where
  | prints (label : String)
  /-- Prints, and defers a callback that prints the nested label. -/
  | nests (label : String)

namespace Job

def label : Job → String
  | prints label | nests label => label

/-- What the function does whose call is the callback. -/
def body (line : Nat) : Job → Body
  | prints label => .value (logCall line label)
  | nests label => .block
      [.evaluate (logCall line label), .evaluate (deferCall line (logger line (nestedLabel label)))]

/-- The labels that are printed by callbacks which this one defers. -/
def nested : Job → List String
  | prints _ => []
  | nests label => [nestedLabel label]

/-- The steps that the callback takes, and those that it defers. -/
def steps : Job → Nat
  | prints _ => 1
  | nests _ => 5

end Job

/-- The callback does the job. -/
structure Callback.Does (scopes : Scopes) (callback : Callback) (job : Job) : Prop where
  sees : scopes.Sees callback.function.env
  body : ∃ line, callback.function.definition = .mk none [] (job.body line) line

theorem Callback.Does.push {scopes : Scopes} {callback : Callback} {job : Job}
    (does : callback.Does scopes job) : callback.Does (scopes.push []) job :=
  ⟨does.sees.push, does.body⟩

/-! ## Expressions -/

section

variable {limits : Limits} {apply : Apply Plain} {m : Machine Plain} {env : Env}

theorem run_tick_of_lt (affords : m.steps < limits.maxSteps) :
    (tick limits).run m = (.ok (), m.tick) := by
  rw [run_tick, if_neg (Nat.not_le.mpr affords)]

theorem run_read {name : String} {value : Value} (sees : m.scopes.Sees env) (line : Nat)
    (global : (globalScope.find? name).map Binding.value = some value) :
    (Eval.read env name line : Eval Plain Value).run m = (.ok value, m) := by
  unfold Eval.read
  rw [run_bind_ok (run_get m), sees name, global]
  rfl

/-- A call of a built-in takes one step. -/
theorem run_call {native : Native} {args : List Value} {callee : Expr} {line : Nat}
    (affords : m.steps < limits.maxSteps) :
    (call limits Plain.host apply (.native native) args callee line).run m =
      (callNative Plain.host native args callee line).run m.tick := by
  unfold call
  rw [run_bind_ok (run_tick_of_lt affords)]

theorem eval_log (sees : m.scopes.Sees env) (affords : m.steps < limits.maxSteps) (line : Nat)
    (label : String) :
    (eval limits Plain.host apply env (logCall line label)).run m =
      (.ok .undefined, m.tick.onHost (·.printLine label)) := by
  have object : (Eval.read env "console" line : Eval Plain Value).run m = _ :=
    run_read sees line rfl
  simp only [logCall, eval, evalAll, run_bind, object]
  exact run_call affords

/-- The machine with one more closure. -/
def Machine.withClosure (m : Machine Plain) : Machine Plain :=
  { m with closures := m.closures + 1 }

/-- The function that a line makes of a body. -/
def Machine.nextClosure (m : Machine Plain) (env : Env) (line : Nat) (body : Body) : Closure :=
  ⟨m.closures, .mk none [] body line, env⟩

theorem eval_defer (sees : m.scopes.Sees env) (affords : m.steps < limits.maxSteps) (line : Nat)
    (body : Body) :
    (eval limits Plain.host apply env (deferCall line (arrow line body))).run m =
      (.ok .undefined,
        m.withClosure.tick.onHost (·.defer (.plain (m.nextClosure env line body)))) := by
  have object : (Eval.read env "queueMicrotask" line : Eval Plain Value).run m = _ :=
    run_read sees line rfl
  simp only [deferCall, arrow, eval, evalAll, run_bind, object]
  exact run_call (m := m.withClosure) affords

/-- The plain event loop with one more timer. -/
def Plain.addTimer (p : Plain) (delay : Nat) (callback : Callback) : Plain :=
  { p with waiting := p.waiting ++ [(delay, callback)], ids := p.ids + 1 }

theorem eval_setTimeout (sees : m.scopes.Sees env) (affords : m.steps < limits.maxSteps)
    (line : Nat) (body : Body) {delay : Nat} (small : delay < 2 ^ 53) :
    ∃ value, (eval limits Plain.host apply env (.call line (.name line "setTimeout")
        [arrow line body, .number line (Float.ofNat delay)])).run m =
      (.ok value,
        m.withClosure.tick.onHost (·.addTimer delay (.plain (m.nextClosure env line body)))) := by
  have object : (Eval.read env "setTimeout" line : Eval Plain Value).run m = _ :=
    run_read sees line rfl
  have whole : delayOf (.number (Float.ofNat delay)) = delay := by
    rw [delayOf, Value.toNumber, Number.wholeWithin_ofNat small, Int.toNat_natCast]
  refine ⟨.number (Float.ofNat (m.host.ids + 1)), ?_⟩
  simp only [arrow, eval, evalAll, run_bind, object]
  refine (run_call (m := m.withClosure) affords).trans ?_
  show (callNative Plain.host .setTimeout
    [.function (m.nextClosure env line body), .number (Float.ofNat delay)] _ line).run _ = _
  unfold callNative wantFunction
  dsimp only
  rw [whole]
  rfl

/-- The machine with one more promise. -/
def Machine.withPromise (m : Machine Plain) (state : PromiseState) : Machine Plain :=
  { m with promises := m.promises.push state }

theorem eval_resolve (sees : m.scopes.Sees env) (affords : m.steps < limits.maxSteps)
    (line : Nat) :
    (eval limits Plain.host apply env
        (.call line (.member line (.name line "Promise") "resolve") [])).run m =
      (.ok (.promise m.promises.size), m.tick.withPromise (.resolved .undefined)) := by
  have object : (Eval.read env "Promise" line : Eval Plain Value).run m = _ :=
    run_read sees line rfl
  simp only [eval, evalAll, run_bind, object]
  exact run_call affords

/-- A continuation of a promise that has a value is deferred at once. -/
theorem eval_then (sees : m.scopes.Sees env) (affords : m.steps + 1 < limits.maxSteps)
    (line : Nat) (body : Body) :
    (eval limits Plain.host apply env (.call line (.member line
        (.call line (.member line (.name line "Promise") "resolve") []) "then")
        [arrow line body])).run m =
      (.ok (.promise (m.promises.size + 1)),
        ((m.tick.withPromise (.resolved .undefined)).withClosure.tick.withPromise
          (.pending [])).onHost (·.defer
            ⟨m.nextClosure env line body, some .undefined, some (m.promises.size + 1)⟩)) := by
  have receiver : (eval limits Plain.host apply env (.call line (.member line
      (.name line "Promise") "resolve") [])).run m = _ :=
    eval_resolve sees (Nat.lt_of_succ_lt affords) line
  let m₁ := (m.tick.withPromise (.resolved .undefined)).withClosure
  have resolved : m₁.tick.promises[m.promises.size]? = some (.resolved .undefined) := by
    simp [m₁, Machine.tick, Machine.withClosure, Machine.withPromise]
  have size : m₁.tick.promises.size = m.promises.size + 1 := by
    simp [m₁, Machine.tick, Machine.withClosure, Machine.withPromise]
  have chained : (chain Plain.host m.promises.size
      [.function (m.nextClosure env line body)] line).run m₁.tick = _ :=
    run_chain_resolved rfl resolved
  rw [size] at chained
  rw [eval, eval, run_bind, run_bind, receiver]
  have called : (call limits Plain.host apply (.native (.thenOf m.promises.size))
      [.function (m.nextClosure env line body)] (.member line (.call line (.member line
        (.name line "Promise") "resolve") []) "then") line).run m₁ = _ :=
    run_call affords
  exact called.trans chained

end

end EventLoop
