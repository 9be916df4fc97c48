import EventLoop.Semantics.Scope
import EventLoop.Semantics.Promise
import EventLoop.Language.Fault

/-!
# The host, and the state of a run

A script does not schedule anything itself: it tells its host what it prints and what is to be run
later. A host is a set of functions on its own state, so the same script can run against any host.
Lines are those of the calls that the host is told of.
-/

namespace EventLoop

/-- What a script schedules into. `σ` is the state of the host. -/
structure Host (σ : Type) where
  /-- A line of output. -/
  print : String → Nat → σ → σ
  /-- A callback to be run after a delay. The number returned is the timer's, for the script. -/
  registerTimer : Callback → Nat → Nat → σ → Nat × σ
  /-- A callback to be run once the script is idle. -/
  defer : Callback → Nat → σ → σ
  /-- A continuation of a promise: to be run once the script is idle, or none if it was parked on a
  promise that is still pending. -/
  chain : Option Callback → Nat → σ → σ
  /-- Parked continuations of a promise that has its value now, in the order of their attachment. -/
  release : List Callback → σ → σ
  /-- A call of a function of the script begins. -/
  enter : String → Nat → σ → σ := fun _ _ state => state
  /-- The call that began last and has not ended ends. -/
  leave : σ → σ := fun state => state

/-- What keeps a script from running for ever. -/
structure Limits where
  /-- Statements and calls in the whole run. -/
  maxSteps : Nat
  /-- Calls that have begun and not ended. -/
  maxCallDepth : Nat
deriving DecidableEq, Repr

/-- The state of a run, that of its host included. -/
structure Machine (σ : Type) where
  scopes : Scopes
  promises : Promises
  /-- How many closures have been made. -/
  closures : Nat
  /-- How many statements and calls have begun. -/
  steps : Nat
  /-- How many calls have begun and not ended. -/
  depth : Nat
  host : σ

/-- The state before anything has run. -/
def Machine.initial {σ : Type} (host : σ) : Machine σ :=
  { scopes := #[globalScope], promises := #[], closures := 0, steps := 0, depth := 0, host }

/-- A computation of a run. What it did before a failure stays done. -/
abbrev Eval (σ : Type) := ExceptT ScriptError (StateM (Machine σ))

namespace Eval

variable {σ α : Type}

/-- Tells the host something. -/
def onHost (f : σ → σ) : Eval σ Unit :=
  modify fun machine => { machine with host := f machine.host }

/-- Asks the host something. -/
def askHost (f : σ → α × σ) : Eval σ α :=
  modifyGet fun machine =>
    let (answer, host) := f machine.host
    (answer, { machine with host })

/-- Runs a computation between two changes of state. The second takes place after a failure, too. -/
def between (before after : Machine σ → Machine σ) (x : Eval σ α) : Eval σ α :=
  ExceptT.mk do
    modify before
    let result ← x.run
    modify after
    return result

/-- Changes the scopes. -/
def onScopes (f : Scopes → Scopes) : Eval σ Unit :=
  modify fun machine => { machine with scopes := f machine.scopes }

/-- A new scope inside an environment. -/
def openScope (env : Env) : Eval σ Env :=
  modifyGet fun machine =>
    (machine.scopes.size :: env, { machine with scopes := machine.scopes.push [] })

/-- Binds a name in the innermost scope. -/
def declare (env : Env) (name : String) (value : Value) (fixed : Bool) : Eval σ Unit :=
  match env with
  | [] => return ()
  | id :: _ => onScopes (·.declare id name ⟨value, fixed⟩)

/-- A closure with an identity of its own. -/
def newClosure (definition : Definition) (env : Env) : Eval σ Closure :=
  modifyGet fun machine =>
    (⟨machine.closures, definition, env⟩, { machine with closures := machine.closures + 1 })

/-- A new promise. -/
def newPromise (state : PromiseState) : Eval σ PromiseId :=
  modifyGet fun machine =>
    (machine.promises.size, { machine with promises := machine.promises.push state })

end Eval

end EventLoop
