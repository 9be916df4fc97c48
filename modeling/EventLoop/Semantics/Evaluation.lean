import EventLoop.Semantics.Host
import EventLoop.Number.Word

/-!
# Running a script

Expressions and statements are evaluated by recursion on their structure. The body of a function is
no part of the call, so a call goes through the parameter `apply`, and `invoke` ties the knot by
recursion on a number of calls that is never used up: a call inside a call costs a step, and so does
each round of a loop, while the number starts above the steps that a run has. When the number is
used up so is the budget, and that is the failure reported.
-/

namespace EventLoop

/-- How a statement ends. -/
inductive Flow where
  | normal
  | returned (value : Value)
  | broke
  | continued

namespace Eval

variable {σ : Type} (limits : Limits) (host : Host σ)

/-- Counts a step, unless the budget is used up. -/
def tick : Eval σ Unit := do
  modify fun machine => { machine with steps := machine.steps + 1 }
  if limits.maxSteps < (← get).steps then throw (.budget limits.maxSteps)

/-- The value of a name. -/
def read (env : Env) (name : String) (line : Nat) : Eval σ Value := do
  match (← get).scopes.read env name with
  | some value => return value
  | none => throw (.undefinedName line name)

/-- Assigns a value to a name, in the first scope that binds it. -/
def assign (env : Env) (name : String) (value : Value) (line : Nat) : Eval σ Unit := do
  match (← get).scopes.resolve env name with
  | some (id, binding) =>
    if binding.fixed then throw (.misuse line (.assignedConstant name))
    onScopes (·.declare id name { binding with value })
  | none => throw (.undefinedName line name)

/-- The value of a property. The source is the expression whose value has the property. -/
def property (object : Value) (property : String) (source : Expr) (line : Nat) : Eval σ Value :=
  match object with
  | .undefined | .null =>
    throw (.misuse line (.noProperties object.display property source.describe))
  | .native .console =>
    return if property ∈ ["log", "info", "warn", "error", "debug"] then .native .log
      else .undefined
  | .native .promise => return if property = "resolve" then .native .resolve else .undefined
  | .promise p => return if property = "then" then .native (.thenOf p) else .undefined
  | .text s => return if property = "length" then .number (Float.ofNat s.length) else .undefined
  | _ => return .undefined

/-- The first argument of a primitive that wants a function. -/
def wantFunction (args : List Value) (primitive : String) (line : Nat) : Eval σ Closure :=
  match args with
  | .function closure :: _ => return closure
  | other :: _ => throw (.misuse line (.wantsFunction primitive (some other.typeOf)))
  | [] => throw (.misuse line (.wantsFunction primitive none))

/-- A delay as a timer keeps it: whole, and within a machine word. -/
def delayOf (value : Value) : Nat :=
  (Number.wholeWithin 0 Number.maxWord value.toNumber).toNat

/-- Attaches a continuation to a promise. Its result settles a new promise, which is the value. -/
def chain (receiver : PromiseId) (args : List Value) (line : Nat) : Eval σ Value := do
  let function ← wantFunction args "Promise.then" line
  let next ← newPromise (.pending [])
  match (← get).promises[receiver]? with
  | some (.resolved value) =>
    onHost (host.chain (some ⟨function, some value, some next⟩) line)
  | some (.pending waiting) =>
    modify fun machine =>
      { machine with
        promises := machine.promises.setIfInBounds receiver
          (.pending (waiting ++ [.handler function next])) }
    onHost (host.chain none line)
  | none => throw (.misuse line .droppedPromise)
  return .promise next

/-- A call of a built-in. The callee is the expression whose value is called. -/
def callNative (native : Native) (args : List Value) (callee : Expr) (line : Nat) :
    Eval σ Value :=
  match native with
  | .log => do
    onHost (host.print (" ".intercalate (args.map Value.display)) line)
    return .undefined
  | .setTimeout => do
    let function ← wantFunction args "setTimeout" line
    let delay := match args with
      | _ :: delay :: _ => delayOf delay
      | _ => 0
    let id ← askHost (host.registerTimer (.plain function) delay line)
    return .number (Float.ofNat id)
  | .queueMicrotask => do
    let function ← wantFunction args "queueMicrotask" line
    onHost (host.defer (.plain function) line)
    return .undefined
  | .resolve =>
    match args.head?.getD .undefined with
    | .promise p => return .promise p
    | value => return .promise (← newPromise (.resolved value))
  | .thenOf receiver => chain host receiver args line
  | .console | .promise => throw (.misuse line (.notCallable callee.describe))

/-- How the body of a closure is run on arguments, for a call on the given line. -/
abbrev Apply (σ : Type) := Closure → List Value → Nat → Eval σ Value

/-- A call of a value. The host hears of calls of the script's own functions. -/
def call (apply : Apply σ) (function : Value) (args : List Value) (callee : Expr) (line : Nat) :
    Eval σ Value := do
  tick limits
  match function with
  | .function closure =>
    between
      (fun machine =>
        { machine with host := host.enter (closure.name.getD "(anonymous)") line machine.host })
      (fun machine => { machine with host := host.leave machine.host })
      (apply closure args line)
  | .native native => callNative host native args callee line
  | _ => throw (.misuse line (.notCallable callee.describe))

section

variable (apply : Apply σ)

mutual

/-- The value of an expression. -/
def eval (env : Env) : Expr → Eval σ Value
  | .number _ x => return .number x
  | .text _ s => return .text s
  | .bool _ b => return .bool b
  | .null _ => return .null
  | .undefined _ => return .undefined
  | .template _ parts => do
    return .text (← evalParts env parts)
  | .name line name => read env name line
  | .assign line op target e => do
    let right ← eval env e
    let value ← match op with
      | .set => pure right
      | .add => do
        let old ← read env target line
        pure (old.add right)
      | .sub => do
        let old ← read env target line
        pure (.number (old.toNumber - right.toNumber))
    assign env target value line
    return value
  | .update line count moment target => do
    let old := (← read env target line).toNumber
    let new := match count with
      | .up => old + 1.0
      | .down => old - 1.0
    assign env target (.number new) line
    return .number (match moment with
      | .after => new
      | .before => old)
  | .binary _ op left right => do
    let a ← eval env left
    let b ← eval env right
    return Value.binary op a b
  | .logical _ op left right => do
    let a ← eval env left
    match op, a.truthy with
    | .and, false | .or, true => return a
    | .and, true | .or, false => eval env right
  | .unary _ op operand => do
    return Value.unary op (← eval env operand)
  | .conditional _ condition yes no => do
    if (← eval env condition).truthy then eval env yes else eval env no
  | .member line object name => do
    property (← eval env object) name object line
  | .call line callee args => do
    let function ← eval env callee
    let values ← evalAll env args
    call limits host apply function values callee line
  | .function _ definition => do
    return .function (← newClosure definition env)

/-- The values of expressions, from left to right. -/
def evalAll (env : Env) : List Expr → Eval σ (List Value)
  | [] => return []
  | e :: rest => do
    let value ← eval env e
    return value :: (← evalAll env rest)

/-- The text of a template. -/
def evalParts (env : Env) : List Part → Eval σ String
  | [] => return ""
  | .text s :: rest => do
    return s ++ (← evalParts env rest)
  | .value e :: rest => do
    let value ← eval env e
    return value.display ++ (← evalParts env rest)

end

/-- Makes the functions that statements define known throughout their block. -/
def hoist (env : Env) : List Stmt → Eval σ Unit
  | [] => return ()
  | .define definition :: rest => do
    if let some name := definition.name then
      declare env name (.function (← newClosure definition env)) false
    hoist env rest
  | _ :: rest => hoist env rest

/-- Repeats a round until it says how the loop ends. The number bounds the rounds. -/
def rounds (round : Eval σ (Option Flow)) : Nat → Eval σ Flow
  | 0 => throw (.budget limits.maxSteps)
  | bound + 1 => do
    match ← round with
    | some flow => return flow
    | none => rounds round bound

/-- What is left of a round of a loop after its body: how the loop ends, if it does, or what is done
before the next round. -/
def afterBody (flow : Flow) (go : Eval σ Unit) : Eval σ (Option Flow) := do
  match flow with
  | .broke => return some .normal
  | .returned value => return some (.returned value)
  | .normal | .continued =>
    go
    tick limits
    return none

/-- The name that each round of a loop has a copy of: what its header declares with `let`. -/
def roundName : Option Stmt → Option String
  | some (.declare _ .letWord name _) => some name
  | _ => none

/-- A new scope for one round of a loop, with a copy of the loop's own variable. -/
def openRound (env : Env) (name : Option String) : Eval σ Env := do
  let inner ← openScope env
  if let some name := name then
    let current := ((← get).scopes.read env name).getD .undefined
    declare inner name current false
  return inner

/-- Copies what a round made of the loop's variable back to the loop. -/
def closeRound (env inner : Env) (name : Option String) : Eval σ Unit := do
  if let some name := name then
    let current := ((← get).scopes.read inner name).getD .undefined
    if let some id := env.head? then onScopes (·.overwrite id name current)

variable (bound : Nat)

mutual

/-- Runs a statement. The number bounds the rounds of each loop in it. -/
def exec (env : Env) : Stmt → Eval σ Flow
  | .declare _ word name init => do
    tick limits
    let value ← match init with
      | some e => eval limits host apply env e
      | none => pure .undefined
    declare env name value (word = .constWord)
    return .normal
  | .define _ | .empty => do
    tick limits
    return .normal
  | .choose condition yes no => do
    tick limits
    if (← eval limits host apply env condition).truthy then exec env yes
    else match no with
      | some no => exec env no
      | none => return .normal
  | .whileLoop condition body => do
    tick limits
    rounds limits (do
      if (← eval limits host apply env condition).truthy then
        afterBody limits (← exec env body) (return ())
      else return some .normal) bound
  | .forLoop init condition update body => do
    tick limits
    let env ← openScope env
    match init with
    | some init => let _ ← exec env init
    | none => pure ()
    rounds limits (do
      let goOn ← match condition with
        | some condition => do pure (← eval limits host apply env condition).truthy
        | none => pure true
      if goOn then
        let inner ← openRound env (roundName init)
        let flow ← exec inner body
        closeRound env inner (roundName init)
        afterBody limits flow (match update with
          | some update => do let _ ← eval limits host apply env update
          | none => return ())
      else return some .normal) bound
  | .giveBack value => do
    tick limits
    match value with
    | some e => return .returned (← eval limits host apply env e)
    | none => return .returned .undefined
  | .breakLoop => do
    tick limits
    return .broke
  | .continueLoop => do
    tick limits
    return .continued
  | .block statements => do
    tick limits
    let env ← openScope env
    hoist env statements
    execAll env statements
  | .evaluate e => do
    tick limits
    let _ ← eval limits host apply env e
    return .normal

/-- Runs statements in order, up to one that does not end normally. -/
def execAll (env : Env) : List Stmt → Eval σ Flow
  | [] => return .normal
  | statement :: rest => do
    match ← exec env statement with
    | .normal => execAll env rest
    | flow => return flow

end

/-- Runs the statements of a script, of a function or of a block in their scope. -/
def execBlock (env : Env) (statements : List Stmt) : Eval σ Flow := do
  hoist env statements
  execAll limits host apply bound env statements

end

/-- Binds parameters to arguments; those without an argument are undefined. -/
def bindParams (env : Env) : List String → List Value → Eval σ Unit
  | [], _ => return ()
  | param :: params, args => do
    declare env param (args.head?.getD .undefined) false
    bindParams env params args.tail

/-- Runs the body of a closure, in a new scope. The number bounds the calls inside one another. -/
def invoke : Nat → Apply σ
  | 0, _, _, _ => throw (.budget limits.maxSteps)
  | bound + 1, closure, args, line => do
    if limits.maxCallDepth ≤ (← get).depth then throw (.callDepth line limits.maxCallDepth)
    between
      (fun machine => { machine with depth := machine.depth + 1 })
      (fun machine => { machine with depth := machine.depth - 1 })
      (do
        let env ← openScope closure.env
        bindParams env closure.definition.params args
        match closure.definition.body with
        | .block statements =>
          match ← execBlock limits host (invoke bound) (bound + 1) env statements with
          | .returned value => return value
          | _ => return .undefined
        | .value e => eval limits host (invoke bound) env e)

/-- Runs a script's outermost statements. Globals stay for the next script on the same machine. -/
def runScript (script : Script) : Eval σ Unit := do
  let _ ← execBlock limits host (invoke limits host limits.maxSteps) (limits.maxSteps + 1)
    globalEnv script

/-- Settles a promise, and releases to the host the continuations that can run now. -/
def settle (promise : PromiseId) (value : Value) : Eval σ Unit := do
  let released ← modifyGet fun machine =>
    let (promises, released) := machine.promises.settle promise value
    (released, { machine with promises })
  unless released.isEmpty do onHost (host.release released)

/-- Runs a callback that was handed to the host. The result of a continuation settles a promise. -/
def runCallback (callback : Callback) : Eval σ Unit := do
  let value ← invoke limits host (limits.maxSteps + 1) callback.function callback.argument.toList
    callback.function.definition.line
  if let some promise := callback.settles then settle host promise value

end Eval

end EventLoop
