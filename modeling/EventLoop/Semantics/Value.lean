import EventLoop.Language.Syntax
import EventLoop.Number.Numeral
import EventLoop.Text.Quoted

/-!
# Values of a running script

Scopes and promises are known to values by number only. A closure has an identity: two closures are
the same value when the same evaluation of a function made them.
-/

namespace EventLoop

/-- The number of a scope. -/
abbrev ScopeId := Nat

/-- The number of a promise. -/
abbrev PromiseId := Nat

/-- Where a name is looked up: scopes from the innermost to the globals. -/
abbrev Env := List ScopeId

/-- A function with the scopes it was made in. -/
structure Closure where
  identity : Nat
  definition : Definition
  env : Env

/-- The function's own name. -/
def Closure.name (c : Closure) : Option String :=
  c.definition.name

/-- Built-in objects and functions. -/
inductive Native where
  | console | log | setTimeout | queueMicrotask | promise | resolve
  /-- Attaches a continuation to the promise it was read from. -/
  | thenOf (receiver : PromiseId)
deriving DecidableEq, Repr

/-- The name of a built-in. -/
def Native.name : Native → String
  | console => "console"
  | log => "log"
  | setTimeout => "setTimeout"
  | queueMicrotask => "queueMicrotask"
  | promise => "Promise"
  | resolve => "resolve"
  | thenOf _ => "then"

inductive Value where
  | undefined
  | null
  | bool (b : Bool)
  | number (x : Float)
  | text (s : String)
  | function (c : Closure)
  | native (n : Native)
  | promise (p : PromiseId)

namespace Value

/-- Does the value count as true in a condition? -/
def truthy : Value → Bool
  | undefined | null => false
  | bool b => b
  | number x => !(x == 0.0) && !x.isNaN
  | text s => s != ""
  | function _ | native _ | promise _ => true

/-- The value as a number. -/
def toNumber : Value → Float
  | undefined => Number.notANumber
  | null => 0.0
  | bool b => if b then 1.0 else 0.0
  | number x => x
  | text s => Number.ofText s
  | function _ | native _ | promise _ => Number.notANumber

/-- The name of the value's type. -/
def typeOf : Value → String
  | undefined => "undefined"
  | null => "object"
  | bool _ => "boolean"
  | number _ => "number"
  | text _ => "string"
  | function _ => "function"
  | native .console | promise _ => "object"
  | native _ => "function"

/-- Equality of type and value. -/
def strictEquals : Value → Value → Bool
  | undefined, undefined | null, null => true
  | bool a, bool b => a == b
  | number a, number b => a == b
  | text a, text b => a == b
  | function a, function b => a.identity == b.identity
  | native a, native b => a == b
  | promise a, promise b => a == b
  | _, _ => false

/-- Equality that takes absent values as one, and compares booleans, and texts with numbers, as
numbers. -/
def looseEquals : Value → Value → Bool
  | undefined, undefined | undefined, null | null, undefined | null, null => true
  | undefined, _ | null, _ | _, undefined | _, null => false
  | bool a, bool b => (bool a).toNumber == (bool b).toNumber
  | bool a, number b => (bool a).toNumber == b
  | bool a, text b => (bool a).toNumber == (text b).toNumber
  | number a, bool b => a == (bool b).toNumber
  | number a, text b => a == (text b).toNumber
  | text a, number b => (text a).toNumber == b
  | text a, bool b => (text a).toNumber == (bool b).toNumber
  | a, b => a.strictEquals b

/-- How a script prints the value. -/
def display : Value → String
  | undefined => "undefined"
  | null => "null"
  | bool b => if b then "true" else "false"
  | number x => Number.display x
  | text s => s
  | function c =>
    match c.name with
    | some name => s!"[Function: {name}]"
    | none => "[Function (anonymous)]"
  | native .console => "[object console]"
  | native n => s!"[Function: {n.name}]"
  | promise _ => "Promise \x7b\x7d"

/-- How a listing of callbacks shows the value: texts are quoted. -/
def listed : Value → String
  | text s => quoted s
  | v => v.display

/-- The sum of two numbers, or two values one after the other if one of them is a text. -/
def add (a b : Value) : Value :=
  match a, b with
  | text s, b => text (s ++ b.display)
  | a, text s => text (a.display ++ s)
  | a, b => number (a.toNumber + b.toNumber)

/-- Comparison of texts by code points, and of other values as numbers. -/
def compareWith (texts : String → String → Bool) (numbers : Float → Float → Bool)
    (a b : Value) : Value :=
  match a, b with
  | text s, text t => bool (texts s t)
  | a, b => bool (numbers a.toNumber b.toNumber)

/-- The value of a binary operation. -/
def binary : BinaryOp → Value → Value → Value
  | .add, a, b => a.add b
  | .sub, a, b => number (a.toNumber - b.toNumber)
  | .mul, a, b => number (a.toNumber * b.toNumber)
  | .div, a, b => number (a.toNumber / b.toNumber)
  | .rem, a, b => number (Number.remainder a.toNumber b.toNumber)
  | .equal, a, b => bool (a.looseEquals b)
  | .notEqual, a, b => bool (!a.looseEquals b)
  | .strictEqual, a, b => bool (a.strictEquals b)
  | .strictNotEqual, a, b => bool (!a.strictEquals b)
  | .less, a, b => compareWith (fun s t => decide (s < t)) (fun x y => decide (x < y)) a b
  | .lessEqual, a, b => compareWith (fun s t => !decide (t < s)) (fun x y => decide (x ≤ y)) a b
  | .greater, a, b => compareWith (fun s t => decide (t < s)) (fun x y => decide (y < x)) a b
  | .greaterEqual, a, b => compareWith (fun s t => !decide (s < t)) (fun x y => decide (y ≤ x)) a b

/-- The value of a prefix operation. -/
def unary : UnaryOp → Value → Value
  | .not, a => bool !a.truthy
  | .neg, a => number (-a.toNumber)
  | .plus, a => number a.toNumber
  | .typeOf, a => text a.typeOf

end Value

/-- Work that a script hands to its host, to be run later: a function, its argument, and the promise
that its result settles. -/
structure Callback where
  function : Closure
  argument : Option Value
  settles : Option PromiseId

namespace Callback

/-- A callback without an argument that settles nothing. -/
def plain (function : Closure) : Callback :=
  ⟨function, none, none⟩

/-- The name of the function that the callback runs. -/
def name (c : Callback) : Option String :=
  c.function.name

/-- A part of a listing that may be absent. -/
def listedOption (part : Option String) : String :=
  match part with
  | some shown => s!"Some({shown})"
  | none => "None"

/-- How a listing shows the callback. Promises are numbered from one there. -/
def listed (c : Callback) : String :=
  let name := listedOption (c.name.map quoted)
  let argument := listedOption (c.argument.map Value.listed)
  let settles := listedOption (c.settles.map fun p => s!"PromiseKey({p + 1}v1)")
  s!"Callback \x7b name: {name}, arg: {argument}, settles: {settles} \x7d"

end Callback

end EventLoop
