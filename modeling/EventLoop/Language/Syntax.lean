/-!
# Scripts as trees

Expressions, statements and function definitions. Every expression carries a line: that of its first
token, except that a call and a property carry the line of the parenthesis or point.
-/

namespace EventLoop

/-- What a declaration introduces. -/
inductive Declarator where
  | letWord | constWord | varWord
deriving DecidableEq, Repr

inductive BinaryOp where
  | add | sub | mul | div | rem
  | less | lessEqual | greater | greaterEqual
  | equal | notEqual | strictEqual | strictNotEqual
deriving DecidableEq, Repr

inductive LogicalOp where
  | and | or
deriving DecidableEq, Repr

inductive UnaryOp where
  | not | neg | plus | typeOf
deriving DecidableEq, Repr

/-- Plain assignment, or assignment of a sum or difference with the old value. -/
inductive AssignOp where
  | set | add | sub
deriving DecidableEq, Repr

/-- Whether a name counts up or down. -/
inductive Count where
  | up | down
deriving DecidableEq, Repr

/-- Whether the value of a counting name is taken after or before it counts. -/
inductive Moment where
  | after | before
deriving DecidableEq, Repr

mutual

inductive Expr where
  | number (line : Nat) (value : Float)
  | text (line : Nat) (content : String)
  | template (line : Nat) (parts : List Part)
  | bool (line : Nat) (value : Bool)
  | null (line : Nat)
  | undefined (line : Nat)
  | name (line : Nat) (name : String)
  | assign (line : Nat) (op : AssignOp) (target : String) (value : Expr)
  | update (line : Nat) (count : Count) (moment : Moment) (target : String)
  | binary (line : Nat) (op : BinaryOp) (left right : Expr)
  | logical (line : Nat) (op : LogicalOp) (left right : Expr)
  | unary (line : Nat) (op : UnaryOp) (operand : Expr)
  | conditional (line : Nat) (condition yes no : Expr)
  | call (line : Nat) (callee : Expr) (args : List Expr)
  | member (line : Nat) (object : Expr) (property : String)
  | function (line : Nat) (definition : Definition)

/-- A piece of a template: text, or the value of an expression. -/
inductive Part where
  | text (content : String)
  | value (e : Expr)

/-- A function: its own name, if it has one, its parameters, and the line on which it begins. -/
inductive Definition where
  | mk (name : Option String) (params : List String) (body : Body) (line : Nat)

/-- What a function does: statements, or the one expression it returns. -/
inductive Body where
  | block (statements : List Stmt)
  | value (e : Expr)

inductive Stmt where
  | declare (line : Nat) (word : Declarator) (name : String) (init : Option Expr)
  | define (definition : Definition)
  | choose (condition : Expr) (yes : Stmt) (no : Option Stmt)
  | whileLoop (condition : Expr) (body : Stmt)
  | forLoop (init : Option Stmt) (condition update : Option Expr) (body : Stmt)
  | giveBack (value : Option Expr)
  | breakLoop
  | continueLoop
  | block (statements : List Stmt)
  | evaluate (e : Expr)
  | empty

end

/-- A whole script. -/
abbrev Script := List Stmt

namespace Definition

def name : Definition → Option String
  | .mk name _ _ _ => name

def params : Definition → List String
  | .mk _ params _ _ => params

def body : Definition → Body
  | .mk _ _ body _ => body

def line : Definition → Nat
  | .mk _ _ _ line => line

end Definition

namespace Expr

def line : Expr → Nat
  | number line _ | text line _ | template line _ | bool line _ | null line | undefined line
  | name line _ | assign line _ _ _ | update line _ _ _ | binary line _ _ _ | logical line _ _ _
  | unary line _ _ | conditional line _ _ _ | call line _ _ | member line _ _
  | function line _ => line

/-- How an expression is named in a message: names, properties and calls as they are written. -/
def describe : Expr → String
  | name _ word => word
  | member _ object property => object.describe ++ "." ++ property
  | call _ callee _ => callee.describe ++ "(...)"
  | function _ _ => "function"
  | number .. | text .. | template .. | bool .. | null .. | undefined .. | assign .. | update ..
  | binary .. | logical .. | unary .. | conditional .. => "expression"

end Expr

end EventLoop
