import EventLoop.Language.Syntax

/-!
# The names that code sets

Code sets a name if it declares the name, as a variable, as a function or as a parameter, or assigns
to it or counts it up or down. What stands in functions inside counts as well. An expression is
quiet if it cannot set anything, neither itself nor by a call.
-/

namespace EventLoop

mutual

/-- The names that an expression sets. -/
def Expr.sets : Expr → List String
  | .number .. | .text .. | .bool .. | .null .. | .undefined .. | .name .. => []
  | .template _ parts => Part.eachSets parts
  | .assign _ _ target value => target :: value.sets
  | .update _ _ _ target => [target]
  | .binary _ _ left right | .logical _ _ left right => left.sets ++ right.sets
  | .unary _ _ operand => operand.sets
  | .conditional _ condition yes no => condition.sets ++ yes.sets ++ no.sets
  | .call _ callee args => callee.sets ++ Expr.eachSets args
  | .member _ object _ => object.sets
  | .function _ definition => definition.sets

def Expr.eachSets : List Expr → List String
  | [] => []
  | e :: rest => e.sets ++ Expr.eachSets rest

def Expr.sets? : Option Expr → List String
  | none => []
  | some e => e.sets

def Part.eachSets : List Part → List String
  | [] => []
  | .text _ :: rest => Part.eachSets rest
  | .value e :: rest => e.sets ++ Part.eachSets rest

/-- The names that are set in a function. Its own name is not among them. -/
def Definition.sets : Definition → List String
  | .mk _ params (.block statements) _ => params ++ Stmt.eachSets statements
  | .mk _ params (.value e) _ => params ++ e.sets

/-- The names that a statement sets. -/
def Stmt.sets : Stmt → List String
  | .declare _ _ name init => name :: Expr.sets? init
  | .define definition => definition.name.toList ++ definition.sets
  | .choose condition yes no => condition.sets ++ yes.sets ++ Stmt.sets? no
  | .whileLoop condition body => condition.sets ++ body.sets
  | .forLoop init condition update body =>
    Stmt.sets? init ++ Expr.sets? condition ++ Expr.sets? update ++ body.sets
  | .giveBack value => Expr.sets? value
  | .breakLoop | .continueLoop | .empty => []
  | .block statements => Stmt.eachSets statements
  | .evaluate e => e.sets

def Stmt.sets? : Option Stmt → List String
  | none => []
  | some statement => statement.sets

def Stmt.eachSets : List Stmt → List String
  | [] => []
  | statement :: rest => statement.sets ++ Stmt.eachSets rest

end

mutual

/-- Evaluating the expression calls nothing and sets no name. Functions in it are only made. -/
def Expr.quiet : Expr → Bool
  | .number .. | .text .. | .bool .. | .null .. | .undefined .. | .name .. | .function .. => true
  | .assign .. | .update .. | .call .. => false
  | .template _ parts => Part.eachQuiet parts
  | .binary _ _ left right | .logical _ _ left right => left.quiet && right.quiet
  | .unary _ _ operand => operand.quiet
  | .conditional _ condition yes no => condition.quiet && yes.quiet && no.quiet
  | .member _ object _ => object.quiet

def Part.eachQuiet : List Part → Bool
  | [] => true
  | .text _ :: rest => Part.eachQuiet rest
  | .value e :: rest => e.quiet && Part.eachQuiet rest

end

end EventLoop
