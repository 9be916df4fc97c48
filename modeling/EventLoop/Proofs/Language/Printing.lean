import Mathlib.Algebra.Group.Nat.Defs
import EventLoop.Language.Parsing
import EventLoop.Number.Parts

/-!
# Writing scripts out

A script is written as tokens, and these as characters. Every expression inside another one stands
in parentheses, and so does every expression of a statement; simple statements end with a semicolon.
A blank follows each token, and line feeds in texts are escaped, so the whole script stands on the
first line.

Not every tree can be written. What a tree has to look like is said by rules, each of which looks at
one node of the tree and at what surrounds it.
-/

namespace EventLoop

open Parsing (Surroundings)

/-! ## Trees on one line -/

mutual

/-- The expression with all of its lines replaced. -/
def Expr.onLine (line : Nat) : Expr → Expr
  | .number _ value => .number line value
  | .text _ content => .text line content
  | .template _ parts => .template line (Part.eachOnLine line parts)
  | .bool _ value => .bool line value
  | .null _ => .null line
  | .undefined _ => .undefined line
  | .name _ word => .name line word
  | .assign _ op target value => .assign line op target (value.onLine line)
  | .update _ count moment target => .update line count moment target
  | .binary _ op left right => .binary line op (left.onLine line) (right.onLine line)
  | .logical _ op left right => .logical line op (left.onLine line) (right.onLine line)
  | .unary _ op operand => .unary line op (operand.onLine line)
  | .conditional _ condition yes no =>
    .conditional line (condition.onLine line) (yes.onLine line) (no.onLine line)
  | .call _ callee args => .call line (callee.onLine line) (Expr.eachOnLine line args)
  | .member _ object property => .member line (object.onLine line) property
  | .function _ definition => .function line (definition.onLine line)

def Expr.eachOnLine (line : Nat) : List Expr → List Expr
  | [] => []
  | e :: rest => e.onLine line :: Expr.eachOnLine line rest

def Expr.onLine? (line : Nat) : Option Expr → Option Expr
  | none => none
  | some e => some (e.onLine line)

def Part.eachOnLine (line : Nat) : List Part → List Part
  | [] => []
  | .text content :: rest => .text content :: Part.eachOnLine line rest
  | .value e :: rest => .value (e.onLine line) :: Part.eachOnLine line rest

def Definition.onLine (line : Nat) : Definition → Definition
  | .mk name params (.block statements) _ =>
    .mk name params (.block (Stmt.eachOnLine line statements)) line
  | .mk name params (.value e) _ => .mk name params (.value (e.onLine line)) line

def Stmt.onLine (line : Nat) : Stmt → Stmt
  | .declare _ word name init => .declare line word name (Expr.onLine? line init)
  | .define definition => .define (definition.onLine line)
  | .choose condition yes no =>
    .choose (condition.onLine line) (yes.onLine line) (Stmt.onLine? line no)
  | .whileLoop condition body => .whileLoop (condition.onLine line) (body.onLine line)
  | .forLoop init condition update body =>
    .forLoop (Stmt.onLine? line init) (Expr.onLine? line condition) (Expr.onLine? line update)
      (body.onLine line)
  | .giveBack value => .giveBack (Expr.onLine? line value)
  | .breakLoop => .breakLoop
  | .continueLoop => .continueLoop
  | .block statements => .block (Stmt.eachOnLine line statements)
  | .evaluate e => .evaluate (e.onLine line)
  | .empty => .empty

def Stmt.onLine? (line : Nat) : Option Stmt → Option Stmt
  | none => none
  | some s => some (s.onLine line)

def Stmt.eachOnLine (line : Nat) : List Stmt → List Stmt
  | [] => []
  | s :: rest => s.onLine line :: Stmt.eachOnLine line rest

end

/-- The script with all of its lines replaced. -/
def Script.onLine (line : Nat) (script : Script) : Script :=
  Stmt.eachOnLine line script

/-! ## Tokens -/

/-- A mark on the first line. -/
abbrev Mark.token (m : Mark) : Token := .at 1 (.mark m)

/-- A word on the first line. -/
abbrev wordToken (word : String) : Token := .at 1 (.name word)

def Declarator.word : Declarator → String
  | letWord => "let"
  | constWord => "const"
  | varWord => "var"

def BinaryOp.mark : BinaryOp → Mark
  | add => .plus
  | sub => .minus
  | mul => .star
  | div => .slash
  | rem => .percent
  | less => .less
  | lessEqual => .lessEqual
  | greater => .greater
  | greaterEqual => .greaterEqual
  | equal => .equal
  | notEqual => .notEqual
  | strictEqual => .strictEqual
  | strictNotEqual => .strictNotEqual

def LogicalOp.mark : LogicalOp → Mark
  | and => .andAnd
  | or => .orOr

def UnaryOp.token : UnaryOp → Token
  | not => Mark.bang.token
  | neg => Mark.minus.token
  | plus => Mark.plus.token
  | typeOf => wordToken "typeof"

def AssignOp.mark : AssignOp → Mark
  | set => .assign
  | add => .plusAssign
  | sub => .minusAssign

def Count.mark : Count → Mark
  | up => .plusPlus
  | down => .minusMinus

/-- Tokens between parentheses. -/
def parenthesized (tokens : List Token) : List Token :=
  Mark.leftParen.token :: (tokens ++ [Mark.rightParen.token])

/-- Tokens between braces. -/
def braced (tokens : List Token) : List Token :=
  Mark.leftBrace.token :: (tokens ++ [Mark.rightBrace.token])

/-- Items with commas between them. -/
def separated : List (List Token) → List Token
  | [] => []
  | [item] => item
  | item :: items => item ++ Mark.comma.token :: separated items

/-- The parameters of a function. -/
def paramTokens (params : List String) : List Token :=
  parenthesized (separated (params.map fun param => [wordToken param]))

mutual

/-- The tokens of an expression, without parentheses around it. -/
def Expr.tokens : Expr → List Token
  | .number _ value => [.at 1 (.number value)]
  | .text _ content => [.at 1 (.text content)]
  | .template _ parts => [.at 1 (.template (Part.chunks parts))]
  | .bool _ true => [wordToken "true"]
  | .bool _ false => [wordToken "false"]
  | .null _ => [wordToken "null"]
  | .undefined _ => [wordToken "undefined"]
  | .name _ word => [wordToken word]
  | .assign _ op target value => wordToken target :: op.mark.token :: parenthesized value.tokens
  | .update _ count .after target => [count.mark.token, wordToken target]
  | .update _ count .before target => [wordToken target, count.mark.token]
  | .binary _ op left right =>
    parenthesized left.tokens ++ op.mark.token :: parenthesized right.tokens
  | .logical _ op left right =>
    parenthesized left.tokens ++ op.mark.token :: parenthesized right.tokens
  | .unary _ op operand => op.token :: parenthesized operand.tokens
  | .conditional _ condition yes no =>
    parenthesized condition.tokens ++ Mark.question.token :: parenthesized yes.tokens ++
      Mark.colon.token :: parenthesized no.tokens
  | .call _ callee args =>
    parenthesized callee.tokens ++ parenthesized (separated (Expr.eachTokens args))
  | .member _ object property =>
    parenthesized object.tokens ++ [Mark.dot.token, wordToken property]
  | .function _ definition => definition.tokens

/-- The tokens of each expression of a list, in parentheses. -/
def Expr.eachTokens : List Expr → List (List Token)
  | [] => []
  | e :: rest => parenthesized e.tokens :: Expr.eachTokens rest

/-- The tokens of an expression in parentheses, if there is one. -/
def Expr.tokens? : Option Expr → List Token
  | none => []
  | some e => parenthesized e.tokens

/-- The chunks of a template literal. -/
def Part.chunks : List Part → List Chunk
  | [] => []
  | .text content :: rest => .text content :: Part.chunks rest
  | .value e :: rest => .code (parenthesized e.tokens) :: Part.chunks rest

/-- A function with a block is written with its word, and any other with an arrow. -/
def Definition.tokens : Definition → List Token
  | .mk name params (.block statements) _ =>
    wordToken "function" :: name.toList.map wordToken ++ paramTokens params ++
      braced (Stmt.eachTokens statements).flatten
  | .mk _ params (.value e) _ => paramTokens params ++ Mark.arrow.token :: parenthesized e.tokens

def Stmt.tokens : Stmt → List Token
  | .declare _ word name none => [wordToken word.word, wordToken name, Mark.semicolon.token]
  | .declare _ word name (some init) =>
    wordToken word.word :: wordToken name :: Mark.assign.token :: parenthesized init.tokens ++
      [Mark.semicolon.token]
  | .define definition => definition.tokens
  | .choose condition yes none =>
    wordToken "if" :: parenthesized condition.tokens ++ yes.tokens
  | .choose condition yes (some no) =>
    wordToken "if" :: parenthesized condition.tokens ++ yes.tokens ++ wordToken "else" :: no.tokens
  | .whileLoop condition body => wordToken "while" :: parenthesized condition.tokens ++ body.tokens
  | .forLoop init condition update body =>
    wordToken "for" ::
      parenthesized (Stmt.startTokens init ++ Expr.tokens? condition ++ Mark.semicolon.token ::
        Expr.tokens? update) ++ body.tokens
  | .giveBack value => wordToken "return" :: Expr.tokens? value ++ [Mark.semicolon.token]
  | .breakLoop => [wordToken "break", Mark.semicolon.token]
  | .continueLoop => [wordToken "continue", Mark.semicolon.token]
  | .block statements => braced (Stmt.eachTokens statements).flatten
  | .evaluate e => parenthesized e.tokens ++ [Mark.semicolon.token]
  | .empty => [Mark.semicolon.token]

/-- What a loop does first, which ends with a semicolon. -/
def Stmt.startTokens : Option Stmt → List Token
  | none => [Mark.semicolon.token]
  | some s => s.tokens

/-- The tokens of each statement of a list. -/
def Stmt.eachTokens : List Stmt → List (List Token)
  | [] => []
  | s :: rest => s.tokens :: Stmt.eachTokens rest

end

/-! ## Characters -/

/-- The decimal digits of a number that is whole. -/
def digitsOf (value : Float) : List Char :=
  Nat.toDigits 10 (Number.wholeWithin 0 Number.maxWord value).toNat

/-- How a character is written in a text or template literal. -/
def escaped (c : Char) : List Char :=
  if c = '\n' then ['\\', 'n']
  else if c ∈ ['\\', '\x22', '\x60', '$'] then ['\\', c]
  else [c]

mutual

/-- The characters of a lexeme. -/
def Lexeme.spelled : Lexeme → List Char
  | .name word => word.toList
  | .number value => digitsOf value
  | .text content => '\x22' :: (content.toList.flatMap escaped ++ ['\x22'])
  | .template chunks => '\x60' :: (Chunk.spelled chunks ++ ['\x60'])
  | .mark m => m.spelling.toList

/-- The characters between the quotes of a template literal. -/
def Chunk.spelled : List Chunk → List Char
  | [] => []
  | .text content :: rest => content.toList.flatMap escaped ++ Chunk.spelled rest
  | .code tokens :: rest => '$' :: '{' :: (Token.spelled tokens ++ '}' :: Chunk.spelled rest)

/-- The characters of some tokens, with a blank after each. -/
def Token.spelled : List Token → List Char
  | [] => []
  | .at _ lexeme :: rest => lexeme.spelled ++ ' ' :: Token.spelled rest

end

/-- The script as a text. -/
def Script.print (script : Script) : String :=
  String.ofList (Token.spelled (Stmt.eachTokens script).flatten)

/-! ## Rules -/

/-- Does a word have the form of a name? -/
def isWord (word : String) : Bool :=
  match word.toList with
  | [] => false
  | c :: cs => isNameStart c && cs.all isNamePart

/-- Can a script give this name to something? -/
def IsName (word : String) : Prop :=
  isWord word = true ∧ word ∉ reservedWords ∧ word ∉ unsupportedWords

instance (word : String) : Decidable (IsName word) :=
  inferInstanceAs (Decidable (_ ∧ _ ∧ _))

/-- Is the number whole, not negative, and small enough to be written without loss? -/
def IsWhole (value : Float) : Prop :=
  ∃ n : Nat, n < 2 ^ 53 ∧ value = Float.ofNat n

/-- No text among these pieces is empty, and no two texts are neighbours. -/
def TextsApart {α : Type} (text? : α → Option String) : List α → Prop
  | [] => True
  | piece :: rest =>
    (∀ content ∈ text? piece, content ≠ "" ∧ ∀ next ∈ rest.head?, text? next = none) ∧
      TextsApart text? rest

def Part.text? : Part → Option String
  | .text content => some content
  | .value _ => none

def Body.IsBlock : Body → Prop
  | .block _ => True
  | .value _ => False

def Stmt.IsBlock : Stmt → Prop
  | .block _ => True
  | _ => False

def Stmt.IsChoice : Stmt → Prop
  | .choose .. => True
  | _ => False

/-- Can a loop do this first? -/
def Stmt.IsStart : Stmt → Prop
  | .declare .. | .evaluate _ => True
  | _ => False

/-- What single nodes of a tree have to look like. -/
structure Rules where
  /-- An expression, inside a hole of a template literal or not. -/
  expr : (inHole : Bool) → Expr → Prop
  /-- A function, declared by a statement or not. -/
  definition : (declared : Bool) → Definition → Prop
  stmt : Surroundings → Stmt → Prop

mutual

/-- All nodes of the expression comply with the rules. -/
def Expr.Meets (rules : Rules) (inHole : Bool) (e : Expr) : Prop :=
  rules.expr inHole e ∧
    match e with
    | .template _ parts => Part.EachMeets rules parts
    | .assign _ _ _ value => value.Meets rules inHole
    | .binary _ _ left right | .logical _ _ left right =>
      left.Meets rules inHole ∧ right.Meets rules inHole
    | .unary _ _ operand => operand.Meets rules inHole
    | .conditional _ condition yes no =>
      condition.Meets rules inHole ∧ yes.Meets rules inHole ∧ no.Meets rules inHole
    | .call _ callee args => callee.Meets rules inHole ∧ Expr.EachMeets rules inHole args
    | .member _ object _ => object.Meets rules inHole
    | .function _ definition => definition.Meets rules inHole false
    | _ => True

def Expr.EachMeets (rules : Rules) (inHole : Bool) : List Expr → Prop
  | [] => True
  | e :: rest => e.Meets rules inHole ∧ Expr.EachMeets rules inHole rest

def Expr.Meets? (rules : Rules) (inHole : Bool) : Option Expr → Prop
  | none => True
  | some e => e.Meets rules inHole

def Part.EachMeets (rules : Rules) : List Part → Prop
  | [] => True
  | .text _ :: rest => Part.EachMeets rules rest
  | .value e :: rest => e.Meets rules true ∧ Part.EachMeets rules rest

def Definition.Meets (rules : Rules) (inHole declared : Bool) (definition : Definition) : Prop :=
  rules.definition declared definition ∧
    match definition with
    | .mk _ _ (.block statements) _ => Stmt.EachMeets rules inHole .function statements
    | .mk _ _ (.value e) _ => e.Meets rules inHole

def Stmt.Meets (rules : Rules) (inHole : Bool) (around : Surroundings) (s : Stmt) : Prop :=
  rules.stmt around s ∧
    match s with
    | .declare _ _ _ init => Expr.Meets? rules inHole init
    | .define definition => definition.Meets rules inHole true
    | .choose condition yes no =>
      condition.Meets rules inHole ∧ yes.Meets rules inHole around ∧
        Stmt.Meets? rules inHole around no
    | .whileLoop condition body =>
      condition.Meets rules inHole ∧ body.Meets rules inHole around.loop
    | .forLoop init condition update body =>
      Stmt.Meets? rules inHole around init ∧ Expr.Meets? rules inHole condition ∧
        Expr.Meets? rules inHole update ∧ body.Meets rules inHole around.loop
    | .giveBack value => Expr.Meets? rules inHole value
    | .block statements => Stmt.EachMeets rules inHole around statements
    | .evaluate e => e.Meets rules inHole
    | _ => True

def Stmt.Meets? (rules : Rules) (inHole : Bool) (around : Surroundings) : Option Stmt → Prop
  | none => True
  | some s => s.Meets rules inHole around

def Stmt.EachMeets (rules : Rules) (inHole : Bool) (around : Surroundings) : List Stmt → Prop
  | [] => True
  | s :: rest => s.Meets rules inHole around ∧ Stmt.EachMeets rules inHole around rest

end

/-- All nodes of the script comply with the rules. -/
def Script.Meets (rules : Rules) (script : Script) : Prop :=
  Stmt.EachMeets rules false ⟨false, false⟩ script

namespace Rules

/-- Names can be given, numbers are whole, constants have a value, jumps stand where they can be
taken, branches and loop bodies are blocks, and template literals have no needless text and do not
nest. -/
def legal : Rules where
  expr
    | _, .number _ value => IsWhole value
    | inHole, .template _ parts =>
      inHole = false ∧ (parts = [.text ""] ∨ TextsApart Part.text? parts)
    | _, .name _ word => IsName word
    | _, .assign _ _ target _ => IsName target
    | _, .update _ _ _ target => IsName target
    | _, _ => True
  definition _ definition :=
    (∀ name ∈ definition.name, IsName name) ∧ ∀ param ∈ definition.params, IsName param
  stmt
    | _, .declare _ word name init => IsName name ∧ (word = .constWord → init.isSome)
    | around, .giveBack _ => around.inFunction
    | around, .breakLoop => around.inLoop
    | around, .continueLoop => around.inLoop
    | _, .choose _ yes no => yes.IsBlock ∧ ∀ s ∈ no, s.IsBlock ∨ s.IsChoice
    | _, .whileLoop _ body => body.IsBlock
    | _, .forLoop _ _ _ body => body.IsBlock
    | _, _ => True

/-- The tree has the shape of something that can be written: template literals have parts,
properties have the form of names, a loop first declares or evaluates something, declared functions
have a name and a block, and functions with the value of an expression have no name. -/
def expressible : Rules where
  expr
    | _, .template _ parts => parts ≠ []
    | _, .member _ _ property => isWord property = true
    | _, _ => True
  definition declared definition :=
    (declared = true → definition.name.isSome ∧ definition.body.IsBlock) ∧
      (definition.name.isSome → definition.body.IsBlock)
  stmt
    | _, .forLoop init _ _ _ => ∀ s ∈ init, s.IsStart
    | _, _ => True

/-- What complies with both. -/
def and (first second : Rules) : Rules where
  expr inHole e := first.expr inHole e ∧ second.expr inHole e
  definition declared d := first.definition declared d ∧ second.definition declared d
  stmt around s := first.stmt around s ∧ second.stmt around s

/-- What can be written. -/
def writable : Rules := legal.and expressible

end Rules

end EventLoop
