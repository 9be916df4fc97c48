import EventLoop.Proofs.Language.Reading
import EventLoop.Proofs.Language.Rules

/-!
# The grammar

Which tokens spell which phrase of a script, whatever the parsers do. Expressions have grades, from
the parts that hold together most tightly to whole expressions. Statements may end with a semicolon,
and a loop with a header has a semicolon after each of the first two parts of the header; the one
after a declaration may be missing if a condition follows.
-/

namespace EventLoop

open Parsing (Operator declarator? strengths)

/-- A mark on a line. -/
abbrev Mark.on (m : Mark) (line : Nat) : Token := .at line (.mark m)

/-- A word on a line. -/
abbrev wordOn (word : String) (line : Nat) : Token := .at line (.name word)

/-- How tightly the parts of an expression hold together. -/
inductive Grade where
  | primary
  /-- With calls and properties. -/
  | chained
  /-- With an operator that takes one side. -/
  | operand
  /-- With operators of these strengths. -/
  | joined (operators : List Operator)
  | choice
  | full

/-- What tokens can spell. -/
inductive Phrase where
  | expr (grade : Grade) (e : Expr)
  /-- Expressions with commas between them. -/
  | items (es : List Expr)
  /-- The parts of a template literal. -/
  | template (parts : List Part)
  /-- A function after the word that introduces it on a line. -/
  | definition (line : Nat) (d : Definition)
  /-- What an arrow function does. -/
  | body (b : Body)
  /-- An expression that may be missing. -/
  | given (e : Option Expr)
  /-- A statement without the semicolon that may end it. -/
  | simple (s : Stmt)
  /-- What a loop with a header does first, if anything. -/
  | start (s : Option Stmt)
  /-- The header of a loop, with so many semicolons. -/
  | header (semicolons : Nat) (init : Option Stmt) (condition update : Option Expr)
  | statement (s : Stmt)
  | statements (statements : List Stmt)

/-- The values that are words. -/
def literal? (line : Nat) (word : String) : Option Expr :=
  if word = "true" then some (.bool line true)
  else if word = "false" then some (.bool line false)
  else if word = "null" then some (.null line)
  else if word = "undefined" then some (.undefined line)
  else none

/-- The parameters of a function, with commas between them and perhaps one at the end. -/
inductive Params : List Token → List String → Prop
  | none : Params [] []
  | last {line : Nat} {name : String} : IsFree name → Params [wordOn name line] [name]
  | more {line line' : Nat} {name : String} {tokens : List Token} {names : List String} :
    IsFree name → Params tokens names →
      Params (wordOn name line :: Mark.comma.on line' :: tokens) (name :: names)

/-- The tokens spell the phrase. -/
inductive Spells : List Token → Phrase → Prop
  -- Values, names and functions
  | number (line : Nat) (value : Float) :
    Spells [.at line (.number value)] (.expr .primary (.number line value))
  | text (line : Nat) (content : String) :
    Spells [.at line (.text content)] (.expr .primary (.text line content))
  | template {line : Nat} {chunks : List Chunk} {parts : List Part} :
    Spells [.at line (.template chunks)] (.template parts) →
    Spells [.at line (.template chunks)] (.expr .primary (.template line parts))
  | literal {line : Nat} {word : String} {e : Expr} : literal? line word = some e →
    Spells [wordOn word line] (.expr .primary e)
  | name (line : Nat) {word : String} : IsFree word →
    Spells [wordOn word line] (.expr .primary (.name line word))
  | function {line : Nat} {tokens : List Token} {d : Definition} :
    Spells tokens (.definition line d) →
    Spells (wordOn "function" line :: tokens) (.expr .primary (.function line d))
  | parenthesized {line line' : Nat} {tokens : List Token} {e : Expr} :
    Spells tokens (.expr .full e) →
    Spells (Mark.leftParen.on line :: (tokens ++ [Mark.rightParen.on line'])) (.expr .primary e)
  -- The parts of a template literal, which is one token
  | noParts (line : Nat) : Spells [.at line (.template [])] (.template [])
  | textPart {line : Nat} (content : String) {chunks : List Chunk} {parts : List Part} :
    Spells [.at line (.template chunks)] (.template parts) →
    Spells [.at line (.template (.text content :: chunks))] (.template (.text content :: parts))
  | codePart {line : Nat} {code : List Token} {e : Expr} {chunks : List Chunk}
    {parts : List Part} :
    Spells code (.expr .full e) → Spells [.at line (.template chunks)] (.template parts) →
    Spells [.at line (.template (.code code :: chunks))] (.template (.value e :: parts))
  -- Calls and properties
  | unchained {tokens : List Token} {e : Expr} :
    Spells tokens (.expr .primary e) → Spells tokens (.expr .chained e)
  | call (line line' : Nat) {front args : List Token} {callee : Expr} {es : List Expr} :
    Spells front (.expr .chained callee) → Spells args (.items es) →
    Spells (front ++ Mark.leftParen.on line :: (args ++ [Mark.rightParen.on line']))
      (.expr .chained (.call line callee es))
  | member (line line' : Nat) (property : String) {front : List Token} {object : Expr} :
    Spells front (.expr .chained object) →
    Spells (front ++ [Mark.dot.on line, wordOn property line'])
      (.expr .chained (.member line object property))
  | noItems : Spells [] (.items [])
  | lastItem {tokens : List Token} {e : Expr} :
    Spells tokens (.expr .full e) → Spells tokens (.items [e])
  | moreItems {line : Nat} {tokens rest : List Token} {e : Expr} {es : List Expr} :
    Spells tokens (.expr .full e) → Spells rest (.items es) →
    Spells (tokens ++ Mark.comma.on line :: rest) (.items (e :: es))
  -- Operators with one side
  | unprefixed {tokens : List Token} {e : Expr} :
    Spells tokens (.expr .chained e) → Spells tokens (.expr .operand e)
  | countedBefore {start line : Nat} {tokens : List Token} {target : String} (count : Count) :
    Spells tokens (.expr .chained (.name start target)) →
    Spells (tokens ++ [count.mark.on line]) (.expr .operand (.update start count .before target))
  | countedAfter (line line' : Nat) (count : Count) {target : String} : IsFree target →
    Spells [count.mark.on line, wordOn target line']
      (.expr .operand (.update line count .after target))
  | unary (line : Nat) (op : UnaryOp) {tokens : List Token} {e : Expr} :
    Spells tokens (.expr .operand e) →
    Spells (.at line op.token.lexeme :: tokens) (.expr .operand (.unary line op e))
  -- Operators with two sides or three
  | unjoined {tokens : List Token} {e : Expr} :
    Spells tokens (.expr .operand e) → Spells tokens (.expr (.joined []) e)
  | tighter {operator : Operator} {stronger : List Operator} {tokens : List Token} {e : Expr} :
    Spells tokens (.expr (.joined stronger) e) →
    Spells tokens (.expr (.joined (operator :: stronger)) e)
  | link (line : Nat) {operator : Operator} {stronger : List Operator} {m : Mark}
    {combine : Expr → Expr → Expr} {front back : List Token} {left right : Expr} :
    operator ∈ strengths → operator m = some combine →
    Spells front (.expr (.joined (operator :: stronger)) left) →
    Spells back (.expr (.joined stronger) right) →
    Spells (front ++ m.on line :: back)
      (.expr (.joined (operator :: stronger)) (combine left right))
  | unchosen {tokens : List Token} {e : Expr} :
    Spells tokens (.expr (.joined strengths) e) → Spells tokens (.expr .choice e)
  | chosen {line line' : Nat} {front middle back : List Token} {condition yes no : Expr} :
    Spells front (.expr (.joined strengths) condition) → Spells middle (.expr .full yes) →
    Spells back (.expr .full no) →
    Spells (front ++ Mark.question.on line :: (middle ++ Mark.colon.on line' :: back))
      (.expr .choice (.conditional condition.line condition yes no))
  -- Assignments and arrow functions
  | unassigned {tokens : List Token} {e : Expr} :
    Spells tokens (.expr .choice e) → Spells tokens (.expr .full e)
  | assignment (line line' : Nat) (op : AssignOp) {target : String} {tokens : List Token}
    {e : Expr} : target ∉ reservedWords → Spells tokens (.expr .full e) →
    Spells (wordOn target line :: op.mark.on line' :: tokens)
      (.expr .full (.assign line op target e))
  | arrow {line line' : Nat} {param : String} {tokens : List Token} {body : Body} :
    IsFree param → Spells tokens (.body body) →
    Spells (wordOn param line :: Mark.arrow.on line' :: tokens)
      (.expr .full (.function line (.mk none [param] body line)))
  | arrowWith {line line' line'' : Nat} {names tokens : List Token} {params : List String}
    {body : Body} : Params names params → Spells tokens (.body body) →
    Spells (Mark.leftParen.on line ::
        (names ++ Mark.rightParen.on line' :: Mark.arrow.on line'' :: tokens))
      (.expr .full (.function line (.mk none params body line)))
  | blockBody {line line' : Nat} {tokens : List Token} {statements : List Stmt} :
    Spells tokens (.statements statements) →
    Spells (Mark.leftBrace.on line :: (tokens ++ [Mark.rightBrace.on line']))
      (.body (.block statements))
  | valueBody {tokens : List Token} {e : Expr} :
    Spells tokens (.expr .full e) → Spells tokens (.body (.value e))
  -- Functions with a word
  | unnamed {line line₁ line₂ line₃ line₄ : Nat} {names tokens : List Token}
    {params : List String} {statements : List Stmt} :
    Params names params → Spells tokens (.statements statements) →
    Spells (Mark.leftParen.on line₁ :: (names ++ Mark.rightParen.on line₂ ::
        Mark.leftBrace.on line₃ :: (tokens ++ [Mark.rightBrace.on line₄])))
      (.definition line (.mk none params (.block statements) line))
  | named {line line' : Nat} {name : String} {tokens : List Token} {params : List String}
    {body : Body} : IsFree name → Spells tokens (.definition line (.mk none params body line)) →
    Spells (wordOn name line' :: tokens) (.definition line (.mk (some name) params body line))
  -- Simple statements
  | notGiven : Spells [] (.given none)
  | given {tokens : List Token} {e : Expr} :
    Spells tokens (.expr .full e) → Spells tokens (.given (some e))
  | declaration (line line' : Nat) {word name : String} {declarator : Declarator} :
    declarator? word = some declarator → IsFree name → declarator ≠ .constWord →
    Spells [wordOn word line, wordOn name line'] (.simple (.declare line declarator name none))
  | declarationWith (line line' line'' : Nat) {word name : String} {declarator : Declarator}
    {tokens : List Token} {e : Expr} :
    declarator? word = some declarator → IsFree name → Spells tokens (.expr .full e) →
    Spells (wordOn word line :: wordOn name line' :: Mark.assign.on line'' :: tokens)
      (.simple (.declare line declarator name (some e)))
  | evaluation {tokens : List Token} {e : Expr} :
    Spells tokens (.expr .full e) → Spells tokens (.simple (.evaluate e))
  | giveBack (line : Nat) {tokens : List Token} {e : Option Expr} :
    Spells tokens (.given e) → Spells (wordOn "return" line :: tokens) (.simple (.giveBack e))
  | breakLoop (line : Nat) : Spells [wordOn "break" line] (.simple .breakLoop)
  | continueLoop (line : Nat) : Spells [wordOn "continue" line] (.simple .continueLoop)
  -- Statements
  | unended {tokens : List Token} {s : Stmt} :
    Spells tokens (.simple s) → Spells tokens (.statement s)
  | ended (line : Nat) {tokens : List Token} {s : Stmt} :
    Spells tokens (.simple s) → Spells (tokens ++ [Mark.semicolon.on line]) (.statement s)
  | empty (line : Nat) : Spells [Mark.semicolon.on line] (.statement .empty)
  | block {line line' : Nat} {tokens : List Token} {statements : List Stmt} :
    Spells tokens (.statements statements) →
    Spells (Mark.leftBrace.on line :: (tokens ++ [Mark.rightBrace.on line']))
      (.statement (.block statements))
  | define {line : Nat} {tokens : List Token} {d : Definition} :
    Spells tokens (.definition line d) → d.name.isSome →
    Spells (wordOn "function" line :: tokens) (.statement (.define d))
  | choose {line line₁ line₂ : Nat} {front tokens : List Token} {condition : Expr} {yes : Stmt} :
    Spells front (.expr .full condition) → Spells tokens (.statement yes) →
    Spells (wordOn "if" line :: Mark.leftParen.on line₁ ::
        (front ++ Mark.rightParen.on line₂ :: tokens))
      (.statement (.choose condition yes none))
  | chooseElse {line line₁ line₂ line₃ : Nat} {front tokens back : List Token} {condition : Expr}
    {yes no : Stmt} :
    Spells front (.expr .full condition) → Spells tokens (.statement yes) →
    Spells back (.statement no) →
    Spells (wordOn "if" line :: Mark.leftParen.on line₁ ::
        (front ++ Mark.rightParen.on line₂ :: (tokens ++ wordOn "else" line₃ :: back)))
      (.statement (.choose condition yes (some no)))
  | whileLoop {line line₁ line₂ : Nat} {front tokens : List Token} {condition : Expr}
    {body : Stmt} :
    Spells front (.expr .full condition) → Spells tokens (.statement body) →
    Spells (wordOn "while" line :: Mark.leftParen.on line₁ ::
        (front ++ Mark.rightParen.on line₂ :: tokens))
      (.statement (.whileLoop condition body))
  | forLoop {line line₁ line₂ semicolons : Nat} {front tokens : List Token} {init : Option Stmt}
    {condition update : Option Expr} {body : Stmt} :
    Spells front (.header semicolons init condition update) → Spells tokens (.statement body) →
    Spells (wordOn "for" line :: Mark.leftParen.on line₁ ::
        (front ++ Mark.rightParen.on line₂ :: tokens))
      (.statement (.forLoop init condition update body))
  | noStatements : Spells [] (.statements [])
  | moreStatements {tokens rest : List Token} {s : Stmt} {statements : List Stmt} :
    Spells tokens (.statement s) → Spells rest (.statements statements) →
    Spells (tokens ++ rest) (.statements (s :: statements))
  -- Headers of loops
  | notStarting : Spells [] (.start none)
  | starting {tokens : List Token} {s : Stmt} :
    Spells tokens (.simple s) → s.IsStart → Spells tokens (.start (some s))
  /-- A declaration or an expression, a condition and an expression. Each of the three may be
  missing; the two semicolons between them may not. -/
  | header {line line' : Nat} {front middle back : List Token} {init : Option Stmt}
    {condition update : Option Expr} :
    Spells front (.start init) → Spells middle (.given condition) → Spells back (.given update) →
    Spells (front ++ Mark.semicolon.on line :: (middle ++ Mark.semicolon.on line' :: back))
      (.header 2 init condition update)
  /-- A declaration that a condition follows without a semicolon. -/
  | joinedHeader {line start : Nat} {declarator : Declarator} {name : String}
    {value : Option Expr} {front middle back : List Token} {condition : Expr}
    {update : Option Expr} :
    Spells front (.simple (.declare start declarator name value)) →
    Spells middle (.expr .full condition) → Spells back (.given update) →
    Spells (front ++ (middle ++ Mark.semicolon.on line :: back))
      (.header 1 (some (.declare start declarator name value)) (some condition) update)

/-- Can the phrase not be empty? -/
def Phrase.IsSolid : Phrase → Prop
  | expr .. | template _ | definition .. | body _ | simple _ | header .. | statement _ => True
  | items _ | given _ | start _ | statements _ => False

theorem Spells.ne_nil {tokens : List Token} {phrase : Phrase} (spells : Spells tokens phrase)
    (solid : phrase.IsSolid) : tokens ≠ [] := by
  induction spells <;> simp_all [Phrase.IsSolid]

end EventLoop
