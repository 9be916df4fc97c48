import EventLoop.Language.Lexing
import EventLoop.Language.Syntax

/-!
# From tokens to trees

`parse` reads a whole script. The grammar is read by recursive descent, one function for each kind
of phrase. Statements, assignments and operands of prefix operators open a level of nesting, and the
number of levels is bounded. So the parsers of the next level are a parameter of those of this one,
and `levels` ties the knot by recursion on the room that is left. Chains of operators, calls and
properties are bounded by the same room, since each link makes the tree one deeper.
-/

namespace EventLoop

/-- Words that no name can be. -/
def reservedWords : List String :=
  [ "let", "const", "var", "function", "return", "if", "else", "while", "for", "break",
    "continue", "true", "false", "null", "undefined", "typeof" ]

/-- Words kept for constructs that the language does not have. -/
def unsupportedWords : List String :=
  [ "new", "class", "async", "await", "yield", "try", "catch", "throw", "switch", "do",
    "import", "export", "this", "delete", "in", "of", "instanceof" ]

/-- A parser takes tokens off the front, or rejects the script. -/
abbrev Parser := StateT Tokens (Except ScriptError)

namespace Parsing

/-- The line of the next token, or that of the end. -/
def nextLine : Parser Nat := do
  let tokens ← get
  return (tokens.items.head?.map Token.line).getD tokens.endLine

/-- The next lexeme, or nothing at the end. -/
def peek : Parser (Option Lexeme) := do
  return (← get).items.head?.map Token.lexeme

/-- The lexeme after the next. -/
def peekSecond : Parser (Option Lexeme) := do
  return (← get).items.tail.head?.map Token.lexeme

/-- Drops the next token. -/
def skip : Parser Unit :=
  modify fun tokens => { tokens with items := tokens.items.tail }

/-- Rejects the script at a line. -/
def rejectAt {α : Type} (line : Nat) (fault : SyntaxFault) : Parser α :=
  throw (.malformed line fault)

/-- Rejects the script at the next token. -/
def reject {α : Type} (fault : SyntaxFault) : Parser α := do
  rejectAt (← nextLine) fault

/-- Rejects the next token, since something else is wanted. -/
def unexpected {α : Type} (wanted : String) : Parser α := do
  let found := match ← peek with
    | some lexeme => lexeme.shown
    | none => endOfInput
  reject (.unexpected found wanted)

/-- Is the lexeme this mark? -/
def isMark (m : Mark) : Option Lexeme → Bool
  | some (.mark n) => m == n
  | _ => false

/-- Is the next token this mark? -/
def sees (m : Mark) : Parser Bool := do
  return isMark m (← peek)

/-- Drops the next token if it is this mark, and tells whether it was. -/
def eat (m : Mark) : Parser Bool := do
  if ← sees m then
    skip
    return true
  else return false

/-- Drops the next token, which has to be this mark. -/
def expect (m : Mark) : Parser Unit := do
  unless ← eat m do unexpected m.shown

/-- Drops the semicolon that may end a statement. Line breaks have no meaning. -/
def terminator : Parser Unit := do
  let _ ← eat .semicolon

/-- A name that a script may bind. -/
def bindingName : Parser String := do
  match ← peek with
  | some (.name word) =>
    if word ∈ reservedWords then unexpected "identifier"
    else if word ∈ unsupportedWords then reject (.unsupported word)
    else
      skip
      return word
  | _ => unexpected "identifier"

/-- Items up to a closing parenthesis, with commas between them and perhaps one at the end. Each
item takes a token, so the number of tokens bounds the number of items. -/
def commaList {α : Type} (item : Parser α) : Nat → Parser (List α)
  | 0 => return []
  | bound + 1 => do
    if ← eat .rightParen then return []
    let first ← item
    unless ← sees .rightParen do expect .comma
    return first :: (← commaList item bound)

/-- A comma-separated list after its opening parenthesis. -/
def closedList {α : Type} (item : Parser α) : Parser (List α) := do
  commaList item ((← get).items.length + 1)

/-- The parameters of a function, in parentheses. -/
def parameters : Parser (List String) := do
  expect .leftParen
  closedList bindingName

/-- Statements up to a closing brace. Each takes a token, so the number of tokens bounds theirs. -/
def statementsToBrace (statement : Parser Stmt) : Nat → Parser (List Stmt)
  | 0 => return []
  | bound + 1 => do
    match ← peek with
    | some (.mark .rightBrace) =>
      skip
      return []
    | none => unexpected Mark.rightBrace.shown
    | some _ =>
      let first ← statement
      return first :: (← statementsToBrace statement bound)

/-- Statements up to the end. -/
def statementsToEnd (statement : Parser Stmt) : Nat → Parser (List Stmt)
  | 0 => return []
  | bound + 1 => do
    match ← peek with
    | none => return []
    | some _ =>
      let first ← statement
      return first :: (← statementsToEnd statement bound)

/-- Does an arrow follow the parenthesis that closes the list begun before these tokens? The number
counts the parentheses opened since. -/
def arrowAfterParen : List Token → Nat → Bool
  | [], _ => false
  | token :: rest, opened =>
    match token.lexeme with
    | .mark .leftParen => arrowAfterParen rest (opened + 1)
    | .mark .rightParen =>
      match opened with
      | 0 => isMark .arrow (rest.head?.map Token.lexeme)
      | opened + 1 => arrowAfterParen rest opened
    | _ => arrowAfterParen rest opened

/-- Does the next token open the parameters of an arrow function? -/
def seesArrowParameters : Parser Bool := do
  let tokens ← get
  match tokens.items with
  | .at _ (.mark .leftParen) :: rest => return arrowAfterParen rest 0
  | _ => return false

/-- What surrounds a phrase: whether values can be returned there, and whether there is a loop of
the same function to leave. -/
structure Surroundings where
  inFunction : Bool
  inLoop : Bool
deriving DecidableEq, Repr

/-- The body of a function. -/
def Surroundings.function : Surroundings := ⟨true, false⟩

/-- The body of a loop. -/
def Surroundings.loop (around : Surroundings) : Surroundings := { around with inLoop := true }

/-- The parsers that open a level of nesting. -/
structure Level where
  statement : Surroundings → Parser Stmt
  assignment : Surroundings → Parser Expr
  /-- The operand of a prefix operator. -/
  operand : Surroundings → Parser Expr

/-- Statements between braces. -/
def block (deeper : Level) (around : Surroundings) : Parser (List Stmt) := do
  expect .leftBrace
  statementsToBrace (deeper.statement around) ((← get).items.length + 1)

/-- The block of a function. -/
def functionBlock (deeper : Level) : Parser (List Stmt) :=
  block deeper .function

/-- A function after the word that introduces it. -/
def functionRest (deeper : Level) (mustBeNamed : Bool) (line : Nat) : Parser Definition := do
  let named := match ← peek with
    | some (.name _) => true
    | _ => mustBeNamed
  let name ← if named then some <$> bindingName else pure none
  let params ← parameters
  let body ← functionBlock deeper
  return .mk name params (.block body) line

/-- The body of an arrow function, after the arrow. -/
def arrowBody (deeper : Level) (params : List String) (line : Nat) : Parser Expr := do
  let body ←
    if ← sees .leftBrace then Body.block <$> functionBlock deeper
    else Body.value <$> deeper.assignment .function
  return .function line (.mk none params body line)

/-- The tokens of a hole as an expression, all of them. Without tokens the hole ends on the line of
its template. -/
def hole (deeper : Level) (around : Surroundings) (line : Nat) (tokens : List Token) :
    Parser Part := do
  let endLine := (tokens.getLast?.map Token.line).getD line
  let reading : Parser Expr := do
    let e ← deeper.assignment { around with inLoop := false }
    if (← peek).isSome then unexpected (Mark.rightBrace.shown ++ " in template literal")
    return e
  let (e, _) ← reading.run ⟨tokens, endLine⟩
  return .value e

/-- The chunks of a template, in order. -/
def templateParts (deeper : Level) (around : Surroundings) (line : Nat) :
    List Chunk → Parser (List Part)
  | [] => return []
  | .text content :: rest => do
    return .text content :: (← templateParts deeper around line rest)
  | .code tokens :: rest => do
    let part ← hole deeper around line tokens
    return part :: (← templateParts deeper around line rest)

/-- A literal, a name, a function, or an expression in parentheses. -/
def primary (deeper : Level) (around : Surroundings) : Parser Expr := do
  let line ← nextLine
  match ← peek with
  | some (.number value) =>
    skip
    return .number line value
  | some (.text content) =>
    skip
    return .text line content
  | some (.template chunks) =>
    skip
    return .template line (← templateParts deeper around line chunks)
  | some (.mark .leftParen) =>
    skip
    let inner ← deeper.assignment around
    expect .rightParen
    return inner
  | some (.name word) =>
    if word = "true" then
      skip
      return .bool line true
    else if word = "false" then
      skip
      return .bool line false
    else if word = "null" then
      skip
      return .null line
    else if word = "undefined" then
      skip
      return .undefined line
    else if word = "function" then
      skip
      return .function line (← functionRest deeper false line)
    else if word ∈ reservedWords then unexpected "expression"
    else if word ∈ unsupportedWords then reject (.unsupported word)
    else
      skip
      return .name line word
  | _ => unexpected "expression"

/-- A name whose value is taken before it counts, from the counting operator on. -/
def countedAfter (e : Expr) (count : Count) (line : Nat) : Parser Expr := do
  match e with
  | .name start target =>
    skip
    return .update start count .before target
  | _ => rejectAt line .invalidUpdate

/-- Calls, properties and a counting operator that follow an expression. The room bounds the number
of calls and properties. -/
def postfixChain (deeper : Level) (around : Surroundings) (room : Nat) (e : Expr) :
    Parser Expr := do
  let line ← nextLine
  match ← peek with
  | some (.mark .leftParen) =>
    match room with
    | 0 => rejectAt line .codeTooDeep
    | room + 1 =>
      skip
      let args ← closedList (deeper.assignment around)
      postfixChain deeper around room (.call line e args)
  | some (.mark .dot) =>
    match room with
    | 0 => rejectAt line .codeTooDeep
    | room + 1 =>
      skip
      match ← peek with
      | some (.name property) =>
        skip
        postfixChain deeper around room (.member line e property)
      | _ => unexpected "property name"
  | some (.mark .plusPlus) => countedAfter e .up line
  | some (.mark .minusMinus) => countedAfter e .down line
  | _ => return e

/-- An operand with its prefix operators. -/
def prefixed (deeper : Level) (room : Nat) (around : Surroundings) : Parser Expr := do
  let line ← nextLine
  match ← peek with
  | some (.mark .bang) => applied line .not
  | some (.mark .minus) => applied line .neg
  | some (.mark .plus) => applied line .plus
  | some (.mark .plusPlus) => counted line .up
  | some (.mark .minusMinus) => counted line .down
  | some (.name word) => if word = "typeof" then applied line .typeOf else plain
  | _ => plain
where
  applied (line : Nat) (op : UnaryOp) : Parser Expr := do
    skip
    return .unary line op (← deeper.operand around)
  counted (line : Nat) (count : Count) : Parser Expr := do
    skip
    return .update line count .after (← bindingName)
  plain : Parser Expr := do
    postfixChain deeper around room (← primary deeper around)

/-- An operator of one binding strength, as what it makes of its two sides. -/
abbrev Operator := Mark → Option (Expr → Expr → Expr)

def binaryOperator (op : BinaryOp) : Option (Expr → Expr → Expr) :=
  some fun left right => .binary left.line op left right

def logicalOperator (op : LogicalOp) : Option (Expr → Expr → Expr) :=
  some fun left right => .logical left.line op left right

def multiplicative : Operator
  | .star => binaryOperator .mul
  | .slash => binaryOperator .div
  | .percent => binaryOperator .rem
  | _ => none

def additive : Operator
  | .plus => binaryOperator .add
  | .minus => binaryOperator .sub
  | _ => none

def comparison : Operator
  | .less => binaryOperator .less
  | .lessEqual => binaryOperator .lessEqual
  | .greater => binaryOperator .greater
  | .greaterEqual => binaryOperator .greaterEqual
  | _ => none

def equality : Operator
  | .equal => binaryOperator .equal
  | .notEqual => binaryOperator .notEqual
  | .strictEqual => binaryOperator .strictEqual
  | .strictNotEqual => binaryOperator .strictNotEqual
  | _ => none

def conjunction : Operator
  | .andAnd => logicalOperator .and
  | _ => none

def disjunction : Operator
  | .orOr => logicalOperator .or
  | _ => none

/-- The operators of one strength that follow an expression, taken from the left. The room bounds
their number. -/
def operatorChain (operator : Operator) (operand : Parser Expr) : Nat → Expr → Parser Expr
  | room, left => do
    match ← peek with
    | some (.mark m) =>
      match operator m with
      | none => return left
      | some combine =>
        skip
        match room with
        | 0 => reject .codeTooDeep
        | room + 1 =>
          let right ← operand
          operatorChain operator operand room (combine left right)
    | _ => return left

/-- Expressions joined by operators of the given strengths, the weakest first. -/
def joined (room : Nat) (operand : Parser Expr) : List Operator → Parser Expr
  | [] => operand
  | operator :: stronger => do
    let left ← joined room operand stronger
    operatorChain operator (joined room operand stronger) room left

/-- An expression of binary operators. -/
def operation (deeper : Level) (room : Nat) (around : Surroundings) : Parser Expr :=
  joined room (prefixed deeper room around)
    [disjunction, conjunction, equality, comparison, additive, multiplicative]

/-- A choice between two expressions, or just one expression. -/
def conditional (deeper : Level) (room : Nat) (around : Surroundings) : Parser Expr := do
  let condition ← operation deeper room around
  if ← eat .question then
    let yes ← deeper.assignment around
    expect .colon
    let no ← deeper.assignment around
    return .conditional condition.line condition yes no
  else return condition

/-- The assignment that a mark stands for. -/
def assignOp? : Option Lexeme → Option AssignOp
  | some (.mark .assign) => some .set
  | some (.mark .plusAssign) => some .add
  | some (.mark .minusAssign) => some .sub
  | _ => none

/-- An assignment, an arrow function, or a choice. -/
def assignment (deeper : Level) (room : Nat) (around : Surroundings) : Parser Expr := do
  let line ← nextLine
  match ← peek, ← peekSecond with
  | some (.name _), some (.mark .arrow) =>
    let param ← bindingName
    skip
    arrowBody deeper [param] line
  | some (.name target), second =>
    match assignOp? second with
    | some op =>
      if target ∈ reservedWords then rejectAt line .invalidAssignment
      skip
      skip
      return .assign line op target (← deeper.assignment around)
    | none => unassigned line
  | _, _ => unassigned line
where
  unassigned (line : Nat) : Parser Expr := do
    if ← seesArrowParameters then
      let params ← parameters
      expect .arrow
      arrowBody deeper params line
    else
      let e ← conditional deeper room around
      if (assignOp? (← peek)).isSome then rejectAt line .invalidAssignment
      return e

/-- The declarator that a word stands for. -/
def declarator? (word : String) : Option Declarator :=
  if word = "let" then some .letWord
  else if word = "const" then some .constWord
  else if word = "var" then some .varWord
  else none

/-- A declaration of one name, from the declarator on. -/
def declaration (deeper : Level) (around : Surroundings) (word : Declarator) : Parser Stmt := do
  let line ← nextLine
  skip
  let name ← bindingName
  let init ← if ← eat .assign then some <$> deeper.assignment around else pure none
  if word = .constWord ∧ init.isNone then rejectAt line .missingInitializer
  if ← sees .comma then rejectAt line .severalVariables
  terminator
  return .declare line word name init

/-- A condition in parentheses. -/
def condition (deeper : Level) (around : Surroundings) : Parser Expr := do
  expect .leftParen
  let e ← deeper.assignment around
  expect .rightParen
  return e

/-- A choice between statements, from its word on. -/
def choice (deeper : Level) (around : Surroundings) : Parser Stmt := do
  skip
  let condition ← condition deeper around
  let yes ← deeper.statement around
  match ← peek with
  | some (.name word) =>
    if word = "else" then
      skip
      return .choose condition yes (some (← deeper.statement around))
    else return .choose condition yes none
  | _ => return .choose condition yes none

/-- A loop with a condition only, from its word on. -/
def whileLoop (deeper : Level) (around : Surroundings) : Parser Stmt := do
  skip
  let condition ← condition deeper around
  return .whileLoop condition (← deeper.statement around.loop)

/-- What a loop with a header does first. A declaration takes its semicolon along. -/
def loopStart (deeper : Level) (around : Surroundings) : Parser (Option Stmt) := do
  if ← eat .semicolon then return none
  match ← peek with
  | some (.name word) =>
    match declarator? word with
    | some word => some <$> declaration deeper around word
    | none => expression
  | _ => expression
where
  expression : Parser (Option Stmt) := do
    let e ← deeper.assignment around
    expect .semicolon
    return some (.evaluate e)

/-- An expression, unless the mark that ends it comes at once. -/
def optionalExpression (deeper : Level) (around : Surroundings) (ending : Mark) :
    Parser (Option Expr) := do
  if ← sees ending then return none else some <$> deeper.assignment around

/-- A loop with a header of three parts, from its word on. -/
def forLoop (deeper : Level) (around : Surroundings) : Parser Stmt := do
  skip
  expect .leftParen
  let init ← loopStart deeper around
  let condition ← optionalExpression deeper around .semicolon
  expect .semicolon
  let update ← optionalExpression deeper around .rightParen
  expect .rightParen
  return .forLoop init condition update (← deeper.statement around.loop)

/-- Does a statement end before this lexeme? -/
def endsStatement : Option Lexeme → Bool
  | none | some (.mark .semicolon) | some (.mark .rightBrace) => true
  | _ => false

/-- The end of a function with a value, from its word on. -/
def giveBack (deeper : Level) (around : Surroundings) : Parser Stmt := do
  let line ← nextLine
  skip
  if !around.inFunction then rejectAt line .misplacedReturn
  let value ← if endsStatement (← peek) then pure none else some <$> deeper.assignment around
  terminator
  return .giveBack value

/-- A jump out of a round of a loop, from its word on. -/
def jump (around : Surroundings) (word : String) (statement : Stmt) : Parser Stmt := do
  let line ← nextLine
  skip
  if !around.inLoop then rejectAt line (.misplacedJump word)
  terminator
  return statement

/-- A statement that no word introduces. -/
def unintroduced (deeper : Level) (around : Surroundings) : Parser Stmt := do
  match ← peek with
  | some (.mark .leftBrace) => return .block (← block deeper around)
  | some (.mark .semicolon) =>
    skip
    return .empty
  | _ =>
    let e ← deeper.assignment around
    terminator
    return .evaluate e

/-- A statement. The expressions in it are one level deeper than the statement. -/
def statement (deeper : Level) (around : Surroundings) : Parser Stmt := do
  match ← peek with
  | some (.name word) =>
    match declarator? word with
    | some word => declaration deeper around word
    | none =>
      if word = "function" then
        match ← peekSecond with
        | some (.name _) =>
          let line ← nextLine
          skip
          return .define (← functionRest deeper true line)
        | _ => unintroduced deeper around
      else if word = "if" then choice deeper around
      else if word = "while" then whileLoop deeper around
      else if word = "for" then forLoop deeper around
      else if word = "return" then giveBack deeper around
      else if word = "break" then jump around word .breakLoop
      else if word = "continue" then jump around word .continueLoop
      else unintroduced deeper around
  | _ => unintroduced deeper around

/-- The parsers that open a level, when there is room for so many levels. -/
def levels : Nat → Level
  | 0 =>
    { statement := fun _ => reject .codeTooDeep
      assignment := fun _ => reject .codeTooDeep
      operand := fun _ => reject .codeTooDeep }
  | room + 1 =>
    { statement := fun around => statement (levels room) around
      assignment := fun around => assignment (levels room) room around
      operand := fun around => prefixed (levels room) room around }

/-- A whole script, outside functions and loops. -/
def script (maxNesting : Nat) : Parser Script := do
  statementsToEnd ((levels maxNesting).statement ⟨false, false⟩) ((← get).items.length + 1)

end Parsing

/-- Reads a script, rejecting one that is nested more deeply than `maxNesting`. -/
def parse (maxNesting : Nat) (source : String) : Except ScriptError Script := do
  let tokens ← tokenize maxNesting source
  (Parsing.script maxNesting).run' tokens

end EventLoop
