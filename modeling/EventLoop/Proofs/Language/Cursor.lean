import EventLoop.Language.Parsing

/-!
# Parsing with a cursor

The parsers that read scripts take tokens off a list, so they cannot lose their place. Here the same
grammar is read by parsers that leave the tokens where they are and move a cursor along them. They
move on without a look at where the cursor is, move back when a token turns out to be the wrong one,
look ahead past the end, count parentheses, and go round until something ends the loop. Whatever can
go wrong with that is a slip, and stops the parser in another way than a script that is wrong.
-/

namespace EventLoop

open Parsing (Surroundings Operator isMark assignOp? declarator? endsStatement)

/-- What must not happen to a cursor. -/
inductive Slip where
  /-- A parser begins while the cursor is past the end of the tokens. -/
  | pastEnd
  /-- The cursor is moved back from the first token. -/
  | backAtStart
  /-- The cursor is moved back though it was not moved on before. -/
  | backUnmoved
  /-- A parenthesis is closed in look-ahead though none is open. -/
  | unopened
  /-- A loop goes round more often than there are tokens, the end included. -/
  | endless
deriving DecidableEq, Repr

/-- Why a parser with a cursor stops before it has read something. -/
inductive Stop where
  | rejected (e : ScriptError)
  | slipped (slip : Slip)

/-- A parser that moves a cursor along tokens. The end counts as a token. -/
abbrev CursorParser := ReaderT Tokens (StateT Nat (Except Stop))

/-- What the token at a place is, if it is not the end. -/
def Tokens.lexemeAt (tokens : Tokens) (pos : Nat) : Option Lexeme :=
  tokens.items[pos]?.map Token.lexeme

/-- The line of the token at a place. -/
def Tokens.lineAt (tokens : Tokens) (pos : Nat) : Nat :=
  (tokens.items[pos]?.map Token.line).getD tokens.endLine

namespace Cursor

variable {α : Type}

def slip (slip : Slip) : CursorParser α :=
  throw (.slipped slip)

/-- What a parser does, which may only begin while the cursor is on a token. -/
def onToken (p : CursorParser α) : CursorParser α := do
  if (← read).items.length < (← get) then slip .pastEnd else p

/-- The lexeme so many tokens ahead, or nothing from the end on. -/
def peekAt (offset : Nat) : CursorParser (Option Lexeme) := onToken do
  return (← read).lexemeAt ((← get) + offset)

def peek : CursorParser (Option Lexeme) :=
  peekAt 0

/-- The line of the token at the cursor. -/
def line : CursorParser Nat := onToken do
  return (← read).lineAt (← get)

/-- Is the cursor at the end? -/
def atEnd : CursorParser Bool := onToken do
  return (← peek).isNone

/-- Moves the cursor on, wherever it is. -/
def move (count : Nat) : CursorParser Unit :=
  modify (· + count)

/-- The lexeme at the cursor, which is moved past it, and past the end, but no further. -/
def advance : CursorParser (Option Lexeme) := onToken do
  let next ← peek
  if (← get) ≤ (← read).items.length then move 1
  return next

/-- Moves the cursor back from where it has come from another place. -/
def moveBack (origin : Nat) : CursorParser Unit := do
  let pos ← get
  if pos = 0 then slip .backAtStart
  else if pos = origin then slip .backUnmoved
  else set (pos - 1)

/-- Rejects the script at a line. -/
def rejectAt (line : Nat) (fault : SyntaxFault) : CursorParser α :=
  throw (.rejected (.malformed line fault))

/-- Rejects the script at the cursor. -/
def reject (fault : SyntaxFault) : CursorParser α := do
  rejectAt (← line) fault

/-- Rejects the token at the cursor, since something else is wanted. -/
def unexpected (wanted : String) : CursorParser α := onToken do
  let found := match ← peek with
    | some lexeme => lexeme.shown
    | none => endOfInput
  reject (.unexpected found wanted)

/-- Is this mark at the cursor? -/
def check (m : Mark) : CursorParser Bool := onToken do
  return isMark m (← peek)

/-- Moves on if this mark is at the cursor, and tells whether it was. -/
def eat (m : Mark) : CursorParser Bool := onToken do
  if ← check m then
    move 1
    return true
  else return false

def expect (m : Mark) : CursorParser Unit := onToken do
  if ← eat m then return () else unexpected m.shown

def terminator : CursorParser Unit := onToken do
  let _ ← eat .semicolon

/-- Is the lexeme this word? -/
def spells (word : String) : Option Lexeme → Bool
  | some (.name found) => found = word
  | _ => false

/-- Is this word at the cursor? -/
def seesWord (word : String) : CursorParser Bool := onToken do
  return spells word (← peek)

/-- Moves on if this word is at the cursor, and tells whether it was. -/
def eatWord (word : String) : CursorParser Bool := onToken do
  if ← seesWord word then
    move 1
    return true
  else return false

def checkSupported (word : String) : CursorParser Unit := onToken do
  if word ∈ unsupportedWords then reject (.unsupported word) else return ()

def bindingName : CursorParser String := onToken do
  match ← peek with
  | some (.name word) =>
    if word ∈ reservedWords then unexpected "identifier"
    else
      checkSupported word
      move 1
      return word
  | _ => unexpected "identifier"

/-- Items up to a closing parenthesis. The number bounds the rounds. -/
def commaListFrom (item : CursorParser α) : Nat → CursorParser (List α)
  | 0 => slip .endless
  | rounds + 1 => do
    if ← eat .rightParen then return []
    else
      let first ← item
      unless ← check .rightParen do expect .comma
      return first :: (← commaListFrom item rounds)

def commaList (item : CursorParser α) : CursorParser (List α) := do
  commaListFrom item ((← read).items.length + 1)

def parameters : CursorParser (List String) := onToken do
  expect .leftParen
  commaList bindingName

/-- Statements up to a closing brace. The number bounds the rounds. -/
def statementsToBrace (statement : CursorParser Stmt) : Nat → CursorParser (List Stmt)
  | 0 => slip .endless
  | rounds + 1 => do
    if ← check .rightBrace then
      move 1
      return []
    else if ← atEnd then unexpected Mark.rightBrace.shown
    else
      let first ← statement
      return first :: (← statementsToBrace statement rounds)

/-- Statements up to the end. The number bounds the rounds. -/
def statementsToEnd (statement : CursorParser Stmt) : Nat → CursorParser (List Stmt)
  | 0 => slip .endless
  | rounds + 1 => do
    if ← atEnd then return []
    else
      let first ← statement
      return first :: (← statementsToEnd statement rounds)

/-- Does an arrow follow the parenthesis that closes the first one from here on? The offset says how
far the look-ahead has come and the depth how many parentheses are open there. -/
def arrowFrom : Nat → Nat → Nat → CursorParser Bool
  | 0, _, _ => slip .endless
  | rounds + 1, offset, depth => do
    match ← peekAt offset with
    | some (.mark .leftParen) => arrowFrom rounds (offset + 1) (depth + 1)
    | some (.mark .rightParen) =>
      match depth with
      | 0 => slip .unopened
      | 1 => return isMark .arrow (← peekAt (offset + 1))
      | depth + 2 => arrowFrom rounds (offset + 1) (depth + 1)
    | none => return false
    | some _ => arrowFrom rounds (offset + 1) depth

def arrowAhead : CursorParser Bool := onToken do
  arrowFrom ((← read).items.length + 1) 0 0

/-- The parsers that open a level of nesting. -/
structure Level where
  statement : Surroundings → CursorParser Stmt
  assignment : Surroundings → CursorParser Expr
  operand : Surroundings → CursorParser Expr

def block (deeper : Level) (around : Surroundings) : CursorParser (List Stmt) := onToken do
  expect .leftBrace
  statementsToBrace (deeper.statement around) ((← read).items.length + 1)

def functionBlock (deeper : Level) : CursorParser (List Stmt) := onToken do
  block deeper .function

def functionRest (deeper : Level) (mustBeNamed : Bool) (line : Nat) : CursorParser Definition :=
  onToken do
    let named := match ← peek with
      | some (.name _) => true
      | _ => mustBeNamed
    let name ← if named then some <$> bindingName else pure none
    let params ← parameters
    let body ← functionBlock deeper
    return .mk name params (.block body) line

def arrowBody (deeper : Level) (params : List String) (line : Nat) : CursorParser Expr :=
  onToken do
    let body ←
      if ← check .leftBrace then Body.block <$> functionBlock deeper
      else Body.value <$> deeper.assignment .function
    return .function line (.mk none params body line)

/-- The tokens of a hole, which have a cursor of their own. -/
def hole (deeper : Level) (around : Surroundings) (line : Nat) (tokens : List Token) :
    CursorParser Part := do
  let endLine := (tokens.getLast?.map Token.line).getD line
  let reading : CursorParser Expr := do
    let e ← deeper.assignment { around with inLoop := false }
    if ← atEnd then return e else unexpected (Mark.rightBrace.shown ++ " in template literal")
  let (e, _) ← ((reading.run ⟨tokens, endLine⟩).run 0 : Except Stop (Expr × Nat))
  return .value e

def templateParts (deeper : Level) (around : Surroundings) (line : Nat) :
    List Chunk → CursorParser (List Part)
  | [] => return []
  | .text content :: rest => do
    return .text content :: (← templateParts deeper around line rest)
  | .code tokens :: rest => do
    let part ← hole deeper around line tokens
    return part :: (← templateParts deeper around line rest)

def template (deeper : Level) (around : Surroundings) (line : Nat) (chunks : List Chunk) :
    CursorParser (List Part) := onToken do
  templateParts deeper around line chunks

/-- The token is taken first, and given back if no such expression begins with it. -/
def primary (deeper : Level) (around : Surroundings) : CursorParser Expr := onToken do
  let line ← line
  let origin ← get
  match ← advance with
  | some (.number value) => return .number line value
  | some (.text content) => return .text line content
  | some (.template chunks) => return .template line (← template deeper around line chunks)
  | some (.mark .leftParen) =>
    let inner ← deeper.assignment around
    expect .rightParen
    return inner
  | some (.name word) =>
    if word = "true" then return .bool line true
    else if word = "false" then return .bool line false
    else if word = "null" then return .null line
    else if word = "undefined" then return .undefined line
    else if word = "function" then return .function line (← functionRest deeper false line)
    else if word ∈ reservedWords then
      moveBack origin
      unexpected "expression"
    else
      moveBack origin
      checkSupported word
      move 1
      return .name line word
  | _ =>
    moveBack origin
    unexpected "expression"

def countedAfter (e : Expr) (count : Count) (line : Nat) : CursorParser Expr := do
  match e with
  | .name start target =>
    let _ ← advance
    return .update start count .before target
  | _ => rejectAt line .invalidUpdate

/-- Calls, properties and a counting operator. What follows a point is taken first, and given back
if it is no name. -/
def postfixChain (deeper : Level) (around : Surroundings) (room : Nat) (e : Expr) :
    CursorParser Expr := do
  let line ← line
  match ← peek with
  | some (.mark .leftParen) =>
    match room with
    | 0 => rejectAt line .codeTooDeep
    | room + 1 =>
      move 1
      let args ← commaList (deeper.assignment around)
      postfixChain deeper around room (.call line e args)
  | some (.mark .dot) =>
    match room with
    | 0 => rejectAt line .codeTooDeep
    | room + 1 =>
      move 1
      let origin ← get
      match ← advance with
      | some (.name property) => postfixChain deeper around room (.member line e property)
      | _ =>
        moveBack origin
        unexpected "property name"
  | some (.mark .plusPlus) => countedAfter e .up line
  | some (.mark .minusMinus) => countedAfter e .down line
  | _ => return e

def prefixed (deeper : Level) (room : Nat) (around : Surroundings) : CursorParser Expr :=
  onToken do
    let line ← line
    match ← peek with
    | some (.mark .bang) => applied line .not
    | some (.mark .minus) => applied line .neg
    | some (.mark .plus) => applied line .plus
    | some (.mark .plusPlus) => counted line .up
    | some (.mark .minusMinus) => counted line .down
    | some (.name word) => if word = "typeof" then applied line .typeOf else plain
    | _ => plain
where
  applied (line : Nat) (op : UnaryOp) : CursorParser Expr := do
    move 1
    return .unary line op (← deeper.operand around)
  counted (line : Nat) (count : Count) : CursorParser Expr := do
    let _ ← advance
    return .update line count .after (← bindingName)
  plain : CursorParser Expr := onToken do
    postfixChain deeper around room (← primary deeper around)

def operatorChain (operator : Operator) (operand : CursorParser Expr) :
    Nat → Expr → CursorParser Expr
  | room, left => do
    match ← peek with
    | some (.mark m) =>
      match operator m with
      | none => return left
      | some combine =>
        move 1
        match room with
        | 0 => reject .codeTooDeep
        | room + 1 =>
          let right ← operand
          operatorChain operator operand room (combine left right)
    | _ => return left

def joined (room : Nat) (operand : CursorParser Expr) : List Operator → CursorParser Expr
  | [] => operand
  | operator :: stronger => onToken do
    let left ← joined room operand stronger
    operatorChain operator (joined room operand stronger) room left

def operation (deeper : Level) (room : Nat) (around : Surroundings) : CursorParser Expr :=
  joined room (prefixed deeper room around)
    [Parsing.disjunction, Parsing.conjunction, Parsing.equality, Parsing.comparison,
      Parsing.additive, Parsing.multiplicative]

def conditional (deeper : Level) (room : Nat) (around : Surroundings) : CursorParser Expr :=
  onToken do
    let condition ← operation deeper room around
    if ← eat .question then
      let yes ← deeper.assignment around
      expect .colon
      let no ← deeper.assignment around
      return .conditional condition.line condition yes no
    else return condition

/-- The look-ahead for an arrow begins at a parenthesis only. -/
def seesArrowParameters : CursorParser Bool := do
  if ← check .leftParen then arrowAhead else return false

def assignment (deeper : Level) (room : Nat) (around : Surroundings) : CursorParser Expr :=
  onToken do
    let line ← line
    match ← peek, ← peekAt 1 with
    | some (.name _), some (.mark .arrow) =>
      let param ← bindingName
      move 1
      arrowBody deeper [param] line
    | some (.name target), second =>
      match assignOp? second with
      | some op =>
        if target ∈ reservedWords then rejectAt line .invalidAssignment
        else
          move 2
          return .assign line op target (← deeper.assignment around)
      | none => unassigned line
    | _, _ => unassigned line
where
  unassigned (line : Nat) : CursorParser Expr := do
    if ← seesArrowParameters then
      let params ← parameters
      expect .arrow
      arrowBody deeper params line
    else
      let e ← conditional deeper room around
      if (assignOp? (← peek)).isSome then rejectAt line .invalidAssignment else return e

/-- The declarator that a lexeme stands for, where one is known to. -/
def declaratorOf : Option Lexeme → Declarator
  | some (.name word) => (declarator? word).getD .letWord
  | _ => .letWord

def declaration (deeper : Level) (around : Surroundings) : CursorParser Stmt := onToken do
  let line ← line
  let word := declaratorOf (← advance)
  let name ← bindingName
  let init ← if ← eat .assign then some <$> deeper.assignment around else pure none
  if word = .constWord ∧ init.isNone then rejectAt line .missingInitializer
  else if ← check .comma then rejectAt line .severalVariables
  else
    terminator
    return .declare line word name init

def condition (deeper : Level) (around : Surroundings) : CursorParser Expr := do
  expect .leftParen
  let e ← deeper.assignment around
  expect .rightParen
  return e

def choice (deeper : Level) (around : Surroundings) : CursorParser Stmt := onToken do
  move 1
  let condition ← condition deeper around
  let yes ← deeper.statement around
  if ← eatWord "else" then return .choose condition yes (some (← deeper.statement around))
  else return .choose condition yes none

def whileLoop (deeper : Level) (around : Surroundings) : CursorParser Stmt := onToken do
  move 1
  let condition ← condition deeper around
  return .whileLoop condition (← deeper.statement around.loop)

/-- Is a word here that begins a declaration? -/
def seesDeclarator : CursorParser Bool := do
  return (← seesWord "let") || (← seesWord "const") || (← seesWord "var")

def loopStart (deeper : Level) (around : Surroundings) : CursorParser (Option Stmt) := do
  if ← eat .semicolon then return none
  else if ← seesDeclarator then some <$> declaration deeper around
  else
    let e ← deeper.assignment around
    expect .semicolon
    return some (.evaluate e)

def optionalExpression (deeper : Level) (around : Surroundings) (ending : Mark) :
    CursorParser (Option Expr) := do
  if ← check ending then return none else some <$> deeper.assignment around

def forLoop (deeper : Level) (around : Surroundings) : CursorParser Stmt := onToken do
  move 1
  expect .leftParen
  let init ← loopStart deeper around
  let condition ← optionalExpression deeper around .semicolon
  expect .semicolon
  let update ← optionalExpression deeper around .rightParen
  expect .rightParen
  return .forLoop init condition update (← deeper.statement around.loop)

def giveBack (deeper : Level) (around : Surroundings) (line : Nat) : CursorParser Stmt := do
  move 1
  if !around.inFunction then rejectAt line .misplacedReturn
  else
    let value ←
      if endsStatement (← peek) then pure none else some <$> deeper.assignment around
    terminator
    return .giveBack value

def jump (around : Surroundings) (word : String) (statement : Stmt) (line : Nat) :
    CursorParser Stmt := do
  move 1
  if !around.inLoop then rejectAt line (.misplacedJump word)
  else
    terminator
    return statement

def unintroduced (deeper : Level) (around : Surroundings) : CursorParser Stmt := do
  match ← peek with
  | some (.mark .leftBrace) => return .block (← block deeper around)
  | some (.mark .semicolon) =>
    move 1
    return .empty
  | _ =>
    let e ← deeper.assignment around
    terminator
    return .evaluate e

def statement (deeper : Level) (around : Surroundings) : CursorParser Stmt := onToken do
  let line ← line
  match ← peek with
  | some (.name word) =>
    if (declarator? word).isSome then declaration deeper around
    else if word = "function" then
      match ← peekAt 1 with
      | some (.name _) =>
        move 1
        return .define (← functionRest deeper true line)
      | _ => unintroduced deeper around
    else if word = "if" then choice deeper around
    else if word = "while" then whileLoop deeper around
    else if word = "for" then forLoop deeper around
    else if word = "return" then giveBack deeper around line
    else if word = "break" then jump around word .breakLoop line
    else if word = "continue" then jump around word .continueLoop line
    else unintroduced deeper around
  | _ => unintroduced deeper around

def levels : Nat → Level
  | 0 =>
    { statement := fun _ => reject .codeTooDeep
      assignment := fun _ => reject .codeTooDeep
      operand := fun _ => reject .codeTooDeep }
  | room + 1 =>
    { statement := fun around => statement (levels room) around
      assignment := fun around => assignment (levels room) room around
      operand := fun around => prefixed (levels room) room around }

def script (maxNesting : Nat) : CursorParser Script := do
  statementsToEnd ((levels maxNesting).statement ⟨false, false⟩) ((← read).items.length + 1)

/-- Reads a script with a cursor that begins at the first token. -/
def parse (maxNesting : Nat) (source : String) : Except Stop Script := do
  let tokens ← (tokenize maxNesting source).mapError .rejected
  ((script maxNesting).run tokens).run' 0

end Cursor

end EventLoop
