/-!
# What can be wrong with a script

A script is rejected while it is read, or it fails while it runs. Each failure is a value that says
what happened and where; the wording is in the `message` functions and nowhere else.
-/

namespace EventLoop

/-- Why a script was rejected while it was read. -/
inductive SyntaxFault where
  | unterminatedComment
  | unterminatedText
  | unterminatedTemplate
  /-- A template literal stands in holes of more templates than allowed. -/
  | templateTooDeep
  | unexpectedCharacter (c : Char)
  /-- Statements, expressions or operator chains are nested more deeply than allowed. -/
  | codeTooDeep
  /-- A token, given by how it reads, stands where something else is wanted. -/
  | unexpected (found wanted : String)
  /-- A word that the language reserves for a construct it does not have. -/
  | unsupported (word : String)
  | misplacedReturn
  /-- The word is `break` or `continue`, outside a loop. -/
  | misplacedJump (word : String)
  | missingInitializer
  | severalVariables
  | invalidAssignment
  | invalidUpdate
deriving DecidableEq, Repr

/-- What is wrong with the use of a value while a script runs. -/
inductive TypeFault where
  | assignedConstant (name : String)
  /-- A property was read of a value, shown first, that has none. -/
  | noProperties (shown property source : String)
  | notCallable (source : String)
  /-- A primitive wants a function and was given a value of another type, or nothing. -/
  | wantsFunction (primitive : String) (given : Option String)
  | droppedPromise
deriving DecidableEq, Repr

/-- A failure of a script. Lines are counted from one. -/
inductive ScriptError where
  | malformed (line : Nat) (fault : SyntaxFault)
  | undefinedName (line : Nat) (name : String)
  | misuse (line : Nat) (fault : TypeFault)
  | callDepth (line : Nat) (limit : Nat)
  | budget (limit : Nat)
deriving DecidableEq, Repr

def SyntaxFault.message : SyntaxFault → String
  | .unterminatedComment => "unterminated comment"
  | .unterminatedText => "unterminated string literal"
  | .unterminatedTemplate => "unterminated template literal"
  | .templateTooDeep => "template literal nested too deeply"
  | .unexpectedCharacter c => "unexpected character `" ++ c.toString ++ "`"
  | .codeTooDeep => "code nested too deeply"
  | .unexpected found wanted => s!"unexpected {found}, expected {wanted}"
  | .unsupported word => s!"`{word}` is not supported"
  | .misplacedReturn => "illegal return statement"
  | .misplacedJump word => s!"illegal {word} statement"
  | .missingInitializer => "missing initializer in const declaration"
  | .severalVariables => "declare one variable per statement"
  | .invalidAssignment => "invalid assignment target"
  | .invalidUpdate => "invalid update target"

def TypeFault.message : TypeFault → String
  | .assignedConstant name => s!"assignment to constant variable `{name}`"
  | .noProperties shown property source =>
    s!"cannot read properties of {shown} (reading '{property}') on `{source}`"
  | .notCallable source => s!"{source} is not a function"
  | .wantsFunction primitive (some given) => s!"{primitive} expects a function, got {given}"
  | .wantsFunction primitive none => s!"{primitive} expects a function"
  | .droppedPromise => "then called on a dropped promise"

namespace ScriptError

/-- The text of a failure, as the last line of a failed script's output shows it. -/
def message : ScriptError → String
  | malformed line fault => s!"SyntaxError: {fault.message} (line {line})"
  | undefinedName line name => s!"ReferenceError: {name} is not defined (line {line})"
  | misuse line fault => s!"TypeError: {fault.message} (line {line})"
  | callDepth line limit =>
    s!"RangeError: maximum call depth of {limit} exceeded (line {line})"
  | budget limit => s!"execution budget of {limit} steps exhausted"

/-- Was the script rejected before anything ran? -/
def isMalformed : ScriptError → Bool
  | malformed .. => true
  | _ => false

/-- The line of a failure; the budget belongs to no line. -/
def line? : ScriptError → Option Nat
  | malformed line _ | undefinedName line _ | misuse line _ | callDepth line _ => some line
  | budget _ => none

end ScriptError

end EventLoop
