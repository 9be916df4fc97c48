import EventLoop.Number.Numeral
import EventLoop.Language.Fault

/-!
# Tokens

The words of the script language. A template literal holds the tokens of its holes, so tokens nest.
-/

namespace EventLoop

/-- Punctuation marks and operators. -/
inductive Mark where
  | leftParen | rightParen | leftBrace | rightBrace
  | comma | semicolon | dot | question | colon | arrow
  | assign | plusAssign | minusAssign
  | equal | strictEqual | notEqual | strictNotEqual
  | less | lessEqual | greater | greaterEqual
  | plus | minus | star | slash | percent
  | bang | andAnd | orOr | plusPlus | minusMinus
deriving DecidableEq, Repr

/-- How a mark is written. -/
def Mark.spelling : Mark → String
  | leftParen => "("
  | rightParen => ")"
  | leftBrace => "\x7b"
  | rightBrace => "\x7d"
  | comma => ","
  | semicolon => ";"
  | dot => "."
  | question => "?"
  | colon => ":"
  | arrow => "=>"
  | assign => "="
  | plusAssign => "+="
  | minusAssign => "-="
  | equal => "=="
  | strictEqual => "==="
  | notEqual => "!="
  | strictNotEqual => "!=="
  | less => "<"
  | lessEqual => "<="
  | greater => ">"
  | greaterEqual => ">="
  | plus => "+"
  | minus => "-"
  | star => "*"
  | slash => "/"
  | percent => "%"
  | bang => "!"
  | andAnd => "&&"
  | orOr => "||"
  | plusPlus => "++"
  | minusMinus => "--"

mutual

/-- What a token is, without its place. -/
inductive Lexeme where
  | name (word : String)
  | number (value : Float)
  | text (content : String)
  | template (chunks : List Chunk)
  | mark (m : Mark)

/-- A piece of a template literal: text, or the tokens of a hole. -/
inductive Chunk where
  | text (content : String)
  | code (tokens : List Token)

/-- A lexeme and the line on which it begins. -/
inductive Token where
  | at (line : Nat) (lexeme : Lexeme)

end

namespace Token

def line : Token → Nat
  | .at line _ => line

def lexeme : Token → Lexeme
  | .at _ lexeme => lexeme

end Token

/-- Tokens in order, and the line on which the text ends. -/
structure Tokens where
  items : List Token
  endLine : Nat

/-- How a mark reads in a message. -/
def Mark.shown (m : Mark) : String :=
  "`" ++ m.spelling ++ "`"

/-- How a lexeme reads in a message. -/
def Lexeme.shown : Lexeme → String
  | name word => "`" ++ word ++ "`"
  | number value => "number `" ++ Number.plain value ++ "`"
  | text _ => "string literal"
  | template _ => "template literal"
  | mark m => m.shown

/-- How the end of the tokens reads in a message. -/
def endOfInput : String :=
  "end of input"

end EventLoop
