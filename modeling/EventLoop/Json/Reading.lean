import EventLoop.Json.Basic
import EventLoop.Number.Numeral

/-!
# Reading JSON text

The text holds one value, with blanks around it and between its parts, and nothing else: no
comments, no comma before a closing bracket, no byte order mark. The functions below take the
characters that are left and return those that are left after what they read.
-/

namespace EventLoop.Json

/-- The four characters that may stand between the parts of a document. -/
def isSpace (c : Char) : Bool :=
  c == ' ' || c == '\n' || c == '\t' || c == '\r'

/-- The text without the blanks at its front. -/
def skipSpace (cs : List Char) : List Char :=
  cs.dropWhile isSpace

/-- The value of a hexadecimal digit. -/
def hexDigit? (c : Char) : Option Nat :=
  if c.isDigit then some (c.toNat - '0'.toNat)
  else if 'a' ≤ c ∧ c ≤ 'f' then some (c.toNat - 'a'.toNat + 10)
  else if 'A' ≤ c ∧ c ≤ 'F' then some (c.toNat - 'A'.toNat + 10)
  else none

/-- The number that four hexadecimal digits stand for. -/
def codeUnit? (a b c d : Char) : Option Nat := do
  return ((← hexDigit? a) * 16 + (← hexDigit? b)) * 256 + (← hexDigit? c) * 16 + (← hexDigit? d)

/-- The first half of a surrogate pair. -/
def isHighHalf (unit : Nat) : Bool :=
  0xD800 ≤ unit && unit < 0xDC00

/-- The second half of a surrogate pair. -/
def isLowHalf (unit : Nat) : Bool :=
  0xDC00 ≤ unit && unit < 0xE000

/-- The character that a surrogate pair stands for. -/
def pairedChar (high low : Nat) : Char :=
  Char.ofNat (0x10000 + (high - 0xD800) * 0x400 + (low - 0xDC00))

/-- The character that a backslash and one more character stand for. -/
def escapedChar? : Char → Option Char
  | '\x22' => some '\x22'
  | '\\' => some '\\'
  | '/' => some '/'
  | 'b' => some '\x08'
  | 'f' => some '\x0c'
  | 'n' => some '\n'
  | 'r' => some '\r'
  | 't' => some '\t'
  | _ => none

/-- A piece of a string: a character, or a code unit given by its number. -/
inductive Piece where
  | char (c : Char)
  | unit (n : Nat)

/-- The pieces of a string whose opening quote has been read, after those in `before`, the last one
first. -/
def piecesFrom (before : List Piece) : List Char → Option (List Piece × List Char)
  | '\x22' :: rest => some (before.reverse, rest)
  | '\\' :: 'u' :: a :: b :: c :: d :: rest => do
    piecesFrom (.unit (← codeUnit? a b c d) :: before) rest
  | '\\' :: c :: rest => do piecesFrom (.char (← escapedChar? c) :: before) rest
  | c :: rest => if c.toNat < 0x20 then none else piecesFrom (.char c :: before) rest
  | [] => none

/-- The text that the pieces make up after the characters in `before`, the last one first, unless
half of a surrogate pair stands alone among them. -/
def joinFrom (before : List Char) : List Piece → Option String
  | [] => some (String.ofList before.reverse)
  | .char c :: rest => joinFrom (c :: before) rest
  | .unit high :: .unit low :: rest =>
    if isHighHalf high && isLowHalf low then joinFrom (pairedChar high low :: before) rest
    else if isHighHalf high || isLowHalf high then none
    else joinFrom (Char.ofNat high :: before) (.unit low :: rest)
  | .unit n :: rest =>
    if isHighHalf n || isLowHalf n then none else joinFrom (Char.ofNat n :: before) rest

/-- The rest of a string whose opening quote has been read. -/
def string (cs : List Char) : Option (Option String × List Char) := do
  let (pieces, rest) ← piecesFrom [] cs
  some (joinFrom [] pieces, rest)

/-- The part of a number after its mark: at least one digit. -/
def someDigits (cs : List Char) : Option (List Char × List Char) :=
  let (digits, rest) := cs.span Char.isDigit
  if digits.isEmpty then none else some (digits, rest)

/-- Digits without a needless zero in front. -/
def wholePart (cs : List Char) : Option (List Char × List Char) := do
  let (digits, rest) ← someDigits cs
  if digits.head? = some '0' ∧ digits.length ≠ 1 then none else some (digits, rest)

/-- The fraction of a number as it is written, if it has one. -/
def fractionPart : List Char → Option (List Char × List Char)
  | '.' :: cs => do
    let (digits, rest) ← someDigits cs
    some ('.' :: digits, rest)
  | cs => some ([], cs)

/-- The exponent of a number as it is written, if it has one. -/
def exponentPart : List Char → Option (List Char × List Char)
  | e :: cs =>
    if e = 'e' ∨ e = 'E' then do
      let (sign, cs) := match cs with
        | '+' :: cs => (['+'], cs)
        | '-' :: cs => (['-'], cs)
        | cs => ([], cs)
      let (digits, rest) ← someDigits cs
      some (e :: sign ++ digits, rest)
    else some ([], e :: cs)
  | [] => some ([], [])

/-- A number. -/
def number (cs : List Char) : Option (Json × List Char) := do
  let (sign, cs) := match cs with
    | '-' :: cs => (['-'], cs)
    | cs => ([], cs)
  let (whole, cs) ← wholePart cs
  let (fraction, cs) ← fractionPart cs
  let (exponent, cs) ← exponentPart cs
  if sign.isEmpty ∧ fraction.isEmpty ∧ exponent.isEmpty then
    some (.natural (Number.ofDigits whole), cs)
  else some (.otherNumber (String.ofList (sign ++ whole ++ fraction ++ exponent)), cs)

/-- The object with some members, all of whose names have to be texts. -/
def ofMembers (members : List (Option String × Json)) : Json :=
  match members.mapM fun (name, value) => name.map fun name => (name, value) with
  | some members => .object members
  | none => .unreadable

mutual

/-- A value. The number bounds how deeply parts may stand in one another and after one another. -/
def value : Nat → List Char → Option (Json × List Char)
  | 0, _ => none
  | bound + 1, cs =>
    match skipSpace cs with
    | 'n' :: 'u' :: 'l' :: 'l' :: rest => some (.null, rest)
    | 't' :: 'r' :: 'u' :: 'e' :: rest => some (.bool true, rest)
    | 'f' :: 'a' :: 'l' :: 's' :: 'e' :: rest => some (.bool false, rest)
    | '\x22' :: cs => do
      let (content, rest) ← string cs
      some (content.elim .unreadable .text, rest)
    | '[' :: cs =>
      match skipSpace cs with
      | ']' :: rest => some (.array [], rest)
      | cs => do
        let (all, rest) ← items bound cs
        some (.array all, rest)
    | '\x7b' :: cs =>
      match skipSpace cs with
      | '\x7d' :: rest => some (.object [], rest)
      | cs => do
        let (all, rest) ← members bound cs
        some (ofMembers all, rest)
    | cs => number cs

/-- The items of an array, at least one, and its closing bracket. -/
def items : Nat → List Char → Option (List Json × List Char)
  | 0, _ => none
  | bound + 1, cs => do
    let (first, cs) ← value bound cs
    match skipSpace cs with
    | ',' :: cs => do
      let (others, rest) ← items bound cs
      some (first :: others, rest)
    | ']' :: rest => some ([first], rest)
    | _ => none

/-- The members of an object, at least one, and its closing brace. -/
def members : Nat → List Char → Option (List (Option String × Json) × List Char)
  | 0, _ => none
  | bound + 1, cs =>
    match skipSpace cs with
    | '\x22' :: cs => do
      let (name, cs) ← string cs
      match skipSpace cs with
      | ':' :: cs => do
        let (first, cs) ← value bound cs
        match skipSpace cs with
        | ',' :: cs => do
          let (others, rest) ← members bound cs
          some ((name, first) :: others, rest)
        | '\x7d' :: rest => some ([(name, first)], rest)
        | _ => none
      | _ => none
    | _ => none

end

/-- Reads a document. Each part of a value but the first begins with a character of its own, so
twice the length of the text is bound enough. -/
def ofText? (source : String) : Option Json := do
  let cs := source.toList
  let (json, rest) ← value (2 * cs.length + 1) cs
  if (skipSpace rest).isEmpty then some json else none

end EventLoop.Json
