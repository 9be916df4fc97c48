import EventLoop.Json.Basic

/-!
# Writing JSON text

A value is written on one line without blanks, or over several lines with each level indented by two
blanks; an empty array or object stays on its line. Characters beyond ASCII stand for themselves.
-/

namespace EventLoop.Json

/-- How a character is written in a string. -/
def escaped (c : Char) : List Char :=
  match c with
  | '\x22' => ['\\', '\x22']
  | '\\' => ['\\', '\\']
  | '\x08' => ['\\', 'b']
  | '\x0c' => ['\\', 'f']
  | '\n' => ['\\', 'n']
  | '\r' => ['\\', 'r']
  | '\t' => ['\\', 't']
  | c =>
    if c.toNat < 0x20 then
      ['\\', 'u', '0', '0', Nat.digitChar (c.toNat / 16), Nat.digitChar (c.toNat % 16)]
    else [c]

/-- A text between quotes. -/
def writeText (content : String) : String :=
  String.ofList ('\x22' :: content.toList.flatMap escaped ++ ['\x22'])

/-- A line break and the blanks before a part at some depth. -/
def lineBreak (depth : Nat) : String :=
  "\n".pushn ' ' (2 * depth)

/-- Where lines are broken. -/
structure Layout where
  /-- What stands before a part at some depth. -/
  gap : Nat → String
  /-- What stands between a name and its value. -/
  colon : String

/-- Everything on one line. -/
def Layout.compact : Layout :=
  ⟨fun _ => "", ":"⟩

/-- Each part of an array or object on a line of its own. -/
def Layout.indented : Layout :=
  ⟨lineBreak, ": "⟩

variable (layout : Layout)

/-- Parts, each on a place of its own. -/
def spread (depth : Nat) (parts : List String) : String :=
  layout.gap (depth + 1) ++ ("," ++ layout.gap (depth + 1)).intercalate parts ++ layout.gap depth

mutual

/-- Writes a value that stands at some depth. -/
def writeAt (depth : Nat) : Json → String
  | .null | .unreadable => "null"
  | .bool b => if b then "true" else "false"
  | .natural n => toString n
  | .otherNumber written => written
  | .text content => writeText content
  | .array [] => "[]"
  | .array items => "[" ++ spread layout depth (writeItems (depth + 1) items) ++ "]"
  | .object [] => "\x7b\x7d"
  | .object members => "\x7b" ++ spread layout depth (writeMembers (depth + 1) members) ++ "\x7d"

/-- Writes the items of an array, which stand at some depth. -/
def writeItems (depth : Nat) : List Json → List String
  | [] => []
  | item :: items => writeAt depth item :: writeItems depth items

/-- Writes the members of an object, which stand at some depth. -/
def writeMembers (depth : Nat) : List (String × Json) → List String
  | [] => []
  | (name, value) :: members =>
    (writeText name ++ layout.colon ++ writeAt depth value) :: writeMembers depth members

end

/-- Writes a value on one line. -/
def compact (json : Json) : String :=
  writeAt Layout.compact 0 json

/-- Writes a value over several lines. -/
def pretty (json : Json) : String :=
  writeAt Layout.indented 0 json

end EventLoop.Json
