import EventLoop.Text.Hidden

/-!
# Quoted texts

A text between double quotes, as it is shown in listings of pending callbacks. Tabs, line breaks,
the character U+0000, the double quote and the backslash are written with a backslash, hidden
characters as code points in braces; all others, the apostrophe too, stand for themselves.
-/

namespace EventLoop

/-- The code point of a character in lower-case hexadecimal between braces. -/
def escapedCodePoint (c : Char) : List Char :=
  ['\\', 'u', '\x7b'] ++ Nat.toDigits 16 c.toNat ++ ['\x7d']

/-- How one character is written between double quotes. -/
def quotedChar (c : Char) : List Char :=
  if c = '\x00' then ['\\', '0']
  else if c = '\t' then ['\\', 't']
  else if c = '\r' then ['\\', 'r']
  else if c = '\n' then ['\\', 'n']
  else if c = '\\' then ['\\', '\\']
  else if c = '\x22' then ['\\', '\x22']
  else if isHidden c then escapedCodePoint c
  else [c]

/-- The text between double quotes. -/
def quoted (text : String) : String :=
  String.ofList ('\x22' :: text.toList.flatMap quotedChar ++ ['\x22'])

end EventLoop
