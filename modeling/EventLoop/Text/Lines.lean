/-!
# Lines of a text, and parts of a line

A text is cut at each line feed; a carriage return directly before that line feed goes with it.
What follows the last line feed is a line of its own unless it is empty. So a text that ends in a
line feed has no empty last line, and a final carriage return without a line feed stays.
-/

namespace EventLoop

/-- The line without a carriage return at its end. -/
def dropReturn (line : List Char) : List Char :=
  if line.getLast? = some '\r' then line.dropLast else line

/-- The lines of a text, in order. -/
def linesOf (text : List Char) : List (List Char) :=
  go text []
where
  /-- The lines of a text that goes on from the characters `current`, the last one first. -/
  go : List Char → List Char → List (List Char)
    | [], [] => []
    | [], current => [current.reverse]
    | c :: rest, current =>
      if c = '\n' then dropReturn current.reverse :: go rest [] else go rest (c :: current)

/-- Does the text contain the part as a run of consecutive characters? -/
def hasPart (part : List Char) : List Char → Bool
  | [] => part.isEmpty
  | c :: text => part.isPrefixOf (c :: text) || hasPart part text

theorem hasPart_iff (part text : List Char) : hasPart part text = true ↔ part <:+: text := by
  induction text with
  | nil => simp [hasPart]
  | cons c text ih => simp [hasPart, ih, List.infix_cons_iff]

end EventLoop
