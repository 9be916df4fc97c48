import EventLoop.Text.CodeRanges

/-!
# Blank characters

The characters with the Unicode property White_Space, and trimming them off both ends of a text.
The byte order mark U+FEFF is not among them.
-/

namespace EventLoop

/-- Code points with the property White_Space. -/
def blankRanges : List CodeRange :=
  [ (0x9, 0xd), (0x20, 0x20), (0x85, 0x85), (0xa0, 0xa0), (0x1680, 0x1680), (0x2000, 0x200a),
    (0x2028, 0x2029), (0x202f, 0x202f), (0x205f, 0x205f), (0x3000, 0x3000) ]

/-- Does the character separate words without being part of one? -/
def isBlank (c : Char) : Bool :=
  inRanges blankRanges c

@[simp] theorem isBlank_newline : isBlank '\n' = true := by decide

/-- The text without the blank characters at its two ends. -/
def trimBlanks (text : List Char) : List Char :=
  (((text.dropWhile isBlank).reverse).dropWhile isBlank).reverse

/-- A text is left as it is if it begins and ends with characters that are not blank. -/
theorem trimBlanks_eq_self {text : List Char} (first : text.head?.map isBlank = some false)
    (last : text.getLast?.map isBlank = some false) : trimBlanks text = text := by
  have start {text : List Char} (first : text.head?.map isBlank = some false) :
      text.dropWhile isBlank = text := by
    cases text with
    | nil => cases first
    | cons c rest => exact List.dropWhile_cons_of_neg (by simpa using first)
  unfold trimBlanks
  rw [start first, start (by rwa [List.head?_reverse]), List.reverse_reverse]

end EventLoop
