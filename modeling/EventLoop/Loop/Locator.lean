import EventLoop.Text.Blank
import EventLoop.Text.Lines

/-!
# Finding the line of a call

Which line of the source a call stands on is guessed from the text: the n-th call with some key is
taken to stand on the n-th line that contains its signature. A call has several signatures if it can
be written in several ways; they share a count.
-/

namespace EventLoop

/-- How often each key was seen. A key that is not listed was never seen. -/
abbrev Occurrences := List (String × Nat)

namespace Occurrences

/-- How often a key was seen. -/
def count (key : String) : Occurrences → Nat
  | [] => 0
  | (other, n) :: rest => if other = key then n else count key rest

/-- Counts a key once more. -/
def bump (key : String) : Occurrences → Occurrences
  | [] => [(key, 1)]
  | (other, n) :: rest =>
    if other = key then (other, n + 1) :: rest else (other, n) :: bump key rest

@[simp] theorem count_bump (key other : String) (seen : Occurrences) :
    (seen.bump key).count other = seen.count other + if key = other then 1 else 0 := by
  induction seen with
  | nil => by_cases h : key = other <;> simp [bump, count, h]
  | cons head rest ih =>
    obtain ⟨first, n⟩ := head
    by_cases hkey : first = key
    · subst hkey
      by_cases hother : first = other <;> simp [bump, count, hother]
    · by_cases hother : first = other
      · subst hother
        simp [bump, count, hkey, Ne.symm hkey]
      · simp [bump, count, hkey, hother, ih]

end Occurrences

/-- The lines of a source, and the keys seen so far. -/
structure Locator where
  lines : List (List Char)
  seen : Occurrences

namespace Locator

/-- A source of which no call was seen. -/
def ofSource (source : String) : Locator :=
  ⟨linesOf source.toList, []⟩

/-- The numbers of the lines that contain a text, in order. -/
def linesWith (locator : Locator) (part : List Char) : List Nat :=
  (locator.lines.zipIdx 1).filterMap fun (line, number) =>
    if hasPart part line then some number else none

/-- The line with an occurrence of a signature, counted from zero. Blanks at the ends of the
signature do not count. -/
def locate (locator : Locator) (signature : String) (occurrence : Nat) : Option Nat :=
  (locator.linesWith (trimBlanks signature.toList))[occurrence]?

/-- The occurrence of a key that comes next. -/
def next (locator : Locator) (key : String) : Nat × Locator :=
  (locator.seen.count key, { locator with seen := locator.seen.bump key })

/-- The line of the next call with a key: that of the first signature with such an occurrence. -/
def resolve (locator : Locator) (key : String) (signatures : List String) :
    Option Nat × Locator :=
  let (occurrence, locator) := locator.next key
  (signatures.findSome? (locator.locate · occurrence), locator)

end Locator

end EventLoop
