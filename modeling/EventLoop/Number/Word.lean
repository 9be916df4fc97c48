/-!
# Machine words

Ids, delays, counts and limits that come from outside or go there fit a machine word.
-/

namespace EventLoop.Number

/-- How many numbers a machine word can hold. -/
def wordCount : Nat := Nat.pow 2 64

/-- The greatest number that a machine word can hold. -/
def maxWord : Nat := wordCount - 1

/-- The least number that a signed machine word can hold. -/
def leastSignedWord : Int := -Int.ofNat (Nat.pow 2 63)

/-- The greatest number that a signed machine word can hold. -/
def greatestSignedWord : Int := Int.ofNat (Nat.pow 2 63 - 1)

end EventLoop.Number
