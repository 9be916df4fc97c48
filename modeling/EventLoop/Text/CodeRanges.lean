/-!
# Sets of characters given by ranges

A property of characters is tabulated as a list of closed ranges of code points. The modules
beside this one hold the tables; here is only what it means to belong to one.
-/

namespace EventLoop

/-- A closed range of code points, both ends included. -/
abbrev CodeRange := Nat × Nat

/-- A character belongs to a table when one of its ranges contains the code point. -/
def inRanges (table : List CodeRange) (c : Char) : Bool :=
  table.any fun range => range.1 ≤ c.toNat && c.toNat ≤ range.2

theorem inRanges_iff (table : List CodeRange) (c : Char) :
    inRanges table c = true ↔ ∃ range ∈ table, range.1 ≤ c.toNat ∧ c.toNat ≤ range.2 := by
  simp [inRanges]

end EventLoop
