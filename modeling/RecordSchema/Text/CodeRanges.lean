/-
# Sets of code points

Properties of characters are held as lists of closed ranges of code points.
-/

namespace RecordSchema

/-- A set of code points, as the list of its ranges, both ends included. -/
abbrev CodeRanges := List (Nat × Nat)

/-- Whether a character lies in one of the ranges. -/
def CodeRanges.contains (ranges : CodeRanges) (c : Char) : Bool :=
  ranges.any fun r => decide (r.1 ≤ c.toNat) && decide (c.toNat ≤ r.2)

end RecordSchema
