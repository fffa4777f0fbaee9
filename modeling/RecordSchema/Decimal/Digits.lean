/-
# Decimal digits

The number that a list of decimal digits writes.  Leading zeros do not count.
-/

namespace RecordSchema

namespace Decimal

/-- The value of a decimal digit. -/
def digit (c : Char) : Nat := c.toNat - '0'.toNat

/-- The number that digits write. -/
def natural (digits : List Char) : Nat := digits.foldl (fun n c => 10 * n + digit c) 0

/-- Whether a number fits into sixty-four bits. -/
def fits (n : Nat) : Bool := decide (n < 1 <<< 64)

end Decimal

end RecordSchema
