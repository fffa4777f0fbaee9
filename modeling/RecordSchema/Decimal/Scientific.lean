/-
# Floating-point numbers in messages

A number is shown by its shortest digits.  It is written out in full, always with a decimal
point, while the power of ten of its first digit lies in a certain range, and otherwise with
one digit before the point and an exponent that always has a sign.
-/
import RecordSchema.Decimal.Shortest

namespace RecordSchema

namespace Decimal

/-- The powers of ten of the first digit for which a number is written out in full. -/
structure WrittenOut where
  /-- The least one. -/
  least : Int
  /-- The greatest one. -/
  greatest : Int

/-- Messages write a number out in full from `0.00001` up to sixteen digits before the point. -/
def writtenOut : WrittenOut := ⟨-5, 15⟩

/-- A decimal without exponent: the point stands after the digit that counts the ones, and
there is at least one digit on either side of it. -/
def fullText (d : Decimal) : String :=
  if d.exponent < 0 then
    String.ofList ('0' :: '.' :: List.replicate ((-d.exponent).toNat - 1) '0' ++ d.digits)
  else
    let whole := d.exponent.toNat + 1
    let padded := d.digits ++ List.replicate (whole - d.digits.length) '0'
    let fraction := padded.drop whole
    String.ofList (padded.take whole ++ '.' :: (if fraction.isEmpty then ['0'] else fraction))

/-- A decimal with an exponent; a single digit stands without a point. -/
def scientificText (d : Decimal) : String :=
  let mantissa := match d.digits with
    | first :: second :: rest => first :: '.' :: second :: rest
    | digits => digits
  let sign := if d.exponent < 0 then "-" else "+"
  String.ofList mantissa ++ "e" ++ sign ++ toString d.exponent.natAbs

/-- The text of a decimal. -/
def text (d : Decimal) : String :=
  if writtenOut.least ≤ d.exponent ∧ d.exponent ≤ writtenOut.greatest then d.fullText
  else d.scientificText

end Decimal

/-- The text of a floating-point number in messages. -/
def Binary64.text (x : Binary64) : String :=
  (if x.isNegative then "-" else "") ++ (Decimal.shortest x).text

end RecordSchema
