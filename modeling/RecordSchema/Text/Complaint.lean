/-
# Complaints about a text

A complaint may say at its end which place of a text it is about, as in
`expected a value at line 3 column 7`.  Lines count from one, so line 0 stands for no place.
`Complaint.ofText` takes such an ending apart and `Complaint.message` writes it again: the
numbers lose their leading zeros, and an ending that stands for no place is lost.  An ending
whose numbers do not fit into sixty-four bits is no place but part of the text.
-/
import RecordSchema.Decimal.Digits

namespace RecordSchema

/-- A place of a text. -/
structure Place where
  /-- The line, counted from one. -/
  line : Nat
  /-- The column. -/
  column : Nat
deriving DecidableEq

/-- A complaint, and the place that it is about if it names one. -/
structure Complaint where
  /-- What is wrong. -/
  text : String
  /-- Where it is wrong. -/
  place : Option Place
deriving DecidableEq

namespace Complaint

/-- What stands before the digits at the end, and these digits. -/
def splitDigits (cs : List Char) : List Char × List Char :=
  ((cs.reverse.dropWhile Char.isDigit).reverse, (cs.reverse.takeWhile Char.isDigit).reverse)

/-- The number that digits write, if there are any and it fits. -/
def number? (digits : List Char) : Option Nat :=
  if !digits.isEmpty && Decimal.fits (Decimal.natural digits) then some (Decimal.natural digits)
  else none

/-- The words in front of the number of a line. -/
def lineMark : String := " at line "

/-- The words in front of the number of a column. -/
def columnMark : String := " column "

/-- The complaint with the line and the column at its end taken off. -/
def withoutPlace? (cs : List Char) : Option (List Char × Nat × Nat) := do
  let (cs, columnDigits) := splitDigits cs
  let cs ← List.isSuffixOf? columnMark.toList cs
  let (cs, lineDigits) := splitDigits cs
  let cs ← List.isSuffixOf? lineMark.toList cs
  let line ← number? lineDigits
  let column ← number? columnDigits
  some (cs, line, column)

/-- The complaint that a text writes. -/
def ofText (s : String) : Complaint :=
  match withoutPlace? s.toList with
  | some (cs, line, column) =>
    ⟨String.ofList cs, if line = 0 then none else some ⟨line, column⟩⟩
  | none => ⟨s, none⟩

/-- The text of a complaint. -/
def message (c : Complaint) : String :=
  match c.place with
  | some place => c.text ++ lineMark ++ toString place.line ++ columnMark ++ toString place.column
  | none => c.text

end Complaint

end RecordSchema
