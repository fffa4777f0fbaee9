/-
# Written numbers

A numeral is a number as it is written in JSON text: a sign, digits, a fraction and an
exponent.  `Numeral.ofChars?` reads one and `Numeral.number?` gives its value.

A numeral without fraction and exponent is an integer, if it fits into sixty-four bits and
is not a negative zero.  Every other numeral is a floating-point number.  Its digits are
gathered into a sixty-four bit significand, as many as fit, and the significand is then
multiplied or divided by a power of ten; each of these steps rounds once.  A numeral that
is too large has no value.
-/
import RecordSchema.Json
import RecordSchema.Decimal.Digits

namespace RecordSchema

/-- The parts of a number written in JSON. -/
structure Numeral where
  /-- Whether a minus stands in front. -/
  negative : Bool
  /-- The digits before the point. -/
  whole : List Char
  /-- The digits after the point; there are none exactly if there is no point. -/
  fraction : List Char
  /-- The sign of the exponent, true for a minus, and its digits. -/
  exponent : Option (Bool × List Char)

namespace Numeral

open Decimal

/-- A leading minus, and what follows it. -/
def takeMinus : List Char → Bool × List Char
  | '-' :: rest => (true, rest)
  | rest => (false, rest)

/-- The digits in front, and what follows them. -/
def takeDigits (cs : List Char) : List Char × List Char :=
  (cs.takeWhile Char.isDigit, cs.dropWhile Char.isDigit)

/-- The digits before the point: at least one, and a leading zero stands alone. -/
def takeWhole? (cs : List Char) : Option (List Char × List Char) :=
  match takeDigits cs with
  | ([], _) => none
  | ('0' :: _ :: _, _) => none
  | found => some found

/-- A fraction, if there is a point: at least one digit must follow it. -/
def takeFraction? : List Char → Option (List Char × List Char)
  | '.' :: rest =>
    match takeDigits rest with
    | ([], _) => none
    | found => some found
  | rest => some ([], rest)

/-- The sign of an exponent, which may be left out. -/
def takeExponentSign : List Char → Bool × List Char
  | '+' :: rest => (false, rest)
  | '-' :: rest => (true, rest)
  | rest => (false, rest)

/-- What follows the mark of an exponent: a sign and at least one digit. -/
def exponent? (cs : List Char) : Option (Bool × List Char) :=
  match takeExponentSign cs with
  | (negative, rest) =>
    match takeDigits rest with
    | ([], _) => none
    | (digits, []) => some (negative, digits)
    | _ => none

/-- Reads a numeral that takes up all the characters. -/
def ofChars? (cs : List Char) : Option Numeral := do
  let (negative, cs) := takeMinus cs
  let (whole, cs) ← takeWhole? cs
  let (fraction, cs) ← takeFraction? cs
  match cs with
  | [] => some ⟨negative, whole, fraction, none⟩
  | 'e' :: rest => (exponent? rest).map fun e => ⟨negative, whole, fraction, some e⟩
  | 'E' :: rest => (exponent? rest).map fun e => ⟨negative, whole, fraction, some e⟩
  | _ => none

/-- A significand and the power of ten that it counts. -/
structure Scaled where
  /-- The digits gathered so far. -/
  significand : Nat
  /-- The power of ten. -/
  exponent : Int

/-- Appends the digits before the point.  From the first that does not fit on they are
dropped, and each counts one power of ten. -/
def gatherWhole (n : Nat) : List Char → Scaled
  | [] => ⟨n, 0⟩
  | c :: rest =>
    if fits (10 * n + digit c) then gatherWhole (10 * n + digit c) rest
    else ⟨n, (rest.length : Int) + 1⟩

/-- Appends the digits after the point, each of which lowers the power of ten.  From the
first that does not fit on they are dropped. -/
def gatherFraction (s : Scaled) : List Char → Scaled
  | [] => s
  | c :: rest =>
    if fits (10 * s.significand + digit c) then
      gatherFraction ⟨10 * s.significand + digit c, s.exponent - 1⟩ rest
    else s

/-- The greatest power of ten below the greatest floating-point number. -/
def greatestPower : Nat := 308

/-- A power of ten, rounded. -/
def powerOfTen (k : Nat) : Float := Float.ofScientific 1 false k

/-- A number divided by a power of ten, in steps of the greatest power. -/
def scaleDown (f : Float) (k : Nat) : Float :=
  if k ≤ greatestPower then f / powerOfTen k
  else if f == 0.0 then f
  else scaleDown (f / powerOfTen greatestPower) (k - greatestPower)
termination_by k
decreasing_by simp only [greatestPower] at *; omega

/-- A number multiplied by a power of ten, unless that is too large. -/
def scaleUp? (f : Float) (k : Nat) : Option Float :=
  if k ≤ greatestPower then
    let product := f * powerOfTen k
    if product.isInf then none else some product
  else if f == 0.0 then some f
  else none

/-- The magnitude of a significand scaled by its power of ten. -/
def Scaled.magnitude? (s : Scaled) : Option Float :=
  let f := (UInt64.ofNat s.significand).toFloat
  if 0 ≤ s.exponent then scaleUp? f s.exponent.toNat
  else some (scaleDown f (-s.exponent).toNat)

/-- The floating-point number with the given sign and magnitude. -/
def signed (negative : Bool) (magnitude : Float) : Number :=
  .float ⟨(if negative then -magnitude else magnitude).toBits⟩

/-- Exponents from here on are not counted any more. -/
def exponentLimit : Nat := 1 <<< 31

/-- The significand with its power of ten moved by the exponent.  An exponent beyond the limit
makes a number zero or too large, and leaves zero what it is. -/
def Scaled.shift? (s : Scaled) : Option (Bool × List Char) → Option Scaled
  | none => some s
  | some (negative, digits) =>
    if natural digits < exponentLimit then
      let moved := if negative then -(natural digits : Int) else natural digits
      some ⟨s.significand, s.exponent + moved⟩
    else if s.significand = 0 ∨ negative then some ⟨0, 0⟩
    else none

/-- The numeral as a floating-point number. -/
def float? (n : Numeral) : Option Number := do
  let s ← (gatherFraction (gatherWhole 0 n.whole) n.fraction).shift? n.exponent
  let magnitude ← s.magnitude?
  some (signed n.negative magnitude)

/-- The numeral as an integer, if it is one. -/
def integer? (n : Numeral) : Option Int :=
  if n.fraction.isEmpty && n.exponent.isNone then
    if n.negative then
      if natural n.whole = 0 ∨ 1 <<< 63 < natural n.whole then none
      else some (-(natural n.whole : Int))
    else if natural n.whole < 1 <<< 64 then some (natural n.whole)
    else none
  else none

/-- The value of a numeral. -/
def number? (n : Numeral) : Option Number :=
  match n.integer? with
  | some value => some (.integer value)
  | none => n.float?

end Numeral

end RecordSchema
