/-
# Shortest decimal digits

A positive binary number `m · 2 ^ q` stands for all the reals that round to it, an interval
that reaches half way to its neighbours on either side.  Among the decimals inside that
interval the ones with the fewest digits are looked for, grid by grid: with one digit, with
two, and so on, the two points of the grid next to the number are tested, and of two that
lie inside the nearer one is taken.  Seventeen digits always suffice.
-/
import RecordSchema.Json

namespace RecordSchema

namespace Binary64

/-- Whether the sign bit is set. -/
def isNegative (x : Binary64) : Bool := x.bits.toNat >>> 63 == 1

/-- The exponent field. -/
def exponentField (x : Binary64) : Nat := x.bits.toNat >>> 52 % 0x800

/-- The fraction field. -/
def fractionField (x : Binary64) : Nat := x.bits.toNat % 1 <<< 52

/-- The magnitude is `significand · 2 ^ exponent`. -/
def significand (x : Binary64) : Nat :=
  if x.exponentField = 0 then x.fractionField else 1 <<< 52 + x.fractionField

/-- The magnitude is `significand · 2 ^ exponent`. -/
def exponent (x : Binary64) : Int :=
  if x.exponentField = 0 then -1074 else (x.exponentField : Int) - 1075

/-- Whether the number is a power of two whose lower neighbour is only half as far away as
its upper one. -/
def isLowEdge (x : Binary64) : Bool := x.fractionField == 0 && decide (1 < x.exponentField)

end Binary64

/-- A positive decimal: its digits without trailing zeros, and the power of ten that the
first of them counts. -/
structure Decimal where
  /-- The digits, most significant first. -/
  digits : List Char
  /-- The decimal is `d₁.d₂d₃… · 10 ^ exponent`. -/
  exponent : Int

namespace Decimal

/-- The count of decimal digits of a number. -/
def digitCount (n : Nat) : Nat := (Nat.toDigits 10 n).length

/-- The greatest `e` with `10 ^ e ≤ num / den`, for a positive fraction. -/
def magnitude (num den : Nat) : Int :=
  if den ≤ num then (digitCount (num / den) : Int) - 1
  else -(digitCount ((den - 1) / num) : Int)

/-- The reals that round to one number, as a fraction over a common denominator. -/
structure Interval where
  /-- The lower end. -/
  low : Nat
  /-- The number itself. -/
  value : Nat
  /-- The upper end. -/
  high : Nat
  /-- The denominator of all three. -/
  den : Nat
  /-- Whether the ends belong to the interval. -/
  closed : Bool

/-- Four times the magnitude of a number and of the ends of its interval, over a power of two. -/
def Interval.of (x : Binary64) : Interval where
  low := (4 * x.significand - if x.isLowEdge then 1 else 2) <<< x.exponent.toNat
  value := (4 * x.significand) <<< x.exponent.toNat
  high := (4 * x.significand + 2) <<< x.exponent.toNat
  den := 4 <<< (-x.exponent).toNat
  closed := x.significand % 2 == 0

/-- The interval in units of `10 ^ k`. -/
def Interval.scaled (i : Interval) (k : Int) : Interval where
  low := i.low * Nat.pow 10 (-k).toNat
  value := i.value * Nat.pow 10 (-k).toNat
  high := i.high * Nat.pow 10 (-k).toNat
  den := i.den * Nat.pow 10 k.toNat
  closed := i.closed

/-- Whether the interval contains a whole number. -/
def Interval.holds (i : Interval) (n : Nat) : Bool :=
  if i.closed then decide (i.low ≤ n * i.den) && decide (n * i.den ≤ i.high)
  else decide (i.low < n * i.den) && decide (n * i.den < i.high)

/-- The whole number inside the interval that is nearest to its value, if the floor or the
ceiling of the value lies inside.  A tie goes to the even one. -/
def Interval.nearest? (i : Interval) : Option Nat :=
  let floor := i.value / i.den
  let rest := i.value % i.den
  match i.holds floor, i.holds (floor + 1) with
  | true, false => some floor
  | false, true => some (floor + 1)
  | false, false => none
  | true, true =>
    if 2 * rest < i.den then some floor
    else if i.den < 2 * rest then some (floor + 1)
    else some (if floor % 2 = 0 then floor else floor + 1)

/-- The first of the grids with `count`, `count + 1`, … digits that has a point in the
interval; `fuel` bounds how many are tried.  The point comes with the unit of its grid. -/
def search (i : Interval) (top : Int) : Nat → Nat → Option (Nat × Int)
  | 0, _ => none
  | fuel + 1, count =>
    let k := top - (count : Int) + 1
    match (i.scaled k).nearest? with
    | some n => some (n, k)
    | none => search i top fuel (count + 1)

/-- The digits of a number without its trailing zeros. -/
def trimmedDigits (n : Nat) : List Char :=
  ((Nat.toDigits 10 n).reverse.dropWhile (· == '0')).reverse

/-- The shortest decimal that rounds to the magnitude of a number, and of several the nearest;
the single digit 0 for zero. -/
def shortest (x : Binary64) : Decimal :=
  if x.significand = 0 then ⟨['0'], 0⟩
  else
    let i := Interval.of x
    match search i (magnitude i.value i.den) 17 1 with
    | some (n, k) => ⟨trimmedDigits n, (digitCount n : Int) - 1 + k⟩
    | none => ⟨['0'], 0⟩

end Decimal

end RecordSchema
