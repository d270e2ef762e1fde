/-!
# Double-precision numbers

A JSON number with a fraction or an exponent is a double-precision number, kept as
its bit pattern.  A numeral is given by a whole significand and a power of ten, and is
scaled in double arithmetic; a result beyond the finite doubles is refused.  In the
other direction a double has a shortest decimal: the fewest digits that lie in the
interval of the numbers that round to it, and of those the nearest to its value.
-/

namespace ContentApi.Json

/-- A double-precision number by its bit pattern. -/
structure Double where
  bits : UInt64
deriving DecidableEq, Repr

namespace Double

/-- The largest power of ten that a double holds. -/
def largestPower : Nat := 308

/-- The double nearest to a power of ten. -/
def powerOfTen (exponent : Nat) : Float :=
  Float.ofScientific 1 false exponent

/--
Divides by a power of ten in steps of at most `largestPower`.  After three full steps
every significand below 2^64 has vanished, so at most that many are made.
-/
def scaleDown : Nat → Float → Nat → Float
  | 0, _, _ => 0
  | steps + 1, value, exponent =>
      if exponent ≤ largestPower then value / powerOfTen exponent
      else scaleDown steps (value / powerOfTen largestPower) (exponent - largestPower)

/-- The significand times the power of ten, unless it is too great for a double. -/
def magnitude? (significand : Nat) (exponent : Int) : Option Float :=
  let value := (UInt64.ofNat significand).toFloat
  if exponent < 0 then some (scaleDown 4 value exponent.natAbs)
  else if significand = 0 then some 0
  else if exponent ≤ largestPower then
    let scaled := value * powerOfTen exponent.natAbs
    if scaled.isFinite then some scaled else none
  else none

/-- The double of a numeral, with its sign. -/
def ofParts? (negative : Bool) (significand : Nat) (exponent : Int) : Option Double :=
  (magnitude? significand exponent).map fun value =>
    ⟨(if negative then -value else value).toBits⟩

/-- Whether the sign bit is set. -/
def isNegative (double : Double) : Bool :=
  0x8000000000000000 ≤ double.bits.toNat

/-- The stored fraction of the significand, below 2^52. -/
def fraction (double : Double) : Nat :=
  double.bits.toNat % 0x10000000000000

/-- The biased exponent, below 2^11. -/
def biasedExponent (double : Double) : Nat :=
  double.bits.toNat / 0x10000000000000 % 0x800

/-- The whole significand; together with `exponent` it gives the magnitude. -/
def significand (double : Double) : Nat :=
  if double.biasedExponent = 0 then double.fraction else double.fraction + 0x10000000000000

/-- The magnitude is the significand times two to this power. -/
def exponent (double : Double) : Int :=
  (max double.biasedExponent 1 : Nat) - 1075

/-- A positive decimal: its digits as a whole number, times a power of ten. -/
structure Decimal where
  digits : Nat
  exponent : Int
deriving DecidableEq, Repr

/-- A fraction of two whole numbers. -/
structure Ratio where
  numerator : Nat
  denominator : Nat

namespace Ratio

/-- A whole number times a power of a whole base. -/
def scaled (value base : Nat) (exponent : Int) : Ratio :=
  if exponent < 0 then ⟨value, base.pow exponent.natAbs⟩
  else ⟨value * base.pow exponent.natAbs, 1⟩

/-- Whether the first fraction is less than the second one. -/
def less (left right : Ratio) : Bool :=
  left.numerator * right.denominator < right.numerator * left.denominator

/-- The distance of two fractions. -/
def distance (left right : Ratio) : Ratio :=
  let first := left.numerator * right.denominator
  let second := right.numerator * left.denominator
  ⟨max first second - min first second, left.denominator * right.denominator⟩

/-- The greatest whole multiple of a power of ten that is not above the fraction. -/
def floorAt (ratio : Ratio) (exponent : Int) : Nat :=
  if exponent < 0 then
    ratio.numerator * Nat.pow 10 exponent.natAbs / ratio.denominator
  else ratio.numerator / (ratio.denominator * Nat.pow 10 exponent.natAbs)

/-- The exponent of the first power of ten above the fraction. -/
def decimalPoint (ratio : Ratio) : Int :=
  if ratio.denominator ≤ ratio.numerator then
    (Nat.toDigits 10 (ratio.numerator / ratio.denominator)).length
  else
    let places := (List.range 400).find? fun shift =>
      ratio.denominator ≤ ratio.numerator * Nat.pow 10 shift
    1 - (places.getD 0 : Nat)

end Ratio

/-- A decimal as a fraction. -/
def Decimal.ratio (decimal : Decimal) : Ratio :=
  .scaled decimal.digits 10 decimal.exponent

/-- The magnitude of a double as a fraction. -/
def ratio (double : Double) : Ratio :=
  .scaled double.significand 2 double.exponent

/--
Whether a positive decimal rounds to the double: it lies between the midpoints to the
two neighbouring doubles, which are included iff the significand is even.
-/
def isNearestTo (double : Double) (decimal : Decimal) : Bool :=
  let below := if double.fraction = 0 && 1 < double.biasedExponent then 1 else 2
  let lower := Ratio.scaled (4 * double.significand - below) 2 (double.exponent - 2)
  let upper := Ratio.scaled (4 * double.significand + 2) 2 (double.exponent - 2)
  if double.significand % 2 = 0 then
    !decimal.ratio.less lower && !upper.less decimal.ratio
  else lower.less decimal.ratio && decimal.ratio.less upper

/-- Of the two decimals beside the double with a given last place, the better one. -/
def candidate? (double : Double) (place : Int) : Option Decimal :=
  let low : Decimal := ⟨double.ratio.floorAt place, place⟩
  let high : Decimal := ⟨low.digits + 1, place⟩
  if double.isNearestTo low then
    if double.isNearestTo high then
      let toLow := double.ratio.distance low.ratio
      let toHigh := double.ratio.distance high.ratio
      if toLow.less toHigh then some low
      else if toHigh.less toLow then some high
      else if low.digits % 2 = 0 then some low else some high
    else some low
  else if double.isNearestTo high then some high else none

/-- Removes trailing zeros from the digits, at most as many as asked for. -/
def Decimal.normalized : Nat → Decimal → Decimal
  | 0, decimal => decimal
  | fuel + 1, decimal =>
      if decimal.digits % 10 = 0 ∧ decimal.digits ≠ 0 then
        normalized fuel ⟨decimal.digits / 10, decimal.exponent + 1⟩
      else decimal

/-- The shortest decimal of the magnitude of a finite double. -/
def shortest (double : Double) : Decimal :=
  if double.significand = 0 then ⟨0, 0⟩
  else
    let point := double.ratio.decimalPoint
    let found := (List.range 17).findSome? fun count =>
      double.candidate? (point - (count + 1 : Nat))
    (found.getD ⟨0, 0⟩).normalized 20

end Double

end ContentApi.Json
