/-!
# Double-precision numbers

A double is kept as its sixty-four bits, so that equality is decidable and tells `0.0` from `-0.0`.
Every finite double is a whole multiple of the smallest positive one, 2^-1074; its `magnitude` is
that multiple, a natural number, and all comparisons and conversions here are exact arithmetic on
magnitudes. `ofRatio` rounds a fraction to the nearest double, a tie to the even neighbour.
-/
namespace CardForm

/-- A number in the IEEE 754 format binary64. -/
structure Double where
  /-- Sign, exponent and fraction, from the highest bit down. -/
  bits : UInt64
deriving DecidableEq

namespace Double

/-- How many of the smallest positive doubles make one. -/
def unitsPerOne : Nat := Nat.pow 2 1074

/-- How many values the fifty-two bits of the fraction have. -/
def fractionSpan : Nat := Nat.pow 2 52

/-- Whether the sign bit is set. -/
def isNegative (x : Double) : Bool := Nat.pow 2 63 ≤ x.bits.toNat

/-- The eleven bits of the exponent. -/
def exponentField (x : Double) : Nat := x.bits.toNat / fractionSpan % Nat.pow 2 11

/-- The fifty-two bits of the fraction. -/
def fractionField (x : Double) : Nat := x.bits.toNat % fractionSpan

/-- Neither infinite nor undefined. -/
def isFinite (x : Double) : Bool := x.exponentField != 2047

/-- The value of an undefined operation. -/
def isNaN (x : Double) : Bool := x.exponentField == 2047 && x.fractionField != 0

/-- Assemble a double from its three fields. -/
def ofFields (negative : Bool) (exponent fraction : Nat) : Double :=
  ⟨UInt64.ofNat ((if negative then Nat.pow 2 63 else 0) + exponent * fractionSpan + fraction)⟩

/-- The undefined value. -/
def nan : Double := ofFields false 2047 (fractionSpan / 2)

/-- The infinite value of a sign. -/
def infinity (negative : Bool) : Double := ofFields negative 2047 0

/-- The distance to the next larger magnitude, in units of 2^-1074. -/
def spacing (x : Double) : Nat := Nat.pow 2 (x.exponentField - 1)

/-- The absolute value of a finite double, in units of 2^-1074. -/
def magnitude (x : Double) : Nat :=
  if x.exponentField = 0 then x.fractionField
  else (fractionSpan + x.fractionField) * x.spacing

/-- The value of a finite double as a whole number of units of 2^-1074. -/
def units (x : Double) : Int :=
  if x.isNegative then -(x.magnitude : Int) else x.magnitude

/-- The integer that a double equals, where it equals one. -/
def toInt? (x : Double) : Option Int :=
  if x.isFinite && x.magnitude % unitsPerOne == 0 then some (x.units / unitsPerOne) else none

/-- Round a quotient to the nearest natural number, a tie to the even one. -/
def roundDiv (num den : Nat) : Nat :=
  let quotient := num / den
  let twice := 2 * (num % den)
  if twice < den then quotient
  else if den < twice then quotient + 1
  else quotient + quotient % 2

/-- The exponent of the spacing that a magnitude of `n` whole units needs: the magnitude then has
at most fifty-three binary digits. -/
def spacingExponent (n : Nat) : Nat := n.log2 - 52

/-- The double nearest to `num / den`, a tie to the even neighbour, infinite above the largest. -/
def ofRatio (negative : Bool) (num den : Nat) : Double :=
  let scaled := num * unitsPerOne
  let exponent := spacingExponent (scaled / den)
  let digits := roundDiv scaled (den * Nat.pow 2 exponent)
  let (digits, exponent) :=
    if digits = 2 * fractionSpan then (fractionSpan, exponent + 1) else (digits, exponent)
  if digits < fractionSpan then ofFields negative 0 digits
  else if 2046 ≤ exponent then infinity negative
  else ofFields negative (exponent + 1) (digits - fractionSpan)

/-- The double nearest to `digits * 10 ^ exponent`. Powers far outside the range of doubles are
not computed. -/
def ofDecimal (negative : Bool) (digits : Nat) (exponent : Int) : Double :=
  let leading := (digits.log2 : Int) * 30103 / 100000 + exponent
  if digits = 0 then ofFields negative 0 0
  else if 310 < leading then infinity negative
  else if leading < -330 then ofFields negative 0 0
  else if 0 ≤ exponent then ofRatio negative (digits * Nat.pow 10 exponent.toNat) 1
  else ofRatio negative digits (Nat.pow 10 (-exponent).toNat)

/-- The double nearest to an integer. -/
def ofInt (n : Int) : Double := ofRatio (n < 0) n.natAbs 1

/-- The sum, rounded as the format prescribes. -/
def add (x y : Double) : Double := ⟨(Float.ofBits x.bits + Float.ofBits y.bits).toBits⟩

instance : Add Double := ⟨add⟩

/-- Equality of value: the two zeros are equal, and an undefined value equals itself. -/
def sameValue (x y : Double) : Bool :=
  x.bits == y.bits || (x.isFinite && y.isFinite && x.units == y.units)

/-- Whether a double has the value of an integer. -/
def equalsInt (x : Double) (n : Int) : Bool := x.toInt? == some n

example : ofDecimal false 1 (-1) = ⟨0x3FB999999999999A⟩ := by decide +kernel
example : ofDecimal false 5 (-324) = ⟨1⟩ := by decide +kernel
example : ofDecimal false 24 (-325) = ⟨0⟩ := by decide +kernel
example : ofDecimal true 17976931348623157 292 = ⟨0xFFEFFFFFFFFFFFFF⟩ := by decide +kernel
example : ofDecimal false 1 309 = infinity false := by decide +kernel
example : ofInt 9007199254740993 = ofInt 9007199254740992 := by decide +kernel
example : (ofDecimal true 25 (-1)).toInt? = none ∧ (ofInt (-7)).toInt? = some (-7) := by
  decide +kernel

end Double

end CardForm
