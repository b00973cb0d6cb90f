import CardForm.Number.Basic
import CardForm.Number.Shortest
import CardForm.Text.Basic

/-!
# Numbers as text

An integer is written in decimal digits. A double is written with the digits of its shortest
decimal: positionally, with at least one digit on either side of the point, from 10^-4 up to
10^16, and otherwise with one digit before the point and a signed exponent of at least two digits.
-/
namespace CardForm.Number

/-- Pad on the left with zeros to a width. -/
def padded (width n : Nat) : Text :=
  let text := Text.ofNat n
  List.replicate (width - text.length) ('0' : CodePoint) ++ text

/-- The exponents of ten from which on, and below which, a double is written positionally. -/
def positional (exponent : Int) : Bool := -4 ≤ exponent && exponent < 16

/-- A positive decimal in the notation for doubles. -/
def decimalText (d : Decimal) : Text :=
  let text := Text.ofNat d.digits
  let exponent := d.point - 1
  let zeros (count : Nat) : Text := List.replicate count ('0' : CodePoint)
  if !positional exponent then
    let (first, rest) := text.splitAt 1
    let fraction : Text := if rest.isEmpty then [] else "." ++ rest
    first ++ fraction ++ (if exponent < 0 then "e-" else "e+") ++ padded 2 exponent.natAbs
  else if d.point ≤ 0 then
    "0." ++ zeros (-d.point).toNat ++ text
  else
    let width := d.point.toNat
    let whole := text.take width ++ zeros (width - text.length)
    let rest := text.drop width
    if rest.isEmpty then whole ++ ".0" else whole ++ "." ++ rest

/-- The text of a double; those that are not finite are named by the caller's two words. -/
def doubleText (undefinedWord infiniteWord : Text) (x : Double) : Text :=
  if x.isNaN then undefinedWord
  else
    let size :=
      if !x.isFinite then infiniteWord
      else if x.magnitude = 0 then "0.0"
      else decimalText x.shortest
    if x.isNegative then "-" ++ size else size

/-- The text of an integer. -/
def intText (n : Int) : Text :=
  if n < 0 then "-" ++ Text.ofNat n.natAbs else Text.ofNat n.natAbs

/-- The text of a number. -/
def written (undefinedWord infiniteWord : Text) : Number → Text
  | int n => intText n
  | float x => doubleText undefinedWord infiniteWord x

example : written "nan" "inf" (float (.ofDecimal false 1 16)) = "1e+16" := by decide +kernel
example : written "nan" "inf" (float (.ofDecimal true 15 299)) = "-1.5e+300" := by decide +kernel
example : written "nan" "inf" (float (.ofDecimal false 1 (-5))) = "1e-05" := by decide +kernel
example : written "nan" "inf" (float (.ofDecimal false 1 (-4))) = "0.0001" := by decide +kernel
example : written "nan" "inf" (float (.ofDecimal false 1 2)) = "100.0" := by decide +kernel
example : written "nan" "inf" (float (.ofFields true 0 0)) = "-0.0" := by decide +kernel
example : written "nan" "inf" (float (.infinity true)) = "-inf" := by decide +kernel
example : written "nan" "inf" (int (-120)) = "-120" := by decide +kernel

end CardForm.Number
