import CardForm.Number.Double

/-!
# The shortest decimal of a double

A decimal reads back as a double when it lies in the interval of numbers that round to it. Among
the decimals with the fewest significant digits in that interval the one nearest to the double is
chosen, a tie by the even last digit. `Double.shortest` looks for it on the grid of decimals with
one, two, up to seventeen digits: if a grid has a point in the interval, so is one of the two
points beside the double.
-/
namespace CardForm

/-- A positive decimal number: `0.d₁d₂… * 10 ^ point`, where `digits` is `d₁d₂…`. -/
structure Decimal where
  /-- The significant digits, the last of them not zero. -/
  digits : Nat
  /-- The place of the decimal point after the first digits. -/
  point : Int
deriving DecidableEq

namespace Double

/-- The place of the decimal point: the number of digits before it, or minus the number of zeros
that follow it. -/
def decimalPoint (num den : Nat) : Int :=
  if den ≤ num then ((Nat.toDigits 10 (num / den)).length : Int)
  else 1 - ((Nat.toDigits 10 ((den - 1) / num)).length : Int)

/-- Whether `num / den` lies between `low / den'` and `high / den'`, the ends included if
`closed`. -/
def liesBetween (closed : Bool) (low high den' num den : Nat) : Bool :=
  let (below, here, above) := (low * den, num * den', high * den)
  (below < here && here < above) || (closed && (below == here || here == above))

/-- Without its last zeros; the number of steps is bounded by `limit`. -/
def dropZeros : Nat → Nat → Nat
  | 0, n => n
  | limit + 1, n => if n % 10 = 0 ∧ n ≠ 0 then dropZeros limit (n / 10) else n

/-- The decimal of `n` at most so many digits, where the grid of that many digits has one. -/
def onGrid (x : Double) (point : Int) (n : Nat) : Option Decimal :=
  let shift := (n : Int) - point
  let scaleUp := Nat.pow 10 shift.toNat
  let scaleDown := Nat.pow 10 (-shift).toNat
  let num := x.magnitude * scaleUp
  let den := unitsPerOne * scaleDown
  let below := if x.fractionField = 0 ∧ 1 < x.exponentField then x.spacing / 2 else x.spacing
  let low := 2 * x.magnitude - below
  let high := 2 * x.magnitude + x.spacing
  let closed := x.fractionField % 2 == 0
  let readsBack (digits : Nat) : Bool :=
    liesBetween closed low high (2 * unitsPerOne) (digits * scaleDown) scaleUp
  let floor := num / den
  let rest := 2 * (num % den)
  let nearest := if rest < den ∨ rest = den ∧ floor % 2 = 0 then floor else floor + 1
  let other := if nearest = floor then floor + 1 else floor
  let found :=
    if readsBack nearest then some nearest else if readsBack other then some other else none
  found.map fun digits =>
    ⟨dropZeros 20 digits, if digits = Nat.pow 10 n then point + 1 else point⟩

/-- The shortest decimal that reads back as the absolute value of a finite double other than
zero. -/
def shortest (x : Double) : Decimal :=
  let point := decimalPoint x.magnitude unitsPerOne
  ((List.range 17).findSome? fun i => x.onGrid point (i + 1)).getD ⟨0, 0⟩

example : (ofDecimal false 1 (-1)).shortest = ⟨1, 0⟩ := by decide +kernel
example : (⟨1⟩ : Double).shortest = ⟨5, -323⟩ := by decide +kernel
example : (ofInt 9007199254740992).shortest = ⟨9007199254740992, 16⟩ := by decide +kernel
example : (ofDecimal false 1 23).shortest = ⟨1, 24⟩ := by decide +kernel
example : (ofDecimal false 123456789123456789 (-9)).shortest = ⟨12345678912345679, 9⟩ := by
  decide +kernel

end Double

end CardForm
