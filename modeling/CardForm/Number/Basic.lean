import CardForm.Number.Double

/-!
# Numbers

A number is an integer of any size or a double. The two stay apart even where their values agree:
`1` and `1.0` are written differently. `sameValue` is the comparison by value across the two kinds.
-/
namespace CardForm

/-- An integer or a double. -/
inductive Number where
  /-- An integer of any size. -/
  | int (value : Int)
  /-- A double, also an infinite or undefined one. -/
  | float (value : Double)
deriving DecidableEq

namespace Number

instance : OfNat Number n := ⟨.int n⟩

/-- Whether the number is an integer or a finite double. -/
def isFinite : Number → Bool
  | int _ => true
  | float x => x.isFinite

/-- The number increased by an integer; a double stays a double. -/
def plus : Number → Int → Number
  | int n, step => int (n + step)
  | float x, step => float (x + Double.ofInt step)

/-- Equality of value across integers and doubles. -/
def sameValue : Number → Number → Bool
  | int m, int n => m == n
  | int m, float y => y.equalsInt m
  | float x, int n => x.equalsInt n
  | float x, float y => x.sameValue y

/-- A number has the same value as itself. -/
@[simp] theorem sameValue_self (n : Number) : n.sameValue n = true := by
  cases n <;> simp [sameValue, Double.sameValue]

example : (int 1).sameValue (float (Double.ofInt 1)) = true := by decide +kernel
example : (float (Double.ofFields true 0 0)).sameValue (int 0) = true := by decide +kernel

end Number

end CardForm
