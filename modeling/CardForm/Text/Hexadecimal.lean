import CardForm.Text.Basic

/-!
# Hexadecimal digits

Numbers in a fixed count of hexadecimal digits, as escapes use them.
-/
namespace CardForm.Text

/-- The last `width` hexadecimal digits of a number, in lower case. -/
def hexDigits (width n : Nat) : List Char :=
  (List.range width).reverse.map fun place => Nat.digitChar (n / Nat.pow 16 place % 16)

/-- The value of a hexadecimal digit, with letters of either case. -/
def hexValue? (c : CodePoint) : Option Nat :=
  let n := c.number
  if c.isDigit then some c.digitValue
  else if 0x61 ≤ n ∧ n ≤ 0x66 then some (n - 0x61 + 10)
  else if 0x41 ≤ n ∧ n ≤ 0x46 then some (n - 0x41 + 10)
  else none

example : hexDigits 4 0x200b = "200b".toList := by decide +kernel
example : ("09afAFg" : Text).map hexValue? =
    [some 0, some 9, some 10, some 15, some 10, some 15, none] := by decide

end CardForm.Text
