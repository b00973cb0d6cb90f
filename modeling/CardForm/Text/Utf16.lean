import CardForm.Text.Basic

/-!
# UTF-16

A code point is one unit of sixteen bits or, above U+FFFF, a pair of them: a high surrogate and a
low one. Read back, a high surrogate and a low one after it are a pair, and any other unit is a code
point by itself, so that a surrogate which stands alone is kept.
-/
namespace CardForm.Utf16

/-- Whether a unit begins a pair. -/
def isHigh (unit : Nat) : Bool := 0xD800 ≤ unit && unit ≤ 0xDBFF

/-- Whether a unit ends a pair. -/
def isLow (unit : Nat) : Bool := 0xDC00 ≤ unit && unit ≤ 0xDFFF

/-- The code point that a pair of units stands for. -/
def joined (high low : Nat) : CodePoint :=
  .ofNat (0x10000 + (high - 0xD800) * 0x400 + (low - 0xDC00))

/-- The units of a code point. -/
def units (c : CodePoint) : List Nat :=
  if c.number < 0x10000 then [c.number]
  else [0xD800 + (c.number - 0x10000) / 0x400, 0xDC00 + (c.number - 0x10000) % 0x400]

/-- The text that some units stand for. -/
def toText : List Nat → Text
  | [] => []
  | [unit] => [.ofNat unit]
  | first :: second :: rest =>
    if isHigh first && isLow second then joined first second :: toText rest
    else .ofNat first :: toText (second :: rest)

example : (toText [0xD83D, 0xDE00, 0xD800, 0x41]).map CodePoint.number =
    [0x1F600, 0xD800, 0x41] := by decide +kernel

end CardForm.Utf16
