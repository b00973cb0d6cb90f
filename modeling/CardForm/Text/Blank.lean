import CardForm.Text.Basic

/-!
# Blank characters

Two classes of blank characters occur in the formats of this library. A *blank* has the Unicode
property `White_Space`. A *spacing* character is a blank or one of the four information
separators U+001C to U+001F. `trim` takes a class from both ends of a text: what is left neither
begins nor ends with a character of the class.
-/
namespace CardForm

namespace CodePoint

/-- Characters with the Unicode property `White_Space`. -/
def isBlank (c : CodePoint) : Bool :=
  let n := c.number
  (0x09 ≤ n && n ≤ 0x0D) || n == 0x20 || n == 0x85 || n == 0xA0 || n == 0x1680 ||
    (0x2000 ≤ n && n ≤ 0x200A) || n == 0x2028 || n == 0x2029 || n == 0x202F ||
    n == 0x205F || n == 0x3000

/-- Blank characters and the four information separators. -/
def isSpacing (c : CodePoint) : Bool :=
  isBlank c || (0x1C ≤ c.number && c.number ≤ 0x1F)

example : (List.range 0x100).filter (fun n => isBlank (ofNat n)) =
    [0x09, 0x0A, 0x0B, 0x0C, 0x0D, 0x20, 0x85, 0xA0] := by decide +kernel

end CodePoint

namespace Text

/-- The text without the characters of the class at its two ends. -/
def trim (inClass : CodePoint → Bool) (text : Text) : Text :=
  ((text.dropWhile inClass).reverse.dropWhile inClass).reverse

/-- The empty text has nothing to trim. -/
@[simp] theorem trim_nil (inClass : CodePoint → Bool) : trim inClass [] = [] := rfl

example : (trim CodePoint.isSpacing "\x1c key\u2003" : Text) = "key" := by decide

end Text

end CardForm
