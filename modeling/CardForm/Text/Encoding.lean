import CardForm.Text.Utf16

/-!
# Encodings of JSON text

A text is sent in UTF-8. Who receives JSON tells its encoding from the zeros among the first octets,
because a JSON text begins with a character of ASCII: so a text with a character U+0000 near its
front is taken for one in UTF-16 or UTF-32. `received` is the text that arrives when a text is sent
as JSON.
-/
namespace CardForm.Encoding

/-- An encoding, where the order of octets is told by whether the largest comes first. -/
inductive Scheme where
  /-- One to four octets a code point. -/
  | utf8
  /-- Units of two octets. -/
  | utf16 (largestFirst : Bool)
  /-- Four octets a code point. -/
  | utf32 (largestFirst : Bool)
deriving DecidableEq

/-- The octets of a code point in UTF-8. -/
def octetsOf (c : CodePoint) : List Nat :=
  let n := c.number
  let tail (place : Nat) : Nat := 0x80 + n / place % 0x40
  if n < 0x80 then [n]
  else if n < 0x800 then [0xC0 + n / 0x40, tail 1]
  else if n < 0x10000 then [0xE0 + n / 0x1000, tail 0x40, tail 1]
  else [0xF0 + n / 0x40000, tail 0x1000, tail 0x40, tail 1]

/-- The octets of a text in UTF-8. -/
def octets (text : Text) : List Nat := text.flatMap octetsOf

/-- The first surrogates of a text that follow each other, and how many code points come before
them: these cannot be encoded. -/
def unencodable? (text : Text) : Option (Nat × Text) :=
  (text.findIdx? CodePoint.isSurrogate).map fun place =>
    (place, (text.drop place).takeWhile CodePoint.isSurrogate)

/-- The encoding that the first octets of a JSON text tell of. -/
def detected : List Nat → Scheme
  | 0 :: 0 :: _ :: _ :: _ => .utf32 true
  | 0 :: _ :: _ :: _ :: _ => .utf16 true
  | _ :: 0 :: 0 :: 0 :: _ => .utf32 false
  | _ :: 0 :: _ :: _ :: _ => .utf16 false
  | [0, _] => .utf16 true
  | [_, 0] => .utf16 false
  | _ => .utf8

/-- The numbers of which each two of some numbers are the digits, to a base; none where the last
one is alone. -/
def paired? (base : Nat) (largestFirst : Bool) : List Nat → Option (List Nat)
  | [] => some []
  | [_] => none
  | a :: b :: rest =>
    (paired? base largestFirst rest).map fun numbers =>
      (if largestFirst then a * base + b else b * base + a) :: numbers

/-- The code point of a number, where there is one. -/
def point? (n : Nat) : Option CodePoint := if h : n < 0x110000 then some ⟨n, h⟩ else none

/-- The text of octets in UTF-16. -/
def fromUtf16? (largestFirst : Bool) (octets : List Nat) : Option Text :=
  (paired? 0x100 largestFirst octets).map Utf16.toText

/-- The text of octets in UTF-32. -/
def fromUtf32? (largestFirst : Bool) (octets : List Nat) : Option Text := do
  let units ← paired? 0x100 largestFirst octets
  let numbers ← paired? 0x10000 largestFirst units
  numbers.mapM point?

/-- The mark that may stand before a text to tell its encoding. -/
def byteOrderMark : CodePoint := '\ufeff'

/-- A text without the mark of its encoding. -/
def withoutMark (text : Text) : Text :=
  if text.head? = some byteOrderMark then text.tail else text

/-- The text that arrives when a well-formed text is sent as JSON, if its octets can be read in the
encoding that they tell of. -/
def received (text : Text) : Option Text :=
  match detected (octets (text.take 4)) with
  | .utf8 => some (withoutMark text)
  | .utf16 largestFirst => fromUtf16? largestFirst (octets text)
  | .utf32 largestFirst => fromUtf32? largestFirst (octets text)

example : (octets "aé€😀" : List Nat) =
    [0x61, 0xC3, 0xA9, 0xE2, 0x82, 0xAC, 0xF0, 0x9F, 0x98, 0x80] := by decide +kernel
example : received "\x001\x00 " = some "1 " := by decide +kernel
example : received "1\x00\x00" = some "1\x00\x00" := by decide +kernel
example : received "\ufeff[]" = some "[]" := by decide +kernel

end CardForm.Encoding
