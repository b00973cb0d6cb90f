import CardForm.Number.Basic
import CardForm.Text.Blank

/-!
# Numerals typed as text

The two grammars by which a text counts as a number. A *plain* numeral is what JSON has: an integer
with no more than a minus sign before its digits, or a decimal. What people type is cleaned first
and then has to be plain. An integer may have blanks around it, a plus sign, zeros in front and
after a point; a decimal may have blanks around it. In both, single low lines may stand between
other characters, but in a decimal only where no blank stands around it.
-/
namespace CardForm.Numeral

/-- The number of digits beyond which an integer is not converted. -/
def digitLimit : Nat := 4300

/-- The value of a run of decimal digits. -/
def valueOf (digits : Text) : Nat := digits.foldl (fun n c => 10 * n + c.digitValue) 0

/-- A natural number with a sign. -/
def signed (negative : Bool) (n : Nat) : Int := if negative then -(n : Int) else n

/-! ## Cleaning -/

/-- Whether two low lines follow each other. -/
def hasDoubleLine : Text → Bool
  | a :: b :: rest => (a == '_' && b == '_') || hasDoubleLine (b :: rest)
  | _ => false

/-- Whether the low lines of a text may be dropped: none stands at an end or beside another. -/
def linesSeparate (text : Text) : Bool :=
  text.head? != some ('_' : CodePoint) && text.getLast? != some ('_' : CodePoint) &&
    !hasDoubleLine text

/-- The text without its low lines, where these may be dropped. -/
def withoutLines (text : Text) : Text :=
  if linesSeparate text then text.filter (· != '_') else text

/-- The text before the first character of a class, and the text from it on. -/
def splitAtFirst (inClass : CodePoint → Bool) (text : Text) : Text × Text :=
  text.span fun c => !inClass c

/-- The text without a point and zeros at its end. -/
def withoutZeroFraction (text : Text) : Text :=
  match splitAtFirst (· == '.') text with
  | (whole, _ :: zero :: zeros) =>
    if (zero :: zeros).all (· == '0') then whole else text
  | _ => text

/-- What counts of a text after a zero, `last` being the last of the zeros and low lines before it:
the text from the next digit or minus sign on. Before a point, or the end, `last` is kept. -/
def afterZero? (last : CodePoint) : Text → Option Text
  | [] => some [last]
  | c :: rest =>
    if c = '0' ∨ c = '_' then afterZero? c rest
    else if c.isDigit ∨ c = '-' then some (c :: rest)
    else if c = '.' then some (last :: c :: rest)
    else none

/-- A text that begins with a digit, without zeros and low lines in front. -/
def withoutLeadingZeros? : Text → Option Text
  | [] => none
  | c :: rest =>
    if c = '0' then afterZero? c rest else if c.isDigit then some (c :: rest) else none

/-- A text without blanks around it, without a sign that may be left out, and without zeros in
front. -/
def withoutPadding? (text : Text) : Option Text :=
  match Text.trim CodePoint.isBlank text with
  | [] => none
  | c :: rest =>
    if c = '+' then withoutLeadingZeros? rest
    else if c = '-' then (withoutLeadingZeros? rest).map (c :: ·)
    else withoutLeadingZeros? (c :: rest)

/-! ## Integers -/

/-- How a text fails to be an integer numeral. -/
inductive Refusal where
  /-- The text has another form. -/
  | malformed
  /-- The text begins with a plain numeral that is too long. -/
  | oversize
deriving DecidableEq

/-- Read the digits of a plain integer, which `before` characters precede: a zero, or digits of
which the first is not zero. -/
def plainDigits (before : Nat) (text : Text) : Except Refusal Nat :=
  let digits := text.takeWhile CodePoint.isDigit
  if text = "0" then .ok 0
  else if digits.isEmpty ∨ digits.head? = some ('0' : CodePoint) then .error .malformed
  else if digitLimit < before + digits.length then .error .oversize
  else if digits.length < text.length then .error .malformed
  else .ok (valueOf digits)

/-- Read a plain integer. -/
def plainInteger : Text → Except Refusal Int
  | [] => .error .malformed
  | c :: rest =>
    if c = '-' then (plainDigits 1 rest).map (signed true)
    else (plainDigits 0 (c :: rest)).map (signed false)

/-- The integer of a text that has to be cleaned. -/
def cleanedInteger? (text : Text) : Option Int := do
  let core ← withoutPadding? text
  (plainInteger (withoutLines (withoutZeroFraction core))).toOption

/-- Read an integer numeral. -/
def integer (text : Text) : Except Refusal Int :=
  match plainInteger text with
  | .error .malformed =>
    match cleanedInteger? text with
    | some n => .ok n
    | none => .error .malformed
  | read => read

/-! ## Decimals -/

/-- Whether a sign was negative, and the text after it. -/
def sign : Text → Bool × Text
  | [] => (false, [])
  | c :: rest =>
    if c = '-' then (true, rest) else if c = '+' then (false, rest) else (false, c :: rest)

/-- The exponent of a decimal, from its mark on. -/
def exponent? : Text → Option Int
  | [] => some 0
  | _ :: text =>
    let (negative, digits) := sign text
    if digits.isEmpty || !digits.all CodePoint.isDigit then none
    else some (signed negative (valueOf digits))

/-- Read an unsigned plain decimal: digits before or after a point, or both, and perhaps an
exponent. -/
def plainDigits? (negative : Bool) (text : Text) : Option Double := do
  let (mantissa, scale) := splitAtFirst (fun c => c == 'e' || c == 'E') text
  let (whole, fraction) := splitAtFirst (· == '.') mantissa
  let digits := whole ++ fraction.drop 1
  let exponent ← exponent? scale
  if digits.isEmpty || !digits.all CodePoint.isDigit then none
  else some (Double.ofDecimal negative (valueOf digits) (exponent - (fraction.length - 1 : Nat)))

/-- Read a plain decimal, or one of the words `inf`, `infinity` and `nan` in letters of either
case, with a sign or none. -/
def plainDecimal? (text : Text) : Option Double :=
  let (negative, unsigned) := sign text
  let word := Text.toLower unsigned
  if word = "inf" ∨ word = "infinity" then some (Double.infinity negative)
  else if word = "nan" then some Double.nan
  else plainDigits? negative unsigned

/-- Read a decimal numeral. -/
def decimal? (text : Text) : Option Double :=
  (plainDecimal? (Text.trim CodePoint.isBlank text)).or (plainDecimal? (withoutLines text))

example : (integer " 1_0.00").toOption = some 10 := by decide +kernel
example : (integer "5.").toOption = none := by decide +kernel
example : (integer "-007\n").toOption = some (-7) := by decide +kernel
example : (integer "1_").toOption = none := by decide +kernel
example : (integer "0__12").toOption = some 12 := by decide +kernel
example : (integer "0-1").toOption = some (-1) := by decide +kernel
example : (integer "-_1").toOption = none := by decide +kernel
example : decimal? "5.0_0" = some (.ofInt 5) := by decide +kernel
example : decimal? "5.e3" = some (.ofInt 5000) := by decide +kernel
example : decimal? "." = none := by decide +kernel
example : decimal? "-Infinity" = some (.infinity true) := by decide +kernel
example : decimal? "i_nf" = some (.infinity false) := by decide +kernel
example : decimal? " 1_0.5" = none := by decide +kernel

end CardForm.Numeral
