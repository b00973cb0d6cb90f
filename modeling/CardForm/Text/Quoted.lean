import CardForm.Text.Hexadecimal
import CardForm.Text.Printable

/-!
# Quoted texts

The form in which a text inside a listed value is shown. It stands in single quotes, or in double
quotes when it holds a single quote and no double quote. The backslash and the quote in use are
escaped, a line feed, a carriage return and a tab have short escapes, and every other unprintable
character is written by its number in hexadecimal digits: two after `\x`, four after `\u`, eight
after `\U`, the shortest of these that fits.
-/
namespace CardForm.Text

/-- An escape by number: its letter, and as many digits as that letter asks for. -/
def numberEscape (letter : Char) (width : Nat) (c : CodePoint) : Text :=
  ofChars ('\\' :: letter :: hexDigits width c.number)

/-- One character of a text that stands between two `quote` characters. -/
def quotedChar (quote c : CodePoint) : Text :=
  if c = quote ∨ c = '\\' then ['\\', c]
  else if c = '\n' then "\\n"
  else if c = '\r' then "\\r"
  else if c = '\t' then "\\t"
  else if isPrintable c then [c]
  else if c.number < 0x100 then numberEscape 'x' 2 c
  else if c.number < 0x10000 then numberEscape 'u' 4 c
  else numberEscape 'U' 8 c

/-- The quote around a text: double only where that spares an escape. -/
def quoteFor (text : Text) : CodePoint :=
  if text.contains '\'' && !text.contains '"' then '"' else '\''

/-- The quoted form of a text. -/
def quoted (text : Text) : Text :=
  let quote := quoteFor text
  quote :: text.flatMap (quotedChar quote) ++ [quote]

example : (quoted "it's" : Text) = "\"it's\"" := by decide +kernel
example : (quoted "say \"hi\"" : Text) = "'say \"hi\"'" := by decide +kernel
example : (quoted "\t\\\u200b" : Text) = "'\\t\\\\\\u200b'" := by decide +kernel
example : quoted [.ofNat 0xD800] = "'\\ud800'" := by decide +kernel

end CardForm.Text
