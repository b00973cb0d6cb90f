import CardForm.Json.Basic
import CardForm.Number.Written
import CardForm.Text.Hexadecimal
import CardForm.Text.Utf16

/-!
# Writing JSON text

The text of a value, without blanks, the members of an object in their order. Inside the texts of
the value, code points may have to be escaped: `asciiPoint` escapes all but the printable ones of
ASCII, by the UTF-16 units that stand for them, and `plainPoint` escapes only those that may not
stand in a JSON text. The numbers that are not finite are written as the words `NaN`, `Infinity` and
`-Infinity`.
-/
namespace CardForm.Json

/-- The escapes of one letter by the code points that they stand for. -/
def letterEscapes : List (CodePoint × Text) :=
  [('"', "\\\""), ('\\', "\\\\"), ('\n', "\\n"), ('\r', "\\r"), ('\t', "\\t"), ('\x08', "\\b"),
    ('\x0c', "\\f")]

/-- One UTF-16 unit as an escape. -/
def unitEscape (unit : Nat) : Text := "\\u" ++ Text.ofChars (Text.hexDigits 4 unit)

/-- A code point in a text that some code points can stand in and the others cannot. -/
def writtenPoint (mayStand : CodePoint → Bool) (c : CodePoint) : Text :=
  match letterEscapes.lookup c with
  | some escape => escape
  | none => if mayStand c then [c] else (Utf16.units c).flatMap unitEscape

/-- A code point in a text of printable characters of ASCII. -/
def asciiPoint : CodePoint → Text := writtenPoint fun c => 0x20 ≤ c.number && c.number < 0x7F

/-- A code point in a text that may have all characters but the controls of ASCII. -/
def plainPoint : CodePoint → Text := writtenPoint fun c => 0x20 ≤ c.number

section

variable (point : CodePoint → Text)

/-- A text as JSON. -/
def writtenText (text : Text) : Text := "\"" ++ text.flatMap point ++ "\""

mutual

/-- The text of a value. -/
def written : Json → Text
  | null => "null"
  | bool b => if b then "true" else "false"
  | num n => n.written "NaN" "Infinity"
  | str s => writtenText point s
  | arr items => "[" ++ Text.joined "," (writtenItems items) ++ "]"
  | obj members => "\x7b" ++ Text.joined "," (writtenMembers members) ++ "\x7d"

/-- The text of each item. -/
def writtenItems : List Json → List Text
  | [] => []
  | item :: rest => written item :: writtenItems rest

/-- The text of each member. -/
def writtenMembers : List (Text × Json) → List Text
  | [] => []
  | (key, value) :: rest =>
    (writtenText point key ++ ":" ++ written value) :: writtenMembers rest

end

end

example : written asciiPoint (.obj [("a\n", .arr [.str "é😀", .int 1])]) =
    "\x7b\"a\\n\":[\"\\u00e9\\ud83d\\ude00\",1]\x7d" := by decide +kernel
example : written plainPoint (.str "\"é\x01") = "\"\\\"é\\u0001\"" := by decide +kernel

end CardForm.Json
