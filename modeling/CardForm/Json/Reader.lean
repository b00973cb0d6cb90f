import CardForm.Json.Basic
import CardForm.Number.Numeral
import CardForm.Text.Hexadecimal
import CardForm.Text.Utf16

/-!
# Reading JSON text

The reader takes a value from the front of a text and returns the text after it, which is always
shorter (`Taken`); every loop here ends because of that. Beside standard JSON it reads the words
`NaN`, `Infinity` and `-Infinity`. An escaped surrogate that is no part of a pair stays in the text
as it is. The reader refuses a text with the place where it went wrong, an integer of more than
`Numeral.digitLimit` digits, and containers nested deeper than `nestingLimit`. A number with a point
or an exponent is a double, any other an integer.
-/
namespace CardForm.Json

/-- Why a text is not read. -/
inductive Refusal where
  /-- The text is not JSON; `rest` is the text from the fault on. -/
  | malformed (rest : Text)
  /-- An integer has too many digits to convert. -/
  | tooManyDigits (count : Nat)
  /-- The containers are nested too deeply. -/
  | tooDeep

/-- A value from the front of a text, and the text after it. -/
abbrev Taken (α : Type) (base : Text) := α × {rest : Text // rest.length < base.length}

/-- How many containers may stand inside each other. -/
def nestingLimit : Nat := 990

/-- The four blank characters of JSON. -/
def isJsonBlank (c : CodePoint) : Bool := c == ' ' || c == '\t' || c == '\n' || c == '\r'

/-- A text is no shorter than what dropping from its front leaves. -/
theorem length_dropWhile_le (inClass : CodePoint → Bool) (cs : Text) :
    (cs.dropWhile inClass).length ≤ cs.length :=
  (List.dropWhile_sublist inClass).length_le

/-- A text is no longer than itself. -/
theorem length_le_self (text : Text) : text.length ≤ text.length := Nat.le_refl text.length

/-- A text is no longer than one with one more character. -/
theorem length_le_cons (c : CodePoint) (rest : Text) : rest.length ≤ (c :: rest).length :=
  Nat.le_succ rest.length

/-- A text is shorter than one with one more character. -/
theorem length_lt_cons (c : CodePoint) (rest : Text) : rest.length < (c :: rest).length :=
  Nat.lt_succ_self rest.length

/-- What is shorter than a text is shorter than one with one more character. -/
theorem length_lt_longer {rest text : Text} (c : CodePoint) (h : rest.length < text.length) :
    rest.length < (c :: text).length := Nat.lt_succ_of_lt h

/-- What is no longer than a text is shorter than one with one more character. -/
theorem length_lt_of_le {rest text : Text} (c : CodePoint) (h : rest.length ≤ text.length) :
    rest.length < (c :: text).length := Nat.lt_succ_of_le h

/-- A text that leaves room for a word behind it leaves room for one more character in both. -/
theorem length_add_le {rest word text : Text} (w c : CodePoint)
    (h : rest.length + word.length ≤ text.length) :
    rest.length + (w :: word).length ≤ (c :: text).length := Nat.succ_le_succ h

/-- The text from its first character on that is not blank. -/
def skipBlanks (cs : Text) : {rest : Text // rest.length ≤ cs.length} :=
  ⟨cs.dropWhile isJsonBlank, length_dropWhile_le _ _⟩

/-- The text after a word, where it begins with the word. -/
def after? : (word cs : Text) →
    Option {rest : Text // rest.length + word.length ≤ cs.length}
  | [], cs => some ⟨cs, length_le_self cs⟩
  | _ :: _, [] => none
  | w :: word, c :: cs =>
    if w = c then
      (after? word cs).map fun ⟨rest, h⟩ => ⟨rest, length_add_le w c h⟩
    else none

/-! ## Texts -/

/-- The escapes of one letter, and the characters that they stand for. -/
def shortEscapes : List (CodePoint × CodePoint) :=
  [('"', '"'), ('\\', '\\'), ('/', '/'), ('b', '\x08'), ('f', '\x0c'), ('n', '\n'), ('r', '\r'),
    ('t', '\t')]

/-- The number of four hexadecimal digits. -/
def unitOf? (a b c d : CodePoint) : Option Nat := do
  let digits ← [a, b, c, d].mapM Text.hexValue?
  return digits.foldl (fun n digit => n * 16 + digit) 0

/-- A UTF-16 unit in four hexadecimal digits, where the text goes on after them. -/
def unit? : (cs : Text) → Option (Taken Nat cs)
  | a :: b :: c :: d :: e :: rest =>
    (unitOf? a b c d).map fun unit =>
      (unit, ⟨e :: rest, length_lt_longer a (length_lt_longer b (length_lt_longer c
        (length_lt_cons d (e :: rest))))⟩)
  | _ => none

/-- The code point of an escape by number, read after its `u`: of one unit, or of a pair where a
high surrogate is followed by the escape of a low one. The escape after a high surrogate is looked
at only if the text goes on after it. -/
def numberedEscape (cs : Text) : Except Refusal (Taken CodePoint cs) :=
  match unit? cs with
  | none => .error (.malformed ('u' :: cs))
  | some (unit, ⟨rest, h⟩) =>
    if Utf16.isHigh unit then
      match after? "\\u" rest with
      | none => .ok (.ofNat unit, ⟨rest, h⟩)
      | some ⟨digits, within⟩ =>
        if digits.length ≤ 4 then .ok (.ofNat unit, ⟨rest, h⟩)
        else
          match unit? digits with
          | none => .error (.malformed ('u' :: digits))
          | some (second, ⟨next, shorter⟩) =>
            if Utf16.isLow second then .ok (Utf16.joined unit second, ⟨next, by omega⟩)
            else .ok (.ofNat unit, ⟨rest, h⟩)
    else .ok (.ofNat unit, ⟨rest, h⟩)

/-- The code point of an escape, read after its backslash. A text that ends there is at fault from
its `opening` quote on. -/
def escaped (opening : Text) : (cs : Text) → Except Refusal (Taken CodePoint cs)
  | [] => .error (.malformed opening)
  | c :: rest =>
    if c = 'u' then
      (numberedEscape rest).map fun (point, ⟨next, h⟩) => (point, ⟨next, length_lt_longer c h⟩)
    else
      match shortEscapes.lookup c with
      | some point => .ok (point, ⟨rest, length_lt_cons c rest⟩)
      | none => .error (.malformed ('\\' :: c :: rest))

/-- The rest of a text after its opening quote and the code points `acc`, which are in reverse. -/
def textAfter (base opening : Text) (acc : Text) (cs : Text)
    (h : cs.length < base.length) : Except Refusal (Taken Text base) :=
  match cs, h with
  | [], _ => .error (.malformed opening)
  | c :: rest, h =>
    have shorter : rest.length < base.length := by simp only [List.length_cons] at h; omega
    if c = '"' then .ok (acc.reverse, ⟨rest, shorter⟩)
    else if c = '\\' then
      match escaped opening rest with
      | .ok (point, ⟨next, hnext⟩) => textAfter base opening (point :: acc) next (by omega)
      | .error refusal => .error refusal
    else if c.number < 0x20 then .error (.malformed (c :: rest))
    else textAfter base opening (c :: acc) rest shorter
termination_by cs.length
decreasing_by all_goals simp only [List.length_cons]; omega

/-! ## Numbers -/

/-- The digits at the front of a text. -/
def digitsOf (cs : Text) : Text × {rest : Text // rest.length ≤ cs.length} :=
  (cs.takeWhile CodePoint.isDigit, ⟨cs.dropWhile CodePoint.isDigit, length_dropWhile_le _ _⟩)

/-- The whole part of a number: a zero, or digits of which the first is not zero. -/
def wholePart? : (cs : Text) → Option (Taken Text cs)
  | [] => none
  | c :: cs =>
    if c = '0' then some ([c], ⟨cs, length_lt_cons c cs⟩)
    else if c.isDigit then
      let (digits, ⟨rest, h⟩) := digitsOf cs
      some (c :: digits, ⟨rest, length_lt_of_le c h⟩)
    else none

/-- The digits of a fraction, which begins with its point. -/
def fraction? : (cs : Text) → Option (Taken Text cs)
  | c :: d :: cs =>
    if c = '.' ∧ d.isDigit then
      let (digits, ⟨rest, h⟩) := digitsOf cs
      some (d :: digits, ⟨rest, length_lt_longer c (length_lt_of_le d h)⟩)
    else none
  | _ => none

/-- A run of at least one digit. -/
def exponentDigits? (cs : Text) : Option (Taken Nat cs) :=
  match cs with
  | [] => none
  | c :: cs =>
    if c.isDigit then
      let (digits, ⟨rest, h⟩) := digitsOf cs
      some (Numeral.valueOf (c :: digits), ⟨rest, length_lt_of_le c h⟩)
    else none

/-- The exponent of a sign, from its digits. -/
def signedExponent? (negative : Bool) (cs : Text) : Option (Taken Int cs) :=
  (exponentDigits? cs).map fun (n, rest) => (Numeral.signed negative n, rest)

/-- An exponent after its mark. -/
def exponentAfterMark? (cs : Text) : Option (Taken Int cs) :=
  match cs with
  | [] => none
  | c :: digits =>
    if c = '-' ∨ c = '+' then
      (signedExponent? (c == '-') digits).map fun (n, ⟨rest, h⟩) =>
        (n, ⟨rest, length_lt_longer c h⟩)
    else signedExponent? false (c :: digits)

/-- An exponent, which begins with its mark. -/
def exponent? : (cs : Text) → Option (Taken Int cs)
  | [] => none
  | c :: cs =>
    if c = 'e' ∨ c = 'E' then
      (exponentAfterMark? cs).map fun (n, ⟨rest, h⟩) => (n, ⟨rest, length_lt_longer c h⟩)
    else none

/-- The integer of a sign and digits, if they are not too many. -/
def integerOf (negative : Bool) (digits : Text) : Except Refusal Number :=
  if Numeral.digitLimit < digits.length then .error (.tooManyDigits digits.length)
  else
    .ok (.int (Numeral.signed negative (Numeral.valueOf digits)))

/-- The double of a sign, the digits before and after its point, and an exponent. -/
def doubleOf (negative : Bool) (whole fraction : Text) (exponent : Int) : Number :=
  .float (Double.ofDecimal negative (Numeral.valueOf (whole ++ fraction))
    (exponent - fraction.length))

/-- The number of a sign and an unsigned text that begins with digits. -/
def unsignedNumber (negative : Bool) (start cs : Text) (h : cs.length ≤ start.length) :
    Except Refusal (Taken Number start) :=
  match wholePart? cs with
  | none => .error (.malformed start)
  | some (whole, ⟨r₁, h₁⟩) =>
    match fraction? r₁ with
    | some (fraction, ⟨r₂, h₂⟩) =>
      match exponent? r₂ with
      | some (exponent, ⟨r₃, h₃⟩) =>
        .ok (doubleOf negative whole fraction exponent, ⟨r₃, by omega⟩)
      | none => .ok (doubleOf negative whole fraction 0, ⟨r₂, by omega⟩)
    | none =>
      match exponent? r₁ with
      | some (exponent, ⟨r₃, h₃⟩) => .ok (doubleOf negative whole [] exponent, ⟨r₃, by omega⟩)
      | none => (integerOf negative whole).map fun n => (n, ⟨r₁, by omega⟩)

/-- A number. -/
def number (cs : Text) : Except Refusal (Taken Number cs) :=
  match cs with
  | [] => .error (.malformed [])
  | c :: rest =>
    if c = '-' then unsignedNumber true (c :: rest) rest (length_le_cons c rest)
    else unsignedNumber false (c :: rest) (c :: rest) (length_le_self (c :: rest))

/-! ## Values -/

/-- The values that are written as a word. -/
def words : List (Text × Json) :=
  [("null", null), ("true", bool true), ("false", bool false), ("NaN", num (.float .nan)),
    ("Infinity", num (.float (.infinity false))), ("-Infinity", num (.float (.infinity true)))]

/-- The value of the word at the front of a text. -/
def word? (cs : Text) : Option (Taken Json cs) :=
  words.findSome? fun (word, value) =>
    match after? word cs with
    | some ⟨rest, h⟩ =>
      if positive : 0 < word.length then some (value, ⟨rest, by omega⟩) else none
    | none => none

/-- A value that is no container, by its first character and the text after that. -/
def scalar (c : CodePoint) (rest : Text) : Except Refusal (Taken Json (c :: rest)) :=
  if c = '"' then
    (textAfter (c :: rest) (c :: rest) [] rest (length_lt_cons c rest)).map fun (text, after) =>
      (str text, after)
  else
    match word? (c :: rest) with
    | some taken => .ok taken
    | none => (number (c :: rest)).map fun (n, after) => (num n, after)

/-- A reader of one value from the front of a text. -/
abbrev ValueReader := (cs : Text) → Except Refusal (Taken Json cs)

/-- The rest of an array, from an item on, after the items `acc`, which are in reverse. -/
def itemsAfter (value : ValueReader) (base : Text) (acc : List Json) (cs : Text)
    (h : cs.length < base.length) : Except Refusal (Taken Json base) :=
  match value cs with
  | .error refusal => .error refusal
  | .ok (item, ⟨r₁, h₁⟩) =>
    match skipBlanks r₁ with
    | ⟨[], _⟩ => .error (.malformed [])
    | ⟨c :: r₂, h₂⟩ =>
      have step : r₂.length < r₁.length := by simp only [List.length_cons] at h₂; omega
      if c = ']' then .ok (arr (item :: acc).reverse, ⟨r₂, by omega⟩)
      else if c = ',' then
        match skipBlanks r₂ with
        | ⟨next, hnext⟩ => itemsAfter value base (item :: acc) next (by omega)
      else .error (.malformed (c :: r₂))
termination_by cs.length

/-- A value after the colon and the blanks that stand before it. -/
def valueAfterColon (value : ValueReader) (cs : Text) : Except Refusal (Taken Json cs) :=
  match skipBlanks cs with
  | ⟨[], _⟩ => .error (.malformed [])
  | ⟨c :: r₁, h₁⟩ =>
    if c = ':' then
      match skipBlanks r₁ with
      | ⟨r₂, h₂⟩ =>
        match value r₂ with
        | .error refusal => .error refusal
        | .ok (item, ⟨r₃, h₃⟩) => .ok (item, ⟨r₃, by simp only [List.length_cons] at h₁; omega⟩)
    else .error (.malformed (c :: r₁))

/-- One member of an object: its key, a colon and its value. -/
def member (value : ValueReader) (cs : Text) : Except Refusal (Taken (Text × Json) cs) :=
  match cs with
  | [] => .error (.malformed [])
  | c :: rest =>
    if c = '"' then
      match textAfter (c :: rest) (c :: rest) [] rest (length_lt_cons c rest) with
      | .error refusal => .error refusal
      | .ok (key, ⟨r₁, h₁⟩) =>
        match valueAfterColon value r₁ with
        | .error refusal => .error refusal
        | .ok (item, ⟨r₂, h₂⟩) => .ok ((key, item), ⟨r₂, Nat.lt_trans h₂ h₁⟩)
    else .error (.malformed (c :: rest))

/-- The rest of an object, from a key on, after the members `acc`. -/
def membersAfter (value : ValueReader) (base : Text) (acc : Members) (cs : Text)
    (h : cs.length < base.length) : Except Refusal (Taken Json base) :=
  match member value cs with
  | .error refusal => .error refusal
  | .ok ((key, item), ⟨r₁, h₁⟩) =>
    match skipBlanks r₁ with
    | ⟨[], _⟩ => .error (.malformed [])
    | ⟨c :: r₂, h₂⟩ =>
      have step : r₂.length < r₁.length := by simp only [List.length_cons] at h₂; omega
      if c = '\x7d' then .ok (obj (acc.put key item), ⟨r₂, by omega⟩)
      else if c = ',' then
        match skipBlanks r₂ with
        | ⟨next, hnext⟩ => membersAfter value base (acc.put key item) next (by omega)
      else .error (.malformed (c :: r₂))
termination_by cs.length

/-- An array after its opening bracket. -/
def arrayAfter (value : ValueReader) (base rest : Text) (h : rest.length < base.length) :
    Except Refusal (Taken Json base) :=
  match skipBlanks rest with
  | ⟨[], hnext⟩ => itemsAfter value base [] [] (by omega)
  | ⟨c :: after, hnext⟩ =>
    have shorter : (c :: after).length < base.length := by omega
    if c = ']' then .ok (arr [], ⟨after, Nat.lt_of_succ_lt shorter⟩)
    else itemsAfter value base [] (c :: after) shorter

/-- An object after its opening brace. -/
def objectAfter (value : ValueReader) (base rest : Text) (h : rest.length < base.length) :
    Except Refusal (Taken Json base) :=
  match skipBlanks rest with
  | ⟨[], hnext⟩ => membersAfter value base [] [] (by omega)
  | ⟨c :: after, hnext⟩ =>
    have shorter : (c :: after).length < base.length := by omega
    if c = '\x7d' then .ok (obj [], ⟨after, Nat.lt_of_succ_lt shorter⟩)
    else membersAfter value base [] (c :: after) shorter

/-- A value whose containers are nested at most `depth` deep. -/
def value (depth : Nat) (cs : Text) : Except Refusal (Taken Json cs) :=
  match cs with
  | [] => .error (.malformed [])
  | c :: rest =>
    if c = '[' then
      match depth with
      | 0 => .error .tooDeep
      | inner + 1 => arrayAfter (value inner) (c :: rest) rest (length_lt_cons c rest)
    else if c = '\x7b' then
      match depth with
      | 0 => .error .tooDeep
      | inner + 1 => objectAfter (value inner) (c :: rest) rest (length_lt_cons c rest)
    else scalar c rest

/-- Read the value that begins a text, with the text after it. -/
def readFront (text : Text) : Except Refusal (Json × Text) :=
  (value nestingLimit text).map fun (json, rest) => (json, rest.1)

/-- Read a text that is one value, with blanks around it. -/
def read (text : Text) : Except Refusal Json :=
  match value nestingLimit (skipBlanks text).1 with
  | .error refusal => .error refusal
  | .ok (json, rest) =>
    match (skipBlanks rest.1).1 with
    | [] => .ok json
    | extra => .error (.malformed extra)

/-- The place in a text from which on it is at fault. -/
def Refusal.offset? (text : Text) : Refusal → Option Nat
  | malformed rest => some (text.length - rest.length)
  | _ => none

end CardForm.Json
