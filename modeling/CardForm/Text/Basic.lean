/-!
# Texts

A text is a list of Unicode code points. All code points but the surrogates, U+D800 to U+DFFF, are
those of characters. UTF-16 makes a character above U+FFFF of a high surrogate and a low one; JSON
can name a surrogate that stands alone, and then the text holds it as it is. Such a text is
*ill-formed*: it has no encoding, so it can be kept and compared but not sent.
-/
namespace CardForm

/-- A Unicode code point. -/
structure CodePoint where
  /-- Its number. -/
  number : Nat
  /-- Code points end at U+10FFFF. -/
  number_lt : number < 0x110000
deriving DecidableEq

namespace CodePoint

/-- The numbers of characters are numbers of code points. -/
theorem toNat_char_lt (c : Char) : c.toNat < 0x110000 := by
  have h := c.valid
  simp only [UInt32.isValidChar, Nat.isValidChar] at h
  change c.val.toNat < 0x110000
  omega

/-- The code point of a character. -/
def ofChar (c : Char) : CodePoint := ⟨c.toNat, toNat_char_lt c⟩

instance : Coe Char CodePoint := ⟨ofChar⟩

instance : LT CodePoint := ⟨fun a b => a.number < b.number⟩

instance (a b : CodePoint) : Decidable (a < b) := inferInstanceAs (Decidable (a.number < b.number))

/-- The character that stands for what cannot be shown. -/
def replacement : CodePoint := ⟨0xFFFD, by decide⟩

/-- The code point of a number, the replacement character where there is none. -/
def ofNat (n : Nat) : CodePoint := if h : n < 0x110000 then ⟨n, h⟩ else replacement

/-- Whether a code point is half of a pair in UTF-16 and no character. -/
def isSurrogate (c : CodePoint) : Bool := 0xD800 ≤ c.number && c.number ≤ 0xDFFF

/-- The character of a code point, the replacement character for a surrogate. -/
def toChar (c : CodePoint) : Char := if c.isSurrogate then '\ufffd' else Char.ofNat c.number

/-- Whether a code point is one of the ten decimal digits of ASCII. -/
def isDigit (c : CodePoint) : Bool := 0x30 ≤ c.number && c.number ≤ 0x39

/-- The value of a decimal digit. -/
def digitValue (c : CodePoint) : Nat := c.number - 0x30

/-- A letter of ASCII in lower case; every other code point is left as it is. -/
def toLower (c : CodePoint) : CodePoint :=
  if 0x41 ≤ c.number ∧ c.number ≤ 0x5A then ofNat (c.number + 0x20) else c

/-- A letter of ASCII in upper case; every other code point is left as it is. -/
def toUpper (c : CodePoint) : CodePoint :=
  if 0x61 ≤ c.number ∧ c.number ≤ 0x7A then ofNat (c.number - 0x20) else c

/-- A character is no surrogate. -/
@[simp] theorem isSurrogate_ofChar (c : Char) : (ofChar c).isSurrogate = false := by
  have h := c.valid
  simp only [UInt32.isValidChar, Nat.isValidChar] at h
  change (decide (0xD800 ≤ c.val.toNat) && decide (c.val.toNat ≤ 0xDFFF)) = false
  simp only [Bool.and_eq_false_imp, decide_eq_true_eq, decide_eq_false_iff_not]
  omega

/-- Characters are told apart by their code points. -/
theorem ofChar_inj {a b : Char} : ofChar a = ofChar b ↔ a = b := by
  constructor
  · intro h
    exact Char.toNat_inj.1 (congrArg number h)
  · rintro rfl
    rfl

end CodePoint

/-- A text: its code points, in order. -/
abbrev Text := List CodePoint

namespace Text

/-- The text of some characters. -/
def ofChars (chars : List Char) : Text := chars.map CodePoint.ofChar

/-- The text of a string. -/
def ofString (s : String) : Text := ofChars s.toList

instance : Coe String Text := ⟨ofString⟩

/-- The string of a text. -/
def toString (text : Text) : String := String.ofList (text.map CodePoint.toChar)

/-- The decimal digits of a natural number. -/
def ofNat (n : Nat) : Text := ofChars (Nat.toDigits 10 n)

/-- Some texts one after the other, with a text between each two. -/
def joined (between : Text) (texts : List Text) : Text := between.intercalate texts

/-- Whether every code point is that of a character. -/
def isWellFormed (text : Text) : Bool := text.all fun c => !c.isSurrogate

/-- The text with the letters of ASCII in lower case. -/
def toLower (text : Text) : Text := text.map CodePoint.toLower

/-- The text with the letters of ASCII in upper case. -/
def toUpper (text : Text) : Text := text.map CodePoint.toUpper

/-- The text as it is shown where only characters can be: in place of a surrogate stand three
replacement characters, one for each octet in which it would be encoded. -/
def legible (text : Text) : Text :=
  text.flatMap fun c => if c.isSurrogate then List.replicate 3 .replacement else [c]

/-- The text of a string is well-formed. -/
@[simp] theorem isWellFormed_ofString (s : String) : (ofString s).isWellFormed = true := by
  simp [isWellFormed, ofString, ofChars]

/-- Strings are told apart by their texts. -/
theorem ofString_inj {a b : String} : ofString a = ofString b ↔ a = b := by
  constructor
  · intro h
    have same := List.map_inj_right (fun _ _ e => CodePoint.ofChar_inj.1 e) |>.1 h
    exact String.toList_inj.1 same
  · rintro rfl
    rfl

/-- What is shown of a text is well-formed. -/
@[simp] theorem isWellFormed_legible (text : Text) : text.legible.isWellFormed = true := by
  have whole : CodePoint.replacement.isSurrogate = false := by decide
  simp only [isWellFormed, legible, List.all_eq_true, List.mem_flatMap, Bool.not_eq_true']
  rintro c ⟨d, _, mem⟩
  split at mem
  · rw [List.eq_of_mem_replicate mem, whole]
  · rename_i h
    rw [List.mem_singleton.1 mem]
    simpa using h

/-- A well-formed text is shown as it is. -/
theorem legible_of_isWellFormed {text : Text} (h : text.isWellFormed = true) :
    text.legible = text := by
  induction text with
  | nil => rfl
  | cons c rest ih =>
    simp only [isWellFormed, List.all_cons, Bool.and_eq_true, Bool.not_eq_true'] at h
    have tail := ih (by simpa [isWellFormed] using h.2)
    simp only [legible, List.flatMap_cons, h.1] at tail ⊢
    simpa using tail

example : (ofString "aé").map CodePoint.number = [0x61, 0xE9] := by decide

example : (toUpper "get" : Text) = "GET" := by decide

end Text

end CardForm
