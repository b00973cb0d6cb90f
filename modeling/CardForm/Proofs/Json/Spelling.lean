import CardForm.Json.Reader

/-!
# The grammar of JSON texts

What a text has to be to spell a value, said without the reader: `Spells limit depth` is the relation
between a text and the value that it spells, where integers have no more than `limit` digits and
containers are nested no deeper than `depth`; `IsTextOf` lets blanks stand around it. The numbers that
are not finite are spelled by words. An escaped surrogate that is no part of a pair stands for itself.
-/
namespace CardForm.Json

/-- A text between two characters. -/
def enclosed (opening closing : CodePoint) (inside : Text) : Text :=
  opening :: (inside ++ [closing])

/-! ## Texts between quotes -/

/-- An escape by number, before a text. -/
def numbered (a b c d : CodePoint) (source : Text) : Text := '\\' :: 'u' :: a :: b :: c :: d :: source

/-- The escape of a unit does not begin a pair with what follows it: the unit is not high, or no low one is
escaped next. -/
def Unpaired (unit : Nat) (next : Text) : Prop :=
  Utf16.isHigh unit = true → ∀ (a b c d : CodePoint) (low : Nat) (rest : Text),
    next = numbered a b c d rest → unitOf? a b c d = some low → Utf16.isLow low = false

/-- What stands between quotes for a text. -/
inductive Quoted : Text → Text → Prop where
  /-- Nothing stands for nothing. -/
  | nil : Quoted [] []
  /-- A character stands for itself, but for quotes, backslashes and the controls of ASCII. -/
  | plain {c : CodePoint} {source text : Text} : c ≠ '"' → c ≠ '\\' → ¬c.number < 0x20 →
      Quoted source text → Quoted (c :: source) (c :: text)
  /-- An escape of one letter. -/
  | short {letter point : CodePoint} {source text : Text} :
      shortEscapes.lookup letter = some point → Quoted source text →
      Quoted ('\\' :: letter :: source) (point :: text)
  /-- An escape by number, of a unit that does not begin a pair. -/
  | unit {a b c d : CodePoint} {unit : Nat} {source text : Text} : unitOf? a b c d = some unit →
      Unpaired unit source → Quoted source text →
      Quoted (numbered a b c d source) (.ofNat unit :: text)
  /-- Two escapes by number, of the units of a pair. -/
  | pair {a b c d e f g h : CodePoint} {high low : Nat} {source text : Text} :
      unitOf? a b c d = some high → Utf16.isHigh high = true →
      unitOf? e f g h = some low → Utf16.isLow low = true → Quoted source text →
      Quoted (numbered a b c d (numbered e f g h source)) (Utf16.joined high low :: text)

/-! ## Numbers -/

/-- A run of digits. -/
structure Digits (text : Text) : Prop where
  /-- There is at least one. -/
  ne_nil : text ≠ []
  /-- All characters are digits. -/
  all : ∀ c ∈ text, c.isDigit = true

/-- The whole part of a number: a zero, or digits of which the first is not zero. -/
inductive Whole : Text → Prop where
  /-- A zero stands alone. -/
  | zero : Whole ['0']
  /-- Any other number. -/
  | digits {c : CodePoint} {digits : Text} : c ≠ '0' → Digits (c :: digits) → Whole (c :: digits)

/-- The sign of a number. -/
def minus (negative : Bool) : Text := if negative then ['-'] else []

/-- The fraction of a number: its point, and digits. -/
inductive Fraction : Text → Text → Prop where
  /-- The digits of a fraction are those after its point. -/
  | intro {digits : Text} : Digits digits → Fraction ('.' :: digits) digits

/-- The exponent of a number: its mark, perhaps a sign, and digits. -/
inductive Exponent : Text → Int → Prop where
  /-- Digits without a sign. -/
  | unsigned {mark : CodePoint} {digits : Text} : mark = 'e' ∨ mark = 'E' → Digits digits →
      Exponent (mark :: digits) (Numeral.signed false (Numeral.valueOf digits))
  /-- Digits after a sign. -/
  | signed {mark sign : CodePoint} {digits : Text} : mark = 'e' ∨ mark = 'E' →
      sign = '-' ∨ sign = '+' → Digits digits →
      Exponent (mark :: sign :: digits) (Numeral.signed (sign == '-') (Numeral.valueOf digits))

/-- A number without its sign: an integer of no more digits than a limit, or a double, which has a
fraction or an exponent. -/
inductive Unsigned (limit : Nat) (negative : Bool) : Text → Number → Prop where
  /-- An integer. -/
  | integer {whole : Text} : Whole whole → whole.length ≤ limit →
      Unsigned limit negative whole (.int (Numeral.signed negative (Numeral.valueOf whole)))
  /-- A double with a fraction. -/
  | fraction {whole source fraction : Text} : Whole whole → Fraction source fraction →
      Unsigned limit negative (whole ++ source) (doubleOf negative whole fraction 0)
  /-- A double with an exponent. -/
  | exponent {whole source : Text} {exponent : Int} : Whole whole → Exponent source exponent →
      Unsigned limit negative (whole ++ source) (doubleOf negative whole [] exponent)
  /-- A double with both. -/
  | both {whole source fraction power : Text} {exponent : Int} : Whole whole →
      Fraction source fraction → Exponent power exponent →
      Unsigned limit negative (whole ++ (source ++ power))
        (doubleOf negative whole fraction exponent)

/-! ## Values -/

/-- A text of blanks. -/
def Blanks (text : Text) : Prop := ∀ c ∈ text, isJsonBlank c = true

/-- A character with blanks around it. -/
inductive Spaced (c : CodePoint) : Text → Prop where
  /-- There may be any blanks. -/
  | intro {before after : Text} : Blanks before → Blanks after → Spaced c (before ++ c :: after)

/-- Some things one after the other, with commas between them, and blanks behind the last one. -/
inductive Listed {α : Type} (spells : Text → α → Prop) : Text → List α → Prop where
  /-- The last one. -/
  | last {source after : Text} {item : α} : spells source item → Blanks after →
      Listed spells (source ++ after) [item]
  /-- One before others. -/
  | more {source comma others : Text} {item : α} {items : List α} : spells source item →
      Spaced ',' comma → Listed spells others items →
      Listed spells (source ++ (comma ++ others)) (item :: items)

/-- Things between an opening and a closing character. -/
inductive Enclosed {α : Type} (opening closing : CodePoint) (spells : Text → α → Prop) :
    Text → List α → Prop where
  /-- No things. -/
  | none {blanks : Text} : Blanks blanks →
      Enclosed opening closing spells (enclosed opening closing blanks) []
  /-- Some things. -/
  | some {before source : Text} {items : List α} : Blanks before → Listed spells source items →
      Enclosed opening closing spells (enclosed opening closing (before ++ source)) items

/-- A member of an object: its key in quotes, a colon, and its value. -/
inductive SpellsMember (spells : Text → Json → Prop) : Text → Text × Json → Prop where
  /-- The three parts. -/
  | intro {key source colon text : Text} {item : Json} : Quoted source key → Spaced ':' colon →
      spells text item →
      SpellsMember spells (enclosed '"' '"' source ++ (colon ++ text)) (key, item)

/-- A value that is no container. -/
inductive Scalar (limit : Nat) : Text → Json → Prop where
  /-- A value that is written as a word. -/
  | word {word : Text} {item : Json} : (word, item) ∈ words → Scalar limit word item
  /-- A text. -/
  | text {source text : Text} : Quoted source text →
      Scalar limit (enclosed '"' '"' source) (.str text)
  /-- A number. -/
  | number {negative : Bool} {source : Text} {n : Number} : Unsigned limit negative source n →
      Scalar limit (minus negative ++ source) (.num n)

/-- An array or an object. Of members with one key the last one counts. -/
inductive Container (spells : Text → Json → Prop) : Text → Json → Prop where
  /-- An array. -/
  | array {source : Text} {items : List Json} : Enclosed '[' ']' spells source items →
      Container spells source (.arr items)
  /-- An object. -/
  | object {source : Text} {members : Members} :
      Enclosed '\x7b' '\x7d' (SpellsMember spells) source members →
      Container spells source (.obj (Members.overlay [] members))

/-- A text spells a value, without blanks around it. Its integers have no more digits than a limit, and its
containers are nested no deeper than a depth. -/
def Spells (limit : Nat) : Nat → Text → Json → Prop
  | 0, source, item => Scalar limit source item
  | depth + 1, source, item =>
    Scalar limit source item ∨ Container (Spells limit depth) source item

/-- A text is a JSON text of a value: it spells the value, and blanks may stand around that. -/
def IsTextOf (limit depth : Nat) (text : Text) (item : Json) : Prop :=
  ∃ before source after, text = before ++ (source ++ after) ∧ Blanks before ∧ Blanks after ∧
    Spells limit depth source item

end CardForm.Json
