import CardForm.Json.Basic
import CardForm.Number.Numeral
import CardForm.Reading.Basic

/-!
# Reading simple values

How a JSON value is read as a text, a truth value, an integer, a number, one of some words, or an
array. Texts and arrays are taken as they are. Truth values and numbers are also taken from values
of other kinds that stand for them: a numeral typed as text, a word such as `yes`, a number that is
zero or one, a truth value where a number is wanted.
-/
namespace CardForm.Reading

variable {α : Type}

/-- Read a text, which may be ill-formed. -/
def text : Json → Reading Text
  | .str s => ok s
  | found => fault .notText found

/-- Read a text that is well-formed, and go on with it. -/
def wellFormed (read : Text → Reading α) (s : Text) : Reading α :=
  if s.isWellFormed then read s else fault .illFormedText (.str s)

/-- Read a text that is well-formed and not empty. -/
def nonEmptyText : Json → Reading Text
  | .str s => wellFormed (fun s => if s.isEmpty then fault .emptyText (.str s) else ok s) s
  | found => fault .notText found

/-- The value of a word. -/
def ofWord (words : List (Text × α)) (s : Text) : Reading α :=
  match words.lookup s with
  | some value => ok value
  | none => fault (.notOneOf (words.map Prod.fst)) (.str s)

/-- Read one of the given words. -/
def oneOf (words : List (Text × α)) : Json → Reading α
  | .str s => wellFormed (ofWord words) s
  | found => fault (.notOneOf (words.map Prod.fst)) found

/-- The items of an array from a place on, all read. -/
def itemsFrom (read : Json → Reading α) (place : Nat) : List Json → Reading (List α)
  | [] => ok []
  | item :: rest =>
    List.cons <$> (read item).under (.index place) <*> itemsFrom read (place + 1) rest

/-- Read an array and each of its items. -/
def array (read : Json → Reading α) : Json → Reading (List α)
  | .arr items => itemsFrom read 0 items
  | found => fault .notArray found

/-- Read an object by its members. -/
def object (role : ObjectRole) (read : Members → Reading α) : Json → Reading α
  | .obj members => read members
  | found => fault (.notObject role) found

/-- Read an object of any content. -/
def mapping : Json → Reading Members := object .mapping ok

/-- Read null as nothing and any other value as usual. -/
def orNull (read : Json → Reading α) (value : Json) : Reading (Option α) :=
  if value.isNull then ok none else some <$> read value

/-! ## Truth values -/

/-- The words that stand for a truth value, in lower case. -/
def booleanWords : List (Text × Bool) :=
  [("0", false), ("off", false), ("f", false), ("false", false), ("n", false), ("no", false),
    ("1", true), ("on", true), ("t", true), ("true", true), ("y", true), ("yes", true)]

/-- Whether an integer fits into sixty-four bits with a sign. -/
def fitsWord (n : Int) : Bool := -9223372036854775808 ≤ n && n ≤ 9223372036854775807

/-- The integer that a double stands for, if it lies strictly between the ends of the range of
sixty-four bits with a sign. -/
def wordOfDouble? (x : Double) : Option Int :=
  x.toInt?.filter fun n => -9223372036854775808 < n && n < 9223372036854775808

/-- The truth value that a value with the given integer stands for: zero or one, and no other. -/
def booleanOfInt (found : Json) (n : Int) : Reading Bool :=
  if n = 0 then ok false else if n = 1 then ok true else fault .unclearBoolean found

/-- The truth value of a word in letters of either case. -/
def booleanOfText (s : Text) : Reading Bool :=
  match booleanWords.lookup s.toLower with
  | some b => ok b
  | none => fault .unclearBoolean (.str s)

/-- Read a truth value. -/
def boolean : Json → Reading Bool
  | .bool b => ok b
  | .str s => wellFormed booleanOfText s
  | .num (.int n) =>
    if fitsWord n then booleanOfInt (.int n) n else fault .notBoolean (.int n)
  | .num (.float x) =>
    match wordOfDouble? x with
    | some n => booleanOfInt (.num (.float x)) n
    | none => fault .notBoolean (.num (.float x))
  | found => fault .notBoolean found

/-! ## Integers and numbers -/

/-- The integer that a double stands for. -/
def integerOfDouble (x : Double) : Reading Int :=
  let found : Json := .num (.float x)
  if !x.isFinite then fault .unboundedInteger found
  else if x.toInt?.isNone then fault .fractionalInteger found
  else
    match wordOfDouble? x with
    | some n => ok n
    | none => fault .oversizeInteger found

/-- The integer of a numeral typed as text. -/
def integerOfText (s : Text) : Reading Int :=
  match Numeral.integer s with
  | .ok n => ok n
  | .error .malformed => fault .unreadableInteger (.str s)
  | .error .oversize => fault .oversizeInteger (.str s)

/-- Read an integer. -/
def integer : Json → Reading Int
  | .bool b => ok (if b then 1 else 0)
  | .num (.int n) => ok n
  | .num (.float x) => integerOfDouble x
  | .str s => wellFormed integerOfText s
  | found => fault .notInteger found

/-- The double of a numeral typed as text. -/
def doubleOfText (s : Text) : Reading Double :=
  match Numeral.decimal? s with
  | some x => ok x
  | none => fault .unreadableNumber (.str s)

/-- The first of two readings that succeeds, or the faults of both, each under the name of its
reading. -/
def either (firstName secondName : Text) (first second : Reading α) : Reading α :=
  match first.under (.key firstName), second.under (.key secondName) with
  | ok value, _ => ok value
  | _, ok value => ok value
  | faulty inFirst, faulty inSecond => faulty (inFirst ++ inSecond)

/-- Read a number; an integer stays an integer and a double stays a double. A text is an integer if
it can be one, else a double. -/
def number : Json → Reading Number
  | .bool b => ok (if b then 1 else 0)
  | .num n => ok n
  | .str s =>
    either "int" "float" (.int <$> wellFormed integerOfText s)
      (.float <$> wellFormed doubleOfText s)
  | found => either "int" "float" (fault .notInteger found) (fault .notNumber found)

end CardForm.Reading
