import CardForm.Json.Basic

/-!
# Faults

What is wrong with a JSON value that was to be read as something else: a fault has a path from the
value to the place of the fault, a cause, and the value found there. `Fault.message` is the text of
path and cause. A value read from the body of a web request is worded a little differently from one
in a document; that is the only use of `Setting`.
-/
namespace CardForm

/-- One step of a path into a value. -/
inductive Step where
  /-- To the value of a key, or into one of several readings of a value. -/
  | key (name : Text)
  /-- To an item of an array, counted from zero. -/
  | index (place : Nat)
deriving DecidableEq

/-- What an object was to be read as. -/
inductive ObjectRole where
  /-- One of the records of this library, by its name in messages. -/
  | record (name : Text)
  /-- A card of any kind. -/
  | card
  /-- An object of any content. -/
  | mapping
deriving DecidableEq

/-- Where a value comes from. -/
inductive Setting where
  /-- A document. -/
  | document
  /-- The body of a web request. -/
  | request
deriving DecidableEq

/-- Why a value cannot be read. -/
inductive Cause where
  /-- A key that is required is not there. -/
  | missing
  /-- The value is no text. -/
  | notText
  /-- The text is ill-formed. -/
  | illFormedText
  /-- The text is empty. -/
  | emptyText
  /-- The value is no array. -/
  | notArray
  /-- The value is no object. -/
  | notObject (role : ObjectRole)
  /-- The value is none of the listed words. -/
  | notOneOf (words : List Text)
  /-- The value is of no kind that can be a truth value. -/
  | notBoolean
  /-- The value is of such a kind, but stands for neither truth value. -/
  | unclearBoolean
  /-- The value is no integer. -/
  | notInteger
  /-- The text is no integer numeral. -/
  | unreadableInteger
  /-- The number has a fraction. -/
  | fractionalInteger
  /-- The number is not finite. -/
  | unboundedInteger
  /-- The integer has too many digits. -/
  | oversizeInteger
  /-- The value is no number. -/
  | notNumber
  /-- The text is no decimal numeral. -/
  | unreadableNumber
  /-- A card does not tell its kind. -/
  | noCardKind
  /-- A card has a kind that does not exist, here in its form in messages. -/
  | unknownCardKind (shown : Text)
  /-- An envelope has neither a flow nor fields. -/
  | noFlow
deriving DecidableEq

/-- A fault: its cause, and the path from the value that was read to its place. -/
structure Fault where
  /-- The steps from the outside in. -/
  path : List Step
  /-- Why the value there cannot be read. -/
  cause : Cause
  /-- The value there; where a key is missing, the object that should have it. -/
  found : Json

/-- The text of a step. -/
def Step.text : Step → Text
  | key name => name
  | index place => Text.ofNat place

/-- A word in single quotes. -/
def inQuotes (word : Text) : Text := "'" ++ word ++ "'"

/-- Words in single quotes, the last joined by `or`. -/
def alternatives (words : List Text) : Text :=
  match words.reverse with
  | [] => ""
  | [only] => inQuotes only
  | last :: others =>
    Text.joined ", " (others.reverse.map inQuotes) ++ " or " ++ inQuotes last

/-- The kinds of cards, as a message lists them. -/
def cardKindList : Text :=
  let kinds : List Text := ["start", "end", "question", "statement"]
  Text.joined ", " (kinds.map inQuotes)

/-- What an object of a role should have been. -/
def ObjectRole.expectation (setting : Setting) : ObjectRole → Text
  | record name =>
    match setting with
    | .document => "Input should be a valid dictionary or instance of " ++ name
    | .request => "Input should be a valid dictionary or object to extract fields from"
  | card => "Input should be a valid dictionary or object to extract fields from"
  | mapping => "Input should be a valid dictionary"

/-- The text of a cause. -/
def Cause.text (setting : Setting) : Cause → Text
  | missing => "Field required"
  | notText => "Input should be a valid string"
  | illFormedText =>
    "Input should be a valid string, unable to parse raw data as a unicode string"
  | emptyText => "String should have at least 1 character"
  | notArray => "Input should be a valid list"
  | notObject role => role.expectation setting
  | notOneOf words => "Input should be " ++ alternatives words
  | notBoolean => "Input should be a valid boolean"
  | unclearBoolean => "Input should be a valid boolean, unable to interpret input"
  | notInteger => "Input should be a valid integer"
  | unreadableInteger => "Input should be a valid integer, unable to parse string as an integer"
  | fractionalInteger => "Input should be a valid integer, got a number with a fractional part"
  | unboundedInteger => "Input should be a finite number"
  | oversizeInteger => "Unable to parse input string as an integer, exceeded maximum size"
  | notNumber => "Input should be a valid number"
  | unreadableNumber => "Input should be a valid number, unable to parse string as a number"
  | noCardKind => "Unable to extract tag using discriminator 'type'"
  | unknownCardKind shown =>
    "Input tag " ++ inQuotes shown ++
      " found using 'type' does not match any of the expected tags: " ++ cardKindList
  | noFlow =>
    "Value error, card form template must contain 'flowchartGraph' or a non-empty 'schema'"

/-- The text of a fault: its path, the steps joined by points, and its cause. -/
def Fault.message (setting : Setting) (fault : Fault) : Text :=
  Text.joined "." (fault.path.map Step.text) ++ ": " ++ fault.cause.text setting

/-- The fault seen from one step further out. -/
def Fault.under (step : Step) (fault : Fault) : Fault := { fault with path := step :: fault.path }

example : (alternatives ["a", "b", "c"] : Text) = "'a', 'b' or 'c'" := by decide +kernel

end CardForm
