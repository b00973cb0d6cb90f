import CardForm.Json.Basic
import CardForm.Number.Written
import CardForm.Text.Quoted

/-!
# JSON values in messages

How a message shows a value that is not what it should be. A text stands as it is; every other
value is listed with the words `None`, `True`, `False`, `nan` and `inf`, arrays in brackets,
objects in braces, and the texts inside it quoted.
-/
namespace CardForm.Json

mutual

/-- The listed form of a value: every text in it is quoted. -/
def listed : Json → Text
  | null => "None"
  | bool b => if b then "True" else "False"
  | num n => n.written "nan" "inf"
  | str s => Text.quoted s
  | arr items => "[" ++ Text.joined ", " (listedItems items) ++ "]"
  | obj members => "\x7b" ++ Text.joined ", " (listedMembers members) ++ "\x7d"

/-- The listed form of each item. -/
def listedItems : List Json → List Text
  | [] => []
  | item :: rest => listed item :: listedItems rest

/-- The listed form of each member: its quoted key, a colon and its value. -/
def listedMembers : List (Text × Json) → List Text
  | [] => []
  | (key, value) :: rest => (Text.quoted key ++ ": " ++ listed value) :: listedMembers rest

end

/-- The form of a value in a message: a text as it is, any other value listed. -/
def shown : Json → Text
  | str s => s
  | value => listed value

end CardForm.Json
