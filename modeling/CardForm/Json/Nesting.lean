import CardForm.Json.Basic

/-!
# Nesting

How deeply the containers of a value stand inside each other. Whatever is written may carry values
of any content, and these can be written only up to a depth, which counts a value without items as
one level.
-/
namespace CardForm.Json

mutual

/-- The depth of a value. -/
def nesting : Json → Nat
  | arr items => nestingOfItems items + 1
  | obj members => nestingOfMembers members + 1
  | _ => 1

/-- The depth of the deepest item. -/
def nestingOfItems : List Json → Nat
  | [] => 0
  | item :: rest => max (nesting item) (nestingOfItems rest)

/-- The depth of the deepest value of a member. -/
def nestingOfMembers : List (Text × Json) → Nat
  | [] => 0
  | (_, value) :: rest => max (nesting value) (nestingOfMembers rest)

end

/-- How deep a value of any content may be to be written. -/
def writableNesting : Nat := 255

example : nesting (arr [arr [], .null, obj [("a", arr [.int 1])]]) = 4 := by decide

end CardForm.Json
