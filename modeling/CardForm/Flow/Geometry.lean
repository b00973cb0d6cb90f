import CardForm.Json.Writable
import CardForm.Reading.Object

/-!
# Places on the drawing board

The position of a card and the part of the board that an editor shows. Both are carried through
unchanged.
-/
namespace CardForm

/-- The position of a card. -/
structure Position where
  /-- From left to right. -/
  x : Number
  /-- From top to bottom. -/
  y : Number
  /-- Unknown members. -/
  extras : Members := []

namespace Position

/-- The declared keys. -/
def keys : List Key := [.same "x", .same "y"]

/-- Read a position from the members of an object. -/
def ofMembers (members : Members) : Reading Position :=
  Position.mk <$> members.required (.same "x") .number <*> members.required (.same "y") .number
    <*> .ok (members.extras keys)

/-- Read a position. -/
def read : Json → Reading Position := .record "Position" ofMembers

/-- A position as JSON. -/
def toJson (position : Position) : Json :=
  Members.written [("x", some (.num position.x)), ("y", some (.num position.y))] position.extras

/-- The first obstacle to writing a position. -/
def obstacle (position : Position) (room : Nat) : Option Obstacle :=
  position.extras.obstacle room

instance : Writable Position := ⟨toJson, obstacle⟩

end Position

/-- The part of the board that is shown. -/
structure Viewport where
  /-- From left to right. -/
  x : Number
  /-- From top to bottom. -/
  y : Number
  /-- How much it is enlarged. -/
  zoom : Number
  /-- Unknown members. -/
  extras : Members := []

namespace Viewport

/-- The declared keys. -/
def keys : List Key := [.same "x", .same "y", .same "zoom"]

/-- Read a viewport from the members of an object. -/
def ofMembers (members : Members) : Reading Viewport :=
  Viewport.mk <$> members.required (.same "x") .number <*> members.required (.same "y") .number
    <*> members.required (.same "zoom") .number
    <*> .ok (members.extras keys)

/-- Read a viewport. -/
def read : Json → Reading Viewport := .record "Viewport" ofMembers

/-- A viewport as JSON. -/
def toJson (viewport : Viewport) : Json :=
  Members.written
    [("x", some (.num viewport.x)), ("y", some (.num viewport.y)),
      ("zoom", some (.num viewport.zoom))]
    viewport.extras

/-- The first obstacle to writing a viewport. -/
def obstacle (viewport : Viewport) (room : Nat) : Option Obstacle :=
  viewport.extras.obstacle room

instance : Writable Viewport := ⟨toJson, obstacle⟩

end Viewport

end CardForm
