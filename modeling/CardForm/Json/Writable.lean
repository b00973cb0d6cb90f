import CardForm.Json.Nesting
import CardForm.Text.Encoding

/-!
# What is written as JSON

The types that have a form as JSON. Some of their parts may be values of any content, taken over as
they were read, and such a value cannot always be written: its containers may stand too deeply inside
each other, or a key of an object inside it may have no encoding. What stands in the way of writing a
value is told beside its form: the first obstacle in the order in which the value is written.
-/
namespace CardForm

/-- What stands in the way of writing a value. -/
inductive Obstacle where
  /-- A value of any content is too deep. -/
  | tooDeep
  /-- A key has surrogates, from a place on, and cannot be encoded. -/
  | notEncodable (place : Nat) (surrogates : Text)

/-- The first obstacle where some may be found. -/
def Obstacle.first? (found : List (Option Obstacle)) : Option Obstacle := found.findSome? id

/-- The obstacle that an ill-formed key is. -/
def Obstacle.ofKey? (key : Text) : Option Obstacle :=
  (Encoding.unencodable? key).map fun (place, surrogates) => notEncodable place surrogates

namespace Json

mutual

/-- The first obstacle to writing a value in room for some levels. -/
def obstacle : Json → Nat → Option Obstacle
  | _, 0 => some .tooDeep
  | arr items, room + 1 => obstacleOfItems items room
  | obj members, room + 1 => obstacleOfMembers members room
  | _, _ + 1 => none

/-- `obstacle` of the first item that has one. -/
def obstacleOfItems : List Json → Nat → Option Obstacle
  | [], _ => none
  | item :: rest, room => (obstacle item room).or (obstacleOfItems rest room)

/-- `obstacle` of the first member that has one in its key or in its value. -/
def obstacleOfMembers : List (Text × Json) → Nat → Option Obstacle
  | [], _ => none
  | (key, value) :: rest, room =>
    (Obstacle.ofKey? key).or <| (obstacle value room).or (obstacleOfMembers rest room)

end

end Json

/-- The first obstacle in the values of members whose keys can be written in any case. -/
def Members.obstacle (members : Members) (room : Nat) : Option Obstacle :=
  members.findSome? fun member => member.2.obstacle room

/-- A type whose values are written as JSON. -/
class Writable (α : Type) where
  /-- The form of a value as JSON. -/
  toJson : α → Json
  /-- The first obstacle to writing a value, with room for some levels in each of its parts that is a
  value of any content. -/
  obstacle : α → Nat → Option Obstacle

namespace Writable

variable {α : Type} [Writable α]

instance : Writable (List α) where
  toJson values := .arr (values.map toJson)
  obstacle values room := values.findSome? (obstacle · room)

/-- Whether nothing stands in the way of writing a value. -/
def isWritable (value : α) : Bool := (obstacle value Json.writableNesting).isNone

end Writable

end CardForm
