import CardForm.Json.Writable
import CardForm.Reading.Object

/-!
# Conditional logic

Rules by which a field is shown, hidden, relabelled or left towards another field, depending on
earlier answers. The rules are carried here; they are applied when a form is filled in.
-/
namespace CardForm

/-- How an answer is compared with a value. -/
inductive Comparison where
  /-- The answer is the value. -/
  | equals
  /-- The answer is not the value. -/
  | notEquals
  /-- The answer contains the value. -/
  | contains
  /-- The answer does not contain the value. -/
  | notContains
  /-- The answer is above the value. -/
  | greaterThan
  /-- The answer is below the value. -/
  | lessThan
  /-- There is no answer. -/
  | isEmpty
  /-- There is an answer. -/
  | isNotEmpty
  /-- The answer begins with the value. -/
  | startsWith
  /-- The answer ends with the value. -/
  | endsWith
deriving DecidableEq

/-- The word of a comparison. -/
def Comparison.word : Comparison → Text
  | equals => "equals"
  | notEquals => "not_equals"
  | contains => "contains"
  | notContains => "not_contains"
  | greaterThan => "greater_than"
  | lessThan => "less_than"
  | isEmpty => "is_empty"
  | isNotEmpty => "is_not_empty"
  | startsWith => "starts_with"
  | endsWith => "ends_with"

/-- The comparisons by their words. -/
def Comparison.words : List (Text × Comparison) :=
  [equals, notEquals, contains, notContains, greaterThan, lessThan, isEmpty, isNotEmpty,
    startsWith, endsWith].map fun comparison => (comparison.word, comparison)

/-- How several conditions are joined. -/
inductive Junction where
  /-- All of them hold. -/
  | all
  /-- At least one of them holds. -/
  | any
deriving DecidableEq

/-- The word of a junction. -/
def Junction.word : Junction → Text
  | all => "AND"
  | any => "OR"

/-- The junctions by their words. -/
def Junction.words : List (Text × Junction) :=
  [all, any].map fun junction => (junction.word, junction)

/-- A value with which an answer is compared. -/
inductive Comparand where
  /-- A text. -/
  | text (value : Text)
  /-- A number, integer or double. -/
  | number (value : Number)
  /-- A truth value. -/
  | flag (value : Bool)
  /-- Several texts. -/
  | texts (values : List Text)
deriving DecidableEq

namespace Comparand

/-- The faults of a value that is none of the first four kinds. -/
def scalarFaults (found : Json) : List Fault :=
  [⟨[.key "str"], .notText, found⟩, ⟨[.key "int"], .notInteger, found⟩,
    ⟨[.key "float"], .notNumber, found⟩, ⟨[.key "bool"], .notBoolean, found⟩]

/-- Read a comparand; its kind is that of the value. -/
def read : Json → Reading Comparand
  | .str s => .ok (.text s)
  | .num n => .ok (.number n)
  | .bool b => .ok (.flag b)
  | value =>
    match (Reading.array .text value).under (.key "list[str]") with
    | .ok values => .ok (.texts values)
    | .faulty faults => .faulty (scalarFaults value ++ faults)

/-- A comparand as JSON. -/
def toJson : Comparand → Json
  | text s => .str s
  | number n => .num n
  | flag b => .bool b
  | texts values => .arr (values.map .str)

end Comparand

/-- A comparison of an earlier answer with a value. -/
structure Condition where
  /-- The field that was answered. -/
  fieldId : Text
  /-- How the answer is compared. -/
  comparison : Comparison
  /-- The value it is compared with. -/
  comparand : Comparand
  /-- Unknown members. -/
  extras : Members := []

namespace Condition

/-- The declared keys. -/
def keys : List Key := [⟨"fieldId", "field_id"⟩, .same "operator", .same "value"]

/-- Read a condition from the members of an object. -/
def ofMembers (members : Members) : Reading Condition :=
  Condition.mk <$> members.required ⟨"fieldId", "field_id"⟩ .text
    <*> members.required (.same "operator") (.oneOf Comparison.words)
    <*> members.required (.same "value") Comparand.read
    <*> .ok (members.extras keys)

/-- Read a condition. -/
def read : Json → Reading Condition := .record "Condition" ofMembers

/-- A condition as JSON. -/
def toJson (condition : Condition) : Json :=
  Members.written
    [("fieldId", some (.str condition.fieldId)),
      ("operator", some (.str condition.comparison.word)),
      ("value", some condition.comparand.toJson)]
    condition.extras

/-- The first obstacle to writing a condition. -/
def obstacle (condition : Condition) (room : Nat) : Option Obstacle :=
  condition.extras.obstacle room

instance : Writable Condition := ⟨toJson, obstacle⟩

end Condition

/-- Conditions joined by one junction. -/
structure ConditionGroup where
  /-- How the conditions are joined. -/
  junction : Junction
  /-- The conditions. -/
  conditions : List Condition
  /-- Unknown members. -/
  extras : Members := []

namespace ConditionGroup

/-- The declared keys. -/
def keys : List Key := [.same "operator", .same "conditions"]

/-- Read a group from the members of an object. -/
def ofMembers (members : Members) : Reading ConditionGroup :=
  ConditionGroup.mk <$> members.required (.same "operator") (.oneOf Junction.words)
    <*> members.required (.same "conditions") (.array Condition.read)
    <*> .ok (members.extras keys)

/-- Read a group. -/
def read : Json → Reading ConditionGroup := .record "ConditionGroup" ofMembers

/-- A group as JSON. -/
def toJson (group : ConditionGroup) : Json :=
  Members.written
    [("operator", some (.str group.junction.word)),
      ("conditions", some (.arr (group.conditions.map Condition.toJson)))]
    group.extras

/-- The first obstacle to writing a group. -/
def obstacle (group : ConditionGroup) (room : Nat) : Option Obstacle :=
  Obstacle.first? [group.conditions.findSome? (·.obstacle room), group.extras.obstacle room]

instance : Writable ConditionGroup := ⟨toJson, obstacle⟩

end ConditionGroup

/-- A jump to another field under conditions. -/
structure Jump where
  /-- When to jump. -/
  conditions : ConditionGroup
  /-- The field to jump to. -/
  target : Text
  /-- Unknown members. -/
  extras : Members := []

namespace Jump

/-- The declared keys. -/
def keys : List Key := [.same "conditions", ⟨"targetFieldId", "target_field_id"⟩]

/-- Read a jump from the members of an object. -/
def ofMembers (members : Members) : Reading Jump :=
  Jump.mk <$> members.required (.same "conditions") ConditionGroup.read
    <*> members.required ⟨"targetFieldId", "target_field_id"⟩ .text
    <*> .ok (members.extras keys)

/-- Read a jump. -/
def read : Json → Reading Jump := .record "JumpRule" ofMembers

/-- A jump as JSON. -/
def toJson (jump : Jump) : Json :=
  Members.written
    [("conditions", some jump.conditions.toJson), ("targetFieldId", some (.str jump.target))]
    jump.extras

/-- The first obstacle to writing a jump. -/
def obstacle (jump : Jump) (room : Nat) : Option Obstacle :=
  Obstacle.first? [jump.conditions.obstacle room, jump.extras.obstacle room]

instance : Writable Jump := ⟨toJson, obstacle⟩

end Jump

/-- Another label under conditions. -/
structure Relabelling where
  /-- When the label is used. -/
  conditions : ConditionGroup
  /-- The label. -/
  label : Text
  /-- Unknown members. -/
  extras : Members := []

namespace Relabelling

/-- The declared keys. -/
def keys : List Key := [.same "conditions", .same "label"]

/-- Read a relabelling from the members of an object. -/
def ofMembers (members : Members) : Reading Relabelling :=
  Relabelling.mk <$> members.required (.same "conditions") ConditionGroup.read
    <*> members.required (.same "label") .text
    <*> .ok (members.extras keys)

/-- Read a relabelling. -/
def read : Json → Reading Relabelling := .record "DynamicLabel" ofMembers

/-- A relabelling as JSON. -/
def toJson (relabelling : Relabelling) : Json :=
  Members.written
    [("conditions", some relabelling.conditions.toJson),
      ("label", some (.str relabelling.label))]
    relabelling.extras

/-- The first obstacle to writing a relabelling. -/
def obstacle (relabelling : Relabelling) (room : Nat) : Option Obstacle :=
  Obstacle.first? [relabelling.conditions.obstacle room, relabelling.extras.obstacle room]

instance : Writable Relabelling := ⟨toJson, obstacle⟩

end Relabelling

/-- The conditional rules of a field. -/
structure Logic where
  /-- When the field is shown. -/
  showIf : Option ConditionGroup := none
  /-- When the field is hidden. -/
  hideIf : Option ConditionGroup := none
  /-- Where to go from the field. -/
  jumps : Option (List Jump) := none
  /-- What else the field may be labelled. -/
  labels : Option (List Relabelling) := none
  /-- Unknown members. -/
  extras : Members := []

namespace Logic

/-- The declared keys. -/
def keys : List Key :=
  [⟨"showIf", "show_if"⟩, ⟨"hideIf", "hide_if"⟩, ⟨"jumpTo", "jump_to"⟩,
    ⟨"dynamicLabel", "dynamic_label"⟩]

/-- Read the rules from the members of an object. -/
def ofMembers (members : Members) : Reading Logic :=
  Logic.mk <$> members.optional ⟨"showIf", "show_if"⟩ ConditionGroup.read
    <*> members.optional ⟨"hideIf", "hide_if"⟩ ConditionGroup.read
    <*> members.optional ⟨"jumpTo", "jump_to"⟩ (.array Jump.read)
    <*> members.optional ⟨"dynamicLabel", "dynamic_label"⟩ (.array Relabelling.read)
    <*> .ok (members.extras keys)

/-- Read the rules. -/
def read : Json → Reading Logic := .record "ConditionalLogic" ofMembers

/-- The rules as JSON. -/
def toJson (logic : Logic) : Json :=
  Members.written
    [("showIf", logic.showIf.map ConditionGroup.toJson),
      ("hideIf", logic.hideIf.map ConditionGroup.toJson),
      ("jumpTo", logic.jumps.map fun jumps => .arr (jumps.map Jump.toJson)),
      ("dynamicLabel", logic.labels.map fun labels => .arr (labels.map Relabelling.toJson))]
    logic.extras

/-- The first obstacle to writing the rules. A group of conditions that decides on showing the field
takes one level by itself. -/
def obstacle (logic : Logic) (room : Nat) : Option Obstacle :=
  Obstacle.first?
    [logic.showIf.bind (·.obstacle (room - 1)), logic.hideIf.bind (·.obstacle (room - 1)),
      logic.jumps.bind (·.findSome? (·.obstacle room)),
      logic.labels.bind (·.findSome? (·.obstacle room)), logic.extras.obstacle room]

instance : Writable Logic := ⟨toJson, obstacle⟩

end Logic

end CardForm
