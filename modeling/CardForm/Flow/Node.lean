import CardForm.Flow.Geometry
import CardForm.Form.Field
import CardForm.Json.Display

/-!
# Nodes

The nodes of a flow: the card where it starts, the one where it ends, questions and statements. A
question holds the full definition of its field and, beside it, an editor's own copies of the
field's identifier, label and kind, which may be out of date.
-/
namespace CardForm

/-- The reserved identifier of the start node. -/
def startId : Text := "start"

/-- The reserved identifier of the end node. -/
def endId : Text := "end"

/-- The four kinds of nodes. -/
inductive NodeKind where
  /-- Where the flow starts. -/
  | start
  /-- Where the flow ends. -/
  | finish
  /-- A card with an input. -/
  | question
  /-- A card with a text only. -/
  | statement
deriving DecidableEq

/-- The word of a kind of nodes. -/
def NodeKind.word : NodeKind → Text
  | start => "start"
  | finish => "end"
  | question => "question"
  | statement => "statement"

/-- The kinds of nodes by their words. -/
def NodeKind.words : List (Text × NodeKind) :=
  [start, finish, question, statement].map fun kind => (kind.word, kind)

/-- The kind that a JSON value names. -/
def NodeKind.ofJson? : Json → Option NodeKind
  | .str s => words.lookup s
  | _ => none

/-- A value names a kind where it is the word of that kind. -/
theorem NodeKind.ofJson?_eq_some_iff {value : Json} {kind : NodeKind} :
    ofJson? value = some kind ↔ value = .str kind.word := by
  have lookup {word : Text} : words.lookup word = some kind ↔ word = kind.word := by
    constructor
    · intro found
      simp only [words, List.map_cons, List.map_nil, List.lookup_cons, List.lookup_nil] at found
      split at found
      · simp_all
      split at found
      · simp_all
      split at found
      · simp_all
      split at found <;> simp_all
    · rintro rfl
      cases kind <;> decide
  cases value <;> simp [ofJson?, lookup]

/-- Read the declared kind of a node that has to be of one kind, and may leave it out. -/
def NodeKind.confirm (kind : NodeKind) (members : Members) : Reading Unit :=
  members.defaulted (.same "type") () (.oneOf [(kind.word, ())])

/-- The payload of a question. -/
structure QuestionData where
  /-- The definition of its field. -/
  field : Field
  /-- The editor's copy of the field's identifier. -/
  fieldId : Option Text := none
  /-- The editor's copy of the field's label. -/
  label : Option Text := none
  /-- The editor's copy of the name of the field's kind. -/
  fieldType : Option Text := none
  /-- What is shown with the card. -/
  media : Option Media := none
  /-- Unknown members. -/
  extras : Members := []

namespace QuestionData

/-- The declared keys. -/
def keys : List Key :=
  [.same "field", ⟨"fieldId", "field_id"⟩, .same "label", ⟨"fieldType", "field_type"⟩,
    .same "media"]

/-- Read a payload from the members of an object. -/
def ofMembers (members : Members) : Reading QuestionData :=
  QuestionData.mk <$> members.required (.same "field") Field.read
    <*> members.optional ⟨"fieldId", "field_id"⟩ .text
    <*> members.optional (.same "label") .text
    <*> members.optional ⟨"fieldType", "field_type"⟩ .text
    <*> members.optional (.same "media") Media.read
    <*> .ok (members.extras keys)

/-- Read a payload. -/
def read : Json → Reading QuestionData := .record "QuestionData" ofMembers

/-- A payload as JSON. -/
def toJson (data : QuestionData) : Json :=
  Members.written
    [("field", some data.field.toJson), ("fieldId", data.fieldId.map .str),
      ("label", data.label.map .str), ("fieldType", data.fieldType.map .str),
      ("media", data.media.map Media.toJson)]
    data.extras

/-- The first obstacle to writing a payload. -/
def obstacle (data : QuestionData) (room : Nat) : Option Obstacle :=
  Obstacle.first? [data.field.obstacle room, data.media.bind (·.obstacle room), data.extras.obstacle room]

instance : Writable QuestionData := ⟨toJson, obstacle⟩

end QuestionData

/-- The payload of a statement. -/
structure StatementData where
  /-- The identifier of the field that the statement becomes. -/
  fieldId : Text
  /-- What the editor shows for it. -/
  label : Text
  /-- The text that is shown. -/
  text : Text
  /-- Whether it is shown after the form was sent, and only then. -/
  isSuccessCard : Bool := false
  /-- What is shown with the card. -/
  media : Option Media := none
  /-- Unknown members. -/
  extras : Members := []

namespace StatementData

/-- The declared keys. -/
def keys : List Key :=
  [⟨"fieldId", "field_id"⟩, .same "label", ⟨"statementText", "statement_text"⟩,
    ⟨"isSuccessCard", "is_success_card"⟩, .same "media"]

/-- Read a payload from the members of an object. -/
def ofMembers (members : Members) : Reading StatementData :=
  StatementData.mk <$> members.required ⟨"fieldId", "field_id"⟩ .text
    <*> members.required (.same "label") .text
    <*> members.required ⟨"statementText", "statement_text"⟩ .text
    <*> members.defaulted ⟨"isSuccessCard", "is_success_card"⟩ false .boolean
    <*> members.optional (.same "media") Media.read
    <*> .ok (members.extras keys)

/-- Read a payload. -/
def read : Json → Reading StatementData := .record "StatementData" ofMembers

/-- A payload as JSON. -/
def toJson (data : StatementData) : Json :=
  Members.written
    [("fieldId", some (.str data.fieldId)), ("label", some (.str data.label)),
      ("statementText", some (.str data.text)), ("isSuccessCard", some (.bool data.isSuccessCard)),
      ("media", data.media.map Media.toJson)]
    data.extras

/-- The first obstacle to writing a payload. -/
def obstacle (data : StatementData) (room : Nat) : Option Obstacle :=
  Obstacle.first? [data.media.bind (·.obstacle room), data.extras.obstacle room]

instance : Writable StatementData := ⟨toJson, obstacle⟩

end StatementData

/-- The payload of a start or end node, which has no declared keys. -/
structure MarkerData where
  /-- Unknown members. -/
  extras : Members := []

namespace MarkerData

/-- Read a payload. -/
def read : Json → Reading MarkerData :=
  .record "SentinelData" fun members => .ok ⟨members⟩

/-- A payload as JSON. -/
def toJson (data : MarkerData) : Json := Members.written [] data.extras

/-- The first obstacle to writing a payload. -/
def obstacle (data : MarkerData) (room : Nat) : Option Obstacle := data.extras.obstacle room

instance : Writable MarkerData := ⟨toJson, obstacle⟩

end MarkerData

/-- A node with the payload of its kind. -/
structure Card (α : Type) where
  /-- The identifier by which edges name the node. -/
  id : Text
  /-- Where it stands on the board. -/
  position : Position
  /-- Its payload. -/
  data : α
  /-- Unknown members. -/
  extras : Members := []

namespace Card

/-- The declared keys. -/
def keys : List Key := [.same "id", .same "type", .same "position", .same "data"]

/-- A node of a kind as JSON. -/
def toJson {α : Type} [Writable α] (kind : NodeKind) (card : Card α) : Json :=
  Members.written
    [("id", some (.str card.id)), ("type", some (.str kind.word)),
      ("position", some card.position.toJson), ("data", some (Writable.toJson card.data))]
    card.extras

/-- The first obstacle to writing a node. -/
def obstacle {α : Type} [Writable α] (card : Card α) (room : Nat) : Option Obstacle :=
  Obstacle.first?
    [card.position.obstacle room, Writable.obstacle card.data room, card.extras.obstacle room]

/-- Read a start or end node, whose identifier and payload may be left out. -/
def readMarker (kind : NodeKind) (members : Members) : Reading (Card MarkerData) :=
  (fun id _ position data extras => Card.mk id position data extras) <$>
    members.defaulted (.same "id") kind.word .text
    <*> kind.confirm members
    <*> members.required (.same "position") Position.read
    <*> members.defaulted (.same "data") {} MarkerData.read
    <*> .ok (members.extras keys)

/-- Read a question or statement. -/
def readContent {α : Type} (kind : NodeKind) (payload : Json → Reading α) (members : Members) :
    Reading (Card α) :=
  (fun id _ position data extras => Card.mk id position data extras) <$>
    members.required (.same "id") .nonEmptyText
    <*> kind.confirm members
    <*> members.required (.same "position") Position.read
    <*> members.required (.same "data") payload
    <*> .ok (members.extras keys)

end Card

/-- A node of a flow. -/
inductive Node where
  /-- Where the flow starts. -/
  | start (card : Card MarkerData)
  /-- Where the flow ends. -/
  | finish (card : Card MarkerData)
  /-- A card with an input. -/
  | question (card : Card QuestionData)
  /-- A card with a text only. -/
  | statement (card : Card StatementData)

namespace Node

/-- The kind of a node. -/
def kind : Node → NodeKind
  | start _ => .start
  | finish _ => .finish
  | question _ => .question
  | statement _ => .statement

/-- The identifier of a node. -/
def id : Node → Text
  | start card => card.id
  | finish card => card.id
  | question card => card.id
  | statement card => card.id

/-- The position of a node. -/
def position : Node → Position
  | start card => card.position
  | finish card => card.position
  | question card => card.position
  | statement card => card.position

/-- Whether the node is a question or a statement. -/
def isContent : Node → Bool
  | question _ => true
  | statement _ => true
  | _ => false

/-- Read a node of a given kind from the members of an object. -/
def ofMembers : NodeKind → Members → Reading Node
  | .start, members => start <$> Card.readMarker .start members
  | .finish, members => finish <$> Card.readMarker .finish members
  | .question, members => question <$> Card.readContent .question QuestionData.read members
  | .statement, members => statement <$> Card.readContent .statement StatementData.read members

/-- The name of a kind of nodes in messages. -/
def recordName : NodeKind → Text
  | .start => "StartNode"
  | .finish => "EndNode"
  | .question => "QuestionNode"
  | .statement => "StatementNode"

/-- Read a node that has to be of a given kind. -/
def readKind (kind : NodeKind) : Json → Reading Node :=
  .record (recordName kind) (ofMembers kind)

/-- Read a node of the kind that it names. -/
def read : Json → Reading Node :=
  .object .card fun members =>
    match members.get? "type" with
    | none => .fault .noCardKind (.obj members)
    | some tag =>
      match NodeKind.ofJson? tag with
      | some kind => (members.wellKeyed (ofMembers kind members)).under (.key kind.word)
      | none => .fault (.unknownCardKind tag.shown.legible) (.obj members)

/-- A node as JSON. -/
def toJson : Node → Json
  | start card => card.toJson .start
  | finish card => card.toJson .finish
  | question card => card.toJson .question
  | statement card => card.toJson .statement

/-- The first obstacle to writing a node. -/
def obstacle : Node → Nat → Option Obstacle
  | start card => card.obstacle
  | finish card => card.obstacle
  | question card => card.obstacle
  | statement card => card.obstacle

instance : Writable Node := ⟨toJson, obstacle⟩

end Node

end CardForm
