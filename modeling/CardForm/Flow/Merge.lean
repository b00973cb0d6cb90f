import CardForm.Flow.Basic

/-!
# Newer field content for a flow

A flow owns its order and its layout, a field list owns the content of the fields. `merge` renews
the payload of each node whose field the list has, and leaves all else as it is. `normalized`
brings the editor's copies in a question up to date with its field.
-/
namespace CardForm

namespace Node

/-- The node with the editor's copies in a question taken from its field. -/
def normalized : Node → Node
  | question card =>
    question { card with
      data := { card.data with
        fieldId := some card.data.field.id
        label := some card.data.field.label
        fieldType := some card.data.field.kind.name } }
  | node => node

/-- The identifier of the field that a node takes its content from. -/
def contentKey? : Node → Option Text
  | question card => card.data.fieldId.filter fun id => !id.isEmpty
  | statement card => some (if card.data.fieldId.isEmpty then card.id else card.data.fieldId)
  | _ => none

end Node

namespace QuestionData

/-- The media for a newer field in a question. A field from a linear form bears the media of its
card; the field in the card then keeps its own. -/
def mediaFor (data : QuestionData) (field : Field) : Option Media :=
  match data.media, field.media with
  | some own, some new => if new.alike own then data.field.media else some new
  | _, new => new

/-- The payload with a newer field. -/
def withField (data : QuestionData) (field : Field) : QuestionData :=
  { data with field := { field with media := data.mediaFor field } }

end QuestionData

namespace StatementData

/-- The payload with the text and the label of a newer field. -/
def withField (data : StatementData) (field : Field) : StatementData :=
  { data with text := field.label, label := field.placeholder.getD field.label }

end StatementData

namespace Node

/-- The node with the content of its field, where that is in a field list. A statement takes its
content from a statement only. -/
def merged (fields : List Field) (node : Node) : Node :=
  match node, node.contentKey?.bind (Field.last? fields) with
  | question card, some field =>
    normalized (question { card with data := card.data.withField field })
  | statement card, some field =>
    if field.isStatement then statement { card with data := card.data.withField field } else node
  | node, _ => node

/-- Bringing the copies up to date keeps the identifier. -/
@[simp] theorem id_normalized (node : Node) : node.normalized.id = node.id := by
  cases node <;> rfl

/-- Bringing the copies up to date twice is the same as once. -/
@[simp] theorem normalized_normalized (node : Node) :
    node.normalized.normalized = node.normalized := by
  cases node <;> rfl

end Node

namespace Flow

/-- The flow with the content of a field list. -/
def merge (flow : Flow) (fields : List Field) : Flow :=
  { flow with nodes := flow.nodes.map (Node.merged fields) }

/-- The flow with the copies in all questions up to date. -/
def normalized (flow : Flow) : Flow := { flow with nodes := flow.nodes.map Node.normalized }

end Flow

end CardForm
