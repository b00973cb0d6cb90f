import CardForm.Failure
import CardForm.Flow.Basic
import CardForm.Flow.Reach

/-!
# The linear form of a flow

The field list that a flow stands for: the fields of its cards in breadth-first order from the
start, each once. Where the flow has branches this is one order of several, and says nothing of the
way that an answer takes. A question gives its field, in which the editor's copy of the kind and
the media of the card win. A statement gives a field with its text as the label and its own label
as the placeholder; one that is shown after the form was sent gives none.
-/
namespace CardForm

namespace QuestionData

/-- The field of a question as the form shows it. -/
def shownField (data : QuestionData) : Field :=
  { data.field with
    kind := (data.fieldType.map FieldKind.mk).getD data.field.kind
    media := data.media.or data.field.media }

end QuestionData

namespace StatementData

/-- The field of a statement as the form shows it. -/
def shownField (data : StatementData) : Field where
  id := data.fieldId
  kind := .statement
  label := data.text
  placeholder := some data.label
  required := some false
  media := data.media

end StatementData

namespace Node

/-- The field that the form shows for a node. A statement whose identifier for its field cannot be
that of a field is refused. -/
def field? : Node → Except Failure (Option Field)
  | question card => .ok (some card.data.shownField)
  | statement card =>
    if card.data.isSuccessCard then .ok none
    else
      ((Reading.nonEmptyText (.str card.data.fieldId)).under (.key "id")).orUnfit.map fun _ =>
        some card.data.shownField
  | _ => .ok none

/-- The fields that the form shows for some nodes, in order. -/
def fields : List Node → Except Failure (List Field)
  | [] => .ok []
  | node :: rest => do
    let field ← node.field?
    let others ← fields rest
    return field.toList ++ others

end Node

namespace Flow

/-- The nodes between the start and the end in breadth-first order. -/
def shownNodes (flow : Flow) : List Node :=
  (Ends.discovery flow.ends).filterMap flow.lastNode?

/-- The field list that a flow stands for. -/
def linear (flow : Flow) : Except Failure (List Field) := Node.fields flow.shownNodes

end Flow

end CardForm
