import CardForm.Flow.Basic
import CardForm.Flow.Reach

/-!
# Laying out a flow

A flow made from a field list. Its nodes stand in one column: the start on top, below it the fields
in equal steps, then the end. A field whose identifier is reserved or was used before is left out.
`chain` joins the nodes one after the other. `build` takes the order of the fields and the edges
from edge specifications. It keeps those that join two of the nodes; then each node that is not
reached is joined to the one laid out before it, and if the end is not reached the last field is
joined to it.
-/
namespace CardForm.Flow

/-- How far from the left the nodes stand. -/
def columnX : Int := 400

/-- How far from the top the start stands. -/
def startY : Int := 0

/-- How far from the top the first field stands. -/
def firstY : Int := 100

/-- How far one field stands below the other. -/
def stepY : Int := 120

/-- The place in the column at a height. -/
def inColumn (y : Number) : Position := ⟨.int columnX, y, []⟩

/-- The start in its place. -/
def startNode : Node := .start ⟨startId, inColumn (.int startY), {}, []⟩

/-- The end at a height. -/
def endNode (y : Number) : Node := .finish ⟨endId, inColumn y, {}, []⟩

/-- The payload of a question with a field, its copies taken from the field. -/
def questionData (field : Field) (media : Option Media) : QuestionData where
  field := field
  fieldId := some field.id
  label := some field.label
  fieldType := some field.kind.name
  media := media

/-- The payload of a statement with a field. -/
def statementData (field : Field) : StatementData where
  fieldId := field.id
  label := field.label
  text := field.label
  media := field.media

/-- The node of a field at a height. -/
def fieldNode (field : Field) (y : Number) : Node :=
  if field.isStatement then .statement ⟨field.id, inColumn y, statementData field, []⟩
  else .question ⟨field.id, inColumn y, questionData field field.media, []⟩

/-- The fields whose identifiers are not among some seen ones and do not come twice. -/
def firstsAfter (seen : List Text) : List Field → List Field
  | [] => []
  | field :: rest =>
    if seen.contains field.id then firstsAfter seen rest
    else field :: firstsAfter (field.id :: seen) rest

/-- The fields that become nodes: the first of each identifier that is not reserved. -/
def cardFields (fields : List Field) : List Field := firstsAfter [startId, endId] fields

/-- How far from the top the field of a place stands. -/
def heightOf (place : Nat) : Int := firstY + stepY * place

/-- The nodes of some fields, which all become nodes. -/
def fieldNodes (fields : List Field) : List Node :=
  fields.mapIdx fun place field => fieldNode field (.int (heightOf place))

/-- The column of the start, some fields and the end. -/
def column (fields : List Field) : List Node :=
  startNode :: (fieldNodes fields ++ [endNode (.int (heightOf fields.length))])

/-- Edges from each of some nodes to the next. -/
def chainSpecs (ids : List Text) : List EdgeSpec :=
  (ids.zip ids.tail).map fun (source, target) => ⟨source, target, none, []⟩

/-- The flow through the fields of a list one after the other. -/
def chain (fields : List Field) (viewport : Option Viewport) : Flow where
  nodes := column (cardFields fields)
  edges := Edge.ofSpecs (chainSpecs ((column (cardFields fields)).map Node.id))
  viewport := viewport

/-- The fields that edge specifications reach, in breadth-first order. -/
def reachedFields (fields : List Field) (specs : List EdgeSpec) : List Field :=
  (Ends.discovery (specs.map EdgeSpec.ends)).filterMap (Field.last? fields)

/-- The nodes that edge specifications reach from the start. -/
def reachedBy (specs : List EdgeSpec) : List Text :=
  Ends.reachable (specs.map EdgeSpec.ends) startId

/-- Edge specifications, of which `reached` is what they reach, extended so that the fields after
`last` are reached, and at last the end. -/
def repaired (specs : List EdgeSpec) (reached : List Text) (last : Text) :
    List Text → List EdgeSpec
  | [] => if reached.contains endId then specs else specs ++ [⟨last, endId, none, []⟩]
  | id :: rest =>
    if reached.contains id then repaired specs reached id rest
    else
      let specs := specs ++ [⟨last, id, none, []⟩]
      repaired specs (reachedBy specs) id rest

/-- The flow of a field list and edge specifications. -/
def build (fields : List Field) (specs : List EdgeSpec) (viewport : Option Viewport) : Flow :=
  let cards := cardFields (reachedFields fields specs)
  let nodes := column cards
  let ids := nodes.map Node.id
  let kept := specs.filter fun spec => ids.contains spec.source && ids.contains spec.target
  { nodes := nodes
    edges := Edge.ofSpecs (repaired kept (reachedBy kept) startId (cards.map Field.id))
    viewport := viewport }

/-- A node laid out for a field bears the field's identifier. -/
@[simp] theorem id_fieldNode (field : Field) (y : Number) : (fieldNode field y).id = field.id := by
  unfold fieldNode
  split <;> rfl

end CardForm.Flow
