import CardForm.Flow.Node

/-!
# Defects

What can be wrong with the structure of a flow that is given as JSON. A defect names its place by
the number of the node or edge in its list, and shows the identifiers and kinds that it found, also
where they are no texts.
-/
namespace CardForm

/-- A defect in the structure of a flow. -/
inductive Defect where
  /-- The flow is no object. -/
  | notObject
  /-- The nodes are no array. -/
  | nodesNotArray
  /-- The edges are no array. -/
  | edgesNotArray
  /-- A node is no object. -/
  | nodeNotObject (place : Nat)
  /-- A node has no identifier, or one that is empty or no text. -/
  | nodeWithoutId (place : Nat)
  /-- A node has the identifier of an earlier one. -/
  | repeatedId (place : Nat) (id : Text)
  /-- A node has none of the four kinds. -/
  | nodeKind (place : Nat) (id : Json)
  /-- A node has no position, or one without two numbers. -/
  | nodePosition (place : Nat) (id : Json)
  /-- A question has no field. -/
  | fieldMissing (place : Nat)
  /-- The field of a question has no identifier, or one that is empty or no text. -/
  | fieldWithoutId (place : Nat)
  /-- The field of a question has no kind, or one that is no text. -/
  | fieldWithoutKind (place : Nat)
  /-- The field of a question has none of the known kinds. -/
  | fieldKindUnknown (place : Nat)
  /-- The field of a question has no label, or one that is no text. -/
  | fieldWithoutLabel (place : Nat)
  /-- The options of a field of a kind that has options are no array. -/
  | fieldOptions (place : Nat) (kind : Text)
  /-- A statement does not name its field. -/
  | statementWithoutFieldId (place : Nat)
  /-- A statement has no text. -/
  | statementWithoutText (place : Nat)
  /-- A statement has no label. -/
  | statementWithoutLabel (place : Nat)
  /-- A node where the flow starts or ends does not have the reserved identifier. -/
  | markerMisnamed (kind : NodeKind) (id : Json)
  /-- A node of another kind has a reserved identifier. -/
  | reservedId (id : Text) (kind : Json)
  /-- There is not exactly one node of a kind that must be there once. -/
  | markerCount (kind : NodeKind) (count : Nat)
  /-- An edge is no object. -/
  | edgeNotObject (place : Nat)
  /-- An edge has no source that is a text. -/
  | edgeWithoutSource (place : Nat)
  /-- An edge leaves a node that does not exist. -/
  | sourceUnknown (place : Nat) (source : Text)
  /-- An edge has no target that is a text. -/
  | edgeWithoutTarget (place : Nat)
  /-- An edge enters a node that does not exist. -/
  | targetUnknown (place : Nat) (target : Text)
  /-- The end cannot be reached from the start. -/
  | disconnected

namespace Defect

/-- A name in double quotes. -/
def inDoubleQuotes (name : Text) : Text := "\"" ++ name ++ "\""

/-- A node by its place. -/
def node (place : Nat) : Text := "nodes[" ++ Text.ofNat place ++ "]"

/-- A node by its place and the identifier that it shows. -/
def nodeWithId (place : Nat) (id : Json) : Text := node place ++ " (id=" ++ id.shown ++ ")"

/-- The field of a question by the place of its node. -/
def fieldOf (place : Nat) : Text := node place ++ ".data.field"

/-- A statement by the place of its node. -/
def statement (place : Nat) : Text := node place ++ " (statement)"

/-- An edge by its place. -/
def edge (place : Nat) : Text := "edges[" ++ Text.ofNat place ++ "]"

/-- The kinds of nodes, as a defect lists them. -/
def nodeKindList : Text := "start, end, question, statement"

/-- The kinds of fields in alphabetical order, as a defect lists them. -/
def fieldKindList : Text :=
  "checkbox, email, file, image, phone, radio, select, statement, text, textarea"

/-- The text of a defect. -/
def text : Defect → Text
  | notObject => "flowchartGraph must be an object"
  | nodesNotArray => "flowchartGraph.nodes must be an array"
  | edgesNotArray => "flowchartGraph.edges must be an array"
  | nodeNotObject place => node place ++ ": must be an object"
  | nodeWithoutId place => node place ++ ": missing or invalid 'id' (string required)"
  | repeatedId place id => node place ++ ": duplicate node id " ++ inDoubleQuotes id
  | nodeKind place id =>
    nodeWithId place id ++ ": type must be one of: " ++ nodeKindList ++ " (lowercase)"
  | nodePosition place id =>
    nodeWithId place id ++ ": position must be \x7b x: number, y: number \x7d"
  | fieldMissing place =>
    node place ++ " (question): missing 'data.field' (full FormField object)"
  | fieldWithoutId place => fieldOf place ++ ": missing id"
  | fieldWithoutKind place => fieldOf place ++ ": missing type"
  | fieldKindUnknown place => fieldOf place ++ ": type must be one of: " ++ fieldKindList
  | fieldWithoutLabel place => fieldOf place ++ ": missing label"
  | fieldOptions place kind =>
    fieldOf place ++ ": options must be an array for type " ++ inDoubleQuotes kind
  | statementWithoutFieldId place => statement place ++ ": missing data.fieldId"
  | statementWithoutText place => statement place ++ ": missing data.statementText"
  | statementWithoutLabel place => statement place ++ ": missing data.label"
  | markerMisnamed kind id =>
    "Node with type " ++ inDoubleQuotes kind.word ++ " must have id " ++
      inDoubleQuotes kind.word ++ " (found " ++ inDoubleQuotes id.shown ++ ")"
  | reservedId id kind =>
    "Node id " ++ inDoubleQuotes id ++ " is reserved for the " ++ id ++ " node (found type " ++
      inDoubleQuotes kind.shown ++ ")"
  | markerCount kind count =>
    "Exactly one " ++ inDoubleQuotes kind.word ++ " node required (found " ++
      Text.ofNat count ++ ")"
  | edgeNotObject place => edge place ++ ": must be an object"
  | edgeWithoutSource place =>
    edge place ++ ": missing or invalid 'source' (use source/target, not from/to)"
  | sourceUnknown place source =>
    edge place ++ ": source " ++ inDoubleQuotes source ++ " does not match any node id"
  | edgeWithoutTarget place => edge place ++ ": missing or invalid 'target'"
  | targetUnknown place target =>
    edge place ++ ": target " ++ inDoubleQuotes target ++ " does not match any node id"
  | disconnected => "No path from start node to end node (graph is disconnected)"

end Defect

end CardForm
