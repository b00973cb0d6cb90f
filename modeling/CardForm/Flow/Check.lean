import CardForm.Flow.Basic
import CardForm.Flow.Defect
import CardForm.Flow.Reach

/-!
# The check of a flow

The check takes any JSON value and lists every defect in its structure as a flow, in a fixed
order: those of the nodes one by one, those of the nodes where the flow starts and ends, those of
the edges one by one, and last whether the end can be reached. A value without defects is the JSON
form of a well-structured flow. A flow in memory is checked by its JSON form.
-/
namespace CardForm

namespace Check

/-- The text of a key, where there is one. -/
def text? (value : Json) (key : Text) : Option Text :=
  match value.get key with
  | .str s => some s
  | _ => none

/-- Whether a key has a number. -/
def hasNumber (value : Json) (key : Text) : Bool :=
  match value.get key with
  | .num _ => true
  | _ => false

/-- A defect, unless all is well. -/
def expect (holds : Bool) (defect : Defect) : List Defect := if holds then [] else [defect]

/-! ## Nodes -/

/-- The identifier of a node, if it is a text and not empty. -/
def nodeId? (node : Json) : Option Text :=
  (text? node "id").filter fun id => !id.isEmpty

/-- The kind of a node, if it is one of the four. -/
def nodeKind? (node : Json) : Option NodeKind := NodeKind.ofJson? (node.get "type")

/-- The defects of the identifier of a node, after nodes with some identifiers. -/
def idDefects (seen : List Text) (place : Nat) (node : Json) : List Defect :=
  match nodeId? node with
  | none => [.nodeWithoutId place]
  | some id => expect (!seen.contains id) (.repeatedId place id)

/-- Whether a value is a position: an object with two numbers. -/
def isPosition (value : Json) : Bool := hasNumber value "x" && hasNumber value "y"

/-- The defects of the kind that the field of a question has, and of its options. -/
def fieldKindDefects (place : Nat) (field : Json) : List Defect :=
  match text? field "type" with
  | none => [.fieldWithoutKind place]
  | some kind => expect (FieldKind.known.contains ⟨kind⟩) (.fieldKindUnknown place)

/-- The defects of the options of a field. -/
def optionDefects (place : Nat) (field : Json) : List Defect :=
  match text? field "type", field.get "options" with
  | none, _ => []
  | some _, .null => []
  | some _, .arr _ => []
  | some kind, _ => expect (!FieldKind.withOptions.contains ⟨kind⟩) (.fieldOptions place kind)

/-- The defects of the payload of a question. -/
def questionDefects (place : Nat) (data : Json) : List Defect :=
  match data.get "field" with
  | .obj members =>
    let field := Json.obj members
    expect (nodeId? field).isSome (.fieldWithoutId place) ++ fieldKindDefects place field ++
      expect (text? field "label").isSome (.fieldWithoutLabel place) ++ optionDefects place field
  | _ => [.fieldMissing place]

/-- The defects of the payload of a statement. -/
def statementDefects (place : Nat) (data : Json) : List Defect :=
  expect (text? data "fieldId").isSome (.statementWithoutFieldId place) ++
    expect (text? data "statementText").isSome (.statementWithoutText place) ++
    expect (text? data "label").isSome (.statementWithoutLabel place)

/-- The defects of the payload of a node. -/
def payloadDefects (place : Nat) (node : Json) : List Defect :=
  match nodeKind? node with
  | some .question => questionDefects place (node.get "data")
  | some .statement => statementDefects place (node.get "data")
  | _ => []

/-- The defects of a node, after nodes with some identifiers. -/
def nodeDefects (seen : List Text) (place : Nat) : Json → List Defect
  | .obj members =>
    let node := Json.obj members
    idDefects seen place node ++
      expect (nodeKind? node).isSome (.nodeKind place (node.get "id")) ++
      expect (isPosition (node.get "position")) (.nodePosition place (node.get "id")) ++
      payloadDefects place node
  | _ => [.nodeNotObject place]

/-- The defects of nodes from a place on, after nodes with some identifiers. -/
def nodesDefects (seen : List Text) (place : Nat) : List Json → List Defect
  | [] => []
  | node :: rest =>
    nodeDefects seen place node ++
      nodesDefects (seen ++ (nodeId? node).toList) (place + 1) rest

/-! ## The start and the end -/

/-- Whether a node has a kind. -/
def hasKind (kind : NodeKind) (node : Json) : Bool := nodeKind? node == some kind

/-- The defects of one node in its part as the start, the end or neither. -/
def markerDefects (node : Json) : List Defect :=
  match nodeKind? node, text? node "id" with
  | some .start, id => expect (id == some startId) (.markerMisnamed .start (node.get "id"))
  | some .finish, id => expect (id == some endId) (.markerMisnamed .finish (node.get "id"))
  | _, some id => expect (id != startId && id != endId) (.reservedId id (node.get "type"))
  | _, none => []

/-- The defects of the number of the nodes of a kind. -/
def countDefects (kind : NodeKind) (nodes : List Json) : List Defect :=
  expect (nodes.countP (hasKind kind) == 1) (.markerCount kind (nodes.countP (hasKind kind)))

/-- The defects of the start and the end. -/
def markersDefects (nodes : List Json) : List Defect :=
  nodes.flatMap markerDefects ++ countDefects .start nodes ++ countDefects .finish nodes

/-! ## Edges -/

/-- The defects of the source of an edge. -/
def sourceDefects (ids : List Text) (place : Nat) (edge : Json) : List Defect :=
  match text? edge "source" with
  | none => [.edgeWithoutSource place]
  | some source => expect (ids.contains source) (.sourceUnknown place source)

/-- The defects of the target of an edge. -/
def targetDefects (ids : List Text) (place : Nat) (edge : Json) : List Defect :=
  match text? edge "target" with
  | none => [.edgeWithoutTarget place]
  | some target => expect (ids.contains target) (.targetUnknown place target)

/-- The defects of an edge between nodes with some identifiers. -/
def edgeDefects (ids : List Text) (place : Nat) : Json → List Defect
  | .obj members =>
    sourceDefects ids place (.obj members) ++ targetDefects ids place (.obj members)
  | _ => [.edgeNotObject place]

/-- The defects of edges from a place on. -/
def edgesDefects (ids : List Text) (place : Nat) : List Json → List Defect
  | [] => []
  | edge :: rest => edgeDefects ids place edge ++ edgesDefects ids (place + 1) rest

/-- The ends of an edge, where both are texts. -/
def ends? (edge : Json) : Option (Text × Text) :=
  match text? edge "source", text? edge "target" with
  | some source, some target => some (source, target)
  | _, _ => none

/-! ## The whole -/

/-- The items of an array, none where it is no array. -/
def items : Json → List Json
  | .arr items => items
  | _ => []

/-- Whether a value is an array. -/
def isArray : Json → Bool
  | .arr _ => true
  | _ => false

/-- Whether the end can be reached from the start along some edges. -/
def connects (edges : List Json) : Bool :=
  (Ends.reachable (edges.filterMap ends?) startId).contains endId

/-- The defects of some nodes and edges. -/
def structureDefects (nodes edges : List Json) : List Defect :=
  nodesDefects [] 0 nodes ++ markersDefects nodes ++
    edgesDefects (nodes.filterMap nodeId?) 0 edges ++
    expect (!(markersDefects nodes).isEmpty || connects edges) .disconnected

end Check

namespace Flow

open Check in
/-- Every defect in the structure of a JSON value as a flow. -/
def defects : Json → List Defect
  | .obj members =>
    let nodes := (Json.obj members).get "nodes"
    let edges := (Json.obj members).get "edges"
    expect (isArray nodes) .nodesNotArray ++ expect (isArray edges) .edgesNotArray ++
      structureDefects (items nodes) (items edges)
  | _ => [.notObject]

end Flow

end CardForm
