import CardForm.Flow.EdgeId
import CardForm.Json.Writable
import CardForm.Reading.Object

/-!
# Edges

An edge leads from one node to another and may carry a condition. An edge specification is an edge
that has no identifier yet.
-/
namespace CardForm

/-- The payload of an edge. -/
structure EdgeData where
  /-- When the edge is followed; null where it always may be. -/
  condition : Json := .null
  /-- What the editor writes beside it. -/
  label : Option Text := none
  /-- Unknown members. -/
  extras : Members := []

namespace EdgeData

/-- The declared keys. -/
def keys : List Key := [.same "condition", .same "label"]

/-- Read a payload from the members of an object. -/
def ofMembers (members : Members) : Reading EdgeData :=
  EdgeData.mk <$> members.defaulted (.same "condition") .null .ok
    <*> members.optional (.same "label") .text
    <*> .ok (members.extras keys)

/-- Read a payload. -/
def read : Json → Reading EdgeData := .record "EdgeData" ofMembers

/-- A payload as JSON. -/
def toJson (data : EdgeData) : Json :=
  Members.written
    [("condition", if data.condition.isNull then none else some data.condition.portable),
      ("label", data.label.map .str)]
    data.extras

/-- The first obstacle to writing a payload. -/
def obstacle (data : EdgeData) (room : Nat) : Option Obstacle :=
  Obstacle.first? [data.condition.obstacle room, data.extras.obstacle room]

instance : Writable EdgeData := ⟨toJson, obstacle⟩

end EdgeData

/-- An edge without an identifier. -/
structure EdgeSpec where
  /-- The node that it leaves. -/
  source : Text
  /-- The node that it enters. -/
  target : Text
  /-- Its payload. -/
  data : Option EdgeData := none
  /-- Unknown members. -/
  extras : Members := []

namespace EdgeSpec

/-- The declared keys. -/
def keys : List Key := [.same "source", .same "target", .same "data"]

/-- Read an edge specification from the members of an object. -/
def ofMembers (members : Members) : Reading EdgeSpec :=
  EdgeSpec.mk <$> members.required (.same "source") .text
    <*> members.required (.same "target") .text
    <*> members.optional (.same "data") EdgeData.read
    <*> .ok (members.extras keys)

/-- Read an edge specification. -/
def read : Json → Reading EdgeSpec := .record "EdgeSpec" ofMembers

/-- An edge specification as JSON. -/
def toJson (spec : EdgeSpec) : Json :=
  Members.written
    [("source", some (.str spec.source)), ("target", some (.str spec.target)),
      ("data", spec.data.map EdgeData.toJson)]
    spec.extras

/-- The first obstacle to writing an edge specification. -/
def obstacle (spec : EdgeSpec) (room : Nat) : Option Obstacle :=
  Obstacle.first? [spec.data.bind (·.obstacle room), spec.extras.obstacle room]

instance : Writable EdgeSpec := ⟨toJson, obstacle⟩

/-- The two ends. -/
def ends (spec : EdgeSpec) : Text × Text := (spec.source, spec.target)

end EdgeSpec

/-- An edge of a flow. -/
structure Edge where
  /-- Its identifier. -/
  id : Text
  /-- The node that it leaves. -/
  source : Text
  /-- The node that it enters. -/
  target : Text
  /-- Its payload. -/
  data : Option EdgeData := none
  /-- Unknown members. -/
  extras : Members := []

namespace Edge

/-- The declared keys. -/
def keys : List Key := [.same "id", .same "source", .same "target", .same "data"]

/-- The members with an identifier made from the two ends, where there is none and both ends are
texts. -/
def withDefaultId (members : Members) : Members :=
  match members.get? "id", members.get? "source", members.get? "target" with
  | none, some (.str source), some (.str target) =>
    members.put "id" (.str (edgeId source target 0))
  | _, _, _ => members

/-- Read an edge from the members of an object. -/
def ofMembers (members : Members) : Reading Edge :=
  let members := withDefaultId members
  Edge.mk <$> members.required (.same "id") .text
    <*> members.required (.same "source") .text
    <*> members.required (.same "target") .text
    <*> members.optional (.same "data") EdgeData.read
    <*> .ok (members.extras keys)

/-- Read an edge. -/
def read : Json → Reading Edge := .record "FlowchartEdge" ofMembers

/-- An edge as JSON. -/
def toJson (edge : Edge) : Json :=
  Members.written
    [("id", some (.str edge.id)), ("source", some (.str edge.source)),
      ("target", some (.str edge.target)), ("data", edge.data.map EdgeData.toJson)]
    edge.extras

/-- The first obstacle to writing an edge. -/
def obstacle (edge : Edge) (room : Nat) : Option Obstacle :=
  Obstacle.first? [edge.data.bind (·.obstacle room), edge.extras.obstacle room]

instance : Writable Edge := ⟨toJson, obstacle⟩

/-- The two ends. -/
def ends (edge : Edge) : Text × Text := (edge.source, edge.target)

/-- Whether the edge is followed only under a condition. -/
def isConditional (edge : Edge) : Bool := edge.data.any fun data => !data.condition.isNull

/-- The edge without its identifier and its unknown members. -/
def spec (edge : Edge) : EdgeSpec := ⟨edge.source, edge.target, edge.data, []⟩

/-- Edges for some specifications, with identifiers that count parallel edges. -/
def ofSpecs (specs : List EdgeSpec) : List Edge :=
  (specs.zip (edgeIds (specs.map EdgeSpec.ends))).map fun (spec, id) =>
    ⟨id, spec.source, spec.target, spec.data, []⟩

end Edge

end CardForm
