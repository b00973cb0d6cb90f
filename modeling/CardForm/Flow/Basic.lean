import CardForm.Flow.Edge
import CardForm.Flow.Node

/-!
# Flows

A flow is a graph of cards: the order, the branches and the conditions by which a form is gone
through. It is the one stored definition of a form; the flat list of fields is derived from it.
-/
namespace CardForm

/-- A graph of cards. -/
structure Flow where
  /-- Its nodes, in stored order. -/
  nodes : List Node
  /-- Its edges, in stored order. -/
  edges : List Edge
  /-- The part of the board that an editor shows. -/
  viewport : Option Viewport := none
  /-- Unknown members. -/
  extras : Members := []

namespace Flow

/-- The declared keys. -/
def keys : List Key := [.same "nodes", .same "edges", .same "viewport"]

/-- Read a flow from the members of an object. -/
def ofMembers (members : Members) : Reading Flow :=
  Flow.mk <$> members.required (.same "nodes") (.array Node.read)
    <*> members.required (.same "edges") (.array Edge.read)
    <*> members.optional (.same "viewport") Viewport.read
    <*> .ok (members.extras keys)

/-- Read a flow, without a check of its structure. -/
def read : Json → Reading Flow := .record "FlowchartGraph" ofMembers

/-- A flow as JSON. -/
def toJson (flow : Flow) : Json :=
  Members.written
    [("nodes", some (.arr (flow.nodes.map Node.toJson))),
      ("edges", some (.arr (flow.edges.map Edge.toJson))),
      ("viewport", flow.viewport.map Viewport.toJson)]
    flow.extras

/-- The first obstacle to writing a flow. -/
def obstacle (flow : Flow) (room : Nat) : Option Obstacle :=
  Obstacle.first?
    [flow.nodes.findSome? (·.obstacle room), flow.edges.findSome? (·.obstacle room),
      flow.viewport.bind (·.obstacle room), flow.extras.obstacle room]

instance : Writable Flow := ⟨toJson, obstacle⟩

/-- The first node of an identifier. -/
def firstNode? (flow : Flow) (id : Text) : Option Node :=
  flow.nodes.find? fun node => node.id == id

/-- The last node of an identifier. -/
def lastNode? (flow : Flow) (id : Text) : Option Node :=
  flow.nodes.reverse.find? fun node => node.id == id

/-- Whether some node has an identifier. -/
def has (flow : Flow) (id : Text) : Bool := flow.nodes.any fun node => node.id == id

/-- The questions and statements, in stored order. -/
def content (flow : Flow) : List Node := flow.nodes.filter Node.isContent

/-- The ends of the edges, in stored order. -/
def ends (flow : Flow) : List (Text × Text) := flow.edges.map Edge.ends

end Flow

end CardForm
