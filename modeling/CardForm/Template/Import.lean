import CardForm.Flow.Layout
import CardForm.Flow.Linear
import CardForm.Flow.Load
import CardForm.Template.Envelope

/-!
# Importing

An import takes any JSON value that looks like an envelope. A flow in it is loaded, with the check
of its structure; without one the flow is laid out from the reduced form. An imported envelope
carries its flow and the field list of that flow, and no edge specifications.
-/
namespace CardForm.Envelope

/-- Whether a value looks like a flow: an object with nodes and edges. -/
def looksLikeFlow (value : Json) : Bool :=
  Check.isArray (value.get "nodes") && Check.isArray (value.get "edges")

/-- Whether a value looks like an envelope: an object with a flow, or with a field list that is not
empty. -/
def looksRight (value : Json) : Bool :=
  looksLikeFlow (value.get flowKey.camel) ||
    !(Check.items (value.get fieldsKey.camel)).isEmpty

/-- The flow of the reduced form of an envelope. -/
def expanded (envelope : Envelope) : Flow :=
  let fields := envelope.fields.getD []
  match envelope.edges with
  | some (edge :: edges) => Flow.build fields (edge :: edges) none
  | _ => Flow.chain fields none

/-- The envelope with a flow, the field list of that flow, and no edge specifications. -/
def withFlow (envelope : Envelope) (flow : Flow) : Except Failure Envelope :=
  flow.linear.map fun fields =>
    { envelope with flow := some flow, fields := some fields, edges := none }

/-- The envelope with the flow that it carries or stands for. -/
def completed (envelope : Envelope) : Except Failure Envelope :=
  envelope.withFlow (envelope.flow.getD envelope.expanded)

/-- The parts of an envelope, its flow loaded where it has one. -/
def loadParts (members : Members) : Except Failure Envelope :=
  match (Json.obj members).get flowKey.camel with
  | .null => ((members.erase flowKey.camel).wellKeyed
      (ofMembers none (members.erase flowKey.camel))).orRefused
  | value => do
    let flow ← Flow.load value
    (members.wellKeyed (ofMembers (some flow) members)).orRefused

/-- The envelope that a JSON value is. -/
def load (value : Json) : Except Failure Envelope :=
  match value with
  | .obj members =>
    if looksRight value then loadParts members >>= completed else .error .notEnvelope
  | _ => .error .notEnvelope

end CardForm.Envelope
