import CardForm.Flow.Basic

/-!
# Envelopes

An envelope is the one document in which a form travels: as an export, an import, or the work of a
generator. It carries a full flow, or the reduced form of it, a field list and perhaps edge
specifications; beside that the texts around the form, and settings that are passed through.
-/
namespace CardForm

/-- A form as it travels. -/
structure Envelope where
  /-- The version of the format. -/
  version : Int := 1
  /-- The heading of the form. -/
  title : Option Text := none
  /-- What stands under the heading. -/
  subtitle : Option Text := none
  /-- What stands on the button that sends the form. -/
  submitText : Option Text := none
  /-- What is shown after the form was sent. -/
  successText : Option Text := none
  /-- The full flow. -/
  flow : Option Flow := none
  /-- The field list. -/
  fields : Option (List Field) := none
  /-- The edges of the reduced form. -/
  edges : Option (List EdgeSpec) := none
  /-- How the cards behave. -/
  cardSettings : Option Members := none
  /-- How the form looks. -/
  styling : Option Members := none
  /-- How answers are scored. -/
  profileEstimation : Option Members := none
  /-- Unknown members. -/
  extras : Members := []

namespace Envelope

/-- The key of the full flow. -/
def flowKey : Key := ⟨"flowchartGraph", "flowchart_graph"⟩

/-- The key of the text on the button. -/
def submitTextKey : Key := ⟨"submitButtonText", "submit_button_text"⟩

/-- The key of the text after sending. -/
def successTextKey : Key := ⟨"successMessage", "success_message"⟩

/-- The key of the field list. -/
def fieldsKey : Key := ⟨"schema", "form_schema"⟩

/-- The key of the edges of the reduced form. -/
def edgesKey : Key := ⟨"flowchartEdges", "flowchart_edges"⟩

/-- The key of the behaviour of the cards. -/
def cardSettingsKey : Key := ⟨"cardSettings", "card_settings"⟩

/-- The key of the scoring. -/
def profileEstimationKey : Key := ⟨"profileEstimation", "profile_estimation"⟩

/-- The declared keys. -/
def keys : List Key :=
  [.same "version", .same "title", .same "subtitle", submitTextKey, successTextKey, flowKey,
    fieldsKey, edgesKey, cardSettingsKey, .same "styling", profileEstimationKey]

/-- Whether the envelope has a flow or at least one field. -/
def hasFlow (envelope : Envelope) : Bool :=
  envelope.flow.isSome || envelope.fields.any fun fields => !fields.isEmpty

/-- Read the parts of an envelope from the members of an object. A flow that is given is taken in
place of the member under its key. -/
def partsOfMembers (given : Option Flow) (members : Members) : Reading Envelope :=
  Envelope.mk <$> members.defaulted (.same "version") 1 .integer
    <*> members.optional (.same "title") .text
    <*> members.optional (.same "subtitle") .text
    <*> members.optional submitTextKey .text
    <*> members.optional successTextKey .text
    <*> (match given with
      | some flow => .ok (some flow)
      | none => members.optional flowKey Flow.read)
    <*> members.optional fieldsKey (.array Field.read)
    <*> members.optional edgesKey (.array EdgeSpec.read)
    <*> members.optional cardSettingsKey .mapping
    <*> members.optional (.same "styling") .mapping
    <*> members.optional profileEstimationKey .mapping
    <*> .ok (members.extras keys)

/-- Read an envelope from the members of an object. It has to carry a flow or a field. -/
def ofMembers (given : Option Flow) (members : Members) : Reading Envelope :=
  (partsOfMembers given members).andThen fun envelope =>
    if envelope.hasFlow then .ok envelope else .fault .noFlow (.obj members)

/-- Read an envelope. -/
def read : Json → Reading Envelope := .record "CardFormTemplateJson" (ofMembers none)

/-- An object of any content as JSON. -/
def mappingToJson (members : Members) : Json := .obj members.portable

/-- An envelope as JSON. -/
def toJson (envelope : Envelope) : Json :=
  Members.written
    [("version", some (.int envelope.version)), ("title", envelope.title.map .str),
      ("subtitle", envelope.subtitle.map .str),
      (submitTextKey.camel, envelope.submitText.map .str),
      (successTextKey.camel, envelope.successText.map .str),
      (flowKey.camel, envelope.flow.map Flow.toJson),
      (fieldsKey.camel, envelope.fields.map Field.listToJson),
      (edgesKey.camel, envelope.edges.map fun edges => .arr (edges.map EdgeSpec.toJson)),
      (cardSettingsKey.camel, envelope.cardSettings.map mappingToJson),
      ("styling", envelope.styling.map mappingToJson),
      (profileEstimationKey.camel, envelope.profileEstimation.map mappingToJson)]
    envelope.extras

/-- The first obstacle to writing an envelope. -/
def obstacle (envelope : Envelope) (room : Nat) : Option Obstacle :=
  Obstacle.first?
    [envelope.flow.bind (·.obstacle room),
      envelope.fields.bind (·.findSome? (·.obstacle room)),
      envelope.edges.bind (·.findSome? (·.obstacle room)),
      envelope.cardSettings.bind (·.obstacle room), envelope.styling.bind (·.obstacle room),
      envelope.profileEstimation.bind (·.obstacle room), envelope.extras.obstacle room]

instance : Writable Envelope := ⟨toJson, obstacle⟩

end Envelope

end CardForm
