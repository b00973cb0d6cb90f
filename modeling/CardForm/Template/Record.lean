import CardForm.Template.Envelope

/-!
# Records

The parts of a stored form that are read and written here. The flow and the viewport of a form are
kept among its card settings, under keys of their own; the rest of the settings is passed through.
-/
namespace CardForm

/-- A form as it is stored. -/
structure Record where
  /-- The field list that is shown. -/
  fields : List Field := []
  /-- The heading of the form. -/
  title : Text := ""
  /-- What stands under the heading. -/
  subtitle : Option Text := none
  /-- What stands on the button that sends the form. -/
  submitText : Text := "Submit"
  /-- What is shown after the form was sent. -/
  successText : Text := "Thank you for your submission!"
  /-- How the cards behave, with the flow and the viewport. -/
  cardSettings : Members := []
  /-- How the form looks. -/
  styling : Option Members := none
  /-- How answers are scored. -/
  profileEstimation : Option Members := none
  /-- Unknown members. -/
  extras : Members := []

namespace Record

/-- The card setting that holds the flow. -/
def flowSetting : Text := "flowchartGraph"

/-- The card setting that holds the viewport. -/
def viewportSetting : Text := "flowchartViewport"

open Envelope (fieldsKey submitTextKey successTextKey cardSettingsKey profileEstimationKey
  mappingToJson)

/-- The declared keys. -/
def keys : List Key :=
  [fieldsKey, .same "title", .same "subtitle", submitTextKey, successTextKey, cardSettingsKey,
    .same "styling", profileEstimationKey]

/-- Read a record from the members of an object. -/
def ofMembers (members : Members) : Reading Record :=
  let standard : Record := {}
  Record.mk <$> members.defaulted fieldsKey standard.fields (.array Field.read)
    <*> members.defaulted (.same "title") standard.title .text
    <*> members.optional (.same "subtitle") .text
    <*> members.defaulted submitTextKey standard.submitText .text
    <*> members.defaulted successTextKey standard.successText .text
    <*> members.defaulted cardSettingsKey standard.cardSettings .mapping
    <*> members.optional (.same "styling") .mapping
    <*> members.optional profileEstimationKey .mapping
    <*> .ok (members.extras keys)

/-- Read a record. -/
def read : Json → Reading Record := .record "FormTemplateRecord" ofMembers

/-- A record as JSON. -/
def toJson (record : Record) : Json :=
  Members.written
    [(fieldsKey.camel, some (Field.listToJson record.fields)),
      ("title", some (.str record.title)), ("subtitle", record.subtitle.map .str),
      (submitTextKey.camel, some (.str record.submitText)),
      (successTextKey.camel, some (.str record.successText)),
      (cardSettingsKey.camel, some (mappingToJson record.cardSettings)),
      ("styling", record.styling.map mappingToJson),
      (profileEstimationKey.camel, record.profileEstimation.map mappingToJson)]
    record.extras

/-- The first obstacle to writing a record. -/
def obstacle (record : Record) (room : Nat) : Option Obstacle :=
  Obstacle.first?
    [record.fields.findSome? (·.obstacle room), record.cardSettings.obstacle room,
      record.styling.bind (·.obstacle room), record.profileEstimation.bind (·.obstacle room),
      record.extras.obstacle room]

instance : Writable Record := ⟨toJson, obstacle⟩

end Record

end CardForm
