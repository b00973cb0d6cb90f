import CardForm.Flow.Merge
import CardForm.Template.Import
import CardForm.Template.Record

/-!
# Storing a form

A stored form keeps its flow, its viewport and its field list together. Opening it gives its flow
with the content of its field list, or a chain through the field list where no flow was ever
stored. Saving a flow checks it and writes the flow, the viewport and the field list of the flow at
once, so that they agree.
-/
namespace CardForm.Record

/-- The stored viewport, where the setting is an object. -/
def storedViewport (record : Record) : Except Failure (Option Viewport) :=
  match (Json.obj record.cardSettings).get viewportSetting with
  | .obj members => (Viewport.read (.obj members)).orUnfit.map some
  | _ => .ok none

/-- The flow of a stored form. -/
def flow (record : Record) : Except Failure Flow :=
  match (Json.obj record.cardSettings).get flowSetting with
  | .null => record.storedViewport.map (Flow.chain record.fields)
  | value => (Flow.load value).map fun flow => flow.merge record.fields

/-- The card settings with a written flow and its viewport. -/
def settingsWith (settings : Members) (flow : Json) (viewport : Option Viewport) : Members :=
  let settings := settings.put flowSetting flow
  match viewport with
  | some viewport => settings.put viewportSetting viewport.toJson
  | none => settings.erase viewportSetting

/-- The record with a loaded flow, its viewport and its field list. -/
def withFlow (record : Record) (flow : Flow) : Except Failure Record := do
  let fields ← flow.linear
  let written ← Writable.write flow
  return { record with
    fields := fields
    cardSettings := settingsWith record.cardSettings written flow.viewport }

/-- The record with a flow that is given as JSON. -/
def saveJson (record : Record) (value : Json) : Except Failure Record :=
  Flow.load value >>= record.withFlow

/-- The record with a flow, which is checked first. -/
def save (record : Record) (flow : Flow) : Except Failure Record :=
  Writable.write flow >>= record.saveJson

/-- An object without members counts as none. -/
def unlessEmpty : Members → Option Members
  | [] => none
  | members => some members

/-- The envelope of a record and a flow. The flow travels by itself, so it is taken out of the card
settings. -/
def envelopeWith (record : Record) (flow : Flow) : Envelope where
  title := some record.title
  subtitle := record.subtitle
  submitText := some record.submitText
  successText := some record.successText
  flow := some flow
  cardSettings := unlessEmpty ((record.cardSettings.erase flowSetting).erase viewportSetting)
  styling := record.styling
  profileEstimation := record.profileEstimation

/-- The envelope of a stored form. -/
def envelope (record : Record) : Except Failure Envelope := record.flow.map record.envelopeWith

/-- The record with the texts and settings that an envelope has. -/
def overlaid (record : Record) (envelope : Envelope) : Record :=
  { record with
    title := envelope.title.getD record.title
    subtitle := envelope.subtitle.or record.subtitle
    submitText := envelope.submitText.getD record.submitText
    successText := envelope.successText.getD record.successText
    cardSettings := record.cardSettings.overlay (envelope.cardSettings.getD [])
    styling := envelope.styling.or record.styling
    profileEstimation := envelope.profileEstimation.or record.profileEstimation }

/-- The record with all that an envelope has, its flow included. -/
def apply (record : Record) (envelope : Envelope) : Except Failure Record :=
  (record.overlaid envelope).save (envelope.flow.getD envelope.expanded)

end CardForm.Record
