import CardForm.Flow.Session
import CardForm.Template.Store

/-!
# Sessions on a stored form

A session is a run of steps on a record. A step that fails leaves the record as it was. Where the
outcome of each step is written, a step also fails if its outcome cannot be.
-/
namespace CardForm.Record

/-- One step of a session on a record. -/
inductive Step where
  /-- Save a flow that is given as JSON. -/
  | saveJson (value : Json)
  /-- Save a flow. -/
  | save (flow : Flow)
  /-- Open the flow, do one step of editing if any, and save it. -/
  | edit (step : Option Flow.Step)
  /-- Apply an envelope. -/
  | apply (envelope : Envelope)
  /-- Write the record and read it again, with some members overlaid. -/
  | reload (overlay : Members)

/-- The record after its flow was opened, edited and saved. -/
def edited (record : Record) (step : Option Flow.Step) : Except Failure Record := do
  let flow ← record.flow
  let flow ← match step with
    | some step => flow.step step
    | none => pure flow
  record.save flow

/-- The record written, overlaid with some members, and read again. -/
def reloaded (record : Record) (overlay : Members) : Except Failure Record := do
  match ← Writable.write record with
  | .obj members => (read (.obj (Members.overlay members overlay))).orUnfit
  | value => (read value).orUnfit

/-- The record that a step makes of a record. -/
def changed (record : Record) : Step → Except Failure Record
  | .saveJson value => record.saveJson value
  | .save flow => record.save flow
  | .edit step => record.edited step
  | .apply envelope => record.apply envelope
  | .reload overlay => record.reloaded overlay

/-- The record after a step, or as it was if the step fails. -/
def attempted (record : Record) (step : Step) : Record :=
  match record.changed step with
  | .ok next => next
  | .error _ => record

/-- The record after some steps. -/
def after (record : Record) (steps : List Step) : Record := steps.foldl attempted record

/-- The record that a step makes of a record, if it can be written. -/
def step (record : Record) (step : Step) : Except Failure Record :=
  record.changed step >>= Writable.kept

/-- The record after a step whose outcome is written, or as it was if the outcome cannot be. -/
def attempt (record : Record) (step : Step) : Record :=
  if Writable.isWritable (record.attempted step) then record.attempted step else record

end CardForm.Record
