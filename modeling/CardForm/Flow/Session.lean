import CardForm.Flow.Edit
import CardForm.Flow.Load

/-!
# Editing sessions

A session is a run of steps on a flow. A step that fails leaves the flow as it was. Where the outcome
of each step is written, a step also fails if its outcome cannot be.
-/
namespace CardForm.Flow

/-- One step of an editing session. -/
inductive Step where
  /-- Add a card. -/
  | add (card : NewCard) (wanted randomDigits : Text)
  /-- Delete a card. -/
  | delete (id : Text)
  /-- Put the cards into an order. -/
  | reorder (ids : List Text)
  /-- Take over the content of a field list. -/
  | merge (fields : List Field)
  /-- Take over the content of the flow's own field list. -/
  | mergeOwn
  /-- Bring the copies in all questions up to date. -/
  | normalize
  /-- Write the flow and load it again. -/
  | reload
  /-- Lay the flow out anew from its own field list and edges. -/
  | rebuild

/-- The flow laid out anew from its own field list and edges. -/
def rebuilt (flow : Flow) : Except Failure Flow :=
  flow.linear.map fun fields => build fields (flow.edges.map Edge.spec) flow.viewport

/-- The flow that a step makes of a flow. -/
def changed (flow : Flow) : Step → Except Failure Flow
  | .add card wanted randomDigits => flow.add card wanted randomDigits
  | .delete id => .ok (flow.delete id)
  | .reorder ids => .ok (flow.reorder ids)
  | .merge fields => .ok (flow.merge fields)
  | .mergeOwn => flow.linear.map flow.merge
  | .normalize => .ok flow.normalized
  | .reload => flow.reload
  | .rebuild => flow.rebuilt

/-- The flow after a step, or as it was if the step fails. -/
def attempted (flow : Flow) (step : Step) : Flow :=
  match flow.changed step with
  | .ok next => next
  | .error _ => flow

/-- The flow after some steps. -/
def after (flow : Flow) (steps : List Step) : Flow := steps.foldl attempted flow

/-- The flow that a step makes of a flow, if it can be written. -/
def step (flow : Flow) (step : Step) : Except Failure Flow := flow.changed step >>= Writable.kept

/-- The flow after a step whose outcome is written, or as it was if the outcome cannot be. -/
def attempt (flow : Flow) (step : Step) : Flow :=
  if Writable.isWritable (flow.attempted step) then flow.attempted step else flow

end CardForm.Flow
