import CardForm.Failure
import CardForm.Flow.Check

/-!
# Loading a flow

A flow is loaded from JSON in two steps: the check of its structure, and the reading of its parts.
It is refused for every defect that the check finds; only a value without defects is read, and then
it is refused for every fault of the reading.
-/
namespace CardForm.Flow

/-- The flow that a JSON value is, checked and read. -/
def load (value : Json) : Except Failure Flow :=
  match defects value with
  | [] => (read value).orRefused
  | found => .error (.ofDefects found)

/-- Every defect in the structure of a flow, which is written for the check. -/
def ownDefects (flow : Flow) : Except Failure (List Defect) := (Writable.write flow).map defects

/-- The flow written as JSON and loaded again. -/
def reload (flow : Flow) : Except Failure Flow := Writable.write flow >>= load

/-- A loaded flow came from a value without defects, and is what was read from it. -/
theorem load_eq_ok_iff {value : Json} {flow : Flow} :
    load value = .ok flow ↔ defects value = [] ∧ read value = .ok flow := by
  unfold load
  split
  · rename_i h
    cases hr : read value <;> simp [h, Reading.orRefused]
  · rename_i h
    simp only [reduceCtorEq, false_iff, not_and]
    intro none
    exact absurd none h

end CardForm.Flow
