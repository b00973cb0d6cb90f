import CardForm.Flow.Defect
import CardForm.Json.Writable
import CardForm.Reading.Basic
import CardForm.Text.Address
import CardForm.Text.Encoding

/-!
# Failures

Why an operation on flows and templates has no result.
-/
namespace CardForm

/-- A reason to refuse a flow or a template with a flow. -/
inductive Reason where
  /-- The structure of the flow has a defect. -/
  | defect (defect : Defect)
  /-- A part cannot be read. -/
  | misfit (fault : Fault)
  /-- A service gave this reason. -/
  | reported (text : Text)

/-- The text of a reason. -/
def Reason.text : Reason → Text
  | defect d => d.text
  | misfit fault => fault.message .document
  | reported text => text

/-- Why an operation has no result. -/
inductive Failure where
  /-- A flow, or a template with a flow, is refused. -/
  | invalidFlow (reasons : List Reason)
  /-- A value cannot be read. -/
  | unfit (faults : List Fault)
  /-- A value is no template. -/
  | notEnvelope
  /-- The identifier for a new node is in use. -/
  | idInUse (id : Text)
  /-- A text holds an integer of too many digits. -/
  | tooManyDigits (count : Nat)
  /-- A value of any content is too deep to be written. -/
  | tooDeep
  /-- A value holds a number that standard JSON cannot carry. -/
  | notPortable
  /-- A text has surrogates, from a place on, and cannot be encoded. -/
  | notEncodable (place : Nat) (surrogates : Text)
  /-- A text is no address of a service. -/
  | badAddress (fault : Address.Fault)
  /-- A service answered with a status that tells of no result. -/
  | status (code : Nat)

namespace Failure

/-- The failure to write a value with an obstacle. -/
def ofObstacle : Obstacle → Failure
  | .tooDeep => tooDeep
  | .notEncodable place surrogates => notEncodable place surrogates

/-- The failure of a flow with some defects. -/
def ofDefects (defects : List Defect) : Failure := invalidFlow (defects.map .defect)

/-- The failure of a flow or template with parts that cannot be read. -/
def ofMisfits (faults : List Fault) : Failure := invalidFlow (faults.map .misfit)

/-- The text of a refusal: its first three reasons, and how many more there are. -/
def refusal (reasons : List Text) : Text :=
  let more := reasons.length - 3
  let rest : Text := if more = 0 then "" else " (+" ++ Text.ofNat more ++ " more)"
  "invalid flowchart graph: " ++ Text.joined "; " (reasons.take 3) ++ rest

/-- Which surrogates of a text cannot be encoded. -/
def unencodable (place : Nat) (surrogates : Text) : Text :=
  match surrogates with
  | [only] => "character " ++ Text.quoted [only] ++ " in position " ++ Text.ofNat place
  | several =>
    "characters in position " ++ Text.ofNat place ++ "-" ++
      Text.ofNat (place + several.length - 1)

/-- The text of a failure. -/
def message : Failure → Text
  | invalidFlow reasons => refusal (reasons.map Reason.text)
  | unfit faults => Text.joined "; " (faults.map (Fault.message .document))
  | notEnvelope =>
    "Invalid card form JSON: must include flowchartGraph (nodes + edges) or a non-empty schema"
  | idInUse id => "node id already in use: " ++ id
  | tooManyDigits count =>
    "Exceeds the limit (" ++ Text.ofNat Numeral.digitLimit ++
      " digits) for integer string conversion: value has " ++ Text.ofNat count ++
      " digits; use sys.set_int_max_str_digits() to increase the limit"
  | tooDeep => "Maximum serialization depth exceeded"
  | notPortable => "Out of range float values are not JSON compliant"
  | notEncodable place surrogates =>
    "'utf-8' codec can't encode " ++ unencodable place surrogates ++ ": surrogates not allowed"
  | badAddress fault => fault.text
  | status code => "status " ++ Text.ofNat code

example : (refusal ["a", "b", "c", "d"] : Text) =
    "invalid flowchart graph: a; b; c (+1 more)" := by decide +kernel

end Failure

/-- A reading as an operation that fails with its faults. -/
def Reading.orUnfit {α : Type} : Reading α → Except Failure α
  | ok value => .ok value
  | faulty faults => .error (.unfit faults)

/-- A reading as an operation on a flow that is refused for its faults. -/
def Reading.orRefused {α : Type} : Reading α → Except Failure α
  | ok value => .ok value
  | faulty faults => .error (.ofMisfits faults)

/-- The form of a value as JSON, if nothing stands in the way of writing the value. -/
def Writable.write {α : Type} [Writable α] (value : α) : Except Failure Json :=
  match obstacle value Json.writableNesting with
  | none => .ok (toJson value)
  | some found => .error (.ofObstacle found)

/-- What is written is the form of a value with nothing in the way of writing it. -/
theorem Writable.write_eq_ok_iff {α : Type} [Writable α] {value : α} {json : Json} :
    write value = .ok json ↔ isWritable value = true ∧ toJson value = json := by
  unfold write isWritable
  split <;> rename_i found <;> simp [found]

/-- A value with nothing in the way of writing it is written. -/
theorem Writable.write_of_isWritable {α : Type} [Writable α] {value : α}
    (writable : isWritable value = true) : write value = .ok (toJson value) :=
  write_eq_ok_iff.2 ⟨writable, rfl⟩

/-- A value with an obstacle is not written. -/
theorem Writable.write_of_obstacle {α : Type} [Writable α] {value : α} {found : Obstacle}
    (isFound : obstacle value Json.writableNesting = some found) :
    write value = .error (.ofObstacle found) := by
  simp only [write, isFound]

/-- A value that is written, and kept as it is. -/
def Writable.kept {α : Type} [Writable α] (value : α) : Except Failure α :=
  (write value).map fun _ => value

end CardForm
