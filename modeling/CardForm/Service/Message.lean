import CardForm.Failure
import CardForm.Json.Reader
import CardForm.Json.Writer

/-!
# Requests and responses

A request has a method, an address and perhaps a body, which is JSON or a text that should be JSON.
A response has a status and a body, which is JSON or, as a JSON text, a plain text. The reasons why
a body cannot be read, or why an operation has no result, are told in the member `detail`. A
response is broken when what it would tell cannot be sent as JSON.
-/
namespace CardForm.Service

/-- What a request carries. -/
inductive Body where
  /-- Nothing. -/
  | absent
  /-- A text that should be JSON. -/
  | text (text : Text)
  /-- A JSON value. -/
  | value (value : Json)

/-- A request. -/
structure Request where
  /-- What is asked, in letters of either case. -/
  method : Text
  /-- Of what it is asked. -/
  address : Text
  /-- What is sent along. -/
  body : Body

/-- A response. -/
structure Response where
  /-- How the request went. -/
  status : Nat
  /-- What is sent back. -/
  body : Json

namespace Response

/-- The response where the work failed in a way that is not foreseen. -/
def broken : Response := ⟨500, .str "Internal Server Error"⟩

/-- The response with a status and a body, if the body can be encoded. -/
def sent (status : Nat) (body : Json) : Response :=
  if body.isWellFormed then ⟨status, body⟩ else broken

/-- The response with a result. The first `uncounted` containers of the result do not count for its
depth. -/
def ok (uncounted : Nat) (result : Json) : Response :=
  if Json.writableNesting + uncounted < result.nesting then broken else sent 200 result.portable

/-- The response with a reason. -/
def refused (status : Nat) (detail : Json) : Response := sent status (.obj [("detail", detail)])

/-- The response to a body with faults, which also sends back the values found. -/
def unfitBody (faults : List Fault) : Response :=
  if faults.all fun fault => fault.found.isSendable then
    refused 422 <| .arr <| faults.map fun fault =>
      .str ((fault.under (.key "body")).message .request)
  else broken

/-- The response to a body that is not there. -/
def bodyMissing : Response := unfitBody [⟨[], .missing, .null⟩]

/-- The response to a body that is not JSON from a place on. -/
def notJson (place : Nat) : Response :=
  refused 422 (.arr [.str ("body." ++ Text.ofNat place ++ ": JSON decode error")])

/-- The response to a body that cannot be read for another reason. -/
def unreadable : Response := refused 400 (.str "There was an error parsing the body")

/-- The response to a flow, or a template with a flow, that is refused for some reasons. -/
def invalidFlow (reasons : List Reason) : Response :=
  refused 422 <| .obj
    [("message", .str "invalid flowchart graph"),
      ("errors", .arr (reasons.map fun reason => .str reason.text))]

/-- The response to an operation that failed. -/
def ofFailure : Failure → Response
  | .invalidFlow reasons => invalidFlow reasons
  | .notEnvelope => refused 400 (.str Failure.notEnvelope.message)
  | _ => broken

/-- The response to an operation, by the form of its result as JSON. -/
def ofResult (uncounted : Nat) : Except Failure Json → Response
  | .ok result => ok uncounted result
  | .error failure => ofFailure failure

end Response

namespace Body

/-- The failure to encode a text that is ill-formed. -/
def encodingFailure? (text : Text) : Option Failure :=
  (Encoding.unencodable? text).map fun (place, surrogates) => .notEncodable place surrogates

/-- Why a body cannot be sent. -/
def failure? : Body → Option Failure
  | absent => none
  | text raw => encodingFailure? raw
  | value json =>
    if json.isFinite then encodingFailure? (json.written Json.plainPoint) else some .notPortable

/-- The value of a body that is a text, or the response where there is none. An empty text counts as
absent. -/
def readText (raw : Text) : Except Response Json :=
  if raw.isEmpty then .error .bodyMissing
  else
    match Encoding.received raw with
    | none => .error .unreadable
    | some arrived =>
      match Json.read arrived with
      | .ok json => .ok json
      | .error refusal =>
        match refusal.offset? arrived with
        | some place => .error (.notJson place)
        | none => .error .unreadable

/-- The value of a body, or the response where there is none. -/
def read : Body → Except Response Json
  | absent => .error .bodyMissing
  | text raw => readText raw
  | value json => .ok json

end Body

end CardForm.Service
