import CardForm.Service.Routes

/-!
# The client

Operations on flows and templates that are carried out by the service. A client sends JSON, and
reads the result back from the JSON of the response; a refusal is told as the failure that it
stands for, any other status of an error by its number.
-/
namespace CardForm.Client

open Service

/-- Send a value to an endpoint. A null is sent as no body. -/
def send (endpoint : Endpoint) (payload : Json) : Except Failure Response :=
  answer ⟨endpoint.method, endpoint.path, if payload.isNull then .absent else .value payload⟩

/-- The texts of an array. -/
def texts : Json → List Text
  | .arr items => items.filterMap fun item =>
    match item with
    | .str s => some s
    | _ => none
  | _ => []

/-- The body of a response whose status tells of success. -/
def succeeded (response : Response) : Except Failure Json :=
  if response.status < 400 then .ok response.body else .error (.status response.status)

/-- The body of a response, where a refusal of a flow is told with its reasons. -/
def accepted (response : Response) : Except Failure Json :=
  match response.status, ((response.body.get "detail").get? "errors") with
  | 422, some reasons => .error (.invalidFlow ((texts reasons).map .reported))
  | _, _ => succeeded response

/-- The items of an array, each read by itself; the first that has faults fails. -/
def readEach {α : Type} (read : Json → Reading α) : List Json → Except Failure (List α)
  | [] => .ok []
  | item :: rest => do
    let first ← (read item).orUnfit
    let others ← readEach read rest
    return first :: others

/-- The texts of the defects of a flow. -/
def validate (flow : Json) : Except Failure (List Text) := do
  let body ← send .validate flow >>= succeeded
  return texts (body.get "errors")

/-- The field list of a flow. -/
def linear (flow : Json) : Except Failure (List Field) := do
  let body ← send .linear flow >>= accepted
  readEach Field.read (Check.items body)

/-- The flow of a field list and edge specifications. -/
def build (fields : List Field) (edges : List EdgeSpec) : Except Failure Flow := do
  let schema ← Writable.write fields
  let specs ← Writable.write edges
  let body ← send .build (.obj [("schema", schema), ("edges", specs)]) >>= succeeded
  (Flow.read body).orUnfit

/-- The body of a response to an import. -/
def imported (response : Response) : Except Failure Json :=
  if response.status = 400 then .error .notEnvelope else accepted response

/-- The envelope that a JSON value is. -/
def importEnvelope (value : Json) : Except Failure Envelope := do
  let body ← send .importEnvelope value >>= imported
  (Envelope.read (body.get "template")).orUnfit

/-- The envelope in a response to a search, if one was found. -/
def found (response : Response) : Except Failure (Option Envelope) :=
  if response.status = 404 then .ok none
  else do
    let body ← succeeded response
    (Envelope.read body).orUnfit.map some

/-- The first envelope in a text. -/
def extract? (text : Text) : Except Failure (Option Envelope) :=
  send .extract (.obj [("text", .str text)]) >>= found

/-- The envelope of a stored form. -/
def exportRecord (record : Record) : Except Failure Envelope := do
  let payload ← Writable.write record
  let body ← send .exportRecord payload >>= accepted
  (Envelope.read body).orUnfit

end CardForm.Client
