import CardForm.Service.Message
import CardForm.Template.Extract
import CardForm.Template.Store

/-!
# Routes

The web service for flows and templates. Every request is answered from itself alone; nothing is
kept. A path belongs to one endpoint, with or without slashes at its end, and an endpoint takes one
method. A request is answered only if it can be sent.
-/
namespace CardForm.Service

/-- What the service offers. -/
inductive Endpoint where
  /-- Tell that the service is there. -/
  | health
  /-- Check a flow. -/
  | validate
  /-- Give the field list of a flow. -/
  | linear
  /-- Lay out a flow as a chain. -/
  | chain
  /-- Lay out a flow from edge specifications. -/
  | build
  /-- Take the content of a field list into a flow. -/
  | merge
  /-- Import an envelope. -/
  | importEnvelope
  /-- Find an envelope in a text. -/
  | extract
  /-- Give the envelope of a stored form. -/
  | exportRecord
deriving DecidableEq

namespace Endpoint

/-- The endpoints. -/
def all : List Endpoint :=
  [health, validate, linear, chain, build, merge, importEnvelope, extract, exportRecord]

/-- The path of an endpoint. -/
def path : Endpoint → Text
  | health => "/"
  | validate => "/api/flowcharts/validate"
  | linear => "/api/flowcharts/schema"
  | chain => "/api/flowcharts/from-schema"
  | build => "/api/flowcharts/build"
  | merge => "/api/flowcharts/merge"
  | importEnvelope => "/api/templates/import"
  | extract => "/api/templates/extract"
  | exportRecord => "/api/templates/export"

/-- The method of an endpoint. -/
def method : Endpoint → Text
  | health => "GET"
  | _ => "POST"

end Endpoint

/-! ## Bodies -/

/-- The answer to a body that is read as an object. -/
def withObject {α : Type} (name : Text) (read : Members → Reading α) (body : Json)
    (answer : α → Response) : Response :=
  match Reading.record name read body with
  | .ok value => answer value
  | .faulty faults => .unfitBody faults

/-- Read a field list from the members of a body. -/
def fieldsIn (members : Members) : Reading (List Field) :=
  members.required Envelope.fieldsKey (.array Field.read)

/-- Read a viewport from the members of a body. -/
def viewportIn (members : Members) : Reading (Option Viewport) :=
  members.optional (.same "viewport") Viewport.read

/-- Read edge specifications from the members of a body. -/
def edgesIn (members : Members) : Reading (List EdgeSpec) :=
  members.required (.same "edges") (.array EdgeSpec.read)

/-! ## Answers -/

/-- What the service tells of itself. -/
def healthReport : Json :=
  .obj
    [("status", .str "ok"), ("version", .str "0.1.0"),
      ("endpoints", .obj
        [("flowcharts", .str "/api/flowcharts"), ("templates", .str "/api/templates")])]

/-- The answer to a flow that is to be checked. -/
def answerValidate (body : Json) : Response :=
  let defects := Flow.defects body
  .ok 1 (.obj
    [("valid", .bool defects.isEmpty),
      ("errors", .arr (defects.map fun defect => .str defect.text))])

/-- The answer to a flow whose field list is wanted. -/
def answerLinear (body : Json) : Response :=
  .ofResult 2 (Flow.load body >>= Flow.linear >>= Writable.write)

/-- The answer to a field list that is to be laid out as a chain. -/
def answerChain (body : Json) : Response :=
  withObject "FromSchemaRequest"
    (fun members => Prod.mk <$> fieldsIn members <*> viewportIn members)
    body fun (fields, viewport) => .ofResult 1 (Writable.write (Flow.chain fields viewport))

/-- The answer to a field list and edge specifications that are to be laid out. -/
def answerBuild (body : Json) : Response :=
  withObject "BuildRequest"
    (fun members =>
      (fun fields edges viewport => (fields, edges, viewport)) <$> fieldsIn members
        <*> edgesIn members <*> viewportIn members)
    body fun (fields, edges, viewport) =>
      .ofResult 1 (Writable.write (Flow.build fields edges viewport))

/-- The answer to a flow and a field list that are to be merged. -/
def answerMerge (body : Json) : Response :=
  withObject "MergeRequest"
    (fun members =>
      Prod.mk <$> members.required (.same "graph") .mapping <*> fieldsIn members)
    body fun (graph, fields) =>
      .ofResult 1 do
        let flow ← Flow.load (.obj graph)
        Writable.write (flow.merge fields)

/-- What an import sends back: the envelope, and its field list once more. -/
def importReport (envelope : Envelope) : Except Failure Json := do
  let template ← Writable.write envelope
  let fields ← Writable.write (envelope.fields.getD [])
  return .obj [("template", template), ("schema", fields)]

/-- The answer to an envelope that is to be imported. -/
def answerImport (body : Json) : Response := .ofResult 1 (Envelope.load body >>= importReport)

/-- How many characters a text may have to be searched. -/
def textLimit : Nat := 200000

/-- The answer to a text that is searched for an envelope. -/
def answerText (text : Text) : Response :=
  if textLimit < text.length then
    .refused 413 <| .str <|
      "Text too long: " ++ Text.ofNat text.length ++ " > " ++ Text.ofNat textLimit ++ " characters"
  else
    match Envelope.extract? text with
    | .ok (some envelope) => .ofResult 1 (Writable.write envelope)
    | .ok none => .refused 404 (.str "No card form JSON found in text")
    | .error failure => .ofFailure failure

/-- The answer to a body with a text that is to be searched. Other members do not count, whatever
their keys. -/
def answerExtract (body : Json) : Response :=
  match Reading.object (.record "ExtractRequest") (·.required (.same "text") .text) body with
  | .ok text => answerText text
  | .faulty faults => .unfitBody faults

/-- The answer to a stored form whose envelope is wanted. -/
def answerExport (body : Json) : Response :=
  withObject "FormTemplateRecord" Record.ofMembers body fun record =>
    .ofResult 1 (record.envelope >>= Writable.write)

/-- The answer of an endpoint to the value of a body. -/
def Endpoint.answerValue : Endpoint → Json → Response
  | health, _ => .ok 1 healthReport
  | validate, body => answerValidate body
  | linear, body => answerLinear body
  | chain, body => answerChain body
  | build, body => answerBuild body
  | merge, body => answerMerge body
  | importEnvelope, body => answerImport body
  | extract, body => answerExtract body
  | exportRecord, body => answerExport body

/-- The answer of an endpoint to a body. -/
def Endpoint.answer (endpoint : Endpoint) (body : Body) : Response :=
  if endpoint = .health then .ok 1 healthReport
  else
    match body.read with
    | .ok value => endpoint.answerValue value
    | .error response => response

/-! ## Requests -/

/-- Whether a path is that of an endpoint; a line feed may stand behind it. -/
def Endpoint.isAt (endpoint : Endpoint) (path : Text) : Bool :=
  path == endpoint.path || path == endpoint.path ++ "\n"

/-- A path without the slashes at its end. -/
def withoutSlashes (path : Text) : Text :=
  (path.reverse.dropWhile fun c : CodePoint => c == '/').reverse

/-- The endpoint of a path. Where there is none, slashes at the end of the path do not count. -/
def endpointAt? (path : Text) : Option Endpoint :=
  (Endpoint.all.find? (·.isAt path)).or (Endpoint.all.find? (·.isAt (withoutSlashes path)))

/-- The response to a method and a path, with its body also where the method wants none. -/
def fullResponse (method path : Text) (body : Body) : Response :=
  match endpointAt? path with
  | none => .refused 404 (.str "Not Found")
  | some endpoint =>
    if method = endpoint.method then endpoint.answer body
    else .refused 405 (.str "Method Not Allowed")

/-- The response to a method and a path. -/
def response (method path : Text) (body : Body) : Response :=
  if method = "HEAD" then { fullResponse method path body with body := .str "" }
  else fullResponse method path body

/-- Why a request cannot be sent to an address that has a path. -/
def Request.failure? (request : Request) : Option Failure :=
  match request.address.find? CodePoint.isSurrogate with
  | some c => some (.notEncodable 0 [c])
  | none => request.body.failure?

/-- The answer to a request. -/
def answer (request : Request) : Except Failure Response :=
  match Address.path request.address with
  | .error fault => .error (.badAddress fault)
  | .ok path =>
    match request.failure? with
    | some failure => .error failure
    | none => .ok (response request.method.toUpper path request.body)

end CardForm.Service
