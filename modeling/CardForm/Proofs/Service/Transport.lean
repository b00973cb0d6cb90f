import CardForm.Service.Client

/-!
# Requests that are carried

A request that can be sent reaches the endpoint of its path, which answers to the value that was sent
(`Client.send_eq`). A response brings a result as it is where nothing in it is too deep, ill-formed or not
portable (`Service.Carries`), and a client finds in a refusal the texts of its reasons. So what a client
gives can agree with what is given without a service (`Client.Agrees`).
-/
namespace CardForm

/-! ## Texts that can be sent -/

/-- Items have well-formed texts where each of them has. -/
theorem Json.areWellFormed_iff {items : List Json} :
    areWellFormed items = true ↔ ∀ item ∈ items, item.isWellFormed = true := by
  induction items with
  | nil => simp [areWellFormed]
  | cons item rest ih =>
    rw [areWellFormed, Bool.and_eq_true, ih, List.forall_mem_cons]

namespace Service

variable {uncounted : Nat} {result payload : Json} {endpoint : Endpoint} {reasons : List Reason}

/-! ## Requests -/

/-- A request with a value can be sent. -/
def Sendable (payload : Json) : Prop := (Body.value payload).failure? = none

instance (payload : Json) : Decidable (Sendable payload) :=
  inferInstanceAs (Decidable ((Body.value payload).failure? = none))

/-- The address of an endpoint is its path. -/
theorem Endpoint.address_path (endpoint : Endpoint) :
    Address.path endpoint.path = .ok endpoint.path := by
  cases endpoint <;> rfl

/-- The path of an endpoint can be sent. -/
theorem Endpoint.find?_isSurrogate (endpoint : Endpoint) :
    endpoint.path.find? CodePoint.isSurrogate = none := by
  cases endpoint <;> decide +kernel

/-- An endpoint is found at its path. -/
theorem endpointAt?_path (endpoint : Endpoint) : endpointAt? endpoint.path = some endpoint := by
  cases endpoint <;> decide +kernel

/-- All endpoints but one take what is sent. -/
theorem Endpoint.method_eq (other : endpoint ≠ .health) : endpoint.method = "POST" := by
  cases endpoint with
  | health => exact absurd rfl other
  | _ => rfl

/-- An endpoint answers to the value that is sent to its path. -/
theorem response_eq (other : endpoint ≠ .health) :
    response endpoint.method.toUpper endpoint.path (.value payload) =
      endpoint.answerValue payload := by
  have isPost := Endpoint.method_eq other
  have upper : ("POST" : Text).toUpper = "POST" := by decide
  have notHead : ("POST" : Text) ≠ "HEAD" := by decide
  have full : fullResponse "POST" endpoint.path (.value payload) = endpoint.answerValue payload := by
    rw [fullResponse, endpointAt?_path]
    change (if _ then _ else _) = _
    rw [if_pos isPost.symm, Endpoint.answer, if_neg other]
    rfl
  rw [isPost, upper, response, if_neg notHead, full]

/-! ## Responses -/

/-- A result is brought as it is: it is not too deep, its numbers are finite, and its keys and texts are
well-formed. -/
structure Carries (uncounted : Nat) (result : Json) : Prop where
  /-- It is not too deep. -/
  shallow : result.nesting ≤ Json.writableNesting + uncounted
  /-- It is its own portable form, as its numbers are finite. -/
  portable : result.portable = result
  /-- Its keys and its texts are well-formed. -/
  wellFormed : result.isWellFormed = true

/-- A response brings such a result as it is. -/
theorem Carries.ok_eq (carries : Carries uncounted result) :
    Response.ok uncounted result = ⟨200, result⟩ := by
  rw [Response.ok, if_neg (Nat.not_lt.2 carries.shallow), carries.portable, Response.sent,
    if_pos carries.wellFormed]

/-- What an endpoint makes of a request is told by its response: a result is brought as it is, and the
texts of a refusal are well-formed. -/
structure Conveyed (uncounted : Nat) (outcome : Except Failure Json) : Prop where
  /-- A result is brought as it is. -/
  result : ∀ json, outcome = .ok json → Carries uncounted json
  /-- The reasons of a refusal have well-formed texts. -/
  reasons : ∀ reasons, outcome = .error (.invalidFlow reasons) →
    ∀ reason ∈ reasons, reason.text.isWellFormed = true

/-- A result that is brought as it is, is conveyed. -/
theorem conveyed_ok {outcome : Except Failure Json} (isOk : outcome = .ok result)
    (carries : Carries uncounted result) : Conveyed uncounted outcome where
  result json same := by
    cases isOk.symm.trans same
    exact carries
  reasons reasons same := nomatch isOk.symm.trans same

/-- A refusal whose reasons have well-formed texts is sent. -/
theorem Response.invalidFlow_eq (wellFormed : ∀ reason ∈ reasons, reason.text.isWellFormed = true) :
    Response.invalidFlow reasons = ⟨422, .obj [("detail", .obj
      [("message", .str "invalid flowchart graph"),
        ("errors", .arr (reasons.map fun reason => .str reason.text))])]⟩ := by
  have texts : Json.areWellFormed (reasons.map fun reason => .str reason.text) = true :=
    Json.areWellFormed_iff.2 (List.forall_mem_map.2 wellFormed)
  refine if_pos ?_
  simp [Json.isWellFormed, Json.haveWellFormed, texts]

end Service

namespace Client

open Service

variable {endpoint : Endpoint} {payload json : Json} {uncounted : Nat} {reasons : List Reason}

/-- What is sent to an endpoint is answered by that endpoint. -/
theorem send_eq (other : endpoint ≠ .health) (notNull : payload ≠ .null)
    (sendable : Sendable payload) : send endpoint payload = .ok (endpoint.answerValue payload) := by
  have isValue : payload.isNull = false := by
    cases payload with
    | null => exact absurd rfl notNull
    | _ => rfl
  have noFailure : Request.failure? ⟨endpoint.method, endpoint.path, .value payload⟩ = none := by
    rw [Request.failure?, endpoint.find?_isSurrogate]
    exact sendable
  rw [send, isValue, if_neg Bool.noConfusion]
  simp only [answer, endpoint.address_path, noFailure, response_eq other]

/-- The reasons of a refusal as a client is told of them. -/
def reported (reasons : List Reason) : List Reason := reasons.map fun reason => .reported reason.text

/-- They have the texts that they had. -/
theorem text_reported (reasons : List Reason) :
    (reported reasons).map Reason.text = reasons.map Reason.text := by
  rw [reported, List.map_map]
  rfl

/-- The texts of an array of texts are found again. -/
theorem texts_map_str (found : List Text) : texts (.arr (found.map .str)) = found := by
  rw [texts, List.filterMap_map]
  exact List.filterMap_some

/-- A result that is brought is accepted. -/
theorem accepted_ok (carries : Carries uncounted json) :
    accepted (.ofResult uncounted (.ok json)) = .ok json := by
  rw [Response.ofResult, carries.ok_eq]
  rfl

/-- A result that is brought tells of success. -/
theorem succeeded_ok (carries : Carries uncounted json) :
    succeeded (.ofResult uncounted (.ok json)) = .ok json := by
  rw [Response.ofResult, carries.ok_eq]
  rfl

/-- A refusal is told with its reasons. -/
theorem accepted_invalidFlow (wellFormed : ∀ reason ∈ reasons, reason.text.isWellFormed = true) :
    accepted (.ofResult uncounted (.error (.invalidFlow reasons))) =
      .error (.invalidFlow (reported reasons)) := by
  have items : (reasons.map fun reason => Json.str reason.text) =
      (reasons.map Reason.text).map .str := by
    rw [List.map_map]
    rfl
  rw [Response.ofResult, Response.ofFailure, Response.invalidFlow_eq wellFormed, items]
  change Except.error (Failure.invalidFlow ((texts (.arr _)).map .reported)) = _
  rw [texts_map_str, reported, List.map_map]
  rfl

/-- A result of an import that is brought is accepted. -/
theorem imported_ok (carries : Carries uncounted json) :
    imported (.ofResult uncounted (.ok json)) = .ok json := by
  have status : (Response.ofResult uncounted (.ok json)).status ≠ 400 := by
    rw [Response.ofResult, carries.ok_eq]
    exact (by decide : 200 ≠ 400)
  rw [imported, if_neg status, accepted_ok carries]

/-- A refusal of an import is told with its reasons. -/
theorem imported_invalidFlow (wellFormed : ∀ reason ∈ reasons, reason.text.isWellFormed = true) :
    imported (.ofResult uncounted (.error (.invalidFlow reasons))) =
      .error (.invalidFlow (reported reasons)) := by
  have status :
      (Response.ofResult uncounted (.error (.invalidFlow reasons))).status ≠ 400 := by
    rw [Response.ofResult, Response.ofFailure, Response.invalidFlow_eq wellFormed]
    exact (by decide : 422 ≠ 400)
  rw [imported, if_neg status, accepted_invalidFlow wellFormed]

/-! ## Agreement -/

/-- What a client gives agrees with what is given without a service: a result of the same form as JSON, a
refusal of a flow with reasons of the same texts, or one of the failures that a client tells apart by
themselves. -/
inductive Agrees {α : Type} [Writable α] : Except Failure α → Except Failure α → Prop where
  /-- Both give a result, of the same form as JSON. -/
  | result {value received : α} (same : Writable.toJson received = Writable.toJson value) :
      Agrees (.ok value) (.ok received)
  /-- Both refuse a flow, with reasons of the same texts. -/
  | refused {reasons told : List Reason} (same : told.map Reason.text = reasons.map Reason.text) :
      Agrees (.error (.invalidFlow reasons)) (.error (.invalidFlow told))
  /-- Both fail because a value is no envelope. -/
  | notEnvelope : Agrees (.error .notEnvelope) (.error .notEnvelope)
  /-- Both fail because a value cannot be written, for the same obstacle. -/
  | unwritten (found : Obstacle) :
      Agrees (.error (.ofObstacle found)) (.error (.ofObstacle found))

/-- Two results agree where they have the same form as JSON. -/
theorem agrees_ok_iff {α : Type} [Writable α] {value received : α} :
    Agrees (.ok value) (.ok received) ↔ Writable.toJson received = Writable.toJson value := by
  refine ⟨fun agrees => ?_, .result⟩
  cases agrees with
  | result same => exact same

end Client

end CardForm
