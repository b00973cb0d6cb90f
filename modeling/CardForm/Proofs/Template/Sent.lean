import CardForm.Proofs.Flow.Sent
import CardForm.Proofs.Template.Exchange

/-!
# Exporting a form that was sent

A form that is sent comes back with the settings that it had, where these have finite numbers and keys
that can be sent, and with its fields as they are read. So it is opened where it was opened before, with
a flow of the same form as JSON exactly where each card of its stored flow is brought the same media
(`Record.flow_reread_iff`), and so it is with what is exported of it (`Record.toJson_envelopeWith_iff`).
-/
namespace CardForm.Record

variable {record : Record} {flow sent : Flow} {demand : Demand}

/-! ## What is sent -/

/-- Settings with finite numbers come back as they were where their keys are distinct and well-formed. -/
theorem cardSettings_reread (finite : ∀ member ∈ record.cardSettings, member.2.isFinite = true)
    (keyed : Members.WellKeyed record.cardSettings) :
    (format.reread record).cardSettings = record.cardSettings :=
  Members.portable_eq_self keyed (Json.haveFinite_iff.2 finite)

/-- A tidy record that comes back with its settings is tidy. -/
theorem tidy_reread (tidy : record.Tidy)
    (settings : (format.reread record).cardSettings = record.cardSettings) :
    (format.reread record).Tidy where
  fields := List.forall_mem_map.2 fun field mem =>
    Field.exact_format.each_reread (tidy.fields field mem)
  flow := settings ▸ tidy.flow
  viewport := settings ▸ tidy.viewport

/-- The flow of a record whose fields can be read once they were written can be read once it was
written. -/
theorem valid_flow (valid : format.Valid record) (opens : record.flow = .ok flow) :
    Flow.format.Valid flow := by
  have fieldsValid := valid_iff.1 valid
  unfold Record.flow at opens
  split at opens
  · obtain ⟨viewport, _, rfl⟩ := Failure.map_eq_ok_iff.1 opens
    exact Flow.valid_chain fieldsValid
  · obtain ⟨stored, loads, rfl⟩ := Failure.map_eq_ok_iff.1 opens
    exact Flow.valid_merge (Flow.valid_of_load loads) fieldsValid

/-! ## Opening -/

/-- Each card of the stored flow is brought the media that it was brought before, by the entry that it
takes, once the fields were sent. -/
def BringsAlike (record : Record) : Prop :=
  ∀ stored ∈ record.cardSettings.get? flowSetting, ∀ flow, Flow.load stored = .ok flow →
    ∀ node ∈ flow.nodes, ∀ entry ∈ node.given? record.fields, node.BringsAlike entry

/-- A chain through fields that were sent has the form of the chain through the fields. -/
theorem toJson_chain_sent {fields : List Field} {viewport : Option Viewport}
    (finite : Flow.format.Each .finite (Flow.chain fields viewport)) :
    (Flow.chain (fields.map Field.format.reread) viewport).toJson =
      (Flow.chain fields viewport).toJson := by
  obtain ⟨_, _, _, viewportFinite⟩ := Flow.each_iff.1 finite
  have sameViewport : (viewport.map Viewport.format.reread).map Viewport.toJson =
      viewport.map Viewport.toJson := Viewport.exact_format.map_toJson_reread viewportFinite
  have again : (Flow.chain (fields.map Field.format.reread)
      (viewport.map Viewport.format.reread)).toJson = (Flow.chain fields viewport).toJson := by
    rw [Flow.chain_reread]
    exact Flow.exact_format.toJson_reread finite
  rw [← again]
  unfold Flow.toJson
  change _ = Members.written [_, _, (_, (viewport.map Viewport.format.reread).map _)] _
  rw [sameViewport]
  rfl

/-- Where no flow is stored, no card is brought anything. -/
theorem bringsAlike_of_null (isNull : (Json.obj record.cardSettings).get flowSetting = .null) :
    record.BringsAlike := by
  intro stored holds flow loads
  have notNull := Flow.ne_null_of_load loads
  have found : (Json.obj record.cardSettings).get flowSetting = stored :=
    (Check.get_eq_iff notNull).2 holds
  exact absurd (found.symm.trans isNull) notNull

/-- A record without a stored flow that comes back with its settings is opened where it was opened
before, with a flow of the same form, and fails otherwise as it did. -/
theorem flow_reread_of_null (tidy : record.Tidy)
    (settings : (format.reread record).cardSettings = record.cardSettings)
    (isNull : (Json.obj record.cardSettings).get flowSetting = .null) :
    (∀ failure, record.flow = .error failure → (format.reread record).flow = .error failure) ∧
      ∀ flow, record.flow = .ok flow →
        ∃ sent, (format.reread record).flow = .ok sent ∧ sent.toJson = flow.toJson := by
  have sameViewport : (format.reread record).storedViewport = record.storedViewport := by
    rw [storedViewport, settings]
    rfl
  have sentFlow : (format.reread record).flow =
      record.storedViewport.map (Flow.chain (record.fields.map Field.format.reread)) := by
    rw [← sameViewport]
    exact flow_of_null (settings ▸ isNull)
  rw [sentFlow, flow_of_null isNull]
  constructor
  · intro failure fails
    cases shows : record.storedViewport with
    | ok viewport => cases shows ▸ fails
    | error other =>
      cases shows ▸ fails
      rfl
  · intro flow opens
    obtain ⟨viewport, shows, rfl⟩ := Failure.map_eq_ok_iff.1 opens
    have flowTidy := tidy_flow tidy ((flow_of_null isNull).trans opens)
    exact ⟨_, congrArg (Except.map _) shows,
      toJson_chain_sent (Flow.exact_format.finite_of_tidy flowTidy)⟩

/-- A record with a stored flow that comes back with its settings is opened where it was opened before,
and fails otherwise as it did. The flow that is opened has the same form exactly where each card is
brought the same media. -/
theorem flow_reread_of_stored {stored : Json} (tidy : record.Tidy)
    (settings : (format.reread record).cardSettings = record.cardSettings)
    (holds : record.cardSettings.get? flowSetting = some stored) (notNull : stored ≠ .null) :
    (∀ failure, record.flow = .error failure → (format.reread record).flow = .error failure) ∧
      ∀ flow, record.flow = .ok flow → ∃ sent, (format.reread record).flow = .ok sent ∧
        (sent.toJson = flow.toJson ↔ record.BringsAlike) := by
  have sentFlow : (format.reread record).flow =
      (Flow.load stored).map fun flow => flow.merge (record.fields.map Field.format.reread) :=
    flow_of_stored (settings ▸ holds) notNull
  rw [sentFlow, flow_of_stored holds notNull]
  cases loads : Flow.load stored with
  | error failure => exact ⟨fun _ same => same, fun flow none => nomatch none⟩
  | ok loaded =>
    have isRead : Flow.read stored = .ok loaded := (Flow.load_eq_ok_iff.1 loads).2
    have loadedTidy := tidy.flow stored holds loaded isRead
    have alike : record.BringsAlike ↔
        ∀ node ∈ loaded.nodes, ∀ entry ∈ node.given? record.fields, node.BringsAlike entry := by
      refine ⟨fun alike => alike stored holds loaded loads, fun alike other isOther flow isLoaded => ?_⟩
      cases holds.symm.trans isOther
      cases loads.symm.trans isLoaded
      exact alike
    refine ⟨fun failure none => (nomatch none), ?_⟩
    rintro _ ⟨⟩
    exact ⟨_, rfl, (Flow.toJson_merge_sent_iff loadedTidy tidy.fields).trans alike.symm⟩

/-- A tidy record that comes back with its settings is opened where it was opened before, and fails
otherwise as it did. The flow that is opened has the same form exactly where each card is brought the same
media. -/
theorem flow_reread_iff (tidy : record.Tidy)
    (settings : (format.reread record).cardSettings = record.cardSettings) :
    (∀ failure, record.flow = .error failure → (format.reread record).flow = .error failure) ∧
      ∀ flow, record.flow = .ok flow → ∃ sent, (format.reread record).flow = .ok sent ∧
        (sent.toJson = flow.toJson ↔ record.BringsAlike) := by
  by_cases isNull : (Json.obj record.cardSettings).get flowSetting = .null
  · obtain ⟨fails, opens⟩ := flow_reread_of_null tidy settings isNull
    refine ⟨fails, fun flow isFlow => ?_⟩
    obtain ⟨sent, isSent, same⟩ := opens flow isFlow
    exact ⟨sent, isSent, iff_of_true same (bringsAlike_of_null isNull)⟩
  · exact flow_reread_of_stored tidy settings ((Check.get_eq_iff isNull).1 rfl) isNull

/-! ## Exporting -/

/-- What is exported of a record that comes back with its settings has the form of what is exported of
the record exactly where the flows have the same form. -/
theorem toJson_envelopeWith_iff
    (settings : (format.reread record).cardSettings = record.cardSettings)
    (sentKept : Flow.format.Each .kept sent) (flowKept : Flow.format.Each .kept flow) :
    ((format.reread record).envelopeWith sent).toJson = (record.envelopeWith flow).toJson ↔
      sent.toJson = flow.toJson := by
  have kept {other : Record} {any : Flow} (anyKept : Flow.format.Each .kept any) :
      Envelope.format.Each .kept (other.envelopeWith any) :=
    each_envelopeWith anyKept (fun _ _ => trivial) (fun _ _ _ _ => trivial) fun _ _ _ _ => trivial
  have inParts : ⟨Envelope.flowKey, .optional Flow.format, Envelope.flow⟩ ∈ Envelope.shape.parts := by
    simp [Envelope.shape]
  have carries {other : Record} {any : Flow} (anyKept : Flow.format.Each .kept any) :
      (other.envelopeWith any).toJson.get? Envelope.flowKey.camel = some any.toJson :=
    Envelope.describes.get?_toJson inParts (kept anyKept)
  constructor
  · intro same
    have found := congrArg (·.get? Envelope.flowKey.camel) same
    exact Option.some.inj ((carries sentKept).symm.trans (found.trans (carries flowKept)))
  · intro same
    have styling := map_mappingToJson_portable record.styling
    have scoring := map_mappingToJson_portable record.profileEstimation
    unfold Envelope.toJson envelopeWith
    rw [settings]
    change Members.written [_, _, _, _, _, (_, some sent.toJson), _, _, _,
      (_, (record.styling.map Members.portable).map _),
      (_, (record.profileEstimation.map Members.portable).map _)] _ = _
    rw [same, styling, scoring]
    rfl

end CardForm.Record
