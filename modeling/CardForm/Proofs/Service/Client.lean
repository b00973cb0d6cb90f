import CardForm.Proofs.Service.Transport
import CardForm.Proofs.Template.Failures
import CardForm.Proofs.Template.Sent

/-!
# A client agrees with the operations themselves

Each call of a client writes what it is given, has it answered by the service, which reads it, carries
out the operation and writes the result, and reads that result. What comes back at the end has the form
of what the operation gives by itself, and a refusal is told with the texts of its reasons: for the field
list of a flow, for fields and edge specifications that are laid out, and for a value that is imported
(`Client.agrees_iff`). All three rest on the laws of the formats and on what reading back does not
change.

What is exported of a record is different in one place. The fields of the record are read back, but its
flow stands among the settings, which come back as they were, nulls included. So an entry and a card
that had equal media need not have them any more, and then the field in the card is given the media of
the entry (`Client.exists_export_changed`).
-/
namespace CardForm.Client

open Service

variable {flow : Flow} {fields : List Field} {edges : List EdgeSpec} {value : Json}
  {envelope : Envelope} {record : Record}

/-! ## The field list of a flow -/

/-- Values that were written one by one are read one by one. -/
theorem readEach_toJson {α : Type} {format : Format α} (exact : format.Exact) {values : List α}
    (valid : ∀ value ∈ values, format.Valid value)
    (once : ∀ value ∈ values, format.Each .once value) :
    readEach format.read (values.map format.toJson) = .ok (values.map format.reread) := by
  induction values with
  | nil => rfl
  | cons first rest ih =>
    rw [List.forall_mem_cons] at valid once
    have isRead : format.read (format.toJson first) = .ok (format.reread first) :=
      (exact.read_toJson once.1).2 ⟨valid.1, rfl⟩
    rw [List.map_cons, readEach, isRead, ih valid.2 once.2]
    rfl

/-- A flow whose field list is asked for. -/
structure SendsFlow (flow : Flow) : Prop where
  /-- It is tidy. -/
  tidy : Flow.format.Each .tidy flow
  /-- The copies of the kinds in the cards that it shows name known kinds. -/
  knows : ∀ node ∈ flow.shownNodes, node.KnowsKind
  /-- It shows no statement without a name. -/
  named : ¬flow.ShowsUnnamed
  /-- It can be sent. -/
  sendable : Sendable flow.toJson
  /-- What the service makes of it is conveyed. -/
  conveyed : Conveyed 2 (Flow.load flow.toJson >>= Flow.linear >>= Writable.write)

/-- A flow that can be written is sent, and the fields in the answer are read one by one. -/
theorem linear_eq (sends : SendsFlow flow) (writable : Writable.isWritable flow = true) :
    (Writable.write flow >>= linear) = accepted (answerLinear flow.toJson) >>= fun body =>
      readEach Field.read (Check.items body) := by
  have writes : Writable.write flow = .ok flow.toJson := Writable.write_of_isWritable writable
  have sent : send .linear flow.toJson = .ok (answerLinear flow.toJson) :=
    send_eq Endpoint.noConfusion (Flow.exact_format.toJson_ne_null flow) sends.sendable
  rw [writes]
  change (send .linear flow.toJson >>= accepted) >>= _ = _
  rw [sent]
  rfl

/-- The service finds the field list that a flow stands for where it loads what was sent. -/
theorem SendsFlow.answer_eq_ok (sends : SendsFlow flow) (writable : Writable.isWritable flow = true)
    (loads : Flow.load flow.toJson = .ok (Flow.format.reread flow))
    (isLinear : flow.linear = .ok fields) :
    Flow.load flow.toJson >>= Flow.linear >>= Writable.write = .ok (Field.listToJson fields) := by
  have free := Flow.obstacle_linear (Writable.isWritable_iff.1 writable) isLinear
  have againWritable : Writable.isWritable (fields.map Field.format.reread) = true :=
    Writable.isWritable_list_iff.2 <| List.forall_mem_map.2 fun field mem =>
      Field.unobstructed.isWritable_reread (Writable.isWritable_iff.2 (free field mem))
  have sameList := Flow.listToJson_reread_linear sends.tidy isLinear
  have again : (Flow.load flow.toJson >>= Flow.linear) = .ok (fields.map Field.format.reread) :=
    Failure.bind_eq_ok_iff.2 ⟨_, loads, Flow.linear_reread isLinear⟩
  exact Failure.bind_eq_ok_iff.2 ⟨_, again, Writable.write_eq_ok_iff.2 ⟨againWritable, sameList⟩⟩

/-- A client reads the field list that such a flow stands for. -/
theorem SendsFlow.readEach_linear (sends : SendsFlow flow) (valid : Flow.format.Valid flow)
    (isLinear : flow.linear = .ok fields) :
    readEach Field.read (fields.map Field.toJson) = .ok (fields.map Field.format.reread) := by
  have known := (Flow.known_linear_iff valid isLinear).2 sends.knows
  refine readEach_toJson Field.exact_format (fun field mem => ?_) fun field mem => ?_
  · exact (Flow.valid_linear_iff valid isLinear mem).2 (known field mem)
  · exact Field.exact_format.once_of_tidy (Flow.each_linear sends.tidy isLinear field mem)

/-- A client gives the field list of a flow that the check lets pass, and otherwise the reasons of the
check. -/
theorem agrees_linear (sends : SendsFlow flow) :
    Agrees (flow.reload >>= fun _ => flow.linear) (Writable.write flow >>= linear) := by
  cases isFound : Writable.obstacle flow Json.writableNesting with
  | none =>
    have writable : Writable.isWritable flow = true := Writable.isWritable_iff.2 isFound
    have reloads : flow.reload = Flow.load flow.toJson := by
      rw [Flow.reload, Writable.write_of_isWritable writable]
      rfl
    rw [linear_eq sends writable, reloads, answerLinear]
    cases loads : Flow.load flow.toJson with
    | error failure =>
      obtain ⟨reasons, rfl⟩ := Flow.exists_reasons_of_load loads
      have refuses : Flow.load flow.toJson >>= Flow.linear >>= Writable.write =
          .error (.invalidFlow reasons) := by rw [loads]; rfl
      change Agrees (.error _) (accepted (.ofResult 2 (.error (.invalidFlow reasons))) >>= _)
      rw [accepted_invalidFlow (sends.conveyed.reasons reasons refuses)]
      exact .refused (text_reported reasons)
    | ok again =>
      have once := Flow.exact_format.once_of_tidy sends.tidy
      obtain ⟨_, valid, rfl⟩ := (Flow.load_toJson_eq_ok_iff once).1 loads
      obtain ⟨fields, isLinear⟩ := Flow.exists_linear_of_named sends.named
      have answers := sends.answer_eq_ok writable loads isLinear
      have carries : Carries 2 (Field.listToJson fields) := sends.conveyed.result _ answers
      rw [loads] at answers
      rw [answers, accepted_ok carries]
      change Agrees flow.linear (readEach Field.read (fields.map Field.toJson))
      rw [sends.readEach_linear valid isLinear, isLinear]
      exact .result (Flow.listToJson_reread_linear sends.tidy isLinear)
  | some found =>
    have fails := Writable.write_of_obstacle isFound
    rw [Flow.reload, fails]
    exact .unwritten found

/-! ## Laying out -/

/-- What is sent of fields and edge specifications that are to be laid out. -/
def formJson (fields : List Field) (edges : List EdgeSpec) : Json :=
  .obj [("schema", Field.listToJson fields), ("edges", .arr (edges.map EdgeSpec.toJson))]

/-- Fields and edge specifications that are to be laid out. -/
structure SendsForm (fields : List Field) (edges : List EdgeSpec) : Prop where
  /-- The fields can be read. -/
  valid : ∀ field ∈ fields, Field.format.Valid field
  /-- They are tidy. -/
  tidy : ∀ field ∈ fields, Field.format.Each .tidy field
  /-- They can be written. -/
  writable : ∀ field ∈ fields, Writable.isWritable field = true
  /-- The edge specifications are tidy. -/
  edgesTidy : ∀ spec ∈ edges, EdgeSpec.format.Each .tidy spec
  /-- They can be written. -/
  edgesWritable : ∀ spec ∈ edges, Writable.isWritable spec = true
  /-- Both can be sent. -/
  sendable : Sendable (formJson fields edges)
  /-- What the service makes of them is conveyed. -/
  conveyed : Conveyed 1 (Writable.write (Flow.build fields edges none))

/-- The service reads the fields and the edge specifications that were sent. -/
theorem answerBuild_formJson (valid : ∀ field ∈ fields, Field.format.Valid field)
    (once : ∀ field ∈ fields, Field.format.Each .once field)
    (edgesOnce : ∀ spec ∈ edges, EdgeSpec.format.Each .once spec) :
    answerBuild (formJson fields edges) = .ofResult 1 (Writable.write
      (Flow.build (fields.map Field.format.reread) (edges.map EdgeSpec.format.reread) none)) := by
  let members : Members :=
    [("schema", Field.listToJson fields), ("edges", .arr (edges.map EdgeSpec.toJson))]
  have fieldsRead : fieldsIn members = .ok (fields.map Field.format.reread) := by
    have arrayRead : Reading.array Field.read (Field.listToJson fields) =
        .ok (fields.map Field.format.reread) :=
      ((Format.array_exact Field.exact_format).read_toJson once).2 ⟨valid, rfl⟩
    exact Members.required_eq_ok_iff.2 ⟨_, rfl, arrayRead⟩
  have edgesRead : edgesIn members = .ok (edges.map EdgeSpec.format.reread) := by
    have arrayRead : Reading.array EdgeSpec.read (.arr (edges.map EdgeSpec.toJson)) =
        .ok (edges.map EdgeSpec.format.reread) :=
      ((Format.array_exact EdgeSpec.exact_format).read_toJson edgesOnce).2
        ⟨fun spec _ => spec.valid, rfl⟩
    exact Members.required_eq_ok_iff.2 ⟨_, rfl, arrayRead⟩
  have isRead : Reading.record "BuildRequest"
      (fun members => (fun fields edges viewport => (fields, edges, viewport)) <$> fieldsIn members
        <*> edgesIn members <*> viewportIn members) (formJson fields edges) =
      .ok (fields.map Field.format.reread, edges.map EdgeSpec.format.reread, none) := by
    refine Reading.record_eq_ok_iff.2 ⟨members, rfl, ?_, ?_⟩
    · exact List.forall_mem_cons.2 ⟨Text.isWellFormed_ofString _,
        List.forall_mem_singleton.2 (Text.isWellFormed_ofString _)⟩
    · rw [fieldsRead, edgesRead]
      rfl
  rw [answerBuild, withObject, isRead]

/-- Fields and edge specifications that can be written are sent, and the flow in the answer is read. -/
theorem build_eq (sends : SendsForm fields edges) :
    build fields edges = succeeded (answerBuild (formJson fields edges)) >>= fun body =>
      (Flow.read body).orUnfit := by
  have writesFields : Writable.write fields = .ok (Field.listToJson fields) :=
    Writable.write_of_isWritable (Writable.isWritable_list_iff.2 sends.writable)
  have writesEdges : Writable.write edges = .ok (.arr (edges.map EdgeSpec.toJson)) :=
    Writable.write_of_isWritable (Writable.isWritable_list_iff.2 sends.edgesWritable)
  have sent : send .build (formJson fields edges) = .ok (answerBuild (formJson fields edges)) :=
    send_eq Endpoint.noConfusion Json.noConfusion sends.sendable
  rw [build, writesFields, writesEdges]
  change (send .build (formJson fields edges) >>= succeeded) >>= (fun body => _) = _
  rw [sent]
  rfl

/-- A client gives the flow of fields and edge specifications. -/
theorem agrees_build (sends : SendsForm fields edges) :
    Agrees (.ok (Flow.build fields edges none)) (build fields edges) := by
  have once (field : Field) (mem : field ∈ fields) : Field.format.Each .once field :=
    Field.exact_format.once_of_tidy (sends.tidy field mem)
  have edgesOnce (spec : EdgeSpec) (mem : spec ∈ edges) : EdgeSpec.format.Each .once spec :=
    EdgeSpec.exact_format.once_of_tidy (sends.edgesTidy spec mem)
  have tidy : Flow.format.Each .tidy (Flow.build fields edges none) :=
    Flow.each_build sends.tidy (fun spec mem => (EdgeSpec.each_iff.1 (sends.edgesTidy spec mem)).2)
      fun _ none => nomatch none
  have sameForm : (Flow.format.reread (Flow.build fields edges none)).toJson =
      (Flow.build fields edges none).toJson :=
    Flow.exact_format.toJson_reread_of_tidy tidy
  have writable : Writable.isWritable (Flow.build fields edges none) = true :=
    Flow.isWritable_build sends.writable sends.edgesWritable
  have again : Flow.build (fields.map Field.format.reread) (edges.map EdgeSpec.format.reread) none =
      Flow.format.reread (Flow.build fields edges none) := Flow.build_reread fields edges none
  have answers : answerBuild (formJson fields edges) =
      .ofResult 1 (.ok (Flow.build fields edges none).toJson) := by
    rw [answerBuild_formJson sends.valid once edgesOnce, again]
    have writes := Writable.write_eq_ok_iff.2 ⟨Flow.unobstructed.isWritable_reread writable, sameForm⟩
    exact congrArg (Response.ofResult 1) writes
  have carries : Carries 1 (Flow.build fields edges none).toJson :=
    sends.conveyed.result _ (Writable.write_of_isWritable writable)
  have reads : Flow.read (Flow.build fields edges none).toJson =
      .ok (Flow.format.reread (Flow.build fields edges none)) :=
    Flow.exact_format.read_toJson_of_tidy tidy (Flow.valid_build sends.valid)
  have gives : build fields edges = .ok (Flow.format.reread (Flow.build fields edges none)) := by
    rw [build_eq sends, answers, succeeded_ok carries]
    exact Reading.orUnfit_eq_ok_iff.2 reads
  rw [gives]
  exact .result sameForm

/-! ## Importing -/

/-- A value that is to be imported. -/
structure SendsEnvelope (value : Json) : Prop where
  /-- It is not null. -/
  notNull : value ≠ .null
  /-- Its numbers are finite. -/
  finite : value.isFinite = true
  /-- No object in it spells a declared key both ways. -/
  once : Envelope.format.SpellsOnce value
  /-- No flow in it goes past the check. -/
  checked : ¬Envelope.Unchecked value
  /-- It brings no statement without a name. -/
  named : ¬Envelope.BringsUnnamed value
  /-- The copies of the kinds in the cards that are shown name known kinds. -/
  knows : ∀ envelope, Envelope.load value = .ok envelope →
    ∀ flow ∈ envelope.flow, ∀ node ∈ flow.shownNodes, node.KnowsKind
  /-- What is imported can be written. -/
  writable : ∀ envelope, Envelope.load value = .ok envelope → Writable.isWritable envelope = true
  /-- It can be sent. -/
  sendable : Sendable value
  /-- What the service makes of it is conveyed. -/
  conveyed : Conveyed 1 (Envelope.load value >>= importReport)

/-- The report on an envelope with a field list that can be written. -/
theorem importReport_eq_ok (lists : envelope.fields = some fields)
    (writable : Writable.isWritable envelope = true) :
    importReport envelope =
      .ok (.obj [("template", envelope.toJson), ("schema", Field.listToJson fields)]) := by
  have free := Obstacle.first?_eq_none_iff.1 (Writable.isWritable_iff.1 writable)
  simp only [List.forall_mem_cons, lists] at free
  have writesFields : Writable.write (envelope.fields.getD []) = .ok (Field.listToJson fields) := by
    rw [lists]
    exact Writable.write_of_isWritable (Writable.isWritable_iff.2 free.2.1)
  exact Failure.bind_eq_ok_iff.2 ⟨_, Writable.write_of_isWritable writable,
    Failure.bind_eq_ok_iff.2 ⟨_, writesFields, rfl⟩⟩

/-- A value is sent to be imported, and the envelope in the report is read. -/
theorem importEnvelope_eq (sends : SendsEnvelope value) :
    importEnvelope value = imported (answerImport value) >>= fun body =>
      (Envelope.read (body.get "template")).orUnfit := by
  have sent : send .importEnvelope value = .ok (answerImport value) :=
    send_eq Endpoint.noConfusion sends.notNull sends.sendable
  rw [importEnvelope, sent]
  rfl

/-- What fails to be imported is refused. -/
theorem SendsEnvelope.refused {failure : Failure} (sends : SendsEnvelope value)
    (fails : Envelope.load value = .error failure) : failure ∈ Failure.templateRefusals := by
  have notLeaves := Envelope.leaves_load_iff.not.2 sends.named
  rw [fails, Failure.leaves_error_iff, not_not] at notLeaves
  exact notLeaves

/-- A client imports what can be imported, and otherwise tells the refusal. -/
theorem agrees_importEnvelope (sends : SendsEnvelope value) :
    Agrees (Envelope.load value) (importEnvelope value) := by
  rw [importEnvelope_eq sends, answerImport]
  cases loads : Envelope.load value with
  | error failure =>
    obtain rfl | ⟨reasons, rfl⟩ := sends.refused loads
    · exact .notEnvelope
    · have refuses : Envelope.load value >>= importReport = .error (.invalidFlow reasons) := by
        rw [loads]
        rfl
      change Agrees (.error _) (imported (.ofResult 1 (.error (.invalidFlow reasons))) >>= _)
      rw [imported_invalidFlow (sends.conveyed.reasons reasons refuses)]
      exact .refused (text_reported reasons)
  | ok envelope =>
    obtain ⟨flow, fields, settled⟩ :=
      Envelope.settled_of_load loads sends.finite sends.once sends.checked
    have known : ∀ field ∈ fields, field.kind ∈ FieldKind.known :=
      (Flow.known_linear_iff settled.valid settled.isLinear).2
        (sends.knows envelope loads flow settled.carries)
    have reports : importReport envelope =
        .ok (.obj [("template", envelope.toJson), ("schema", Field.listToJson fields)]) :=
      importReport_eq_ok settled.lists (sends.writable envelope loads)
    have carries : Carries 1 (.obj [("template", envelope.toJson),
        ("schema", Field.listToJson fields)]) := sends.conveyed.result _ (loads ▸ reports)
    have reads : Envelope.read envelope.toJson = .ok (Envelope.format.reread envelope) :=
      Envelope.exact_format.read_toJson_of_tidy settled.tidy (settled.valid_iff.2 known)
    have gives : (imported (.ofResult 1 (importReport envelope)) >>= fun body =>
        (Envelope.read (body.get "template")).orUnfit) = .ok (Envelope.format.reread envelope) := by
      rw [reports, imported_ok carries]
      exact Reading.orUnfit_eq_ok_iff.2 reads
    change Agrees (.ok envelope) (imported (.ofResult 1 (importReport envelope)) >>= _)
    rw [gives]
    exact .result (Envelope.exact_format.toJson_reread_of_tidy settled.tidy)

/-! ## Exporting -/

/-- A record whose envelope is asked for. -/
structure SendsRecord (record : Record) : Prop where
  /-- It can be read. -/
  valid : Record.format.Valid record
  /-- It is tidy. -/
  each : Record.format.Each .tidy record
  /-- What is stored in it, and read when it is opened, is tidy as well. -/
  tidy : record.Tidy
  /-- The keys in its settings are well-formed and distinct. -/
  keyed : Members.WellKeyed record.cardSettings
  /-- Its viewport is not needed, or it can be read. -/
  readable : ¬record.ViewportUnreadable
  /-- It can be written. -/
  writable : Writable.isWritable record = true
  /-- What the service exports of it can be written. -/
  writableSent : ∀ envelope, (Record.format.reread record).envelope = .ok envelope →
    Writable.isWritable envelope = true
  /-- It can be sent. -/
  sendable : Sendable record.toJson
  /-- What the service makes of it is conveyed. -/
  conveyed : Conveyed 1 ((Record.format.reread record).envelope >>= Writable.write)

/-- It comes back with its settings. -/
theorem SendsRecord.settings (sends : SendsRecord record) :
    (Record.format.reread record).cardSettings = record.cardSettings := by
  obtain ⟨_, _, settings, _⟩ := Record.each_iff.1 sends.each
  exact Record.cardSettings_reread (fun member mem => (settings member mem).2) sends.keyed

/-- A client asks for the envelope of a record as it is read where it was written. -/
theorem exportRecord_eq (sends : SendsRecord record) :
    exportRecord record =
      accepted (.ofResult 1 ((Record.format.reread record).envelope >>= Writable.write)) >>=
        fun body => (Envelope.read body).orUnfit := by
  have writes : Writable.write record = .ok record.toJson :=
    Writable.write_of_isWritable sends.writable
  have sent : send .exportRecord record.toJson = .ok (answerExport record.toJson) :=
    send_eq Endpoint.noConfusion (Record.exact_format.toJson_ne_null record) sends.sendable
  have reads : Reading.record "FormTemplateRecord" Record.ofMembers record.toJson =
      .ok (Record.format.reread record) :=
    Record.exact_format.read_toJson_of_tidy sends.each sends.valid
  have answers : answerExport record.toJson =
      .ofResult 1 ((Record.format.reread record).envelope >>= Writable.write) := by
    rw [answerExport, withObject, reads]
  rw [exportRecord, writes]
  change (send .exportRecord record.toJson >>= accepted) >>= _ = _
  rw [sent, answers]
  rfl

/-- What cannot be exported is refused. -/
theorem SendsRecord.refused {failure : Failure} (sends : SendsRecord record)
    (fails : record.flow = .error failure) : failure ∈ Failure.refusals := by
  have notLeaves := (Record.leaves_flow_iff Failure.told_refusals).not.2 sends.readable
  rw [fails, Failure.leaves_error_iff, not_not] at notLeaves
  exact notLeaves

/-- A client gives what the service exports of a record, as it is read where it was written. -/
theorem SendsRecord.exists_exported {sent : Flow} (sends : SendsRecord record)
    (opens : (Record.format.reread record).flow = .ok sent) :
    ∃ received, exportRecord record = .ok received ∧
      received.toJson = ((Record.format.reread record).envelopeWith sent).toJson := by
  have sentTidy : Flow.format.Each .tidy sent :=
    Record.tidy_flow (Record.tidy_reread sends.tidy sends.settings) opens
  have sentValid : Flow.format.Valid sent :=
    Record.valid_flow (Record.exact_format.valid_reread sends.valid) opens
  obtain ⟨_, _, settings, styling, scoring⟩ :=
    Record.each_iff.1 (Record.exact_format.each_reread sends.each)
  have tidy : Envelope.format.Each .tidy ((Record.format.reread record).envelopeWith sent) :=
    Record.each_envelopeWith sentTidy settings styling scoring
  have exports : (Record.format.reread record).envelope =
      .ok ((Record.format.reread record).envelopeWith sent) := by
    rw [Record.envelope, opens]
    rfl
  have writes : (Record.format.reread record).envelope >>= Writable.write =
      .ok ((Record.format.reread record).envelopeWith sent).toJson :=
    Failure.bind_eq_ok_iff.2 ⟨_, exports,
      Writable.write_of_isWritable (sends.writableSent _ exports)⟩
  have reads : Envelope.read ((Record.format.reread record).envelopeWith sent).toJson =
      .ok (Envelope.format.reread ((Record.format.reread record).envelopeWith sent)) :=
    Envelope.exact_format.read_toJson_of_tidy tidy (Record.valid_envelopeWith sentValid)
  refine ⟨_, ?_, Envelope.exact_format.toJson_reread_of_tidy tidy⟩
  rw [exportRecord_eq sends, writes, accepted_ok (sends.conveyed.result _ writes)]
  exact Reading.orUnfit_eq_ok_iff.2 reads

/-- A client exports what can be exported, and otherwise tells the refusal; what it gives has the same
form exactly where each card of the stored flow is brought the same media once the fields were sent. -/
theorem agrees_exportRecord_iff (sends : SendsRecord record) :
    Agrees record.envelope (exportRecord record) ↔ record.BringsAlike := by
  obtain ⟨fails, opens⟩ := Record.flow_reread_iff sends.tidy sends.settings
  cases isFlow : record.flow with
  | error failure =>
    obtain ⟨reasons, rfl⟩ := sends.refused isFlow
    have exports : record.envelope = .error (.invalidFlow reasons) := by
      rw [Record.envelope, isFlow]
      rfl
    have refuses : (Record.format.reread record).envelope >>= Writable.write =
        .error (.invalidFlow reasons) := by
      rw [Record.envelope, fails _ isFlow]
      rfl
    rw [exportRecord_eq sends, exports, refuses,
      accepted_invalidFlow (sends.conveyed.reasons reasons refuses)]
    refine iff_of_true (.refused (text_reported reasons)) fun stored holds flow loads => ?_
    cases isFlow.symm.trans (Record.flow_of_holds holds loads)
  | ok flow =>
    obtain ⟨sent, isSent, sameFlow⟩ := opens flow isFlow
    obtain ⟨received, gives, sameForm⟩ := sends.exists_exported isSent
    have kept {other : Record} {any : Flow} (tidy : other.Tidy) (isAny : other.flow = .ok any) :
        Flow.format.Each .kept any :=
      Flow.exact_format.kept_of_tidy (Record.tidy_flow tidy isAny)
    have exports : record.envelope = .ok (record.envelopeWith flow) := by
      rw [Record.envelope, isFlow]
      rfl
    rw [exports, gives, agrees_ok_iff]
    change received.toJson = (record.envelopeWith flow).toJson ↔ _
    rw [sameForm, Record.toJson_envelopeWith_iff sends.settings
      (kept (Record.tidy_reread sends.tidy sends.settings) isSent) (kept sends.tidy isFlow), sameFlow]

/-! ## All that a client gives -/

/-- A client gives the field list of a flow, the flow of fields and edge specifications, and what is
imported of a value, or it tells the refusal, just as these are given without a service. What is exported
of a record it gives so exactly where each card of the stored flow is brought the same media once the
fields were sent. -/
theorem agrees_iff (flow : Flow) (fields : List Field) (edges : List EdgeSpec) (value : Json)
    (record : Record) :
    (SendsFlow flow →
      Agrees (flow.reload >>= fun _ => flow.linear) (Writable.write flow >>= linear)) ∧
    (SendsForm fields edges → Agrees (.ok (Flow.build fields edges none)) (build fields edges)) ∧
    (SendsEnvelope value → Agrees (Envelope.load value) (importEnvelope value)) ∧
    (SendsRecord record →
      (Agrees record.envelope (exportRecord record) ↔ record.BringsAlike)) :=
  ⟨agrees_linear, agrees_build, agrees_importEnvelope, agrees_exportRecord_iff⟩

/-! ## A card with an icon -/

/-- The chain through a card with an icon can be sent. -/
theorem sendsFlow_illustrated : SendsFlow Flow.illustrated where
  tidy := Flow.each_illustrated
  knows := (Flow.known_linear_iff (Flow.valid_of_load Flow.load_illustrated)
    Flow.linear_illustrated).1 (List.forall_mem_singleton.2 (by decide))
  named := Flow.exists_linear_iff.1 ⟨_, Flow.linear_illustrated⟩
  sendable := by decide +kernel
  conveyed := by
    have writes : Writable.write [Field.pictured "q" .above] =
        .ok (Field.listToJson [.pictured "q" .above]) :=
      Writable.write_of_isWritable (by decide +kernel)
    refine conveyed_ok (Failure.bind_eq_ok_iff.2 ⟨_, Failure.bind_eq_ok_iff.2
      ⟨_, Flow.load_illustrated, Flow.linear_illustrated⟩, writes⟩) ?_
    exact ⟨by decide +kernel, rfl, by decide +kernel⟩

/-- A field and an edge specification to it are laid out as the chain through the field. -/
theorem build_bare : Flow.build [.bare "q"] [⟨"start", "q", none, []⟩] none =
    Flow.chain [.bare "q"] none := by
  have order : Ends.discovery [("start", "q")] = ([("q" : Text)] : List Text) := by
    have rest : Ends.discoveryFrom [("start", "q")] [("q" : Text), ("start" : Text)] [] = [] := by
      rw [Ends.discoveryFrom]
    change Ends.discoveryFrom [("start", "q")] [("start" : Text)] [("q" : Text)] = [("q" : Text)]
    rw [Ends.discoveryFrom, if_neg (by decide)]
    exact congrArg (List.cons ("q" : Text)) rest
  have fields : Flow.reachedFields [.bare "q"] [⟨"start", "q", none, []⟩] = [.bare "q"] := by
    change (Ends.discovery [("start", "q")]).filterMap _ = _
    rw [order]
    rfl
  have reached : Flow.reachedBy [⟨"start", "q", none, []⟩] = [("start" : Text), ("q" : Text)] := by
    change Ends.reachableFrom [("start", "q")] [("start" : Text)] [("start" : Text)] = _
    rw [Ends.reachableFrom, if_neg (by decide)]
    change Ends.reachableFrom _ [("start" : Text), ("q" : Text)] [("q" : Text)] = _
    rw [Ends.reachableFrom, if_pos (by decide), Ends.reachableFrom]
  rw [Flow.build, fields]
  change Flow.mk _ (Edge.ofSpecs (Flow.repaired _ (Flow.reachedBy [⟨"start", "q", none, []⟩]) _ _))
    _ _ = _
  rw [reached]
  rfl

/-- They can be sent. -/
theorem sendsForm_bare : SendsForm [.bare "q"] [⟨"start", "q", none, []⟩] where
  valid := Field.valid_bare ["q"] (by decide)
  tidy := List.forall_mem_singleton.2 (Field.each_bare "q")
  writable := List.forall_mem_singleton.2 (by decide +kernel)
  edgesTidy := List.forall_mem_singleton.2
    (EdgeSpec.each_iff.2 ⟨Demand.tidy.extras_nil _, fun _ none => nomatch none⟩)
  edgesWritable := List.forall_mem_singleton.2 (by decide +kernel)
  sendable := by decide +kernel
  conveyed := by
    rw [build_bare]
    refine conveyed_ok (Writable.write_of_isWritable (by decide +kernel)) ?_
    exact ⟨by decide +kernel, rfl, by decide +kernel⟩

/-- A field list with a note can be sent to be imported. -/
theorem sendsEnvelope_noted : SendsEnvelope (Envelope.notedSchema (.str "draft")) where
  notNull := Json.noConfusion
  finite := Envelope.isFinite_notedSchema _
  once := Envelope.spellsOnce_notedSchema _
  checked unchecked := unchecked.2 rfl
  named := by
    refine Envelope.leaves_load_iff.not.1 ?_
    rw [Envelope.load_notedSchema]
    exact Failure.not_leaves_ok
  knows envelope loads := by
    cases (Envelope.load_notedSchema _).symm.trans loads
    exact Envelope.knowsKind_noted _
  writable envelope loads := by
    cases (Envelope.load_notedSchema _).symm.trans loads
    decide +kernel
  sendable := by decide +kernel
  conveyed := by
    have reports : importReport (Envelope.noted (.str "draft")) = _ :=
      importReport_eq_ok rfl (by decide +kernel)
    refine conveyed_ok (Failure.bind_eq_ok_iff.2 ⟨_, Envelope.load_notedSchema _, reports⟩) ?_
    exact ⟨by decide +kernel, rfl, by decide +kernel⟩

/-- A record with one field and a stored value. -/
def holding (field : Field) (stored : Json) : Record where
  fields := [field]
  cardSettings := [(Record.flowSetting, stored)]

section Holding

variable {field : Field} {stored : Json}

/-- The keys of its settings are well-formed and distinct. -/
theorem wellKeyed_holding (field : Field) (stored : Json) :
    Members.WellKeyed (holding field stored).cardSettings where
  distinct := List.nodup_singleton _
  wellFormed := List.forall_mem_singleton.2 (Text.isWellFormed_ofString _)

/-- What the service exports of it, where the stored value is a flow. -/
theorem envelope_reread_holding (field : Field) (loads : Flow.load stored = .ok flow)
    (finite : stored.isFinite = true) :
    (Record.format.reread (holding field stored)).envelope =
      .ok ((Record.format.reread (holding field stored)).envelopeWith
        (flow.merge [Field.format.reread field])) := by
  have holds : (holding field stored).cardSettings.get? Record.flowSetting = some stored := rfl
  have finiteSettings : ∀ member ∈ (holding field stored).cardSettings, member.2.isFinite = true :=
    List.forall_mem_singleton.2 finite
  have settings := Record.cardSettings_reread finiteSettings (wellKeyed_holding field stored)
  have opens : (Record.format.reread (holding field stored)).flow =
      .ok (flow.merge [Field.format.reread field]) :=
    Record.flow_of_holds (settings ▸ holds) loads
  rw [Record.envelope, opens]
  rfl

/-- Such a record can be sent where the stored value is a flow. -/
theorem sendsRecord_holding (valid : Field.format.Valid field)
    (tidy : Field.format.Each .tidy field) (loads : Flow.load stored = .ok flow)
    (flowTidy : Flow.format.Each .tidy flow) (finite : stored.isFinite = true)
    (writable : Writable.isWritable (holding field stored) = true)
    (sentWritable : Writable.isWritable (flow.merge [Field.format.reread field]) = true)
    (sendable : Sendable (holding field stored).toJson)
    (carries : Carries 1 ((Record.format.reread (holding field stored)).envelopeWith
      (flow.merge [Field.format.reread field])).toJson) : SendsRecord (holding field stored) := by
  have exports := envelope_reread_holding field loads finite
  have again : Writable.isWritable ((Record.format.reread (holding field stored)).envelopeWith
      (flow.merge [Field.format.reread field])) = true :=
    Record.isWritable_envelopeWith (Record.unobstructed.isWritable_reread writable) sentWritable
  have each : Record.format.Each .tidy (holding field stored) :=
    Record.each_iff.2 ⟨Demand.tidy.extras_nil _, List.forall_mem_singleton.2 tidy,
      List.forall_mem_singleton.2 ⟨trivial, finite⟩, fun _ none => (nomatch none),
      fun _ none => (nomatch none)⟩
  have storedTidy : (holding field stored).Tidy := by
    refine ⟨List.forall_mem_singleton.2 tidy, ?_, fun _ none => (nomatch none)⟩
    rintro _ ⟨⟩ other isRead
    cases (Flow.load_eq_ok_iff.1 loads).2.symm.trans isRead
    exact flowTidy
  refine ⟨Record.valid_iff.2 (List.forall_mem_singleton.2 valid), each, storedTidy,
    wellKeyed_holding field stored, fun unreadable => Flow.ne_null_of_load loads unreadable.1,
    writable, ?_, sendable, conveyed_ok
      (Failure.bind_eq_ok_iff.2 ⟨_, exports, Writable.write_of_isWritable again⟩) carries⟩
  intro envelope isEnvelope
  cases exports.symm.trans isEnvelope
  exact again

end Holding

/-- The record in which the chain through a card with an icon is stored can be sent. -/
theorem sendsRecord_illustrated :
    SendsRecord (holding (.pictured "q" .above) Flow.illustrated.toJson) :=
  sendsRecord_holding (Field.valid_pictured _ _) (Field.each_pictured _ _) Flow.load_illustrated
    Flow.each_illustrated (by decide +kernel) (by decide +kernel) (by decide +kernel)
    (by decide +kernel) ⟨by decide +kernel, rfl, by decide +kernel⟩

/-- A client gives what is given without a service of a chain through a card, of the field list of one,
of such a list with a note, and of a record in which such a chain is stored. -/
theorem agrees_illustrated :
    Agrees (Flow.illustrated.reload >>= fun _ => Flow.illustrated.linear)
        (Writable.write Flow.illustrated >>= linear) ∧
      Agrees (.ok (Flow.build [.bare "q"] [⟨"start", "q", none, []⟩] none))
        (build [.bare "q"] [⟨"start", "q", none, []⟩]) ∧
      Agrees (Envelope.load (Envelope.notedSchema (.str "draft")))
        (importEnvelope (Envelope.notedSchema (.str "draft"))) ∧
      Agrees (holding (.pictured "q" .above) Flow.illustrated.toJson).envelope
        (exportRecord (holding (.pictured "q" .above) Flow.illustrated.toJson)) := by
  obtain ⟨linears, builds, imports, exports⟩ := agrees_iff Flow.illustrated [.bare "q"]
    [⟨"start", "q", none, []⟩] (Envelope.notedSchema (.str "draft"))
    (holding (.pictured "q" .above) Flow.illustrated.toJson)
  refine ⟨linears sendsFlow_illustrated, builds sendsForm_bare, imports sendsEnvelope_noted,
    (exports sendsRecord_illustrated).2 ?_⟩
  rintro _ ⟨⟩ flow loads
  cases Flow.load_illustrated.symm.trans loads
  rintro node (_ | ⟨_, _ | ⟨_, _ | ⟨_, ⟨⟩⟩⟩⟩) entry isGiven
  · cases isGiven
  · cases isGiven
    rintro own ⟨⟩ new ⟨⟩
    exact .inl rfl
  · cases isGiven

/-! ## A card with media that do not come back -/

/-- The record in which the chain with the null is stored, beside the field that is shown there, can be
sent. -/
theorem sendsRecord_tinted :
    SendsRecord (holding Record.tintedData.shownField Record.tintedJson) := by
  have isLinear := Flow.linear_posed Record.tintedData
  have valid : Field.format.Valid Record.tintedData.shownField :=
    (Flow.valid_linear_iff (Flow.valid_of_load Record.load_tintedJson) isLinear
      List.mem_cons_self).2 (by decide)
  exact sendsRecord_holding valid
    (Flow.each_linear Record.tidy_posed_tinted isLinear _ List.mem_cons_self) Record.load_tintedJson
    Record.tidy_posed_tinted (by decide +kernel) (by decide +kernel) (by decide +kernel)
    (by decide +kernel) ⟨by decide +kernel, rfl, by decide +kernel⟩

/-- A client does not give what is given without a service of that record: the field comes back without
the null, and so the card is given media that it was not given before. -/
theorem exists_export_changed :
    ∃ record, SendsRecord record ∧ ¬Agrees record.envelope (exportRecord record) := by
  refine ⟨_, sendsRecord_tinted, fun agrees => ?_⟩
  have bringsAlike := (agrees_exportRecord_iff sendsRecord_tinted).1 agrees
  have inNodes : Node.question ⟨"q", Flow.inColumn (.int Flow.firstY), Record.tintedData, []⟩ ∈
      (Flow.posed Record.tintedData).nodes := List.mem_cons_of_mem _ List.mem_cons_self
  obtain same | media :=
    bringsAlike _ rfl _ Record.load_tintedJson _ inNodes _ rfl Record.tinted rfl Record.tinted rfl
  · exact absurd same (by decide)
  · cases media

end CardForm.Client
