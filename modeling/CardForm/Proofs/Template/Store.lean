import CardForm.Proofs.Flow.Chain
import CardForm.Proofs.Template.Import
import CardForm.Proofs.Written.Obstacle
import CardForm.Template.Session

/-!
# The stored copies of a form agree

A record stores the flow of a form, its viewport and its field list. After each step that saves,
applies or edits, these agree, whatever was stored before (`Record.agrees_after`). Saving writes
all three of one loaded flow; that they still agree with what is read of the stored flow, rests on
the laws of the formats. So what a run has to keep is that whatever is stored is tidy
(`Record.Tidy`): no object in it spells a declared key both ways, and its numbers are finite.
-/
namespace CardForm

/-- Whatever is read of a JSON value is tidy. That is so where its numbers are finite and no object in
it that is read spells a declared key both ways (`Format.Exact.readsTidy_of_isFinite`). -/
def Format.ReadsTidy {α : Type} (format : Format α) (found : Json) : Prop :=
  ∀ value, format.read found = .ok value → format.Each .tidy value

namespace Format.Exact

variable {α : Type} {format : Format α}

/-- What is read is tidy where all numbers are finite and no object that is read spells a declared key
both ways. -/
theorem readsTidy_of_isFinite (exact : format.Exact) {found : Json} (finite : found.isFinite = true)
    (once : ∀ value, format.read found = .ok value → format.Each .once value) :
    format.ReadsTidy found := fun value isRead =>
  exact.each_both (once value isRead) (exact.finite_of_read finite isRead)

/-- What is read of a tidy value that was written is tidy. -/
theorem readsTidy_toJson (exact : format.Exact) {value : α} (tidy : format.Each .tidy value) :
    format.ReadsTidy (format.toJson value) := by
  intro result isRead
  obtain ⟨_, rfl⟩ := (exact.read_toJson (exact.mono Demand.tidy_implies_once tidy)).1 isRead
  exact exact.each_reread tidy

end Format.Exact

namespace Record

variable {record next : Record} {flow : Flow}

/-! ## What is asked of a run -/

/-- Whatever is stored of a form, and read when its flow is opened, is tidy. -/
structure Tidy (record : Record) : Prop where
  /-- The fields are. -/
  fields : ∀ field ∈ record.fields, Field.format.Each .tidy field
  /-- The flow is. -/
  flow : ∀ stored ∈ record.cardSettings.get? flowSetting, Flow.format.ReadsTidy stored
  /-- The viewport is. -/
  viewport : ∀ stored ∈ record.cardSettings.get? viewportSetting, Viewport.format.ReadsTidy stored

end Record

/-- Null is not loaded. -/
theorem Flow.ne_null_of_load {value : Json} {flow : Flow} (loads : load value = .ok flow) :
    value ≠ .null := by
  rintro rfl
  cases loads

/-- The parts of an envelope of which a flow is made are tidy. -/
structure Envelope.Tidy (envelope : Envelope) : Prop where
  /-- The flow is. -/
  flow : ∀ flow ∈ envelope.flow, Flow.format.Each .tidy flow
  /-- The fields are. -/
  fields : ∀ fields ∈ envelope.fields, ∀ field ∈ fields, Field.format.Each .tidy field
  /-- The edge specifications are. -/
  edges : ∀ specs ∈ envelope.edges, ∀ spec ∈ specs, EdgeSpec.format.Each .tidy spec

namespace Record

variable {record next : Record} {flow again : Flow} {fields : List Field} {envelope : Envelope}
  {stored : Json} {step : Step}

/-- A step of a run saves, edits or applies something tidy. Writing the record and reading it again,
with members overlaid, is no step of a run. -/
def Step.Tidy : Step → Prop
  | .saveJson value => Flow.format.ReadsTidy value
  | .save flow => Flow.format.Each .tidy flow
  | .edit step => ∀ edit ∈ step, edit.Each .tidy
  | .apply envelope => envelope.Tidy
  | .reload _ => False

/-! ## What a step does -/

/-- The stored flow has no defect, is loaded, and agrees with the stored field list and the stored
viewport. -/
structure Agrees (record : Record) (stored : Json) (again : Flow) : Prop where
  /-- The flow is stored. -/
  holds : record.cardSettings.get? flowSetting = some stored
  /-- The check finds no defect in it. -/
  noDefect : Flow.defects stored = []
  /-- It is loaded. -/
  loads : Flow.load stored = .ok again
  /-- The field list is written as the one that the loaded flow stands for. -/
  fields : ∃ fields, again.linear = .ok fields ∧
    Field.listToJson record.fields = Field.listToJson fields
  /-- A viewport is stored where the stored flow has one, and it is that one. -/
  viewport : record.cardSettings.get? viewportSetting = stored.get? "viewport"
  /-- It is the one that the loaded flow has. -/
  viewportAgain :
    record.cardSettings.get? viewportSetting = again.viewport.map Viewport.toJson

/-- Nothing but the field list, the stored flow and the stored viewport is changed. -/
structure Keeps (record next : Record) : Prop where
  /-- The other parts are kept. -/
  parts : next = { record with fields := next.fields, cardSettings := next.cardSettings }
  /-- The other card settings are kept. -/
  settings : ∀ key, key ≠ flowSetting → key ≠ viewportSetting →
    next.cardSettings.get? key = record.cardSettings.get? key

/-- What saving makes of a record. -/
structure Saved (record next : Record) : Prop where
  /-- It is tidy. -/
  tidy : next.Tidy
  /-- Its stored copies agree. -/
  agrees : ∃ stored again, next.Agrees stored again
  /-- The rest is kept. -/
  keeps : record.Keeps next

/-- The card settings with a flow and a viewport have these, and the others as they were. -/
theorem get?_settingsWith (settings : Members) (written : Json) (viewport : Option Viewport)
    (key : Text) :
    (settingsWith settings written viewport).get? key =
      if viewportSetting = key then viewport.map Viewport.toJson
      else if flowSetting = key then some written else settings.get? key := by
  unfold settingsWith
  cases viewport with
  | none =>
    rw [Members.get?_erase, Members.get?_put]
    rfl
  | some viewport =>
    rw [Members.get?_put, Members.get?_put]
    rfl

/-- A flow is stored where it stands for a field list and can be written. -/
theorem withFlow_eq_ok_iff :
    record.withFlow flow = .ok next ↔ ∃ fields, flow.linear = .ok fields ∧
      Writable.isWritable flow = true ∧
      next = { record with
        fields := fields
        cardSettings := settingsWith record.cardSettings flow.toJson flow.viewport } := by
  constructor
  · intro stores
    obtain ⟨fields, isLinear, rest⟩ := Failure.bind_eq_ok_iff.1 stores
    obtain ⟨written, writes, isNext⟩ := Failure.bind_eq_ok_iff.1 rest
    obtain ⟨writable, rfl⟩ := Writable.write_eq_ok_iff.1 writes
    exact ⟨fields, isLinear, writable, (Except.ok.inj isNext).symm⟩
  · rintro ⟨fields, isLinear, writable, rfl⟩
    exact Failure.bind_eq_ok_iff.2 ⟨fields, isLinear, Failure.bind_eq_ok_iff.2
      ⟨_, Writable.write_of_isWritable writable, rfl⟩⟩

/-- A sound flow that is stored is saved. -/
theorem saved_of_withFlow (sound : flow.Sound) (valid : Flow.format.Valid flow)
    (tidy : Flow.format.Each .tidy flow) (stores : record.withFlow flow = .ok next) :
    record.Saved next := by
  have once := Flow.exact_format.mono Demand.tidy_implies_once tidy
  have kept := Flow.exact_format.mono Demand.once_implies_kept once
  obtain ⟨_, _, _, viewportTidy⟩ := Flow.each_iff.1 tidy
  obtain ⟨fields, isLinear, _, rfl⟩ := withFlow_eq_ok_iff.1 stores
  have fieldsTidy := Flow.each_linear tidy isLinear
  have holds : (settingsWith record.cardSettings flow.toJson flow.viewport).get? flowSetting =
      some flow.toJson := by
    rw [get?_settingsWith, if_neg (by decide), if_pos rfl]
  have viewport : (settingsWith record.cardSettings flow.toJson flow.viewport).get? viewportSetting =
      flow.viewport.map Viewport.toJson := by
    rw [get?_settingsWith, if_pos rfl]
  refine ⟨⟨fieldsTidy, ?_, ?_⟩, ⟨flow.toJson, Flow.format.reread flow, ?_⟩, ⟨rfl, ?_⟩⟩
  · intro stored isStored
    cases holds.symm.trans isStored
    exact Flow.exact_format.readsTidy_toJson tidy
  · intro stored isStored
    obtain ⟨shown, isShown, rfl⟩ := Option.map_eq_some_iff.1 (viewport.symm.trans isStored)
    exact Viewport.exact_format.readsTidy_toJson (viewportTidy shown isShown)
  · constructor
    · exact holds
    · exact (Flow.defects_toJson_eq_nil_iff (Flow.each_iff.1 kept).2.1).2 sound
    · exact (Flow.load_toJson_eq_ok_iff once).2 ⟨sound, valid, rfl⟩
    · refine ⟨_, Flow.linear_reread isLinear, (Field.listToJson_reread fun field mem => ?_).symm⟩
      exact Field.exact_format.mono Demand.tidy_implies_finite (fieldsTidy field mem)
    · exact viewport.trans
        (Flow.describes.get?_toJson (List.mem_iff_getElem?.2 ⟨2, rfl⟩) kept).symm
    · exact viewport.trans
        (Flow.viewport_reread (Flow.exact_format.mono Demand.tidy_implies_finite tidy)).symm
  · intro key notFlow notViewport
    rw [get?_settingsWith, if_neg (Ne.symm notViewport), if_neg (Ne.symm notFlow)]

/-- A flow given as JSON, of which what is read is tidy, is saved. -/
theorem saved_of_saveJson {value : Json} (tidy : Flow.format.ReadsTidy value)
    (saves : record.saveJson value = .ok next) :
    record.Saved next := by
  obtain ⟨flow, loads, stores⟩ := Failure.bind_eq_ok_iff.1 saves
  obtain ⟨_, isRead⟩ := Flow.load_eq_ok_iff.1 loads
  exact saved_of_withFlow (Flow.sound_of_load loads) (Flow.exact_format.valid_of_read isRead)
    (tidy flow isRead) stores

/-- A tidy flow is saved. -/
theorem saved_of_save (tidy : Flow.format.Each .tidy flow) (saves : record.save flow = .ok next) :
    record.Saved next := by
  obtain ⟨written, writes, saves⟩ := Failure.bind_eq_ok_iff.1 saves
  obtain ⟨_, rfl⟩ := Writable.write_eq_ok_iff.1 writes
  exact saved_of_saveJson (Flow.exact_format.readsTidy_toJson tidy) saves

/-- A step that saves what is loaded of a JSON value: the value itself, or what is written of a
flow. -/
def Step.SavesJson (value : Json) : Step → Prop
  | .saveJson given => given = value
  | .save flow => flow.toJson = value
  | _ => False

/-- Such a step stores the flow that is loaded. -/
theorem withFlow_of_savesJson {value : Json} (loads : Flow.load value = .ok flow)
    (saves : step.SavesJson value) (changes : record.changed step = .ok next) :
    record.withFlow flow = .ok next := by
  have savesJson : record.saveJson value = .ok next := by
    cases step with
    | saveJson given => exact saves ▸ changes
    | save given =>
      obtain ⟨written, writes, saved⟩ := Failure.bind_eq_ok_iff.1 changes
      obtain ⟨_, rfl⟩ := Writable.write_eq_ok_iff.1 writes
      exact saves ▸ saved
    | _ => exact saves.elim
  obtain ⟨loaded, isLoaded, stores⟩ := Failure.bind_eq_ok_iff.1 savesJson
  cases loads.symm.trans isLoaded
  exact stores

/-- A sound flow that can be read once it was written is saved as it is read. -/
theorem save_eq_ok (sound : flow.Sound) (valid : Flow.format.Valid flow)
    (tidy : Flow.format.Each .tidy flow) (writable : Writable.isWritable flow = true)
    (isLinear : flow.linear = .ok fields) :
    record.save flow = .ok { record with
      fields := fields.map Field.format.reread
      cardSettings := settingsWith record.cardSettings flow.toJson
        (Flow.format.reread flow).viewport } := by
  have loads := Flow.load_toJson_of_tidy tidy sound valid
  have sameForm : (Flow.format.reread flow).toJson = flow.toJson :=
    Flow.exact_format.toJson_reread_of_tidy tidy
  refine Failure.bind_eq_ok_iff.2 ⟨_, Writable.write_of_isWritable writable,
    Failure.bind_eq_ok_iff.2 ⟨_, loads, withFlow_eq_ok_iff.2
      ⟨_, Flow.linear_reread isLinear, Flow.unobstructed.isWritable_reread writable, ?_⟩⟩⟩
  rw [sameForm]

/-- A record without a stored flow is opened as the chain through its fields. -/
theorem flow_of_null (isNull : (Json.obj record.cardSettings).get flowSetting = .null) :
    record.flow = record.storedViewport.map (Flow.chain record.fields) := by
  rw [flow, isNull]

/-- A record with a stored value is opened as what is loaded of it, with the content of the field
list. -/
theorem flow_of_stored (holds : record.cardSettings.get? flowSetting = some stored)
    (notNull : stored ≠ .null) :
    record.flow = (Flow.load stored).map fun flow => flow.merge record.fields := by
  have found : (Json.obj record.cardSettings).get flowSetting = stored :=
    (Check.get_eq_iff notNull).2 holds
  unfold Record.flow
  split
  · rename_i isNull
    exact absurd (found.symm.trans isNull) notNull
  · rw [found]

/-- The flow of a record with a stored flow is that flow with the content of the field list. -/
theorem flow_of_holds (holds : record.cardSettings.get? flowSetting = some stored)
    (loads : Flow.load stored = .ok again) : record.flow = .ok (again.merge record.fields) := by
  rw [flow_of_stored holds (Flow.ne_null_of_load loads), loads]
  rfl

/-- The flow of a tidy record is tidy. -/
theorem tidy_flow (tidy : record.Tidy) (opens : record.flow = .ok flow) :
    Flow.format.Each .tidy flow := by
  unfold Record.flow at opens
  split at opens
  · obtain ⟨viewport, isStored, rfl⟩ := Failure.map_eq_ok_iff.1 opens
    refine Flow.each_chain tidy.fields fun shown isShown => ?_
    unfold storedViewport at isStored
    split at isStored
    · rename_i members isObject
      obtain ⟨found, isRead, rfl⟩ := Failure.map_eq_ok_iff.1 isStored
      cases isShown
      have notNull : (Json.obj record.cardSettings).get viewportSetting ≠ .null := by
        rw [isObject]
        exact Json.noConfusion
      have inSettings := (Check.get_eq_iff notNull).1 rfl
      rw [isObject] at inSettings
      exact tidy.viewport _ inSettings _ (Reading.orUnfit_eq_ok_iff.1 isRead)
    · cases isStored
      cases isShown
  · rename_i value notNull
    obtain ⟨loaded, loads, rfl⟩ := Failure.map_eq_ok_iff.1 opens
    exact Flow.each_merge (tidy.flow _ ((Check.get_eq_iff notNull).1 rfl) loaded
      (Flow.load_eq_ok_iff.1 loads).2) tidy.fields

/-- The flow of a tidy record that is opened and edited is saved. -/
theorem saved_of_edited {edit : Option Flow.Step} (tidy : record.Tidy)
    (tidyEdit : ∀ step ∈ edit, step.Each .tidy) (edits : record.edited edit = .ok next) :
    record.Saved next := by
  obtain ⟨flow, opens, rest⟩ := Failure.bind_eq_ok_iff.1 edits
  have flowTidy := tidy_flow tidy opens
  cases edit with
  | none => exact saved_of_save flowTidy rest
  | some step =>
    obtain ⟨changed, steps, saves⟩ := Failure.bind_eq_ok_iff.1 rest
    exact saved_of_save
      (Flow.each_step Demand.tidy_implies_once flowTidy (tidyEdit step rfl) steps) saves

/-- Applying a tidy envelope leaves a tidy record whose stored copies agree. -/
theorem agrees_of_apply (tidy : envelope.Tidy) (applies : record.apply envelope = .ok next) :
    next.Tidy ∧ ∃ stored again, next.Agrees stored again := by
  have flowTidy : Flow.format.Each .tidy (envelope.flow.getD envelope.expanded) := by
    cases same : envelope.flow with
    | some flow => exact tidy.flow flow same
    | none =>
      exact Envelope.each_expanded tidy.fields fun specs isSpecs spec mem =>
        (EdgeSpec.each_iff.1 (tidy.edges specs isSpecs spec mem)).2
  obtain ⟨nextTidy, agrees, _⟩ := saved_of_save flowTidy applies
  exact ⟨nextTidy, agrees⟩

/-! ## Runs -/

/-- What a step makes of a tidy record is tidy, its stored copies agree, and the rest of the record is
kept unless an envelope was applied. -/
theorem agrees_of_changed (tidy : record.Tidy) (tidyStep : step.Tidy)
    (changes : record.changed step = .ok next) :
    next.Tidy ∧ (∃ stored again, next.Agrees stored again) ∧
      ((∀ envelope, step ≠ .apply envelope) → record.Keeps next) := by
  cases step with
  | saveJson value =>
    obtain ⟨nextTidy, agrees, keeps⟩ := saved_of_saveJson tidyStep changes
    exact ⟨nextTidy, agrees, fun _ => keeps⟩
  | save flow =>
    obtain ⟨nextTidy, agrees, keeps⟩ := saved_of_save tidyStep changes
    exact ⟨nextTidy, agrees, fun _ => keeps⟩
  | edit edit =>
    obtain ⟨nextTidy, agrees, keeps⟩ := saved_of_edited tidy tidyStep changes
    exact ⟨nextTidy, agrees, fun _ => keeps⟩
  | apply envelope =>
    obtain ⟨nextTidy, agrees⟩ := agrees_of_apply tidyStep changes
    exact ⟨nextTidy, agrees, fun noApply => absurd rfl (noApply envelope)⟩
  | reload overlay => exact tidyStep.elim

/-- A run of tidy steps leaves a tidy record. -/
theorem tidy_after {steps : List Step} (tidy : record.Tidy) (tidySteps : ∀ step ∈ steps, step.Tidy) :
    (record.after steps).Tidy := by
  induction steps generalizing record with
  | nil => exact tidy
  | cons step rest ih =>
    rw [List.forall_mem_cons] at tidySteps
    refine ih ?_ tidySteps.2
    unfold attempted
    split
    · exact (agrees_of_changed tidy tidySteps.1 ‹_›).1
    · exact tidy

/-- After each step that succeeds, in a run of tidy steps from a tidy record, the stored copies agree,
and the rest of the record is kept unless an envelope was applied. -/
theorem agrees_after {steps : List Step} (tidy : record.Tidy)
    (tidySteps : ∀ step ∈ steps, step.Tidy) (tidyStep : step.Tidy)
    (changes : (record.after steps).changed step = .ok next) :
    (∃ stored again, next.Agrees stored again) ∧
      ((∀ envelope, step ≠ .apply envelope) → (record.after steps).Keeps next) :=
  (agrees_of_changed (tidy_after tidy tidySteps) tidyStep changes).2

/-! ## A chain that is saved, applied and edited -/

/-- A chain through fields that can be read once they were written is saved as it is read. -/
theorem save_chain {viewport : Option Viewport} (valid : ∀ field ∈ fields, Field.format.Valid field)
    (tidy : ∀ field ∈ fields, Field.format.Each .tidy field)
    (viewportTidy : ∀ shown ∈ viewport, Viewport.format.Each .tidy shown)
    (writable : Writable.isWritable (Flow.chain fields viewport) = true) :
    record.save (Flow.chain fields viewport) = .ok { record with
      fields := ((Flow.cardFields fields).map Field.keptInChain).map Field.format.reread
      cardSettings := settingsWith record.cardSettings (Flow.chain fields viewport).toJson
        (viewport.map Viewport.format.reread) } := by
  have named : ∀ field ∈ Flow.cardFields fields, Format.name.Valid field.id := fun field mem =>
    (Field.valid_iff.1 (valid field (Flow.mem_firstsAfter mem).1)).1
  exact save_eq_ok (Flow.sound_chain valid viewport) (Flow.valid_chain valid)
    (Flow.each_chain tidy viewportTidy) writable (Flow.linear_chain viewport named)

/-- A record in which the chain through some fields is stored. -/
def withChain (record : Record) (fields : List Field) (viewport : Option Viewport) : Record :=
  { record with
    fields := fields
    cardSettings := settingsWith record.cardSettings (Flow.chain fields viewport).toJson viewport }

/-- A part of the canvas. -/
def frame : Viewport := ⟨.int 40, .int 0, .int 2, []⟩

/-- A form with a field, a theme and a viewport, in which no flow is stored. -/
def themed : Record where
  fields := [.bare "a"]
  cardSettings := [("theme", .str "dark"), (viewportSetting, frame.toJson)]

/-- Two questions. -/
def pair : List Field := [.bare "a", .bare "b"]

/-- An envelope with a chain through them, a title and another theme. -/
def offer : Envelope where
  title := some "Survey"
  flow := some (Flow.chain pair (some frame))
  cardSettings := some [("theme", .str "light")]

/-- Another label for the second question. -/
def relabelled : Field := { Field.bare "b" with label := "B" }

section

variable (record)

/-- The frame is tidy. -/
theorem tidy_frame : ∀ shown ∈ some frame, Viewport.format.Each .tidy shown := by
  rintro _ ⟨⟩
  exact Viewport.each_iff.2 (Demand.tidy.extras_nil _)

/-- The form is tidy. -/
theorem tidy_themed : themed.Tidy where
  fields := List.forall_mem_singleton.2 (Field.each_bare "a")
  flow _ none := nomatch none
  viewport := by
    rintro _ ⟨⟩
    exact Viewport.exact_format.readsTidy_toJson (tidy_frame _ rfl)

/-- The questions can be read once they were written. -/
theorem valid_pair : ∀ field ∈ pair, Field.format.Valid field :=
  Field.valid_bare ["a", "b"] (by decide)

/-- They are tidy. -/
theorem tidy_pair : ∀ field ∈ pair, Field.format.Each .tidy field :=
  List.forall_mem_cons.2 ⟨Field.each_bare "a", List.forall_mem_singleton.2 (Field.each_bare "b")⟩

/-- The chain through them is tidy. -/
theorem tidy_chain_pair : Flow.format.Each .tidy (Flow.chain pair (some frame)) :=
  Flow.each_chain tidy_pair tidy_frame

/-- With the other label the second question can still be read once it was written. -/
theorem valid_relabelled : Field.format.Valid relabelled := by
  obtain ⟨name, known, parts⟩ :=
    Field.valid_iff.1 (valid_pair (.bare "b") (List.mem_cons_of_mem _ List.mem_cons_self))
  exact Field.valid_iff.2 ⟨name, known, parts⟩

/-- It is tidy. -/
theorem tidy_relabelled : Field.format.Each .tidy relabelled := by
  obtain ⟨extras, parts⟩ :=
    Field.each_iff.1 (tidy_pair (.bare "b") (List.mem_cons_of_mem _ List.mem_cons_self))
  exact Field.each_iff.2 ⟨extras, parts⟩

/-- The envelope can be applied to any record. -/
theorem apply_offer : record.changed (.apply offer) =
    .ok ((record.overlaid offer).withChain pair (some frame)) :=
  save_chain valid_pair tidy_pair tidy_frame (by decide +kernel)

/-- Where the chain is stored, the second question is given the other label. -/
theorem edit_pair : (record.withChain pair (some frame)).changed (.edit (some (.merge [relabelled]))) =
    .ok ((record.withChain pair (some frame)).withChain [.bare "a", relabelled] (some frame)) := by
  have holds : (record.withChain pair (some frame)).cardSettings.get? flowSetting =
      some (Flow.chain pair (some frame)).toJson := by
    rw [withChain, get?_settingsWith, if_neg (by decide), if_pos rfl]
  have opens : (record.withChain pair (some frame)).flow = .ok (Flow.chain pair (some frame)) :=
    flow_of_holds holds (Flow.load_toJson_of_tidy tidy_chain_pair (Flow.sound_chain valid_pair _)
      (Flow.valid_chain valid_pair))
  have labels : (Flow.chain pair (some frame)).step (.merge [relabelled]) =
      .ok (Flow.chain [.bare "a", relabelled] (some frame)) :=
    Failure.bind_eq_ok_iff.2 ⟨_, rfl, Failure.map_eq_ok_iff.2
      ⟨_, Writable.write_of_isWritable (by decide +kernel), rfl⟩⟩
  refine Failure.bind_eq_ok_iff.2 ⟨_, opens, Failure.bind_eq_ok_iff.2 ⟨_, labels, ?_⟩⟩
  refine save_chain (List.forall_mem_cons.2 ⟨valid_pair _ List.mem_cons_self, ?_⟩)
    (List.forall_mem_cons.2 ⟨tidy_pair _ List.mem_cons_self, ?_⟩) tidy_frame (by decide +kernel)
  · exact List.forall_mem_singleton.2 valid_relabelled
  · exact List.forall_mem_singleton.2 tidy_relabelled

end

/-- A chain is saved in that form, a step fails, the envelope is applied, and then the second question is
given the other label. All of this is stored, beside the theme and the viewport. -/
theorem agrees_after_edit :
    ∃ saved applied next,
      themed.changed (.save (Flow.chain [.bare "a"] none)) = .ok saved ∧
      saved.changed (.apply offer) = .ok applied ∧
      themed.after [.save (Flow.chain [.bare "a"] none), .saveJson .null, .apply offer] = applied ∧
      applied.changed (.edit (some (.merge [relabelled]))) = .ok next ∧
      next.title = "Survey" ∧ next.fields = [.bare "a", relabelled] ∧
      next.cardSettings = ([("theme", .str "light"),
        (flowSetting, (Flow.chain [.bare "a", relabelled] (some frame)).toJson),
        (viewportSetting, frame.toJson)] : Members) ∧
      (∃ stored again, next.Agrees stored again) ∧ applied.Keeps next := by
  have saves : themed.changed (.save (Flow.chain [.bare "a"] none)) =
      .ok (themed.withChain [.bare "a"] none) :=
    save_chain (Field.valid_bare ["a"] (by decide)) (List.forall_mem_singleton.2 (Field.each_bare "a"))
      (fun _ none => nomatch none) (by decide +kernel)
  have fails (record : Record) : record.changed (.saveJson .null) = .error _ := rfl
  have isApplied : themed.after
      [.save (Flow.chain [.bare "a"] none), .saveJson .null, .apply offer] =
      ((themed.withChain [.bare "a"] none).overlaid offer).withChain pair (some frame) := by
    simp only [after, List.foldl_cons, List.foldl_nil, attempted, saves, fails, apply_offer]
  have tidySave : Step.Tidy (.save (Flow.chain [.bare "a"] none)) := Flow.each_chain_bare ["a"]
  have tidyNull : Step.Tidy (.saveJson .null) := by
    intro flow isRead
    cases isRead
  have tidyOffer : Step.Tidy (.apply offer) := by
    refine ⟨?_, fun _ none => (nomatch none), fun _ none => (nomatch none)⟩
    rintro _ ⟨⟩
    exact tidy_chain_pair
  have tidyEdit : Step.Tidy (.edit (some (.merge [relabelled]))) := by
    rintro _ ⟨⟩
    exact List.forall_mem_singleton.2 tidy_relabelled
  have tidySteps : ∀ step ∈ [Step.save (Flow.chain [.bare "a"] none), .saveJson .null, .apply offer],
      step.Tidy := by
    simp only [List.forall_mem_cons]
    exact ⟨tidySave, tidyNull, tidyOffer, List.forall_mem_nil _⟩
  have changes := edit_pair ((themed.withChain [.bare "a"] none).overlaid offer)
  obtain ⟨agrees, keeps⟩ :=
    agrees_after tidy_themed tidySteps tidyEdit ((congrArg (changed · _) isApplied).trans changes)
  rw [isApplied] at keeps
  exact ⟨_, _, _, saves, apply_offer _, isApplied, changes, rfl, rfl, rfl, agrees,
    keeps fun _ same => nomatch same⟩

end Record

end CardForm
