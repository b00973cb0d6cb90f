import CardForm.Proofs.Flow.Stored
import CardForm.Proofs.Template.Open
import CardForm.Proofs.Template.Reimport
import CardForm.Proofs.Template.Reload

/-!
# Exporting a form and applying the export

An export carries the stored flow with the stored field list, an import of it brings that flow as it is
read again, and applying the import stores it. So what is applied, to whatever record, are the fields
and the viewport of the form that was exported, and its flow up to the media that
do not keep their place in the cards (`Record.exchanged_iff`).
-/
namespace CardForm

namespace Flow

variable {flow : Flow} {fields : List Field}

/-- A stored flow whose copies are up to date stands, with the list that it stood for, for fields that
are written as those of the list. -/
theorem exists_linear_merge_reread (valid : format.Valid flow) (tidy : format.Each .tidy flow)
    (synced : flow.Synced) (distinct : flow.contentKeys.Nodup) (isLinear : flow.linear = .ok fields) :
    ∃ opened, ((format.reread flow).merge fields).linear = .ok opened ∧
      Field.listToJson opened = Field.listToJson fields := by
  have againLinear := linear_reread isLinear
  obtain ⟨opened, isOpened, _, fits⟩ := exists_linear_merge fields againLinear
  have sameList := listToJson_reread_linear tidy isLinear
  have current : ∀ node ∈ (format.reread flow).shownNodes, node.Current := by
    rw [shownNodes_reread]
    refine List.forall_mem_map.2 fun node mem => ?_
    exact Node.current_of_normalized
      (Node.normalized_reread (synced node (mem_of_mem_shownNodes mem)))
  refine ⟨opened, isOpened, ?_⟩
  rw [← sameList]
  have distinctIds := nodup_ids_linear valid synced distinct isLinear
  exact congrArg Json.arr (fits.2 (fits_of_current (exact_format.each_reread tidy)
    (each_linear tidy isLinear) againLinear (Json.arr.inj sameList).symm distinctIds current))

end Flow

namespace Record

variable {record next other : Record} {flow : Flow} {fields : List Field} {settings : Members}
  {written value : Json} {viewport : Option Viewport} {step : Step}

/-! ## Settings that are set again -/

/-- The card settings beside the flow and the viewport. -/
def otherSettings (settings : Members) : Members :=
  (settings.erase flowSetting).erase viewportSetting

/-- What is portable of them are settings of other names. -/
theorem ne_of_mem_otherSettings {member : Text × Json}
    (mem : member ∈ (otherSettings settings).portable) :
    member.1 ≠ flowSetting ∧ member.1 ≠ viewportSetting := by
  obtain ⟨before, inOthers, rfl⟩ := Members.exists_of_mem_portable mem
  obtain ⟨inErased, notViewport⟩ := List.mem_filter.1 inOthers
  obtain ⟨_, notFlow⟩ := List.mem_filter.1 inErased
  exact ⟨fun same => of_decide_eq_true notFlow (Text.eq_of_legible_eq (by decide) same),
    fun same => of_decide_eq_true notViewport (Text.eq_of_legible_eq (by decide) same)⟩

/-- Settings overlaid with what is portable of the others are the same in their portable form. -/
theorem portable_overlay_otherSettings (settings : Members) :
    (settings.overlay (otherSettings settings).portable).portable = settings.portable := by
  refine Members.portable_overlay fun member mem => ?_
  obtain ⟨notFlow, notViewport⟩ := ne_of_mem_otherSettings mem
  obtain ⟨before, _, rfl⟩ := Members.exists_of_mem_portable mem
  refine ⟨Text.legible_of_isWellFormed (Text.isWellFormed_legible _), Json.portable_portable _, ?_⟩
  rw [← Members.get?_of_mem (Members.wellKeyed_portable _).distinct mem, otherSettings,
    Members.get?_portable_erase (Ne.symm notViewport), Members.get?_portable_erase (Ne.symm notFlow)]

/-- Settings that have a flow and a viewport have them already. -/
theorem settingsWith_eq_self (holds : settings.get? flowSetting = some written)
    (shows : settings.get? viewportSetting = viewport.map Viewport.toJson) :
    settingsWith settings written viewport = settings := by
  unfold settingsWith
  rw [Members.put_eq_self holds]
  cases viewport with
  | none => exact Members.erase_eq_self shows
  | some viewport => exact Members.put_eq_self shows

/-- Settings with a flow and a viewport are the same in their portable form after the others were set
again. -/
theorem portable_settingsWith_overlay (holds : settings.get? flowSetting = some written)
    (shows : settings.get? viewportSetting = viewport.map Viewport.toJson) :
    (settingsWith (settings.overlay (otherSettings settings).portable) written viewport).portable =
      settings.portable := by
  rw [settingsWith_eq_self, portable_overlay_otherSettings]
  · rw [Members.get?_overlay_of_absent fun member mem => (ne_of_mem_otherSettings mem).1, holds]
  · rw [Members.get?_overlay_of_absent fun member mem => (ne_of_mem_otherSettings mem).2, shows]

/-! ## What an export brings -/

/-- An object that is not left out has the members that it had. -/
theorem mem_of_unlessEmpty {members found : Members} {member : Text × Json}
    (isSome : unlessEmpty members = some found) (mem : member ∈ found) : member ∈ members := by
  cases members with
  | nil => cases isSome
  | cons first rest =>
    cases isSome
    exact mem

/-- The envelope of a record and a flow can be written where these can. -/
theorem isWritable_envelopeWith (writable : Writable.isWritable record = true)
    (flowWritable : Writable.isWritable flow = true) :
    Writable.isWritable (record.envelopeWith flow) = true := by
  have free := Obstacle.first?_eq_none_iff.1 (Writable.isWritable_iff.1 writable)
  simp only [List.forall_mem_cons] at free
  obtain ⟨_, settings, styling, scoring, _⟩ := free
  have others : (unlessEmpty (otherSettings record.cardSettings)).bind
      (·.obstacle Json.writableNesting) = none := by
    refine Obstacle.bind_eq_none_iff.2 fun members isSome =>
      Members.obstacle_eq_none_iff.2 fun member mem => ?_
    have inOthers := mem_of_unlessEmpty isSome mem
    exact Members.obstacle_eq_none_iff.1 settings member
      (List.mem_of_mem_filter (List.mem_of_mem_filter inOthers))
  refine Writable.isWritable_iff.2 (Obstacle.first?_eq_none_iff.2 ?_)
  simp only [List.forall_mem_cons]
  exact ⟨Writable.isWritable_iff.1 flowWritable, rfl, rfl, others, styling, scoring, rfl,
    List.forall_mem_nil _⟩

/-- What is imported of the envelope of a record and a flow that stands for some fields. -/
def received (record : Record) (flow : Flow) (fields : List Field) : Envelope :=
  { Envelope.format.reread (record.envelopeWith flow) with
    fields := some (fields.map Field.format.reread) }

/-- What a demand asks of a flow and of the settings of a record, it asks of their envelope. -/
theorem each_envelopeWith {demand : Demand} (flowEach : Flow.format.Each demand flow)
    (settings : ∀ member ∈ record.cardSettings, demand.value member.2)
    (styling : ∀ styling ∈ record.styling, ∀ member ∈ styling, demand.value member.2)
    (scoring : ∀ scoring ∈ record.profileEstimation, ∀ member ∈ scoring, demand.value member.2) :
    Envelope.format.Each demand (record.envelopeWith flow) := by
  refine Envelope.each_iff.2 ⟨demand.extras_nil _, ?_, fun _ none => (nomatch none),
    fun _ none => (nomatch none), fun members isSome member mem => ?_, styling, scoring⟩
  · rintro _ ⟨⟩
    exact flowEach
  · have inOthers := mem_of_unlessEmpty isSome mem
    exact settings member (List.mem_of_mem_filter (List.mem_of_mem_filter inOthers))

/-- The envelope of a record and a flow can be read once it was written where the flow can. -/
theorem valid_envelopeWith (valid : Flow.format.Valid flow) :
    Envelope.format.Valid (record.envelopeWith flow) := by
  refine Envelope.valid_iff.2 ⟨?_, fun _ none => (nomatch none), rfl⟩
  rintro _ ⟨⟩
  exact valid

/-- The envelope of a record and a sound flow is imported where it was written. -/
theorem load_envelopeWith (sound : flow.Sound) (valid : Flow.format.Valid flow)
    (tidy : Flow.format.Each .tidy flow) (isLinear : flow.linear = .ok fields) :
    Envelope.load (record.envelopeWith flow).toJson = .ok (record.received flow fields) := by
  have once : Envelope.format.Each .once (record.envelopeWith flow) :=
    each_envelopeWith (Flow.exact_format.once_of_tidy tidy) (fun _ _ => trivial)
      (fun _ _ _ _ => trivial) fun _ _ _ _ => trivial
  exact (Envelope.load_toJson_eq_ok_iff once rfl isLinear).2 ⟨sound, valid_envelopeWith valid, rfl⟩

/-- The settings in what is imported are the portable form of the settings beside the flow and the
viewport. -/
theorem cardSettings_received :
    ((record.received flow fields).cardSettings.getD []) =
      (otherSettings record.cardSettings).portable := by
  change ((unlessEmpty (otherSettings record.cardSettings)).map Members.portable).getD [] = _
  cases otherSettings record.cardSettings <;> rfl

/-- Settings that came back are written as before. -/
theorem map_mappingToJson_portable (part : Option Members) :
    (part.map Members.portable).map Envelope.mappingToJson = part.map Envelope.mappingToJson := by
  cases part with
  | none => rfl
  | some members => exact congrArg (some ∘ Json.obj) members.portable_portable

/-- A record that is overlaid with what was imported of it, and given the flow and the viewport that it
has and fields that are written as its own, is written as it was. -/
theorem toJson_overlaid_received {shown : List Field} (same : Field.listToJson shown =
      Field.listToJson record.fields) (holds : record.cardSettings.get? flowSetting = some written)
    (shows : record.cardSettings.get? viewportSetting = viewport.map Viewport.toJson) :
    toJson { record.overlaid (record.received flow fields) with
      fields := shown
      cardSettings := settingsWith (record.overlaid (record.received flow fields)).cardSettings
        written viewport } = record.toJson := by
  have settings : Envelope.mappingToJson
      (settingsWith (record.overlaid (record.received flow fields)).cardSettings written viewport) =
        Envelope.mappingToJson record.cardSettings := by
    change Json.obj (Members.portable _) = .obj (Members.portable _)
    rw [overlaid, cardSettings_received, portable_settingsWith_overlay holds shows]
  have again (part : Option Members) :
      ((part.map Members.portable).or part).map Envelope.mappingToJson =
        part.map Envelope.mappingToJson := by
    cases part with
    | none => rfl
    | some members => exact map_mappingToJson_portable (some members)
  have subtitle : (record.subtitle.or record.subtitle) = record.subtitle := Option.or_self
  unfold toJson
  rw [same, settings]
  change Members.written [_, _, (_, (record.subtitle.or record.subtitle).map _), _, _, _,
    (_, ((record.styling.map Members.portable).or record.styling).map _),
    (_, ((record.profileEstimation.map Members.portable).or record.profileEstimation).map _)] _ = _
  rw [subtitle, again, again]
  rfl

/-- What was imported of a record and a flow is applied to any record, and brings the flow as it was
written, and what comes back of its fields and its viewport. -/
theorem apply_received (sound : flow.Sound) (valid : Flow.format.Valid flow)
    (tidy : Flow.format.Each .tidy flow) (writable : Writable.isWritable flow = true)
    (isLinear : flow.linear = .ok fields) :
    ∃ (shown : List Field) (viewport : Option Viewport),
      other.apply (record.received flow fields) = .ok
        { other.overlaid (record.received flow fields) with
          fields := shown
          cardSettings := settingsWith (other.overlaid (record.received flow fields)).cardSettings
            flow.toJson viewport } ∧
      Field.listToJson shown = Field.listToJson fields ∧
      viewport.map Viewport.toJson = flow.viewport.map Viewport.toJson := by
  have finite := Flow.exact_format.finite_of_tidy tidy
  have loads := Flow.load_toJson_of_tidy tidy sound valid
  have againTidy := Flow.exact_format.each_reread tidy
  have againLinear := Flow.linear_reread isLinear
  have saves : (other.overlaid (record.received flow fields)).save (Flow.format.reread flow) = _ :=
    save_eq_ok (Flow.sound_of_load loads) (Flow.valid_of_load loads) againTidy
      (Flow.unobstructed.isWritable_reread writable) againLinear
  have sameForm : (Flow.format.reread flow).toJson = flow.toJson :=
    Flow.exact_format.toJson_reread finite
  rw [sameForm] at saves
  refine ⟨_, _, saves, ?_, ?_⟩
  · rw [Flow.listToJson_reread_linear againTidy againLinear,
      Flow.listToJson_reread_linear tidy isLinear]
  · rw [Flow.viewport_reread (Flow.exact_format.each_reread finite), Flow.viewport_reread finite]

/-! ## Exporting, importing and applying -/

/-- The flow, as it is written, and the viewport of a record in which a flow was stored. -/
theorem get?_of_withFlow (stores : record.withFlow flow = .ok next) :
    next.cardSettings.get? flowSetting = some flow.toJson ∧
      next.cardSettings.get? viewportSetting = flow.viewport.map Viewport.toJson := by
  obtain ⟨_, _, _, rfl⟩ := withFlow_eq_ok_iff.1 stores
  rw [get?_settingsWith, if_neg (by decide), if_pos rfl, get?_settingsWith, if_pos rfl]
  exact ⟨rfl, rfl⟩

/-- What the export of a form brings that was stored with a sound flow whose copies are up to date and
whose cards name distinct identifiers. It is imported where it was written; what is imported is applied
to any record; and then the fields are those that are stored, the viewport is the one that is stored,
and the flow is the one that is stored exactly where the media of each shown card keep their place. -/
theorem exists_received (sound : flow.Sound) (valid : Flow.format.Valid flow)
    (tidy : Flow.format.Each .tidy flow) (synced : flow.Synced) (distinct : flow.contentKeys.Nodup)
    (stores : record.withFlow flow = .ok next) (writable : Writable.isWritable next = true) :
    ∃ merged opened, next.envelope = .ok (next.envelopeWith merged) ∧
      Writable.write (next.envelopeWith merged) = .ok (next.envelopeWith merged).toJson ∧
      Envelope.load (next.envelopeWith merged).toJson = .ok (next.received merged opened) ∧
      (merged.toJson = flow.toJson ↔ ∀ node ∈ flow.shownNodes, node.KeepsMedia) ∧
      ∀ other : Record, ∃ (shown : List Field) (viewport : Option Viewport),
        other.apply (next.received merged opened) = .ok
          { other.overlaid (next.received merged opened) with
            fields := shown
            cardSettings := settingsWith (other.overlaid (next.received merged opened)).cardSettings
              merged.toJson viewport } ∧
        Field.listToJson shown = Field.listToJson next.fields ∧
        next.cardSettings.get? viewportSetting = viewport.map Viewport.toJson := by
  obtain ⟨holds, shows⟩ := get?_of_withFlow stores
  obtain ⟨fields, isLinear, flowWritable, isNext⟩ := withFlow_eq_ok_iff.1 stores
  have lists : next.fields = fields := by rw [isNext]
  have opens : next.flow = .ok ((Flow.format.reread flow).merge fields) := lists ▸
    flow_of_holds holds (Flow.load_toJson_of_tidy tidy sound valid)
  obtain ⟨mergedSound, mergedValid, mergedTidy, mergedWritable⟩ :=
    Flow.laws_merge_reread sound valid tidy synced flowWritable isLinear
  obtain ⟨opened, isOpened, sameList⟩ :=
    Flow.exists_linear_merge_reread valid tidy synced distinct isLinear
  have sameViewport : ((Flow.format.reread flow).merge fields).viewport.map Viewport.toJson =
      flow.viewport.map Viewport.toJson :=
    Flow.viewport_reread (Flow.exact_format.finite_of_tidy tidy)
  refine ⟨_, opened, congrArg (Except.map _) opens,
    Writable.write_of_isWritable (isWritable_envelopeWith writable mergedWritable),
    next.load_envelopeWith mergedSound mergedValid mergedTidy isOpened,
    Flow.toJson_merge_reread_iff valid tidy synced distinct isLinear, fun other => ?_⟩
  obtain ⟨shown, viewport, applies, sameShown, sameAgain⟩ :=
    apply_received mergedSound mergedValid mergedTidy mergedWritable isOpened
  exact ⟨shown, viewport, applies, by rw [sameShown, sameList, lists],
    by rw [shows, sameAgain, sameViewport]⟩

/-- A form that was stored with a flow whose copies are up to date and whose cards name distinct
identifiers, and that can be written, is exported, imported where the export was written, and applied.
To whatever record it is applied, that has the fields and the viewport of the form then, and its flow
exactly where the media of each shown card keep their place. Applied to the form itself, the import
leaves it as it was then. The media keep their place in a flow that was saved as such, not as JSON: it
was written and read before it was stored. -/
theorem exchanged_iff (loads : Flow.load value = .ok flow) (tidy : Flow.format.Each .tidy flow)
    (synced : flow.Synced) (distinct : flow.contentKeys.Nodup) (saves : step.SavesJson value)
    (changes : record.changed step = .ok next) (writable : Writable.isWritable next = true) :
    (∃ exported written imported, next.envelope = .ok exported ∧
      Writable.write exported = .ok written ∧ Envelope.load written = .ok imported ∧
      ∀ other : Record, ∃ applied, other.apply imported = .ok applied ∧
        Field.listToJson applied.fields = Field.listToJson next.fields ∧
        applied.cardSettings.get? viewportSetting = next.cardSettings.get? viewportSetting ∧
        (applied.cardSettings.get? flowSetting = next.cardSettings.get? flowSetting ↔
          ∀ node ∈ flow.shownNodes, node.KeepsMedia) ∧
        (other = next → (∀ node ∈ flow.shownNodes, node.KeepsMedia) →
          applied.toJson = next.toJson)) ∧
    ∀ given, step = .save given → Flow.format.Each .tidy given →
      ∀ node ∈ flow.shownNodes, node.KeepsMedia := by
  have stores := withFlow_of_savesJson loads saves changes
  obtain ⟨holds, _⟩ := get?_of_withFlow stores
  obtain ⟨merged, opened, exports, writes, imports, sameFlow, applies⟩ :=
    exists_received (Flow.sound_of_load loads) (Flow.valid_of_load loads) tidy synced distinct stores
      writable
  constructor
  · refine ⟨_, _, _, exports, writes, imports, fun other => ?_⟩
    obtain ⟨shown, viewport, applies, listed, viewed⟩ := applies other
    refine ⟨_, applies, listed, ?_, ?_, ?_⟩
    · rw [get?_settingsWith, if_pos rfl, viewed]
    · rw [get?_settingsWith, if_neg (by decide), if_pos rfl, holds, Option.some_inj, sameFlow]
    · rintro rfl keeps
      exact toJson_overlaid_received listed (holds.trans (congrArg some (sameFlow.2 keeps).symm))
        viewed
  · rintro given rfl givenTidy
    cases saves
    exact Flow.keepsMedia_of_load givenTidy loads

/-- The chain through a card with an icon, saved in an empty record, is exported, imported and applied,
and leaves the record as it was. -/
theorem exchanged_illustrated :
    ∃ exported written imported applied,
      ({} : Record).changed (.save Flow.illustrated) = .ok storesIllustrated ∧
      storesIllustrated.envelope = .ok exported ∧ Writable.write exported = .ok written ∧
      Envelope.load written = .ok imported ∧ storesIllustrated.apply imported = .ok applied ∧
      applied.toJson = storesIllustrated.toJson := by
  have saves : Step.SavesJson Flow.illustrated.toJson (.save Flow.illustrated) := rfl
  obtain ⟨⟨exported, written, imported, exports, writes, imports, applies⟩, keeps⟩ :=
    exchanged_iff Flow.load_illustrated Flow.each_illustrated (Flow.synced_chain _ _) (by decide) saves
      changed_illustrated isWritable_storesIllustrated
  obtain ⟨applied, isApplied, _, _, _, same⟩ := applies storesIllustrated
  exact ⟨exported, written, imported, applied, changed_illustrated, exports, writes, imports,
    isApplied, same rfl (keeps _ rfl Flow.each_illustrated)⟩

/-! ## Media that lose their place -/

/-- Media of a card with an unknown member that is null. -/
def tinted : Media := { kind := .icon, placement := .above, extras := [("tint", .null)] }

/-- That member is not spelled as a declared one. -/
theorem each_tinted : Demand.tidy.extras Media.keys tinted.extras := by
  refine ⟨⟨?_, ?_⟩, rfl⟩
  · exact List.forall_mem_singleton.2 (by decide)
  · simp [Members.Unspelled, tinted, Media.keys, Key.same, Text.ofString_inj]

/-- A question whose card has such media, and whose field has none. -/
def tintedData : QuestionData where
  field := .bare "q"
  fieldId := some "q"
  label := some "q"
  fieldType := some "text"
  media := some tinted

/-- The chain through that question, in JSON that has the null. -/
def tintedJson : Json :=
  Flow.posedJson [("fieldId", .str "q"), ("label", .str "q"), ("fieldType", .str "text"),
    ("media", .obj [("type", .str "icon"), ("position", .str "above"), ("tint", .null)])]

/-- That chain is loaded. -/
theorem load_tintedJson : Flow.load tintedJson = .ok (Flow.posed tintedData) :=
  Flow.load_eq_ok_iff.2 ⟨Flow.defects_posedJson _, rfl⟩

/-- It is tidy. -/
theorem tidy_posed_tinted : Flow.format.Each .tidy (Flow.posed tintedData) := by
  refine Flow.each_posed (QuestionData.each_iff.2
    ⟨Demand.tidy.extras_nil _, Field.each_bare "q", ?_⟩)
  rintro _ ⟨⟩
  exact Media.each_iff.2 each_tinted

/-- The chain through that question is stored, and applying the import of its export brings another flow
than is stored, to whatever record. -/
theorem exists_exchange_changed :
    ∃ value flow next exported written imported, Flow.load value = .ok flow ∧
      Flow.format.Each .tidy flow ∧ flow.Synced ∧ flow.contentKeys.Nodup ∧
      ({} : Record).changed (.saveJson value) = .ok next ∧ Writable.isWritable next = true ∧
      next.envelope = .ok exported ∧ Writable.write exported = .ok written ∧
      Envelope.load written = .ok imported ∧
      ∀ other : Record, ∃ applied, other.apply imported = .ok applied ∧
        applied.cardSettings.get? flowSetting ≠ next.cardSettings.get? flowSetting := by
  have synced : (Flow.posed tintedData).Synced := by
    rintro node (_ | ⟨_, _ | ⟨_, _ | ⟨_, ⟨⟩⟩⟩⟩) <;> rfl
  have distinct : (Flow.posed tintedData).contentKeys.Nodup := by decide
  have stores : ({} : Record).withFlow (Flow.posed tintedData) = .ok (storesPosed tintedData) :=
    withFlow_posed (by decide +kernel)
  have writable : Writable.isWritable (storesPosed tintedData) = true := by decide +kernel
  obtain ⟨holds, _⟩ := get?_of_withFlow stores
  obtain ⟨merged, opened, exports, writes, imports, sameFlow, applies⟩ :=
    exists_received (Flow.sound_of_load load_tintedJson) (Flow.valid_of_load load_tintedJson)
      tidy_posed_tinted synced distinct stores writable
  refine ⟨_, _, _, _, _, _, load_tintedJson, tidy_posed_tinted, synced, distinct,
    Failure.bind_eq_ok_iff.2 ⟨_, load_tintedJson, stores⟩, writable, exports, writes, imports,
    fun other => ?_⟩
  obtain ⟨shown, viewport, isApplied, _⟩ := applies other
  refine ⟨_, isApplied, ?_⟩
  rw [get?_settingsWith, if_neg (by decide), if_pos rfl, holds, Ne, Option.some_inj, sameFlow]
  intro keeps
  obtain ⟨node, inShown, isShown⟩ :=
    Node.exists_of_mem_fields (Flow.linear_posed tintedData) List.mem_cons_self
  rcases Flow.mem_of_mem_shownNodes inShown with _ | ⟨_, _ | ⟨_, _ | ⟨_, ⟨⟩⟩⟩⟩
  · cases isShown
  · obtain alike | sameMedia := keeps _ inShown tinted rfl
    · exact absurd alike (by decide)
    · cases sameMedia
  · cases isShown

end Record

end CardForm
