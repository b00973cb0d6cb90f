import CardForm.Proofs.Flow.Readable
import CardForm.Proofs.Template.Store
import CardForm.Proofs.Written.Obstacle

/-!
# Reading a saved form again

A loaded flow may stand for fields that cannot be read: the editor's copy of the kind in a question is
not checked, and goes into the field. This module says what that costs (`Record.reads_back_iff`). A
field is read back from what is written of it exactly where its kind is known; a record is read back
after it was saved exactly where all its fields are; and a flow with its own field list has no defect
exactly where each question takes a field of a known kind. A flow whose copies name known kinds has
none of these troubles, any other has some (`Flow.exists_unreadable`).
-/
namespace CardForm

/-- A field that comes back is written as it was, and one comes back where its kind is known. -/
theorem Flow.read_linear_iff {flow : Flow} {fields : List Field} {field : Field} {written : Json}
    (valid : Flow.format.Valid flow) (tidy : Flow.format.Each .tidy flow)
    (isLinear : flow.linear = .ok fields) (mem : field ∈ fields)
    (writes : Writable.write field = .ok written) :
    ((∃ again, Field.read written = .ok again) ↔ field.kind ∈ FieldKind.known) ∧
      ∀ again, Field.read written = .ok again → Writable.write again = .ok written := by
  obtain ⟨writable, rfl⟩ := Writable.write_eq_ok_iff.1 writes
  have fieldTidy := each_linear tidy isLinear field mem
  have reads {again : Field} : Field.read field.toJson = .ok again ↔
      Field.format.Valid field ∧ again = Field.format.reread field :=
    Field.exact_format.read_toJson (Field.exact_format.once_of_tidy fieldTidy)
  constructor
  · rw [← valid_linear_iff valid isLinear mem]
    exact ⟨fun ⟨_, isRead⟩ => (reads.1 isRead).1, fun fieldValid => ⟨_, reads.2 ⟨fieldValid, rfl⟩⟩⟩
  · intro again isRead
    obtain ⟨_, rfl⟩ := reads.1 isRead
    exact Writable.write_eq_ok_iff.2 ⟨Field.unobstructed.isWritable_reread writable,
      Field.exact_format.toJson_reread_of_tidy fieldTidy⟩

namespace Record

variable {record next : Record} {flow : Flow} {fields : List Field} {value : Json}

/-- A record in which no object spells a declared key both ways is read again exactly where it can be
written and its fields can be read. -/
theorem exists_reloaded_iff (once : Record.format.Each .once record) :
    (∃ again, record.reloaded [] = .ok again) ↔
      Writable.isWritable record = true ∧ ∀ field ∈ record.fields, Field.format.Valid field := by
  have reloads : record.reloaded [] =
      Writable.write record >>= fun written => (Record.read written).orUnfit := by
    unfold reloaded Writable.write
    split
    · rfl
    · rfl
  have reads {again : Record} : Record.read record.toJson = .ok again ↔
      Record.format.Valid record ∧ again = Record.format.reread record :=
    Record.exact_format.read_toJson once
  simp only [reloads, Failure.bind_eq_ok_iff, Writable.write_eq_ok_iff, Reading.orUnfit_eq_ok_iff]
  rw [← valid_iff]
  constructor
  · rintro ⟨again, _, ⟨writable, rfl⟩, isRead⟩
    exact ⟨writable, (reads.1 isRead).1⟩
  · rintro ⟨writable, valid⟩
    exact ⟨_, _, ⟨writable, rfl⟩, reads.2 ⟨valid, rfl⟩⟩

/-- A demand asks nothing of an empty record. -/
theorem each_empty {demand : Demand} : Record.format.Each demand {} :=
  each_iff.2 ⟨demand.extras_nil _, fun _ mem => absurd mem List.not_mem_nil,
    fun _ mem => absurd mem List.not_mem_nil, fun _ none => (nomatch none),
    fun _ none => (nomatch none)⟩

/-- A record that holds a flow spells no declared key both ways where neither the record before nor the
flow does. -/
theorem once_of_withFlow (once : Record.format.Each .once record)
    (flowOnce : Flow.format.Each .once flow) (stores : record.withFlow flow = .ok next) :
    Record.format.Each .once next := by
  obtain ⟨extras, _, _, styling, scoring⟩ := each_iff.1 once
  obtain ⟨fields, isLinear, _, rfl⟩ := withFlow_eq_ok_iff.1 stores
  exact each_iff.2
    ⟨extras, Flow.each_linear flowOnce isLinear, fun _ _ => trivial, styling, scoring⟩

/-- What of a loaded flow can be read again. A field that it stands for can, and is then written as it
was, where its kind is known, that is where the copy of the kind in its card names a known one. The
flow with its own field list has no defect where each question takes a field of a known kind, as far as
the flow can be written. A record in which the flow is saved can be read again, as far as it can be
written, where the kinds of all these fields are known. -/
theorem reads_back_iff (loads : Flow.load value = .ok flow) (tidy : Flow.format.Each .tidy flow)
    (isLinear : flow.linear = .ok fields) :
    (∀ field ∈ fields, ∀ written, Writable.write field = .ok written →
      ((∃ again, Field.read written = .ok again) ↔ field.kind ∈ FieldKind.known) ∧
        ∀ again, Field.read written = .ok again → Writable.write again = .ok written) ∧
    ((∀ field ∈ fields, field.kind ∈ FieldKind.known) ↔ ∀ node ∈ flow.shownNodes, node.KnowsKind) ∧
    (Writable.isWritable flow = true →
      (∀ field ∈ fields, Writable.isWritable field = true) ∧
        ((flow.merge fields).ownDefects = .ok [] ↔ ∀ node ∈ flow.nodes, node.TakesKnown fields)) ∧
    ∀ (record next : Record) (step : Step), Record.format.Each .once record →
      step.SavesJson value → record.changed step = .ok next →
      next.fields = fields ∧ ((∃ again, next.reloaded [] = .ok again) ↔
        Writable.isWritable next = true ∧ ∀ field ∈ fields, field.kind ∈ FieldKind.known) := by
  have sound := Flow.sound_of_load loads
  have valid := Flow.valid_of_load loads
  have once := Flow.exact_format.once_of_tidy tidy
  refine ⟨fun field mem written => Flow.read_linear_iff valid tidy isLinear mem,
    Flow.known_linear_iff valid isLinear, fun writable => ?_, ?_⟩
  · have free := Writable.isWritable_iff.1 writable
    have fieldsFree := Flow.obstacle_linear free isLinear
    have mergedWritable : Writable.isWritable (flow.merge fields) = true :=
      Writable.isWritable_iff.2 (Flow.obstacle_merge free fieldsFree)
    have mergedKept := Flow.exact_format.mono Demand.once_implies_kept
      (Flow.each_merge once (Flow.each_linear once isLinear))
    refine ⟨fun field mem => Writable.isWritable_iff.2 (fieldsFree field mem), ?_⟩
    rw [Flow.ownDefects_eq_ok_nil_iff (Flow.each_iff.1 mergedKept).2.1,
      and_iff_right mergedWritable]
    exact Flow.sound_merge_iff sound (Flow.id_ne_nil_of_linear valid isLinear)
  · intro record next step recordOnce saves changes
    have stores := withFlow_of_savesJson loads saves changes
    have sameFields : next.fields = fields := by
      obtain ⟨_, isStored, _, rfl⟩ := withFlow_eq_ok_iff.1 stores
      exact Except.ok.inj (isStored.symm.trans isLinear)
    refine ⟨sameFields, ?_⟩
    rw [exists_reloaded_iff (once_of_withFlow recordOnce once stores), sameFields]
    exact and_congr_right fun _ => forall₂_congr fun field mem =>
      Flow.valid_linear_iff valid isLinear mem

/-- The record in which the chain through a card with an icon is stored. -/
def storesIllustrated : Record where
  fields := [.pictured "q" .above]
  cardSettings := settingsWith [] Flow.illustrated.toJson none

/-- That chain is saved in an empty record. -/
theorem changed_illustrated :
    ({} : Record).changed (.save Flow.illustrated) = .ok storesIllustrated := by
  have writable : Writable.isWritable Flow.illustrated = true := by decide +kernel
  exact Failure.bind_eq_ok_iff.2 ⟨_, Writable.write_of_isWritable writable,
    Failure.bind_eq_ok_iff.2 ⟨_, Flow.load_illustrated,
      withFlow_eq_ok_iff.2 ⟨_, Flow.linear_illustrated, writable, rfl⟩⟩⟩

/-- The record in which it is stored can be written. -/
theorem isWritable_storesIllustrated : Writable.isWritable storesIllustrated = true := by
  decide +kernel

/-- The chain through a card with an icon, saved in an empty record, is read again with all that it
stands for. -/
theorem reads_back_illustrated :
    (∃ again, Field.read (Field.pictured "q" .above).toJson = .ok again) ∧
      (Flow.illustrated.merge [.pictured "q" .above]).ownDefects = .ok [] ∧
      ∃ next again, ({} : Record).changed (.save Flow.illustrated) = .ok next ∧
        next.reloaded [] = .ok again := by
  have known : ∀ field ∈ [Field.pictured "q" .above], field.kind ∈ FieldKind.known :=
    List.forall_mem_singleton.2 (by decide)
  have writable : Writable.isWritable Flow.illustrated = true := by decide +kernel
  obtain ⟨reads, _, merges, reloads⟩ :=
    reads_back_iff Flow.load_illustrated Flow.each_illustrated Flow.linear_illustrated
  obtain ⟨fieldWritable, noDefect⟩ := merges writable
  have writes : Writable.write (Field.pictured "q" .above) = .ok (Field.pictured "q" .above).toJson :=
    Writable.write_of_isWritable (fieldWritable _ List.mem_cons_self)
  refine ⟨(reads _ List.mem_cons_self _ writes).1.2 (known _ List.mem_cons_self),
    noDefect.2 fun node _ card _ entry isEntry => ?_, ?_⟩
  · obtain ⟨_, _, isLast⟩ := Option.bind_eq_some_iff.1 isEntry
    exact known entry (Field.mem_of_last? isLast)
  · obtain ⟨again, isAgain⟩ := (reloads {} _ (.save Flow.illustrated) each_empty rfl
      changed_illustrated).2.2 ⟨isWritable_storesIllustrated, known⟩
    exact ⟨_, again, changed_illustrated, isAgain⟩

/-- The record in which a chain through one question with a payload is stored. -/
def storesPosed (data : QuestionData) : Record where
  fields := [data.shownField]
  cardSettings := settingsWith [] (Flow.posed data).toJson none

/-- Such a chain is stored in an empty record. -/
theorem withFlow_posed {data : QuestionData}
    (writable : Writable.isWritable (Flow.posed data) = true) :
    ({} : Record).withFlow (Flow.posed data) = .ok (storesPosed data) :=
  withFlow_eq_ok_iff.2 ⟨_, Flow.linear_posed data, writable, rfl⟩

end Record

/-! ## Copies of unknown kinds -/

namespace Flow

/-- A chain is loaded that stands for a field which cannot be read: the copy of the kind in its question
names no known kind. Its own field list leaves it with a defect, and no record in which it is saved can
be read again. -/
theorem exists_unreadable :
    ∃ value flow field, load value = .ok flow ∧ format.Each .tidy flow ∧
      flow.linear = .ok [field] ∧ Writable.write field = .ok field.toJson ∧
      (¬∃ again, Field.read field.toJson = .ok again) ∧
      (flow.merge [field]).ownDefects ≠ .ok [] ∧
      ∃ next, ({} : Record).saveJson value = .ok next ∧ Writable.isWritable next = true ∧
        ¬∃ again, next.reloaded [] = .ok again := by
  let data : QuestionData :=
    { field := .bare "q", fieldId := some "q", label := some "q", fieldType := some "dropdown" }
  let value := posedJson [("fieldId", .str "q"), ("label", .str "q"), ("fieldType", .str "dropdown")]
  have loads : load value = .ok (posed data) := load_eq_ok_iff.2 ⟨defects_posedJson _, rfl⟩
  have tidy : format.Each .tidy (posed data) := each_posed <| QuestionData.each_iff.2
    ⟨Demand.tidy.extras_nil _, Field.each_bare "q", fun _ none => nomatch none⟩
  have unknown : data.shownField.kind ∉ FieldKind.known := by decide
  have writable : Writable.isWritable (posed data) = true := by decide +kernel
  have valid := valid_of_load loads
  have once := exact_format.once_of_tidy tidy
  have isLinear := linear_posed data
  have writes : Writable.write data.shownField = .ok data.shownField.toJson :=
    Writable.write_of_isWritable (by decide +kernel)
  refine ⟨value, posed data, data.shownField, loads, tidy, isLinear, writes, ?_, ?_, ?_⟩
  · rw [(read_linear_iff valid tidy isLinear List.mem_cons_self writes).1]
    exact unknown
  · intro noDefect
    have kept := exact_format.mono Demand.once_implies_kept
      (each_merge once (each_linear once isLinear))
    have sound := ((ownDefects_eq_ok_nil_iff (each_iff.1 kept).2.1).1 noDefect).2
    have takes := (sound_merge_iff (sound_of_load loads) (id_ne_nil_of_linear valid isLinear)).1 sound
    exact unknown (takes _ (.tail _ List.mem_cons_self) _ rfl data.shownField rfl)
  · have stores := Record.withFlow_posed writable
    refine ⟨_, Failure.bind_eq_ok_iff.2 ⟨_, loads, stores⟩, by decide +kernel, ?_⟩
    rw [Record.exists_reloaded_iff (Record.once_of_withFlow Record.each_empty once stores)]
    rintro ⟨_, fieldsValid⟩
    exact unknown ((valid_linear_iff valid isLinear List.mem_cons_self).1
      (fieldsValid _ List.mem_cons_self))

end Flow

end CardForm
