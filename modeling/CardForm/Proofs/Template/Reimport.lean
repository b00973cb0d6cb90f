import CardForm.Proofs.Flow.Readable
import CardForm.Proofs.Template.Import
import CardForm.Proofs.Written.Obstacle

/-!
# Importing an envelope again

The parts of an envelope that are loaded are those that are read (`Envelope.read_of_loadParts`), so an
envelope that was imported has the laws of its format (`Envelope.Settled`). It is imported again where
it was written, and comes back as it is read there: what is imported is brought into a form that further
imports keep (`Envelope.loads_again_iff`). Two things stand in the way: a copy of an unknown kind, and a
value of any content that cannot be written (`Envelope.exists_not_again`).
-/
namespace CardForm.Envelope

/-! ## Reading the parts -/

variable {members : Members} {envelope : Envelope}

/-- An envelope is read as without the key of its flow where nothing but a null is under that. -/
theorem partsOfMembers_erase (once : Members.SpelledOnce keys members)
    (isNull : (Json.obj members).get flowKey.camel = .null) :
    partsOfMembers none (members.erase flowKey.camel) = partsOfMembers none members := by
  cases isFound : members.get? flowKey.camel with
  | none => rw [Members.erase_eq_self isFound]
  | some found =>
    have isGet : (Json.obj members).get flowKey.camel = (members.get? flowKey.camel).getD .null := rfl
    obtain rfl : found = .null := by rwa [isGet, isFound] at isNull
    have inKeys : flowKey ∈ keys := by simp [keys]
    have noPlain : members.get? flowKey.plain = none := by
      have notBoth := once flowKey inKeys (by decide)
      simpa [Members.has, isFound] using notBoth
    have findFlow : flowKey.find? members = some (flowKey.camel, .null) := Key.find?_of_camel isFound
    have flow : (members.erase flowKey.camel).optional flowKey Flow.read =
        members.optional flowKey Flow.read := by
      simp only [Members.optional, Members.defaulted, findFlow, Key.find?_erase_self noPlain]
      rfl
    have extras : (members.erase flowKey.camel).extras keys = members.extras keys :=
      Members.extras_erase describes.apart inKeys findFlow noPlain
    simp only [partsOfMembers, flow, extras]
    simp (disch := decide) only [Members.optional, Members.defaulted, Key.find?_erase]

/-- A flow that is given is the one that would be read. -/
theorem ofMembers_some {flow : Flow} (isRead : members.optional flowKey Flow.read = .ok (some flow)) :
    ofMembers (some flow) members = ofMembers none members := by
  rw [ofMembers, partsOfMembers, ← isRead]
  rfl

/-- The parts of an envelope with a flow are loaded where the flow is, and they are read. -/
theorem loadParts_eq_ok_iff (notNull : (Json.obj members).get flowKey.camel ≠ .null) :
    loadParts members = .ok envelope ↔
      (∃ flow, Flow.load ((Json.obj members).get flowKey.camel) = .ok flow) ∧
        read (.obj members) = .ok envelope := by
  have found : flowKey.find? members = some (flowKey.camel, (Json.obj members).get flowKey.camel) :=
    Key.find?_of_camel ((Check.get_eq_iff notNull).1 rfl)
  have given {flow : Flow} (loads : Flow.load ((Json.obj members).get flowKey.camel) = .ok flow) :
      ofMembers (some flow) members = ofMembers none members :=
    ofMembers_some <| Members.optional_eq_ok_iff.2 <| .inr
      ⟨_, found, .inr ⟨notNull, flow, (Flow.load_eq_ok_iff.1 loads).2, rfl⟩⟩
  have parts : loadParts members = Flow.load ((Json.obj members).get flowKey.camel) >>= fun flow =>
      (members.wellKeyed (ofMembers (some flow) members)).orRefused := by
    unfold loadParts
    split
    · exact absurd ‹_› notNull
    · rfl
  rw [parts, Failure.bind_eq_ok_iff]
  change _ ↔ _ ∧ members.wellKeyed (ofMembers none members) = .ok envelope
  constructor
  · rintro ⟨flow, loads, isRead⟩
    exact ⟨⟨flow, loads⟩, given loads ▸ Reading.orRefused_eq_ok_iff.1 isRead⟩
  · rintro ⟨⟨flow, loads⟩, isRead⟩
    exact ⟨flow, loads, Reading.orRefused_eq_ok_iff.2 (given loads ▸ isRead)⟩

/-- The parts of an envelope that are loaded are those that are read. -/
theorem read_of_loadParts (once : Members.SpelledOnce keys members)
    (loads : loadParts members = .ok envelope) : read (.obj members) = .ok envelope := by
  by_cases isNull : (Json.obj members).get flowKey.camel = .null
  · unfold loadParts at loads
    rw [isNull] at loads
    obtain ⟨wellFormed, isRead⟩ := Members.wellKeyed_eq_ok_iff.1 (Reading.orRefused_eq_ok_iff.1 loads)
    rw [ofMembers_eq_ok_iff, partsOfMembers_erase once isNull, ← ofMembers_eq_ok_iff] at isRead
    refine Reading.record_eq_ok_iff.2 ⟨members, rfl, fun member mem => ?_, isRead⟩
    by_cases isFlow : member.1 = flowKey.camel
    · rw [isFlow]
      decide
    · exact wellFormed member (List.mem_filter.2 ⟨mem, decide_eq_true isFlow⟩)
  · exact ((loadParts_eq_ok_iff isNull).1 loads).2

/-! ## Importing what was written -/

variable {flow : Flow} {fields : List Field} {value : Json} {result : Envelope}

/-- An envelope with a flow is imported where it was written, if the flow is sound and all of it can be
read; it comes back with the field list of the flow. -/
theorem load_toJson_eq_ok_iff (once : format.Each .once envelope) (carries : envelope.flow = some flow)
    (isLinear : flow.linear = .ok fields) :
    load envelope.toJson = .ok result ↔ flow.Sound ∧ format.Valid envelope ∧
      result = { format.reread envelope with
        fields := some (fields.map Field.format.reread)
        edges := none } := by
  have kept := exact_format.mono Demand.once_implies_kept once
  have flowOnce : Flow.format.Each .once flow := (each_iff.1 once).2.1 flow carries
  have inParts : ⟨flowKey, .optional Flow.format, Envelope.flow⟩ ∈ shape.parts := by simp [shape]
  have isFlow : envelope.toJson.get flowKey.camel = flow.toJson := by
    refine (Check.get_eq_iff (Flow.exact_format.toJson_ne_null flow)).2 ?_
    exact (describes.get?_toJson inParts kept).trans (congrArg (Option.map Flow.toJson) carries)
  have reads {parts : Envelope} : read envelope.toJson = .ok parts ↔
      format.Valid envelope ∧ parts = format.reread envelope := exact_format.read_toJson once
  obtain ⟨members, isObject⟩ : ∃ members, envelope.toJson = .obj members := ⟨_, rfl⟩
  rw [isObject] at isFlow reads ⊢
  have looks : looksRight (.obj members) = true := by
    rw [looksRight, isFlow]
    rfl
  have notNull : (Json.obj members).get flowKey.camel ≠ .null :=
    isFlow ▸ Flow.exact_format.toJson_ne_null flow
  have flowAgain : (format.reread envelope).flow = some (Flow.format.reread flow) :=
    congrArg (Option.map Flow.format.reread) carries
  have completes : (format.reread envelope).completed = .ok
      { format.reread envelope with
        fields := some (fields.map Field.format.reread)
        edges := none } := by
    rw [completed, withFlow, flowAgain, Option.getD_some, Flow.linear_reread isLinear, ← flowAgain]
    rfl
  rw [load, if_pos looks, Failure.bind_eq_ok_iff]
  simp only [loadParts_eq_ok_iff notNull, isFlow, reads, Flow.load_toJson_eq_ok_iff flowOnce]
  constructor
  · rintro ⟨parts, ⟨⟨_, sound, _⟩, valid, rfl⟩, isResult⟩
    exact ⟨sound, valid, Except.ok.inj (isResult.symm.trans completes)⟩
  · rintro ⟨sound, valid, rfl⟩
    exact ⟨_, ⟨⟨_, sound, (valid_iff.1 valid).1 flow carries, rfl⟩, valid, rfl⟩, completes⟩

/-- An envelope as an import leaves it, with a flow and the fields that the flow stands for. -/
structure Settled (envelope : Envelope) (flow : Flow) (fields : List Field) : Prop where
  /-- It carries the flow. -/
  carries : envelope.flow = some flow
  /-- It carries the fields. -/
  lists : envelope.fields = some fields
  /-- It carries no edge specifications. -/
  noEdges : envelope.edges = none
  /-- The flow stands for the fields. -/
  isLinear : flow.linear = .ok fields
  /-- The flow is sound. -/
  sound : flow.Sound
  /-- It can be read once it was written. -/
  valid : Flow.format.Valid flow
  /-- The envelope is tidy. -/
  tidy : format.Each .tidy envelope

/-- An import leaves an envelope so, where the numbers are finite, no object spells a declared key both
ways and the flow does not go past the check. -/
theorem settled_of_load (loads : load value = .ok envelope) (finite : value.isFinite = true)
    (once : format.SpellsOnce value) (checked : ¬Unchecked value) :
    ∃ flow fields, envelope.Settled flow fields := by
  unfold load at loads
  split at loads
  · rename_i members
    split at loads
    · obtain ⟨parts, loadsParts, completes⟩ := Failure.bind_eq_ok_iff.1 loads
      obtain ⟨fields, isLinear, rfl⟩ := Failure.map_eq_ok_iff.1 completes
      obtain ⟨_, sound, _⟩ := flow_of_loadParts loadsParts
      have isRead : format.read (.obj members) = .ok parts :=
        read_of_loadParts (Shape.spellsOnce_obj_iff.1 once).1 loadsParts
      obtain ⟨flowValid, fieldsValid, _⟩ := valid_iff.1 (exact_format.valid_of_read isRead)
      have tidy : format.Each .tidy parts := exact_format.each_both
        (exact_format.once_of_read isRead once) (exact_format.finite_of_read finite isRead)
      obtain ⟨extras, flowTidy, fieldsTidy, edgesTidy, settings⟩ := each_iff.1 tidy
      have valid : Flow.format.Valid (parts.flow.getD parts.expanded) ∧
          Flow.format.Each .tidy (parts.flow.getD parts.expanded) := by
        cases same : parts.flow with
        | some flow => exact ⟨flowValid flow same, flowTidy flow same⟩
        | none =>
          exact ⟨valid_expanded fieldsValid, each_expanded fieldsTidy fun specs isSpecs spec mem =>
            (EdgeSpec.each_iff.1 (edgesTidy specs isSpecs spec mem)).2⟩
      refine ⟨_, fields, rfl, rfl, rfl, isLinear, sound checked, valid.1, each_iff.2 ⟨extras, ?_, ?_,
        fun _ none => (nomatch none), settings⟩⟩
      · rintro _ ⟨⟩
        exact valid.2
      · rintro _ ⟨⟩
        exact Flow.each_linear valid.2 isLinear
    · cases loads
  · cases loads

namespace Settled

/-- Such an envelope can be read once it was written where the kinds of its fields are known. -/
theorem valid_iff (settled : envelope.Settled flow fields) :
    format.Valid envelope ↔ ∀ field ∈ fields, field.kind ∈ FieldKind.known := by
  have fieldsValid : (∀ field ∈ fields, Field.format.Valid field) ↔
      ∀ field ∈ fields, field.kind ∈ FieldKind.known :=
    forall₂_congr fun field mem => Flow.valid_linear_iff settled.valid settled.isLinear mem
  rw [Envelope.valid_iff, settled.carries, settled.lists, hasFlow, settled.carries]
  simp [settled.valid, fieldsValid]

/-- Such an envelope is imported where it was written if the kinds of its fields are known, and it comes
back as it is read. -/
theorem load_toJson_eq_ok_iff (settled : envelope.Settled flow fields) :
    load envelope.toJson = .ok result ↔
      (∀ field ∈ fields, field.kind ∈ FieldKind.known) ∧ result = format.reread envelope := by
  have lists : (format.reread envelope).fields = some (fields.map Field.format.reread) :=
    congrArg (Option.map (List.map Field.format.reread)) settled.lists
  have noEdges : (format.reread envelope).edges = none :=
    congrArg (Option.map (List.map EdgeSpec.format.reread)) settled.noEdges
  rw [Envelope.load_toJson_eq_ok_iff (exact_format.once_of_tidy settled.tidy)
    settled.carries settled.isLinear, ← lists, ← noEdges, and_iff_right settled.sound, settled.valid_iff]

end Settled

/-- An envelope that was imported, and can be written, is imported again where it was written exactly if
each question that is shown has a copy of a known kind, or none; then it is written as it was. So it is
for a flow, a field list with edge specifications, and a field list alone, as long as the numbers are
finite, no object spells a declared key both ways and the flow does not go past the check. -/
theorem loads_again_iff {written : Json} (loads : load value = .ok envelope)
    (finite : value.isFinite = true) (once : format.SpellsOnce value) (checked : ¬Unchecked value)
    (writes : Writable.write envelope = .ok written) :
    ((∃ again, load written = .ok again) ↔
      ∀ flow ∈ envelope.flow, ∀ node ∈ flow.shownNodes, node.KnowsKind) ∧
    ∀ again, load written = .ok again → Writable.write again = .ok written := by
  obtain ⟨flow, fields, settled⟩ := settled_of_load loads finite once checked
  obtain ⟨writable, rfl⟩ := Writable.write_eq_ok_iff.1 writes
  constructor
  · simp only [settled.carries, Option.mem_some_iff, forall_eq', ←
      Flow.known_linear_iff settled.valid settled.isLinear]
    exact ⟨fun ⟨_, again⟩ => (settled.load_toJson_eq_ok_iff.1 again).1,
      fun known => ⟨_, settled.load_toJson_eq_ok_iff.2 ⟨known, rfl⟩⟩⟩
  · intro again loadsAgain
    obtain ⟨_, rfl⟩ := settled.load_toJson_eq_ok_iff.1 loadsAgain
    exact Writable.write_eq_ok_iff.2 ⟨unobstructed.isWritable_reread writable,
      exact_format.toJson_reread_of_tidy settled.tidy⟩

/-! ## A field list with a note -/

/-- The field list of a single text field with a note, given as an envelope. -/
def notedSchema (note : Json) : Json :=
  .obj [("schema", .arr [(Field.bare "q").toJson]), ("note", note)]

/-- The envelope that is imported there. -/
def noted (note : Json) : Envelope where
  flow := some (Flow.chain [.bare "q"] none)
  fields := some [.bare "q"]
  extras := [("note", note)]

/-- The chain through a single text field stands for that field. -/
theorem linear_bare : (Flow.chain [.bare "q"] none).linear = .ok [.bare "q"] :=
  Flow.linear_like_illustrated rfl rfl rfl

/-- It is imported, whatever the note is. -/
theorem load_notedSchema (note : Json) : load (notedSchema note) = .ok (noted note) := by
  have parts : loadParts [("schema", .arr [(Field.bare "q").toJson]), ("note", note)] =
      .ok { fields := some [.bare "q"], extras := [("note", note)] } := rfl
  rw [notedSchema, load, if_pos (by rfl)]
  exact Failure.bind_eq_ok_iff.2 ⟨_, parts, Failure.map_eq_ok_iff.2 ⟨_, linear_bare, rfl⟩⟩

/-- No object there spells a declared key both ways. -/
theorem spellsOnce_notedSchema (note : Json) : format.SpellsOnce (notedSchema note) := by
  -- Only the field is an object that is read, and it has no objects among its own parts.
  have field : Field.format.SpellsOnce (Field.bare "q").toJson := by
    refine Shape.spellsOnce_obj_iff.2 ⟨by decide, Slot.spelledOnce_simple, Slot.spelledOnce_simple,
      Slot.spelledOnce_simple, Slot.spelledOnce_simple, ?_, Slot.spelledOnce_simple, ?_, ?_,
      Slot.spelledOnce_simple, Slot.spelledOnce_simple, trivial⟩
    all_goals rintro object ⟨_, ⟨⟩, _⟩
  refine Shape.spellsOnce_obj_iff.2 ⟨?_, Slot.spelledOnce_simple, Slot.spelledOnce_simple,
    Slot.spelledOnce_simple, Slot.spelledOnce_simple, Slot.spelledOnce_simple, ?_, ?_, ?_, ?_, ?_, ?_,
    trivial⟩
  · simp [Members.SpelledOnce, Shape.keys, shape, Members.has, Members.get?_cons, Key.same, submitTextKey,
      successTextKey, flowKey, fieldsKey, edgesKey, cardSettingsKey, profileEstimationKey,
      Text.ofString_inj]
  · rintro object ⟨_, ⟨⟩, _⟩
  · rintro object ⟨_, ⟨⟩, _, ⟨⟩, item, inItems, inField⟩
    rw [List.mem_singleton.1 inItems] at inField
    exact field object inField
  all_goals rintro object ⟨_, ⟨⟩, _⟩

/-- The note is all in it whose numbers need be finite. -/
theorem isFinite_notedSchema (note : Json) : (notedSchema note).isFinite = note.isFinite := by
  have field : (Field.bare "q").toJson.isFinite = true := rfl
  simp [notedSchema, Json.isFinite, Json.haveFinite, Json.areFinite, field]

/-- The cards of that envelope have copies of known kinds. -/
theorem knowsKind_noted (note : Json) :
    ∀ flow ∈ (noted note).flow, ∀ node ∈ flow.shownNodes, node.KnowsKind := by
  rintro _ ⟨⟩
  have valid : Flow.format.Valid (Flow.chain [.bare "q"] none) :=
    Flow.valid_chain (Field.valid_bare ["q"] (by decide))
  exact (Flow.known_linear_iff valid linear_bare).1 (List.forall_mem_singleton.2 (by decide))

/-- A field list with a note is imported again, note included. -/
theorem loads_again_noted :
    ∃ again, load (noted (.str "draft")).toJson = .ok again ∧
      Writable.write again = .ok (noted (.str "draft")).toJson := by
  have writes : Writable.write (noted (.str "draft")) = .ok (noted (.str "draft")).toJson :=
    Writable.write_of_isWritable (by decide +kernel)
  obtain ⟨loads, same⟩ := loads_again_iff (load_notedSchema _) (isFinite_notedSchema _)
    (spellsOnce_notedSchema _) (fun unchecked => unchecked.2 rfl) writes
  obtain ⟨again, isAgain⟩ := loads.2 (knowsKind_noted _)
  exact ⟨again, isAgain, same again isAgain⟩

/-- The envelope is not written where the note has an obstacle. -/
theorem write_noted {note : Json} {found : Obstacle}
    (isFound : note.obstacle Json.writableNesting = some found) :
    Writable.write (noted note) = .error (.ofObstacle found) := by
  have inExtras : (noted note).extras.obstacle Json.writableNesting = some found := by
    simp only [noted, Members.obstacle, List.findSome?_cons, isFound]
  refine Writable.write_of_obstacle ?_
  change Obstacle.first? [none, none, none, none, none, none,
    (noted note).extras.obstacle Json.writableNesting] = some found
  rw [inExtras]
  rfl

/-- The envelope of a schema with such a note is imported, and it cannot be written. -/
theorem exists_load_unwritten {note : Json} {found : Obstacle} (finite : note.isFinite = true)
    (isFound : note.obstacle Json.writableNesting = some found) :
    ∃ value envelope, load value = .ok envelope ∧ value.isFinite = true ∧ format.SpellsOnce value ∧
      ¬Unchecked value ∧ (∀ flow ∈ envelope.flow, ∀ node ∈ flow.shownNodes, node.KnowsKind) ∧
      Writable.write envelope = .error (.ofObstacle found) :=
  ⟨notedSchema note, noted note, load_notedSchema note, (isFinite_notedSchema note).trans finite,
    spellsOnce_notedSchema note, fun unchecked => unchecked.2 rfl, knowsKind_noted note,
    write_noted isFound⟩

/-- Not each envelope that is imported is imported again: one with a note that is too deep is not written,
nor is one with an ill-formed key in its note. -/
theorem exists_not_again :
    (∃ value envelope, load value = .ok envelope ∧ value.isFinite = true ∧ format.SpellsOnce value ∧
      ¬Unchecked value ∧ (∀ flow ∈ envelope.flow, ∀ node ∈ flow.shownNodes, node.KnowsKind) ∧
      Writable.write envelope = .error .tooDeep) ∧
    ∃ value envelope, load value = .ok envelope ∧ value.isFinite = true ∧ format.SpellsOnce value ∧
      ¬Unchecked value ∧ (∀ flow ∈ envelope.flow, ∀ node ∈ flow.shownNodes, node.KnowsKind) ∧
      Writable.write envelope = .error (.notEncodable 0 [.ofNat 0xD800]) := by
  have deep := exists_load_unwritten (Json.isFinite_iterate_arr 255 .null)
    (Json.obstacle_iterate_arr Json.writableNesting .null)
  have illFormed := @exists_load_unwritten (.obj [([.ofNat 0xD800], .int 1)])
    (.notEncodable 0 [.ofNat 0xD800]) rfl rfl
  exact ⟨deep, illFormed⟩

end CardForm.Envelope
