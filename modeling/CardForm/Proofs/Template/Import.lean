import CardForm.Proofs.Flow.Layout
import CardForm.Proofs.Flow.Linear
import CardForm.Proofs.Written.Template
import CardForm.Template.Extract

/-!
# What an import carries

An imported envelope carries a flow and the field list of that flow, and no edge specifications
(`Envelope.flow_of_load`). The flow is sound where it was checked, or laid out from the reduced form.
One way in goes past the check: a flow under the plain spelling of its key, where nothing is under
the spelling in camel case, is read only (`Envelope.Unchecked`).
-/
namespace CardForm.Envelope

open CardForm.Flow

/-! ## The reduced form -/

section Expanded

variable {envelope : Envelope} {demand : Demand}

/-- What holds of the fields of an envelope, if it has any, holds of those of the reduced form. -/
theorem forall_mem_fields {holds : Field → Prop}
    (all : ∀ fields ∈ envelope.fields, ∀ field ∈ fields, holds field) :
    ∀ field ∈ envelope.fields.getD [], holds field := by
  cases same : envelope.fields with
  | none => exact fun _ mem => absurd mem List.not_mem_nil
  | some fields => exact all fields same

/-- The flow of the reduced form is sound. -/
theorem sound_expanded
    (valid : ∀ fields ∈ envelope.fields, ∀ field ∈ fields, Field.format.Valid field) :
    envelope.expanded.Sound := by
  have valid := forall_mem_fields valid
  unfold expanded
  split
  · exact sound_build valid _ _
  · exact sound_chain valid _

/-- The flow of the reduced form can be read once it was written. -/
theorem valid_expanded
    (valid : ∀ fields ∈ envelope.fields, ∀ field ∈ fields, Field.format.Valid field) :
    Flow.format.Valid envelope.expanded := by
  have valid := forall_mem_fields valid
  unfold expanded
  split
  · exact valid_build valid
  · exact valid_chain valid

/-- What a demand asks of the fields and the payloads of the edge specifications of an envelope, it
asks of the flow of the reduced form. -/
theorem each_expanded
    (fieldsEach : ∀ fields ∈ envelope.fields, ∀ field ∈ fields, Field.format.Each demand field)
    (edgesEach : ∀ specs ∈ envelope.edges, ∀ spec ∈ specs, ∀ data ∈ spec.data,
      EdgeData.format.Each demand data) :
    Flow.format.Each demand envelope.expanded := by
  have fieldsEach := forall_mem_fields fieldsEach
  unfold expanded
  split
  · rename_i edge edges isEdges
    exact each_build fieldsEach (edgesEach _ isEdges) fun _ none => nomatch none
  · exact each_chain fieldsEach fun _ none => nomatch none

end Expanded

/-! ## Reading the parts -/

section Parts

variable {members : Members} {envelope : Envelope} {given : Option Flow}

/-- The parts of an envelope from which its flow is made are read under their keys, but for a flow
that is given. -/
theorem reads_of_ofMembers (isRead : ofMembers given members = .ok envelope) :
    (match given with
      | some flow => envelope.flow = some flow
      | none => members.optional flowKey Flow.read = .ok envelope.flow) ∧
      members.optional fieldsKey (.array Field.read) = .ok envelope.fields ∧
      members.optional edgesKey (.array EdgeSpec.read) = .ok envelope.edges := by
  obtain ⟨parts, _⟩ := ofMembers_eq_ok_iff.1 isRead
  obtain ⟨⟩ := envelope
  simp only [partsOfMembers, Reading.seq_eq_ok_iff, Reading.map_eq_ok_iff, Reading.ok.injEq,
    mk.injEq, ↓existsAndEq, true_and, exists_and_left, and_assoc] at parts
  obtain ⟨_, _, _, _, _, flow, fields, edges, _⟩ := parts
  refine ⟨?_, fields, edges⟩
  cases given with
  | none => exact flow
  | some given => exact (Reading.ok.inj flow).symm

/-- The fields of an envelope that was read can be read once they were written. -/
theorem valid_of_ofMembers (isRead : ofMembers given members = .ok envelope) :
    ∀ fields ∈ envelope.fields, ∀ field ∈ fields, Field.format.Valid field := by
  intro fields isFields
  obtain ⟨_, _, _, arrayRead⟩ :=
    Members.exists_of_optional_eq_ok (reads_of_ofMembers isRead).2.1 isFields
  exact (Format.array_exact Field.exact_format).valid_of_read arrayRead

/-- The extras in the flow of the reduced form of an envelope that was read bear none of the declared
keys in camel case. -/
theorem kept_expanded (isRead : ofMembers given members = .ok envelope) :
    Flow.format.Each .kept envelope.expanded := by
  obtain ⟨_, fieldsRead, edgesRead⟩ := reads_of_ofMembers isRead
  refine each_expanded (fun fields isFields => ?_) fun specs isSpecs spec mem => ?_
  · obtain ⟨_, _, _, arrayRead⟩ := Members.exists_of_optional_eq_ok fieldsRead isFields
    exact (Format.array_exact Field.exact_format).kept_of_read arrayRead
  · obtain ⟨_, _, _, arrayRead⟩ := Members.exists_of_optional_eq_ok edgesRead isSpecs
    exact (EdgeSpec.each_iff.1
      ((Format.array_exact EdgeSpec.exact_format).kept_of_read arrayRead spec mem)).2

/-- A part that may be absent or null is read under the plain spelling of its key where the spelling
in camel case was erased. -/
theorem optional_erase_eq_ok_iff {α : Type} {key : Key} {read : Json → Reading α} {part : Option α}
    (apart : key.camel ≠ key.plain) :
    (members.erase key.camel).optional key read = .ok part ↔
      ((Json.obj members).get key.plain = .null ∧ part = none) ∨
        ((Json.obj members).get key.plain ≠ .null ∧
          ∃ value, read ((Json.obj members).get key.plain) = .ok value ∧ part = some value) := by
  have found : key.find? (members.erase key.camel) =
      (members.get? key.plain).map fun value => (key.plain, value) := by
    rw [Key.find?, Members.get?_erase_self, Members.get?_erase, if_neg apart]
  have isGet : (Json.obj members).get key.plain = (members.get? key.plain).getD .null := rfl
  rw [Members.optional_eq_ok_iff, found, isGet]
  cases members.get? key.plain <;> simp

end Parts

/-! ## Importing -/

/-- A value has a flow under the plain spelling of its key, and nothing under the spelling in camel
case. -/
def Unchecked (value : Json) : Prop :=
  value.get flowKey.camel = .null ∧ value.get flowKey.plain ≠ .null

/-- The flow that an envelope carries or stands for, once its parts were loaded: it is sound, unless
the value has it under the plain spelling; then it is what is read there. -/
theorem flow_of_loadParts {members : Members} {envelope : Envelope}
    (loads : loadParts members = .ok envelope) :
    Flow.format.Each .kept (envelope.flow.getD envelope.expanded) ∧
      (¬Unchecked (.obj members) → (envelope.flow.getD envelope.expanded).Sound) ∧
      (Unchecked (.obj members) → Flow.read ((Json.obj members).get flowKey.plain) =
        .ok (envelope.flow.getD envelope.expanded)) := by
  unfold loadParts at loads
  split at loads
  · rename_i isNull
    obtain ⟨_, isRead⟩ := Members.wellKeyed_eq_ok_iff.1 (Reading.orRefused_eq_ok_iff.1 loads)
    have flowRead : (members.erase flowKey.camel).optional flowKey Flow.read = .ok envelope.flow :=
      (reads_of_ofMembers isRead).1
    obtain ⟨isPlainNull, none⟩ | ⟨notNull, flow, flowRead, isSome⟩ :=
      (optional_erase_eq_ok_iff (by decide)).1 flowRead
    · rw [none]
      exact ⟨kept_expanded isRead, fun _ => sound_expanded (valid_of_ofMembers isRead),
        fun unchecked => absurd isPlainNull unchecked.2⟩
    · rw [isSome]
      exact ⟨Flow.exact_format.kept_of_read flowRead, fun checked => absurd ⟨isNull, notNull⟩ checked,
        fun _ => flowRead⟩
  · rename_i value notNull
    obtain ⟨flow, isFlow, loads⟩ := Failure.bind_eq_ok_iff.1 loads
    obtain ⟨_, isRead⟩ := Members.wellKeyed_eq_ok_iff.1 (Reading.orRefused_eq_ok_iff.1 loads)
    have given : envelope.flow = some flow := (reads_of_ofMembers isRead).1
    rw [given]
    exact ⟨Flow.exact_format.kept_of_read (Flow.load_eq_ok_iff.1 isFlow).2,
      fun _ => sound_of_load isFlow, fun unchecked => absurd unchecked.1 notNull⟩

/-- What an envelope that was imported from a value carries. -/
structure Imported (value : Json) (envelope : Envelope) (flow : Flow) : Prop where
  /-- It carries the flow. -/
  carries : envelope.flow = some flow
  /-- It carries no edge specifications. -/
  noEdges : envelope.edges = none
  /-- It carries the field list of the flow. -/
  fields : ∃ fields, flow.linear = .ok fields ∧ envelope.fields = some fields
  /-- A flow that goes past the check is what is read of it. -/
  unchecked : Unchecked value → Flow.read (value.get flowKey.plain) = .ok flow
  /-- The check finds no defect in a flow that can be written, unless it went past the check and is not
  sound. -/
  noDefect : flow.ownDefects = .ok [] ↔
    Writable.isWritable flow = true ∧ (Unchecked value → flow.Sound)
  /-- The check fails for the obstacle where the flow cannot be written. -/
  unwritten : ∀ found, Writable.obstacle flow Json.writableNesting = some found →
    flow.ownDefects = .error (.ofObstacle found)

/-- An envelope that is imported carries a flow, the field list of that flow, and no edge
specifications. -/
theorem imported_of_load {value : Json} {envelope : Envelope} (loads : load value = .ok envelope) :
    ∃ flow, Imported value envelope flow := by
  unfold load at loads
  split at loads
  · rename_i members
    split at loads
    · obtain ⟨parts, loadsParts, completes⟩ := Failure.bind_eq_ok_iff.1 loads
      obtain ⟨kept, checked, unchecked⟩ := flow_of_loadParts loadsParts
      obtain ⟨fields, isLinear, rfl⟩ := Failure.map_eq_ok_iff.1 completes
      refine ⟨_, rfl, rfl, ⟨fields, isLinear, rfl⟩, unchecked, ?_, fun found isFound =>
        congrArg (Except.map _) (Writable.write_of_obstacle isFound)⟩
      rw [ownDefects_eq_ok_nil_iff (Flow.each_iff.1 kept).2.1]
      refine and_congr_right fun _ => ⟨fun sound _ => sound, fun sound => ?_⟩
      by_cases past : Unchecked (.obj members)
      · exact sound past
      · exact checked past
    · cases loads
  · cases loads

/-- An envelope that a candidate is was imported from a value. -/
theorem exists_of_ofCandidate {candidate : Except Json.Refusal Json} {envelope : Envelope}
    (isEnvelope : ofCandidate candidate = .ok (some envelope)) :
    ∃ value, candidate = .ok value ∧ load value = .ok envelope := by
  unfold ofCandidate at isEnvelope
  split at isEnvelope
  · cases isEnvelope
  · cases isEnvelope
  · rename_i value
    split at isEnvelope
    · rename_i found loads
      cases isEnvelope
      exact ⟨value, rfl, loads⟩
    · cases isEnvelope
    · cases isEnvelope
    · cases isEnvelope

/-- The first envelope among some candidates was imported from the value of one of them. -/
theorem exists_of_firstAmong {candidate : Text → Except Json.Refusal Json} {texts : List Text}
    {envelope : Envelope} (isFirst : firstAmong candidate texts = .ok (some envelope)) :
    ∃ text ∈ texts, ∃ value, candidate text = .ok value ∧ load value = .ok envelope := by
  induction texts with
  | nil => cases isFirst
  | cons text rest ih =>
    rw [firstAmong] at isFirst
    split at isFirst
    · obtain ⟨later, mem, found⟩ := ih isFirst
      exact ⟨later, List.mem_cons_of_mem _ mem, found⟩
    · exact ⟨text, List.mem_cons_self, exists_of_ofCandidate isFirst⟩

/-- The first envelope in a text was imported from a value that the text holds: the body of a fenced
block, or the value that begins at a brace. -/
theorem exists_of_extract? {text : Text} {envelope : Envelope}
    (extracts : extract? text = .ok (some envelope)) :
    ∃ value, load value = .ok envelope ∧
      ((∃ body ∈ fencedTexts text, Json.read body = .ok value) ∨
        ∃ front ∈ bracedTexts text, frontValue front = .ok value) := by
  unfold extract? at extracts
  split at extracts
  · split at extracts
    · obtain ⟨front, mem, value, isValue, loads⟩ := exists_of_firstAmong extracts
      exact ⟨value, loads, .inr ⟨front, mem, isValue⟩⟩
    · cases extracts
  · obtain ⟨body, mem, value, isValue, loads⟩ := exists_of_firstAmong extracts
    exact ⟨value, loads, .inl ⟨body, mem, isValue⟩⟩

/-- Whatever comes in, as a value that is imported or in a text, carries a flow in which the check
finds no defect, unless that cannot be written, so that the check fails, or went past the check and is
not sound. -/
theorem imported_flow (value : Json) (text : Text) (envelope : Envelope) :
    (load value = .ok envelope → ∃ flow, Imported value envelope flow) ∧
      (extract? text = .ok (some envelope) →
        ∃ found flow, load found = .ok envelope ∧ Imported found envelope flow) := by
  constructor
  · exact imported_of_load
  · intro extracts
    obtain ⟨found, loads, _⟩ := exists_of_extract? extracts
    obtain ⟨flow, imported⟩ := imported_of_load loads
    exact ⟨found, flow, loads, imported⟩

/-- The field list of a single text field, given as an envelope. -/
def bareSchema (id : Text) : Json :=
  .obj [("schema", .arr [.obj [("id", .str id), ("type", .str "text"), ("label", .str id)]])]

/-- The field list of a single text field is imported with a flow. -/
theorem imported_flow_bare :
    ∃ envelope flow, load (bareSchema "a") = .ok envelope ∧
      Imported (bareSchema "a") envelope flow := by
  have parts : loadParts [("schema", .arr [.obj [("id", .str "a"), ("type", .str "text"),
      ("label", .str "a")]])] = .ok { fields := some [.bare "a"] } := rfl
  obtain ⟨fields, isLinear⟩ : ∃ fields, (chain [.bare "a"] none).linear = .ok fields := by
    refine exists_linear fun node mem => ?_
    obtain rfl | ⟨field, inFields, y, rfl⟩ | ⟨y, rfl⟩ := mem_column mem
    · exact ⟨none, rfl⟩
    · rw [List.mem_singleton.1 inFields]
      exact ⟨_, rfl⟩
    · exact ⟨none, rfl⟩
  obtain ⟨envelope, completes⟩ :
      ∃ envelope, completed { fields := some [.bare "a"] } = .ok envelope :=
    ⟨_, Failure.map_eq_ok_iff.2 ⟨fields, isLinear, rfl⟩⟩
  have loads : load (bareSchema "a") = .ok envelope := by
    rw [bareSchema, load, if_pos (by rfl)]
    exact Failure.bind_eq_ok_iff.2 ⟨_, parts, completes⟩
  obtain ⟨flow, imported⟩ := (imported_flow (bareSchema "a") [] envelope).1 loads
  exact ⟨envelope, flow, loads, imported⟩

/-- A flow without nodes comes in under the plain spelling of its key, beside a field. -/
theorem exists_load_unsound :
    ∃ envelope flow, load (.obj [("schema", .arr [.obj [("id", .str "a"), ("type", .str "text"),
        ("label", .str "A")]]),
        ("flowchart_graph", .obj [("nodes", .arr []), ("edges", .arr [])])]) = .ok envelope ∧
      envelope.flow = some flow ∧ flow.ownDefects ≠ .ok [] := by
  have noFields : (Flow.mk [] [] none []).linear = .ok [] := by
    simp [Flow.linear, Flow.shownNodes, Flow.ends, Ends.discovery, Ends.discoveryFrom, Ends.targets,
      Node.fields]
  refine ⟨{ flow := some ⟨[], [], none, []⟩, fields := some [] }, ⟨[], [], none, []⟩, ?_, rfl, ?_⟩
  · rw [load, if_pos (by rfl)]
    refine Failure.bind_eq_ok_iff.2 ⟨_, by rfl, ?_⟩
    rw [completed, withFlow]
    exact Failure.map_eq_ok_iff.2 ⟨_, noFields, rfl⟩
  · intro noDefect
    obtain ⟨_, sound⟩ := (ownDefects_eq_ok_nil_iff fun _ mem => absurd mem List.not_mem_nil).1 noDefect
    obtain ⟨_, mem, _⟩ := sound.hasStart
    exact absurd mem List.not_mem_nil

end CardForm.Envelope
