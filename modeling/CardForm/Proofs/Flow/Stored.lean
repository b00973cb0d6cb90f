import CardForm.Proofs.Flow.Readable
import CardForm.Proofs.Flow.Session
import CardForm.Proofs.Written.Obstacle

/-!
# Content for a flow that was stored

A flow is stored beside the field list that it stood for. What comes back of it is given that list,
which nothing was changed in, so it is what was stored but for one part: media are compared as they
were before, and extras that are null do not come back. Media of a card that no longer equal those in
the list go into the field of the card (`Flow.toJson_merge_reread_iff`). Whatever is lost there, the
flow with its list has the laws that a stored flow has (`Flow.laws_merge_reread`).
-/
namespace CardForm

variable {fields : List Field} {entry field : Field}

/-! ## Media that keep their place -/

/-- A field with other media is written as before exactly where the media are. -/
theorem Field.toJson_withMedia_iff {media : Option Media} (kept : format.Each .kept field)
    (mediaKept : ∀ own ∈ media, Media.format.Each .kept own) :
    toJson { field with media := media } = field.toJson ↔
      media.map Media.toJson = field.media.map Media.toJson := by
  refine ⟨fun same => ?_, toJson_withMedia⟩
  obtain ⟨extras, options, _, logic⟩ := each_iff.1 kept
  have otherKept : format.Each .kept { field with media := media } :=
    each_iff.2 ⟨extras, options, mediaKept, logic⟩
  exact media_eq_of_toJson_eq otherKept kept same

namespace QuestionData

variable {data : QuestionData}

/-- The media of a card, once they were stored, are still those of the field that it shows, or the field
in the card has the same ones. -/
def KeepsMedia (data : QuestionData) : Prop :=
  ∀ own ∈ data.media, own.alike (Media.format.reread own) = true ∨
    data.field.media.map Media.toJson = some own.toJson

/-- Media that were written and read before keep their place: what does not come back is gone already. -/
theorem keepsMedia_reread (finite : format.Each .finite data) : (format.reread data).KeepsMedia := by
  intro own isOwn
  obtain ⟨media, isMedia, rfl⟩ := Option.map_eq_some_iff.1 isOwn
  have extras : Members.shown (Members.shown media.extras) = Members.shown media.extras :=
    Members.shown_shown (Media.each_iff.1 ((each_iff.1 finite).2.2 media isMedia))
  have again : Media.format.reread (Media.format.reread media) = Media.format.reread media :=
    congrArg (fun extras => { media with extras := extras }) extras
  rw [again]
  exact .inl (Media.alike_self _)

/-- The field that a payload shows brings the stored payload the media of its own field exactly where
these keep their place. -/
theorem mediaFor_reread_iff (finite : format.Each .finite data) :
    ((format.reread data).mediaFor data.shownField).map Media.toJson =
      data.field.media.map Media.toJson ↔ data.KeepsMedia := by
  obtain ⟨_, fieldFinite, _⟩ := each_iff.1 finite
  have ownAgain : (data.field.media.map Media.format.reread).map Media.toJson =
      data.field.media.map Media.toJson :=
    Media.exact_format.map_toJson_reread (Field.each_iff.1 fieldFinite).2.2.1
  cases isMedia : data.media with
  | none =>
    have none : (format.reread data).media = none := congrArg (Option.map Media.format.reread) isMedia
    have shown : data.shownField.media = data.field.media := by rw [shownField, isMedia]; rfl
    refine iff_of_true ?_ fun own isOwn => ?_
    · rw [mediaFor, none, shown]
    · cases isMedia.symm.trans isOwn
  | some own =>
    have some : (format.reread data).media = some (Media.format.reread own) :=
      congrArg (Option.map Media.format.reread) isMedia
    have shown : data.shownField.media = Option.some own := by rw [shownField, isMedia]; rfl
    rw [mediaFor, some, shown, KeepsMedia, isMedia]
    simp only [Option.mem_some_iff, forall_eq']
    split
    · rename_i alike
      exact iff_of_true ownAgain (.inl alike)
    · rename_i notAlike
      rw [or_iff_right notAlike, eq_comm]
      rfl

/-- A stored payload with the field that was shown before, where the copy of its kind is up to date, is
changed in the media of its field only. -/
theorem withField_reread (upToDate : data.fieldType = some data.field.kind.name) :
    (format.reread data).withField data.shownField =
      { format.reread data with
        field := { data.field with media := (format.reread data).mediaFor data.shownField } } := by
  have kind : data.shownField.kind = data.field.kind := by
    rw [shownField, upToDate]
    rfl
  rw [withField, kind]
  rfl

end QuestionData

namespace Node

variable {node : Node}

/-- The media of a question keep their place. -/
def KeepsMedia : Node → Prop
  | question card => card.data.KeepsMedia
  | _ => True

/-- The media of a question that was written and read before keep their place. -/
theorem keepsMedia_reread (finite : format.Each .finite node) : (format.reread node).KeepsMedia := by
  cases node with
  | question card => exact QuestionData.keepsMedia_reread (Card.each_content_iff.1 finite).2.2
  | _ => trivial

/-- Copies that are up to date come back up to date. -/
theorem normalized_reread (upToDate : node.normalized = node) :
    (format.reread node).normalized = format.reread node := by
  conv_rhs => rw [← upToDate]
  cases node <;> rfl

/-- A copy of the kind that is up to date names a known kind. -/
theorem knowsKind_of_normalized (valid : format.Valid node) (upToDate : node.normalized = node) :
    node.KnowsKind := by
  cases node with
  | question card =>
    exact QuestionData.knowsKind_of_upToDate (Card.valid_content_iff.1 valid).2
      (copies_of_normalized upToDate).2.2
  | _ => trivial

/-- A node that comes back is given what it was given. -/
theorem given?_reread (fields : List Field) (node : Node) :
    (format.reread node).given? fields = node.given? fields := by
  cases node <;> rfl

/-- A question with another field is written as before exactly where the field is. -/
theorem toJson_question_iff {card : Card QuestionData} :
    (question { card with data := { card.data with field := field } }).toJson =
      (question card).toJson ↔ field.toJson = card.data.field.toJson := by
  constructor
  · intro same
    have data : some (QuestionData.toJson { card.data with field := field }) =
        some (QuestionData.toJson card.data) := congrArg (·.get? "data") same
    have fields : some field.toJson = some card.data.field.toJson :=
      congrArg (·.get? "field") (Option.some.inj data)
    exact Option.some.inj fields
  · intro same
    have data : QuestionData.toJson { card.data with field := field } =
        QuestionData.toJson card.data := by
      rw [QuestionData.toJson, QuestionData.toJson, same]
    exact congrArg (fun data => Members.written
      [("id", some (.str card.id)), ("type", some (.str NodeKind.question.word)),
        ("position", some card.position.toJson), ("data", some data)] card.extras) data

/-- A stored question that is given the field that it showed before is changed in the media of its field
only. -/
theorem merged_reread_question {card : Card QuestionData}
    (upToDate : (question card).normalized = question card)
    (isGiven : (question card).given? fields = some card.data.shownField) :
    (format.reread (question card)).merged fields =
      question { questionFormat.reread card with
        data := { QuestionData.format.reread card.data with
          field := { card.data.field with
            media := (QuestionData.format.reread card.data).mediaFor card.data.shownField } } } := by
  obtain ⟨id, label, kind⟩ := copies_of_normalized upToDate
  have isGivenAgain : (question (questionFormat.reread card)).given? fields =
      some card.data.shownField := isGiven
  refine (merged_question isGivenAgain).trans ?_
  change normalized (question { questionFormat.reread card with
    data := (QuestionData.format.reread card.data).withField card.data.shownField }) = _
  rw [QuestionData.withField_reread kind]
  -- The copies are those of the field that is shown, so bringing them up to date changes nothing.
  change question { questionFormat.reread card with
    data := { QuestionData.format.reread card.data with
      field := { card.data.field with
        media := (QuestionData.format.reread card.data).mediaFor card.data.shownField }
      fieldId := some card.data.field.id
      label := some card.data.field.label
      fieldType := some card.data.field.kind.name } } = _
  rw [← id, ← label, ← kind]
  rfl

/-- A stored node that is given the field that it showed before is written as before exactly where its
media keep their place. -/
theorem toJson_merged_reread_iff (tidy : format.Each .tidy node) (upToDate : node.normalized = node)
    (isShown : node.field? = .ok (some entry)) (isGiven : node.given? fields = some entry) :
    ((format.reread node).merged fields).toJson = (format.reread node).toJson ↔
      node.KeepsMedia := by
  cases node with
  | start card => cases isShown
  | finish card => cases isShown
  | statement card =>
    obtain ⟨_, none⟩ | ⟨_, _, isField⟩ := field?_statement_eq_ok_iff.1 isShown
    · cases none
    · cases isField
      rw [← given?_reread] at isGiven
      exact iff_of_true (congrArg toJson (merged_statement isGiven)) trivial
  | question card =>
    cases isShown
    have dataTidy : QuestionData.format.Each .tidy card.data := (Card.each_content_iff.1 tidy).2.2
    have dataFinite := QuestionData.exact_format.finite_of_tidy dataTidy
    have kept := QuestionData.exact_format.kept_of_tidy dataTidy
    obtain ⟨_, fieldFinite, _⟩ := QuestionData.each_iff.1 dataFinite
    obtain ⟨_, fieldKept, _⟩ := QuestionData.each_iff.1 kept
    have nextKept := QuestionData.each_withField (QuestionData.exact_format.each_reread kept)
      (QuestionData.each_shownField kept)
    have mediaKept : ∀ own ∈ (QuestionData.format.reread card.data).mediaFor card.data.shownField,
        Media.format.Each .kept own :=
      (Field.each_iff.1 (QuestionData.each_iff.1 nextKept).2.1).2.2.1
    have sameField : Field.toJson (QuestionData.format.reread card.data).field =
        card.data.field.toJson := Field.exact_format.toJson_reread fieldFinite
    rw [merged_reread_question upToDate isGiven]
    refine toJson_question_iff.trans ?_
    rw [show (questionFormat.reread card).data.field.toJson = card.data.field.toJson from sameField,
      Field.toJson_withMedia_iff fieldKept mediaKept, QuestionData.mediaFor_reread_iff dataFinite]
    rfl

end Node

namespace Flow

variable {flow : Flow}

/-- A flow with other nodes is written as before exactly where its nodes are. -/
theorem toJson_nodes_iff {nodes : List Node} :
    toJson { flow with nodes := nodes } = flow.toJson ↔
      nodes.map Node.toJson = flow.nodes.map Node.toJson := by
  constructor
  · intro same
    have nodes : some (Json.arr (nodes.map Node.toJson)) = some (.arr (flow.nodes.map Node.toJson)) :=
      congrArg (·.get? "nodes") same
    exact Json.arr.inj (Option.some.inj nodes)
  · intro same
    rw [toJson, toJson, same]

/-- A stored flow whose copies are up to date and whose cards name distinct identifiers is written as
before with the field list that it stood for exactly where the media of each shown card keep their
place. -/
theorem toJson_merge_reread_iff (valid : format.Valid flow) (tidy : format.Each .tidy flow)
    (synced : flow.Synced) (distinct : flow.contentKeys.Nodup) (isLinear : flow.linear = .ok fields) :
    ((format.reread flow).merge fields).toJson = flow.toJson ↔
      ∀ node ∈ flow.shownNodes, node.KeepsMedia := by
  have sameForm : (format.reread flow).toJson = flow.toJson :=
    exact_format.toJson_reread_of_tidy tidy
  have nodesTidy := (each_iff.1 tidy).2.1
  rw [← sameForm, merge, toJson_nodes_iff]
  change ((flow.nodes.map Node.format.reread).map (Node.merged fields)).map Node.toJson =
    (flow.nodes.map Node.format.reread).map Node.toJson ↔ _
  rw [List.map_map, List.map_map, List.map_map, List.map_inj_left]
  constructor
  · intro same node inShown
    have inNodes := mem_of_mem_shownNodes inShown
    obtain ⟨field, isShown, _⟩ := Node.exists_field?_of_mem isLinear inShown
    cases field with
    | none =>
      cases node with
      | question card => cases isShown
      | _ => trivial
    | some entry =>
      have isGiven := given?_of_shown valid synced distinct isLinear inShown isShown
      exact (Node.toJson_merged_reread_iff (nodesTidy node inNodes) (synced node inNodes) isShown
        isGiven).1 (same node inNodes)
  · intro keeps node inNodes
    cases isGiven : node.given? fields with
    | none =>
      rw [← Node.given?_reread] at isGiven
      exact congrArg Node.toJson (Node.merged_of_given?_eq_none isGiven)
    | some entry =>
      obtain ⟨inShown, isShown⟩ := shown_of_given? valid synced distinct isLinear inNodes isGiven
      exact (Node.toJson_merged_reread_iff (nodesTidy node inNodes) (synced node inNodes) isShown
        isGiven).2 (keeps node inShown)

/-- The media of all cards keep their place in a flow that was loaded from what is written of another
one. -/
theorem keepsMedia_of_load {given : Flow} (tidy : format.Each .tidy given)
    (loads : load given.toJson = .ok flow) : ∀ node ∈ flow.shownNodes, node.KeepsMedia := by
  obtain ⟨_, _, rfl⟩ :=
    (load_toJson_eq_ok_iff (exact_format.once_of_tidy tidy)).1 loads
  have finite := exact_format.finite_of_tidy tidy
  rw [shownNodes_reread]
  refine List.forall_mem_map.2 fun node mem => ?_
  exact Node.keepsMedia_reread ((each_iff.1 finite).2.1 node (mem_of_mem_shownNodes mem))

/-- Such a flow, with that list, has the laws that a stored flow has. -/
theorem laws_merge_reread (sound : flow.Sound) (valid : format.Valid flow)
    (tidy : format.Each .tidy flow) (synced : flow.Synced) (writable : Writable.isWritable flow = true)
    (isLinear : flow.linear = .ok fields) :
    ((format.reread flow).merge fields).Sound ∧ format.Valid ((format.reread flow).merge fields) ∧
      format.Each .tidy ((format.reread flow).merge fields) ∧
      Writable.isWritable ((format.reread flow).merge fields) = true := by
  have known : ∀ field ∈ fields, field.kind ∈ FieldKind.known := by
    refine (known_linear_iff valid isLinear).2 fun node inShown => ?_
    exact Node.knowsKind_of_normalized (valid_iff.1 valid node (mem_of_mem_shownNodes inShown))
      (synced node (mem_of_mem_shownNodes inShown))
  have fieldsValid : ∀ field ∈ fields, Field.format.Valid field := fun field mem =>
    (valid_linear_iff valid isLinear mem).2 (known field mem)
  have soundAgain : (format.reread flow).Sound :=
    sound_of_load (load_toJson_of_tidy tidy sound valid)
  have free := Writable.isWritable_iff.1 writable
  refine ⟨(sound_merge_iff soundAgain (id_ne_nil_of_linear valid isLinear)).2 ?_,
    valid_merge (exact_format.valid_reread valid) fieldsValid,
    each_merge (exact_format.each_reread tidy) (each_linear tidy isLinear),
    Writable.isWritable_iff.2 (obstacle_merge (unobstructed flow _ free) (obstacle_linear free isLinear))⟩
  rintro node _ card rfl entry isGiven
  obtain ⟨_, _, isLast⟩ := Option.bind_eq_some_iff.1 isGiven
  exact known entry (Field.mem_of_last? isLast)

end Flow

end CardForm
