import CardForm.Proofs.Flow.Stored

/-!
# Flows made of what was sent

Fields and edge specifications that are sent come back as they are read. Laying them out commutes with
that (`Flow.chain_reread`, `Flow.build_reread`). Merging does so up to the media of the cards: an entry
of the list brings other media once it was sent where its media equal those of the card before and not
after, or the other way round (`Flow.toJson_merge_sent_iff`).
-/
namespace CardForm

variable {fields : List Field} {field entry : Field}

namespace Field

/-- The last of some fields that come back is the one that comes back. -/
theorem last?_reread (fields : List Field) (id : Text) :
    last? (fields.map format.reread) id = (last? fields id).map format.reread := by
  rw [last?, last?, ← List.map_reverse, List.find?_map]
  rfl

end Field

namespace Flow

/-! ## Laying out -/

/-- The node of a field that comes back is the one that comes back. -/
theorem fieldNode_reread (field : Field) (y : Number) :
    fieldNode (Field.format.reread field) y = Node.format.reread (fieldNode field y) := by
  have isStatement : (Field.format.reread field).isStatement = field.isStatement := rfl
  unfold fieldNode
  rw [isStatement]
  split <;> rfl

/-- The column of fields that come back is the one that comes back. -/
theorem column_reread (fields : List Field) :
    column (fields.map Field.format.reread) = (column fields).map Node.format.reread := by
  have nodes : fieldNodes (fields.map Field.format.reread) =
      (fieldNodes fields).map Node.format.reread := by
    refine List.ext_getElem (by simp [fieldNodes]) fun place _ _ => ?_
    simp [fieldNodes, fieldNode_reread]
  rw [column, nodes, List.length_map, column, List.map_cons, List.map_append]
  rfl

/-- The fields that become nodes come back among those that come back. -/
theorem cardFields_reread (fields : List Field) :
    cardFields (fields.map Field.format.reread) = (cardFields fields).map Field.format.reread := by
  suffices after : ∀ seen, firstsAfter seen (fields.map Field.format.reread) =
      (firstsAfter seen fields).map Field.format.reread from after _
  intro seen
  induction fields generalizing seen with
  | nil => rfl
  | cons first rest ih =>
    have sameId : (Field.format.reread first).id = first.id := rfl
    rw [List.map_cons, firstsAfter, firstsAfter, sameId]
    split
    · exact ih seen
    · rw [ih, List.map_cons]

/-- Edges for specifications that come back are the ones that come back. -/
theorem ofSpecs_reread (specs : List EdgeSpec) :
    Edge.ofSpecs (specs.map EdgeSpec.format.reread) =
      (Edge.ofSpecs specs).map Edge.format.reread := by
  have ends : (specs.map EdgeSpec.format.reread).map EdgeSpec.ends = specs.map EdgeSpec.ends := by
    rw [List.map_map]
    rfl
  rw [Edge.ofSpecs, Edge.ofSpecs, ends, List.zip_map_left, List.map_map, List.map_map]
  rfl

/-- Specifications without a payload come back as they were. -/
theorem chainSpecs_reread (ids : List Text) :
    (chainSpecs ids).map EdgeSpec.format.reread = chainSpecs ids := by
  rw [chainSpecs, List.map_map]
  rfl

/-- The chain through fields that come back is the one that comes back. -/
theorem chain_reread (fields : List Field) (viewport : Option Viewport) :
    chain (fields.map Field.format.reread) (viewport.map Viewport.format.reread) =
      format.reread (chain fields viewport) := by
  have ids : ((column (cardFields fields)).map Node.format.reread).map Node.id =
      (column (cardFields fields)).map Node.id := by
    rw [List.map_map]
    exact List.map_congr_left fun node _ => Node.id_reread node
  have edges := ofSpecs_reread (chainSpecs ((column (cardFields fields)).map Node.id))
  rw [chainSpecs_reread] at edges
  rw [chain, cardFields_reread, column_reread, ids, edges]
  rfl

/-- What specifications that come back reach is what they reached. -/
theorem reachedBy_reread (specs : List EdgeSpec) :
    reachedBy (specs.map EdgeSpec.format.reread) = reachedBy specs := by
  rw [reachedBy, List.map_map]
  rfl

/-- Specifications that come back are extended by what they were extended by. -/
theorem repaired_reread (specs : List EdgeSpec) (reached : List Text) (last : Text)
    (ids : List Text) :
    repaired (specs.map EdgeSpec.format.reread) reached last ids =
      (repaired specs reached last ids).map EdgeSpec.format.reread := by
  have extended (specs : List EdgeSpec) (source target : Text) :
      specs.map EdgeSpec.format.reread ++ [⟨source, target, none, []⟩] =
        List.map EdgeSpec.format.reread (specs ++ [⟨source, target, none, []⟩]) := by
    rw [List.map_append]
    rfl
  induction ids generalizing specs reached last with
  | nil =>
    rw [repaired, repaired, extended]
    split <;> rfl
  | cons id rest ih =>
    rw [repaired, repaired]
    split
    · exact ih specs reached id
    · simp only [extended, reachedBy_reread]
      exact ih _ _ id

/-- The fields that specifications reach come back where both come back. -/
theorem reachedFields_reread (fields : List Field) (specs : List EdgeSpec) :
    reachedFields (fields.map Field.format.reread) (specs.map EdgeSpec.format.reread) =
      (reachedFields fields specs).map Field.format.reread := by
  have ends : (specs.map EdgeSpec.format.reread).map EdgeSpec.ends = specs.map EdgeSpec.ends := by
    rw [List.map_map]
    rfl
  rw [reachedFields, reachedFields, ends, List.map_filterMap]
  exact List.filterMap_congr fun id _ => Field.last?_reread fields id

/-- The flow of fields and edge specifications that come back is the one that comes back. -/
theorem build_reread (fields : List Field) (specs : List EdgeSpec) (viewport : Option Viewport) :
    build (fields.map Field.format.reread) (specs.map EdgeSpec.format.reread)
      (viewport.map Viewport.format.reread) = format.reread (build fields specs viewport) := by
  have cards : cardFields (reachedFields (fields.map Field.format.reread)
      (specs.map EdgeSpec.format.reread)) =
        (cardFields (reachedFields fields specs)).map Field.format.reread := by
    rw [reachedFields_reread, cardFields_reread]
  have nodeIds (nodes : List Node) :
      (nodes.map Node.format.reread).map Node.id = nodes.map Node.id := by
    rw [List.map_map]
    exact List.map_congr_left fun node _ => Node.id_reread node
  have fieldIds (fields : List Field) :
      (fields.map Field.format.reread).map Field.id = fields.map Field.id := by
    rw [List.map_map]
    rfl
  have kept (ids : List Text) :
      (specs.map EdgeSpec.format.reread).filter
          (fun spec => ids.contains spec.source && ids.contains spec.target) =
        (specs.filter fun spec => ids.contains spec.source && ids.contains spec.target).map
          EdgeSpec.format.reread := by
    rw [List.filter_map]
    rfl
  simp only [build, cards, column_reread, nodeIds, fieldIds, kept, reachedBy_reread, repaired_reread,
    ofSpecs_reread]
  rfl

end Flow

/-! ## Merging -/

namespace QuestionData

variable {data : QuestionData}

/-- The media of an entry equal those of a card after they were sent exactly if they did before, or the
field in the card has them as well. -/
def BringsAlike (data : QuestionData) (entry : Field) : Prop :=
  ∀ own ∈ data.media, ∀ new ∈ entry.media, new.alike own = (Media.format.reread new).alike own ∨
    data.field.media.map Media.toJson = some new.toJson

/-- An entry that was sent brings a card the media that it brought before exactly where they equal those
of the card as before. -/
theorem mediaFor_sent_iff (finite : ∀ new ∈ entry.media, Media.format.Each .finite new) :
    (data.mediaFor (Field.format.reread entry)).map Media.toJson =
      (data.mediaFor entry).map Media.toJson ↔ data.BringsAlike entry := by
  have sent : (Field.format.reread entry).media = entry.media.map Media.format.reread := rfl
  have sameForm {new : Media} (isNew : entry.media = some new) :
      (Media.format.reread new).toJson = new.toJson :=
    Media.exact_format.toJson_reread (finite new isNew)
  unfold mediaFor BringsAlike
  rw [sent]
  cases isOwn : data.media with
  | none =>
    refine iff_of_true ?_ fun own none => nomatch none
    cases isNew : entry.media with
    | none => rfl
    | some new => exact congrArg some (sameForm isNew)
  | some own =>
    cases isNew : entry.media with
    | none => exact iff_of_true rfl fun _ _ new none => nomatch none
    | some new =>
      have sameNew := sameForm isNew
      simp only [Option.map_some, Option.mem_some_iff, forall_eq']
      cases before : new.alike own <;> cases after : (Media.format.reread new).alike own
      · exact iff_of_true (congrArg some sameNew) (.inl rfl)
      · simp
      · simp [sameNew, eq_comm]
      · exact iff_of_true rfl (.inl rfl)

end QuestionData

namespace Node

variable {node : Node}

/-- The media of an entry equal those of a question after they were sent as before, or the field in the
question has them as well. -/
def BringsAlike (entry : Field) : Node → Prop
  | question card => card.data.BringsAlike entry
  | _ => True

/-- A node is given the entry that comes back of the one that it was given. -/
theorem given?_sent (fields : List Field) (node : Node) :
    node.given? (fields.map Field.format.reread) =
      (node.given? fields).map Field.format.reread := by
  unfold given?
  cases node.contentKey? with
  | none => rfl
  | some key => exact Field.last?_reread fields key

/-- A question with the content of an entry that was sent is written as with the entry itself exactly
where the entry brings it the same media. -/
theorem toJson_question_sent_iff {card : Card QuestionData} {sent : List Field}
    (dataTidy : QuestionData.format.Each .tidy card.data) (entryTidy : Field.format.Each .tidy entry)
    (isGiven : (question card).given? fields = some entry)
    (isSent : (question card).given? sent = some (Field.format.reread entry)) :
    ((question card).merged sent).toJson = ((question card).merged fields).toJson ↔
      card.data.BringsAlike entry := by
  -- The copies are those of the entry either way, so only the media of the field can differ.
  let next : Field := { entry with media := card.data.mediaFor entry }
  let nextCard : Card QuestionData :=
    { card with
      data := { card.data with
        field := next
        fieldId := some entry.id
        label := some entry.label
        fieldType := some entry.kind.name } }
  let again : Field :=
    { Field.format.reread next with media := card.data.mediaFor (Field.format.reread entry) }
  have onlyField : (question { nextCard with data := { nextCard.data with field := again } }).toJson =
      (question nextCard).toJson ↔ again.toJson = next.toJson := toJson_question_iff
  have media {any : Field} (anyTidy : Field.format.Each .tidy any) :
      ∀ media ∈ card.data.mediaFor any, Media.format.Each .tidy media :=
    (Field.each_iff.1 (QuestionData.each_iff.1
      (QuestionData.each_withField dataTidy anyTidy)).2.1).2.2.1
  obtain ⟨extras, options, _, logic⟩ := Field.each_iff.1 entryTidy
  have nextTidy : Field.format.Each .tidy next :=
    Field.each_iff.2 ⟨extras, options, media entryTidy, logic⟩
  have sameNext : (Field.format.reread next).toJson = next.toJson :=
    Field.exact_format.toJson_reread_of_tidy nextTidy
  have onlyMedia : again.toJson = (Field.format.reread next).toJson ↔
      again.media.map Media.toJson = (Field.format.reread next).media.map Media.toJson :=
    Field.toJson_withMedia_iff
      (Field.exact_format.kept_of_tidy (Field.exact_format.each_reread nextTidy))
      fun own mem => Media.exact_format.kept_of_tidy
        (media (Field.exact_format.each_reread entryTidy) own mem)
  have sameMedia : (Field.format.reread next).media.map Media.toJson =
      (card.data.mediaFor entry).map Media.toJson :=
    Media.exact_format.map_toJson_reread fun own mem =>
      Media.exact_format.finite_of_tidy (media entryTidy own mem)
  have entryMedia : ∀ new ∈ entry.media, Media.format.Each .finite new := fun new mem =>
    Media.exact_format.finite_of_tidy ((Field.each_iff.1 entryTidy).2.2.1 new mem)
  rw [merged_question isGiven, merged_question isSent]
  refine onlyField.trans ?_
  rw [← sameNext, onlyMedia, sameMedia]
  exact QuestionData.mediaFor_sent_iff entryMedia

/-- A node with the content of an entry that was sent is written as with the entry itself exactly where
the entry brings it the same media. -/
theorem toJson_merged_sent_iff (tidy : format.Each .tidy node)
    (entryTidy : Field.format.Each .tidy entry) (isGiven : node.given? fields = some entry) :
    (node.merged (fields.map Field.format.reread)).toJson = (node.merged fields).toJson ↔
      node.BringsAlike entry := by
  have isSent : node.given? (fields.map Field.format.reread) = some (Field.format.reread entry) := by
    rw [given?_sent, isGiven]
    rfl
  cases node with
  | start card => cases isGiven
  | finish card => cases isGiven
  | statement card =>
    rw [merged_statement isGiven, merged_statement isSent]
    exact iff_of_true rfl trivial
  | question card =>
    have dataTidy : QuestionData.format.Each .tidy card.data := (Card.each_content_iff.1 tidy).2.2
    exact toJson_question_sent_iff dataTidy entryTidy isGiven isSent

end Node

namespace Flow

variable {flow : Flow}

/-- A flow with the content of fields that were sent is written as with the fields themselves exactly
where each card is brought the same media. -/
theorem toJson_merge_sent_iff (tidy : format.Each .tidy flow)
    (fieldsTidy : ∀ field ∈ fields, Field.format.Each .tidy field) :
    (flow.merge (fields.map Field.format.reread)).toJson = (flow.merge fields).toJson ↔
      ∀ node ∈ flow.nodes, ∀ entry ∈ node.given? fields, node.BringsAlike entry := by
  have onlyNodes : toJson { flow.merge fields with
        nodes := (flow.merge (fields.map Field.format.reread)).nodes } = (flow.merge fields).toJson ↔
      (flow.nodes.map (Node.merged (fields.map Field.format.reread))).map Node.toJson =
        (flow.nodes.map (Node.merged fields)).map Node.toJson := toJson_nodes_iff
  refine onlyNodes.trans ?_
  rw [List.map_map, List.map_map, List.map_inj_left]
  refine forall₂_congr fun node mem => ?_
  have nodeTidy := (each_iff.1 tidy).2.1 node mem
  cases isGiven : node.given? fields with
  | none =>
    have isSent : node.given? (fields.map Field.format.reread) = none := by
      rw [Node.given?_sent, isGiven]
      rfl
    refine iff_of_true ?_ fun entry none => nomatch none
    exact congrArg Node.toJson ((Node.merged_of_given?_eq_none isSent).trans
      (Node.merged_of_given?_eq_none isGiven).symm)
  | some entry =>
    obtain ⟨_, _, isLast⟩ := Option.bind_eq_some_iff.1 isGiven
    have entryTidy := fieldsTidy entry (Field.mem_of_last? isLast)
    simp only [Option.mem_some_iff, forall_eq']
    exact Node.toJson_merged_sent_iff nodeTidy entryTidy isGiven

end Flow

end CardForm
