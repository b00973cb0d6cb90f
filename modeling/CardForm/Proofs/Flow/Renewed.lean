import CardForm.Proofs.Flow.Merge

/-!
# What newer content leaves as it is

A card that takes its content from a field list keeps all that is its own: its identifier, its kind, its
place, its media, what is unknown of it, and whether it is shown after the form was sent
(`Node.KeepsOwn`). `Node.Renewed` says besides which nodes stay as they are, and what the others have of
the list. Taking the content of the same list again changes nothing (`Flow.merge_renews`): the identifier
by which a card finds its field is the same afterwards, and so are the media that the field is to bear,
although the card then holds another field.
-/
namespace CardForm

variable {fields : List Field} {entry : Field} {id : Text}

/-! ## Where a node takes its content from -/

namespace Node

variable {node : Node}

/-- A question takes its content from the identifier that its copy names, if that is not empty; a
statement from the identifier of its field or, where that is empty, from its own. -/
def TakesFrom (id : Text) : Node → Prop
  | question card => card.data.fieldId = some id ∧ id ≠ []
  | statement card => card.data.fieldId = id ∧ id ≠ [] ∨ card.data.fieldId = [] ∧ card.id = id
  | _ => False

/-- That is the identifier by which a node looks for its field. -/
theorem contentKey?_eq_some_iff : node.contentKey? = some id ↔ node.TakesFrom id := by
  cases node with
  | start card => exact iff_of_false (nomatch ·) not_false
  | finish card => exact iff_of_false (nomatch ·) not_false
  | question card =>
    rw [contentKey?, Option.filter_eq_some_iff, TakesFrom]
    simp
  | statement card =>
    rw [contentKey?, TakesFrom, Option.some.injEq]
    by_cases empty : card.data.fieldId = []
    · simp [empty, eq_comm]
    · simp only [empty, List.isEmpty_eq_false_iff.2 empty, Bool.false_eq_true, if_false, false_and,
        or_false]
      exact ⟨fun same => ⟨same, same ▸ empty⟩, And.left⟩

/-- A node is given the last field of the identifier from which it takes its content. -/
theorem given?_eq_some_iff :
    node.given? fields = some entry ↔ ∃ id, node.TakesFrom id ∧ Field.last? fields id = some entry := by
  simp only [given?, Option.bind_eq_some_iff, contentKey?_eq_some_iff]

/-- A node is given no field that takes its content from none of the list. -/
theorem given?_eq_none (unnamed : ∀ field ∈ fields, ¬node.TakesFrom field.id) :
    node.given? fields = none := by
  refine Option.eq_none_iff_forall_ne_some.2 fun field isGiven => ?_
  obtain ⟨id, takes, isLast⟩ := given?_eq_some_iff.1 isGiven
  rw [← Field.id_of_last? isLast] at takes
  exact unnamed field (Field.mem_of_last? isLast) takes

/-! ## What becomes of a node -/

/-- The unknown members of a node. -/
def extras : Node → Members
  | start card => card.extras
  | finish card => card.extras
  | question card => card.extras
  | statement card => card.extras

/-- The unknown members of the payload of a node. -/
def payloadExtras : Node → Members
  | start card => card.data.extras
  | finish card => card.data.extras
  | question card => card.data.extras
  | statement card => card.data.extras

/-- Whether a node is shown after the form was sent, and only then. -/
def isSuccessCard : Node → Bool
  | statement card => card.data.isSuccessCard
  | _ => false

/-- A node keeps what is not content of a field. -/
structure KeepsOwn (node next : Node) : Prop where
  /-- Its identifier. -/
  id : next.id = node.id
  /-- Its kind. -/
  kind : next.kind = node.kind
  /-- Its place. -/
  position : next.position = node.position
  /-- Whether it is shown after the form was sent. -/
  success : next.isSuccessCard = node.isSuccessCard
  /-- Its own media. -/
  media : next.media? = node.media?
  /-- Its unknown members. -/
  extras : next.extras = node.extras
  /-- Those of its payload. -/
  payloadExtras : next.payloadExtras = node.payloadExtras

/-- What becomes of a node that takes its content from a field list. -/
structure Renewed (fields : List Field) (node next : Node) : Prop extends KeepsOwn node next where
  /-- A node that takes its content from no field of the list stays as it is. -/
  unnamed : (∀ field ∈ fields, ¬node.TakesFrom field.id) → next = node
  /-- So does a question whose copy of the identifier is absent or empty. -/
  keyless : ∀ card, node = .question card → (∀ id ∈ card.data.fieldId, id = []) → next = node
  /-- So does a statement whose field is none. -/
  unlike : ∀ id field, node.kind = .statement → node.TakesFrom id →
    Field.last? fields id = some field → field.isStatement = false → next = node
  /-- Any other question has the last field of its identifier, but for the media, and copies of it that
  are up to date. -/
  question : ∀ id field, node.kind = .question → node.TakesFrom id →
    Field.last? fields id = some field → ∃ card, next = .question card ∧
      card.data.field = { field with media := card.data.field.media } ∧
      card.data.fieldId = some card.data.field.id ∧
      card.data.label = some card.data.field.label ∧
      card.data.fieldType = some card.data.field.kind.name
  /-- Any other statement has the label of the last field of its identifier as its text, and the placeholder
  of that, if there is one, as its own label. -/
  statement : ∀ id field, node.kind = .statement → node.TakesFrom id →
    Field.last? fields id = some field → field.isStatement = true → ∃ card, next = .statement card ∧
      card.data.text = field.label ∧ card.data.label = field.placeholder.getD field.label

/-- Newer content leaves a node what is its own. -/
theorem keepsOwn_merged (fields : List Field) (node : Node) :
    KeepsOwn node (node.merged fields) := by
  unfold merged
  split
  · exact ⟨rfl, rfl, rfl, rfl, rfl, rfl, rfl⟩
  · split <;> exact ⟨rfl, rfl, rfl, rfl, rfl, rfl, rfl⟩
  · exact ⟨rfl, rfl, rfl, rfl, rfl, rfl, rfl⟩

/-- Newer content renews a node. -/
theorem renewed_merged (fields : List Field) (node : Node) :
    Renewed fields node (node.merged fields) where
  toKeepsOwn := keepsOwn_merged fields node
  unnamed none := merged_of_given?_eq_none (given?_eq_none none)
  keyless := by
    rintro card rfl empty
    refine merged_of_given?_eq_none (given?_eq_none fun field _ takes => ?_)
    exact takes.2 (empty field.id takes.1)
  unlike := by
    intro id field isStatement takes isLast notStatement
    have isGiven := given?_eq_some_iff.2 ⟨id, takes, isLast⟩
    cases node with
    | statement card => rw [merged_statement isGiven, if_neg (Bool.not_eq_true _ ▸ notStatement)]
    | _ => cases isStatement
  question := by
    intro id field isQuestion takes isLast
    have isGiven := given?_eq_some_iff.2 ⟨id, takes, isLast⟩
    cases node with
    | question card => exact ⟨_, merged_question isGiven, rfl, rfl, rfl, rfl⟩
    | _ => cases isQuestion
  statement := by
    intro id field isStatement takes isLast alike
    have isGiven := given?_eq_some_iff.2 ⟨id, takes, isLast⟩
    cases node with
    | statement card =>
      rw [merged_statement isGiven, if_pos alike]
      exact ⟨_, rfl, rfl, rfl⟩
    | _ => cases isStatement

end Node

/-! ## The same content again -/

namespace QuestionData

/-- The payload with a newer field and with copies that are up to date. -/
def renewed (data : QuestionData) (entry : Field) : QuestionData :=
  { data.withField entry with
    fieldId := some entry.id
    label := some entry.label
    fieldType := some entry.kind.name }

/-- A payload that took over a field finds the same media for it again: where the field bears the media
of the card, those that the field in the card had before and has kept. -/
theorem mediaFor_renewed (data : QuestionData) (entry : Field) :
    (data.renewed entry).mediaFor entry = data.mediaFor entry := by
  unfold renewed withField mediaFor
  cases data.media with
  | none => rfl
  | some own =>
    cases entry.media with
    | none => rfl
    | some new => by_cases alike : new.alike own = true <;> simp [alike]

/-- Taking over a field twice is the same as once. -/
theorem renewed_renewed (data : QuestionData) (entry : Field) :
    (data.renewed entry).renewed entry = data.renewed entry := by
  rw [renewed, withField, mediaFor_renewed]
  rfl

end QuestionData

namespace Node

/-- A question takes over the field that it is given, with copies that are up to date. -/
theorem merged_question_eq {card : Card QuestionData}
    (isGiven : (question card).given? fields = some entry) :
    (question card).merged fields = question { card with data := card.data.renewed entry } :=
  merged_question isGiven

/-- A question that took over a field is given the same one again, as it bears its identifier. -/
theorem given?_renewed {card : Card QuestionData}
    (isGiven : (question card).given? fields = some entry) :
    (question { card with data := card.data.renewed entry }).given? fields = some entry := by
  obtain ⟨id, takes, isLast⟩ := given?_eq_some_iff.1 isGiven
  have sameId : entry.id = id := Field.id_of_last? isLast
  exact given?_eq_some_iff.2 ⟨id, ⟨congrArg some sameId, takes.2⟩, isLast⟩

/-- Taking the content of a list twice is the same as once. -/
theorem merged_merged (fields : List Field) (node : Node) :
    (node.merged fields).merged fields = node.merged fields := by
  cases isGiven : node.given? fields with
  | none => rw [merged_of_given?_eq_none isGiven, merged_of_given?_eq_none isGiven]
  | some entry =>
    cases node with
    | start card => rfl
    | finish card => rfl
    | question card =>
      rw [merged_question_eq isGiven, merged_question_eq (given?_renewed isGiven),
        QuestionData.renewed_renewed]
    | statement card =>
      rw [merged_statement isGiven]
      split
      · rename_i isStatement
        have isGivenAgain : (statement { card with data := card.data.withField entry }).given? fields =
            some entry := isGiven
        rw [merged_statement isGivenAgain, if_pos isStatement]
        rfl
      · rename_i notStatement
        rw [merged_statement isGiven, if_neg notStatement]

end Node

/-! ## A flow -/

namespace Flow

/-- A flow that takes the content of a field list keeps its edges, its viewport and its unknown members;
and each of its nodes keeps its place in the list and what is its own. Nodes that take their content from
no field of the list stay as they are, and the others have what the list says. Taking the content of the
same list again changes nothing. -/
theorem merge_renews (flow : Flow) (fields : List Field) :
    List.Forall₂ (Node.Renewed fields) flow.nodes (flow.merge fields).nodes ∧
      (flow.merge fields).edges = flow.edges ∧ (flow.merge fields).viewport = flow.viewport ∧
      (flow.merge fields).extras = flow.extras ∧
      (flow.merge fields).merge fields = flow.merge fields := by
  have renewed : List.Forall₂ (Node.Renewed fields) flow.nodes (flow.merge fields).nodes :=
    List.forall₂_map_right_iff.2
      (List.forall₂_same.2 fun node _ => Node.renewed_merged fields node)
  have again : (flow.nodes.map (Node.merged fields)).map (Node.merged fields) =
      flow.nodes.map (Node.merged fields) := by
    rw [List.map_map]
    exact List.map_congr_left fun node _ => Node.merged_merged fields node
  refine ⟨renewed, rfl, rfl, rfl, ?_⟩
  rw [merge, merge, again]

end Flow

end CardForm
