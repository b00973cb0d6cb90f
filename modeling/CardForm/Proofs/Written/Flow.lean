import CardForm.Flow.Basic
import CardForm.Proofs.Written.Form

/-!
# Formats of flows

The formats of a flow and of all that it is made of: places on the board, nodes with the payloads of
their kinds, and edges. A node is read as a card of the kind that it names. An edge is read from its
members with an identifier added where there is none; what was written of an edge has one.
-/
namespace CardForm

/-! ## Places on the board -/

namespace Position

/-- The shape of positions. -/
def shape : Shape Position where
  name := "Position"
  ofMembers := ofMembers
  toJson := toJson
  reread position := { position with extras := Members.shown position.extras }
  extras := extras
  parts :=
    [⟨.same "x", .required .number, x⟩, ⟨.same "y", .required .number, y⟩]

/-- The format of positions. -/
def format : Format Position := shape.format

/-- The shape of positions describes how they are read and written. -/
theorem describes : shape.Describes where
  exact :=
    ⟨Slot.required_exact Format.number_exact, Slot.required_exact Format.number_exact, trivial⟩
  apart := by simp [shape, Shape.keys, Key.Apart, Key.same, Text.ofString_inj]
  wellFormed := by simp [shape, Shape.keys, Key.same]
  reads := by
    rintro members ⟨⟩
    simp only [shape, ofMembers, Reading.seq_eq_ok_iff, Reading.map_eq_ok_iff, Reading.ok.injEq,
      mk.injEq, ↓existsAndEq, true_and, exists_and_left, and_assoc]
    rfl
  writes _ := rfl
  again := by
    rintro ⟨⟩ ⟨⟩
    exact Iff.of_eq (mk.injEq ..)

/-- The format of positions is exact. -/
theorem exact_format : format.Exact := describes.exact_format

/-- Each position can be read once it was written. -/
theorem valid (position : Position) : format.Valid position := by
  change ∀ part ∈ shape.parts, part.Valid position
  simp [shape, Part.Valid, Slot.required, Format.simple]

/-- What a demand asks of a position. -/
theorem each_iff {position : Position} {demand : Demand} :
    format.Each demand position ↔ demand.extras keys position.extras := by
  refine and_iff_left ?_
  simp [shape, Part.Each, Slot.required, Format.simple]

end Position

namespace Viewport

/-- The shape of viewports. -/
def shape : Shape Viewport where
  name := "Viewport"
  ofMembers := ofMembers
  toJson := toJson
  reread viewport := { viewport with extras := Members.shown viewport.extras }
  extras := extras
  parts :=
    [⟨.same "x", .required .number, x⟩, ⟨.same "y", .required .number, y⟩,
      ⟨.same "zoom", .required .number, zoom⟩]

/-- The format of viewports. -/
def format : Format Viewport := shape.format

/-- The shape of viewports describes how they are read and written. -/
theorem describes : shape.Describes where
  exact :=
    ⟨Slot.required_exact Format.number_exact, Slot.required_exact Format.number_exact,
      Slot.required_exact Format.number_exact, trivial⟩
  apart := by simp [shape, Shape.keys, Key.Apart, Key.same, Text.ofString_inj]
  wellFormed := by simp [shape, Shape.keys, Key.same]
  reads := by
    rintro members ⟨⟩
    simp only [shape, ofMembers, Reading.seq_eq_ok_iff, Reading.map_eq_ok_iff, Reading.ok.injEq,
      mk.injEq, ↓existsAndEq, true_and, exists_and_left, and_assoc]
    rfl
  writes _ := rfl
  again := by
    rintro ⟨⟩ ⟨⟩
    exact Iff.of_eq (mk.injEq ..)

/-- The format of viewports is exact. -/
theorem exact_format : format.Exact := describes.exact_format

/-- Each viewport can be read once it was written. -/
theorem valid (viewport : Viewport) : format.Valid viewport := by
  change ∀ part ∈ shape.parts, part.Valid viewport
  simp [shape, Part.Valid, Slot.required, Format.simple]

/-- What a demand asks of a viewport. -/
theorem each_iff {viewport : Viewport} {demand : Demand} :
    format.Each demand viewport ↔ demand.extras keys viewport.extras := by
  refine and_iff_left ?_
  simp [shape, Part.Each, Slot.required, Format.simple]

end Viewport

/-! ## Nodes -/

namespace QuestionData

/-- The shape of payloads of questions. -/
def shape : Shape QuestionData where
  name := "QuestionData"
  ofMembers := ofMembers
  toJson := toJson
  reread data :=
    { data with
      field := Field.format.reread data.field
      media := data.media.map Media.format.reread
      extras := Members.shown data.extras }
  extras := extras
  parts :=
    [⟨.same "field", .required Field.format, field⟩,
      ⟨⟨"fieldId", "field_id"⟩, .optional .text, fieldId⟩, ⟨.same "label", .optional .text, label⟩,
      ⟨⟨"fieldType", "field_type"⟩, .optional .text, fieldType⟩,
      ⟨.same "media", .optional Media.format, media⟩]

/-- The format of payloads of questions. -/
def format : Format QuestionData := shape.format

/-- The shape of payloads of questions describes how they are read and written. -/
theorem describes : shape.Describes where
  exact :=
    ⟨Slot.required_exact Field.exact_format, Slot.optional_exact Format.text_exact,
      Slot.optional_exact Format.text_exact, Slot.optional_exact Format.text_exact,
      Slot.optional_exact Media.exact_format, trivial⟩
  apart := by simp [shape, Shape.keys, Key.Apart, Key.same, Text.ofString_inj]
  wellFormed := by simp [shape, Shape.keys, Key.same]
  reads := by
    rintro members ⟨⟩
    simp only [shape, ofMembers, Reading.seq_eq_ok_iff, Reading.map_eq_ok_iff, Reading.ok.injEq,
      mk.injEq, ↓existsAndEq, true_and, exists_and_left, and_assoc]
    rfl
  writes _ := rfl
  again := by
    rintro ⟨⟩ ⟨⟩
    simp only [shape, mk.injEq, Part.All, Part.Again, Slot.reread_optional_simple]
    rfl

/-- The format of payloads of questions is exact. -/
theorem exact_format : format.Exact := describes.exact_format

variable {data : QuestionData} {demand : Demand}

/-- A payload can be read once it was written where its field and its media can. -/
theorem valid_iff :
    format.Valid data ↔ Field.format.Valid data.field ∧
      ∀ media ∈ data.media, Media.format.Valid media := by
  change (∀ part ∈ shape.parts, part.Valid data) ↔ _
  simp [shape, Part.Valid, Slot.required, Slot.optional, Format.simple]

/-- What a demand asks of the payload of a question. -/
theorem each_iff :
    format.Each demand data ↔ demand.extras keys data.extras ∧
      Field.format.Each demand data.field ∧ ∀ media ∈ data.media, Media.format.Each demand media := by
  refine and_congr_right fun _ => ?_
  simp [shape, Part.Each, Slot.required, Slot.optional, Format.simple]

end QuestionData

namespace StatementData

/-- The shape of payloads of statements. -/
def shape : Shape StatementData where
  name := "StatementData"
  ofMembers := ofMembers
  toJson := toJson
  reread data :=
    { data with
      media := data.media.map Media.format.reread
      extras := Members.shown data.extras }
  extras := extras
  parts :=
    [⟨⟨"fieldId", "field_id"⟩, .required .text, fieldId⟩, ⟨.same "label", .required .text, label⟩,
      ⟨⟨"statementText", "statement_text"⟩, .required .text, text⟩,
      ⟨⟨"isSuccessCard", "is_success_card"⟩, .defaulted .boolean false, isSuccessCard⟩,
      ⟨.same "media", .optional Media.format, media⟩]

/-- The format of payloads of statements. -/
def format : Format StatementData := shape.format

/-- The shape of payloads of statements describes how they are read and written. -/
theorem describes : shape.Describes where
  exact :=
    ⟨Slot.required_exact Format.text_exact, Slot.required_exact Format.text_exact,
      Slot.required_exact Format.text_exact,
      Slot.defaulted_exact Format.boolean_exact trivial fun _ => trivial,
      Slot.optional_exact Media.exact_format, trivial⟩
  apart := by simp [shape, Shape.keys, Key.Apart, Key.same, Text.ofString_inj]
  wellFormed := by simp [shape, Shape.keys, Key.same]
  reads := by
    rintro members ⟨⟩
    simp only [shape, ofMembers, Reading.seq_eq_ok_iff, Reading.map_eq_ok_iff, Reading.ok.injEq,
      mk.injEq, ↓existsAndEq, true_and, exists_and_left, and_assoc]
    rfl
  writes _ := rfl
  again := by
    rintro ⟨⟩ ⟨⟩
    exact Iff.of_eq (mk.injEq ..)

/-- The format of payloads of statements is exact. -/
theorem exact_format : format.Exact := describes.exact_format

variable {data : StatementData} {demand : Demand}

/-- A payload can be read once it was written where its media can. -/
theorem valid_iff : format.Valid data ↔ ∀ media ∈ data.media, Media.format.Valid media := by
  change (∀ part ∈ shape.parts, part.Valid data) ↔ _
  simp [shape, Part.Valid, Slot.required, Slot.defaulted, Slot.optional, Format.simple]

/-- What a demand asks of the payload of a statement. -/
theorem each_iff :
    format.Each demand data ↔ demand.extras keys data.extras ∧
      ∀ media ∈ data.media, Media.format.Each demand media := by
  refine and_congr_right fun _ => ?_
  simp [shape, Part.Each, Slot.required, Slot.defaulted, Slot.optional, Format.simple]

end StatementData

namespace MarkerData

/-- The shape of payloads of markers. -/
def shape : Shape MarkerData where
  name := "SentinelData"
  ofMembers members := .ok ⟨members⟩
  toJson := toJson
  reread data := ⟨Members.shown data.extras⟩
  extras := extras
  parts := []

/-- The format of payloads of markers. -/
def format : Format MarkerData := shape.format

/-- The shape of payloads of markers describes how they are read and written. -/
theorem describes : shape.Describes where
  exact := trivial
  apart := .nil
  wellFormed _ mem := absurd mem List.not_mem_nil
  reads := by
    rintro members ⟨extras⟩
    simp only [shape, Part.All, Shape.keys, List.map_nil, Members.extras, List.any_nil, Bool.not_false,
      List.filter_true, Reading.ok.injEq, mk.injEq]
  writes _ := rfl
  again := by
    rintro ⟨⟩ ⟨⟩
    exact Iff.of_eq (mk.injEq ..)

/-- The format of payloads of markers is exact. -/
theorem exact_format : format.Exact := describes.exact_format

end MarkerData

namespace Card

variable {α : Type}

/-- The declared type of a card of a kind, which may be left out. -/
def kindSlot (kind : NodeKind) : Slot Unit := .defaulted (.word [()] fun _ => kind.word) ()

/-- The declared type of a card is in an exact slot. -/
theorem kindSlot_exact (kind : NodeKind) : (kindSlot kind).Exact :=
  Slot.defaulted_exact
    (Format.word_exact (fun _ _ _ => rfl) fun _ _ => by cases kind <;> decide)
    (List.mem_singleton.2 rfl) fun _ => trivial

/-- The shape of cards of a kind whose identifier and payload are read in some way. -/
def shape (kind : NodeKind) (payload : Format α) (idSlot : Slot Text) (dataSlot : Slot α)
    (ofMembers : Members → Reading (Card α)) : Shape (Card α) where
  name := Node.recordName kind
  ofMembers := ofMembers
  toJson card :=
    Members.written
      [("id", some (.str card.id)), ("type", some (.str kind.word)),
        ("position", some card.position.toJson), ("data", some (payload.toJson card.data))]
      card.extras
  reread card :=
    { card with
      position := Position.format.reread card.position
      data := payload.reread card.data
      extras := Members.shown card.extras }
  extras := extras
  parts :=
    [⟨.same "id", idSlot, id⟩, ⟨.same "type", kindSlot kind, fun _ => ()⟩,
      ⟨.same "position", .required Position.format, position⟩, ⟨.same "data", dataSlot, data⟩]

/-- The shape of questions or statements. -/
def contentShape (kind : NodeKind) (payload : Format α) : Shape (Card α) :=
  shape kind payload (.required .name) (.required payload) (readContent kind payload.read)

/-- The shape of questions or statements describes how they are read and written. -/
theorem describes_content (kind : NodeKind) {payload : Format α} (exact : payload.Exact) :
    (contentShape kind payload).Describes where
  exact :=
    ⟨Slot.required_exact Format.name_exact, kindSlot_exact kind,
      Slot.required_exact Position.exact_format, Slot.required_exact exact, trivial⟩
  apart := by simp [contentShape, shape, Shape.keys, Key.Apart, Key.same, Text.ofString_inj]
  wellFormed := by simp [contentShape, shape, Shape.keys, Key.same]
  reads := by
    rintro members ⟨⟩
    simp only [contentShape, shape, readContent, Reading.seq_eq_ok_iff, Reading.map_eq_ok_iff,
      Reading.ok.injEq, mk.injEq, ↓existsAndEq, true_and, exists_and_left, and_assoc,
      Unique.exists_iff]
    rfl
  writes _ := rfl
  again := by
    rintro ⟨⟩ ⟨⟩
    simp only [contentShape, shape, mk.injEq, Part.All, Part.Again, true_and]
    rfl

/-- A card can be read once it was written where it has a name and its payload can be read. -/
theorem valid_content_iff {kind : NodeKind} {payload : Format α} {card : Card α} :
    (contentShape kind payload).format.Valid card ↔
      Format.name.Valid card.id ∧ payload.Valid card.data := by
  change (∀ part ∈ (contentShape kind payload).parts, part.Valid card) ↔ _
  simp [contentShape, shape, kindSlot, Part.Valid, Slot.required, Slot.defaulted, Format.simple,
    Position.valid]

/-- What a demand asks of a card. -/
theorem each_content_iff {kind : NodeKind} {payload : Format α} {card : Card α} {demand : Demand} :
    (contentShape kind payload).format.Each demand card ↔ demand.extras keys card.extras ∧
      Position.format.Each demand card.position ∧ payload.Each demand card.data := by
  refine and_congr_right fun _ => ?_
  simp [contentShape, shape, kindSlot, Part.Each, Slot.required, Slot.defaulted, Format.simple]

/-- The shape of start or end nodes. -/
def markerShape (kind : NodeKind) : Shape (Card MarkerData) :=
  shape kind MarkerData.format (.defaulted .text kind.word) (.defaulted MarkerData.format {})
    (readMarker kind)

/-- The shape of start or end nodes describes how they are read and written. -/
theorem describes_marker (kind : NodeKind) : (markerShape kind).Describes where
  exact :=
    ⟨Slot.defaulted_exact Format.text_exact trivial fun _ => trivial, kindSlot_exact kind,
      Slot.required_exact Position.exact_format,
      Slot.defaulted_exact MarkerData.exact_format (fun _ mem => absurd mem List.not_mem_nil)
        fun demand => ⟨demand.extras_nil _, fun _ mem => absurd mem List.not_mem_nil⟩,
      trivial⟩
  apart := by simp [markerShape, shape, Shape.keys, Key.Apart, Key.same, Text.ofString_inj]
  wellFormed := by simp [markerShape, shape, Shape.keys, Key.same]
  reads := by
    rintro members ⟨⟩
    simp only [markerShape, shape, readMarker, Reading.seq_eq_ok_iff, Reading.map_eq_ok_iff,
      Reading.ok.injEq, mk.injEq, ↓existsAndEq, true_and, exists_and_left, and_assoc,
      Unique.exists_iff]
    rfl
  writes _ := rfl
  again := by
    rintro ⟨⟩ ⟨⟩
    simp only [markerShape, shape, mk.injEq, Part.All, Part.Again, true_and]
    rfl

/-- A start or end node can be read once it was written. -/
theorem valid_marker {kind : NodeKind} (card : Card MarkerData) :
    (markerShape kind).format.Valid card := by
  change ∀ part ∈ (markerShape kind).parts, part.Valid card
  simp [markerShape, shape, kindSlot, Part.Valid, Slot.required, Slot.defaulted, Format.simple,
    Position.valid, MarkerData.format, Shape.format, MarkerData.shape]

/-- What a demand asks of a start or end node. -/
theorem each_marker_iff {kind : NodeKind} {card : Card MarkerData} {demand : Demand} :
    (markerShape kind).format.Each demand card ↔ demand.extras keys card.extras ∧
      Position.format.Each demand card.position ∧ demand.extras [] card.data.extras := by
  refine and_congr_right fun _ => ?_
  simp [markerShape, shape, kindSlot, Part.Each, Slot.required, Slot.defaulted, Format.simple,
    MarkerData.format, Shape.format, Shape.keys, MarkerData.shape]

end Card

namespace Node

/-- The format of start nodes. -/
def startFormat : Format (Card MarkerData) := (Card.markerShape .start).format

/-- The format of end nodes. -/
def finishFormat : Format (Card MarkerData) := (Card.markerShape .finish).format

/-- The format of questions. -/
def questionFormat : Format (Card QuestionData) :=
  (Card.contentShape .question QuestionData.format).format

/-- The format of statements. -/
def statementFormat : Format (Card StatementData) :=
  (Card.contentShape .statement StatementData.format).format

/-- The format of start nodes is exact. -/
theorem exact_startFormat : startFormat.Exact := (Card.describes_marker .start).exact_format

/-- The format of end nodes is exact. -/
theorem exact_finishFormat : finishFormat.Exact := (Card.describes_marker .finish).exact_format

/-- The format of questions is exact. -/
theorem exact_questionFormat : questionFormat.Exact :=
  (Card.describes_content .question QuestionData.exact_format).exact_format

/-- The format of statements is exact. -/
theorem exact_statementFormat : statementFormat.Exact :=
  (Card.describes_content .statement StatementData.exact_format).exact_format

/-- The cards of a kind. -/
def Content : NodeKind → Type
  | .start => Card MarkerData
  | .finish => Card MarkerData
  | .question => Card QuestionData
  | .statement => Card StatementData

/-- The formats of the cards of each kind. -/
def formats : ∀ kind, Format (Content kind)
  | .start => startFormat
  | .finish => finishFormat
  | .question => questionFormat
  | .statement => statementFormat

/-- A node is a card of its kind. -/
def split : Node ≃ (kind : NodeKind) × Content kind where
  toFun
    | start card => ⟨.start, card⟩
    | finish card => ⟨.finish, card⟩
    | question card => ⟨.question, card⟩
    | statement card => ⟨.statement, card⟩
  invFun
    | ⟨.start, card⟩ => start card
    | ⟨.finish, card⟩ => finish card
    | ⟨.question, card⟩ => question card
    | ⟨.statement, card⟩ => statement card
  left_inv node := by cases node <;> rfl
  right_inv := by rintro ⟨_ | _ | _ | _, card⟩ <;> rfl

/-- The format of nodes. -/
def format : Format Node := .choice formats split read toJson

/-- A node of a kind is read as a card of that kind. -/
theorem readKind_eq_ok_iff {kind : NodeKind} {found : Json} {node : Node} :
    readKind kind found = .ok node ↔
      node.kind = kind ∧ (formats _).read found = .ok (split node).2 := by
  have isRecord {α : Type} {name : Text} {read : Members → Reading α} {wrap : α → Node} :
      Reading.record name (fun members => wrap <$> read members) found = .ok node ↔
        ∃ card, Reading.record name read found = .ok card ∧ wrap card = node := by
    simp only [Reading.record_eq_ok_iff, Reading.map_eq_ok_iff]
    constructor
    · rintro ⟨members, isObject, wellFormed, card, isRead, rfl⟩
      exact ⟨card, ⟨members, isObject, wellFormed, isRead⟩, rfl⟩
    · rintro ⟨card, ⟨members, isObject, wellFormed, isRead⟩, rfl⟩
      exact ⟨members, isObject, wellFormed, card, isRead, rfl⟩
  cases kind <;> refine isRecord.trans ?_ <;> cases node <;>
    simp [split, formats, Node.kind] <;> rfl

/-- A node is read as a card of the kind that it names. -/
theorem read_eq_ok_iff {found : Json} {node : Node} :
    read found = .ok node ↔
      found.get? "type" = some (.str node.kind.word) ∧
        (formats _).read found = .ok (split node).2 := by
  have ofKind : read found = .ok node ↔
      ∃ kind : NodeKind, found.get? "type" = some (.str kind.word) ∧
        readKind kind found = .ok node := by
    simp only [read, readKind, Reading.object_eq_ok_iff, Reading.record_eq_ok_iff,
      ← Members.wellKeyed_eq_ok_iff]
    constructor
    · rintro ⟨members, rfl, isRead⟩
      split at isRead
      · cases isRead
      · rename_i tag isFound
        split at isRead
        · rename_i kind names
          rw [NodeKind.ofJson?_eq_some_iff.1 names] at isFound
          exact ⟨kind, isFound, members, rfl, Reading.under_eq_ok_iff.1 isRead⟩
        · cases isRead
    · rintro ⟨kind, isFound, members, rfl, isRead⟩
      refine ⟨members, rfl, ?_⟩
      have isFound : Members.get? members "type" = some (.str kind.word) := isFound
      have names : NodeKind.ofJson? (.str kind.word) = some kind :=
        NodeKind.ofJson?_eq_some_iff.2 rfl
      simp only [isFound, names, Reading.under_eq_ok_iff]
      exact isRead
  rw [ofKind]
  simp only [readKind_eq_ok_iff]
  constructor
  · rintro ⟨kind, names, rfl, isCard⟩
    exact ⟨names, isCard⟩
  · rintro ⟨names, isCard⟩
    exact ⟨_, names, rfl, isCard⟩

/-- The format of nodes is exact. -/
theorem exact_format : format.Exact := by
  refine Format.choice_exact (fun kind => ?_)
    (fun found kind => found.get? "type" = some (.str kind.word)) ?_ ?_ ?_ ?_
  · cases kind
    · exact exact_startFormat
    · exact exact_finishFormat
    · exact exact_questionFormat
    · exact exact_statementFormat
  · intro found first second isFirst isSecond
    have same : Json.str first.word = .str second.word :=
      Option.some.inj (isFirst.symm.trans isSecond)
    exact Option.some.inj ((NodeKind.ofJson?_eq_some_iff.2 rfl).symm.trans
      (NodeKind.ofJson?_eq_some_iff.2 same))
  · rintro (_ | _ | _ | _) card <;> rfl
  · rintro (card | card | card | card) <;> rfl
  · intro found node
    rw [read_eq_ok_iff]
    cases node <;> rfl

end Node

/-! ## Edges -/

namespace EdgeData

/-- The shape of payloads of edges. -/
def shape : Shape EdgeData where
  name := "EdgeData"
  ofMembers := ofMembers
  toJson := toJson
  reread data :=
    { data with
      condition := data.condition.portable
      extras := Members.shown data.extras }
  extras := extras
  parts :=
    [⟨.same "condition", .anything, condition⟩, ⟨.same "label", .optional .text, label⟩]

/-- The format of payloads of edges. -/
def format : Format EdgeData := shape.format

/-- The shape of payloads of edges describes how they are read and written. -/
theorem describes : shape.Describes where
  exact :=
    ⟨Slot.anything_exact, Slot.optional_exact Format.text_exact, trivial⟩
  apart := by simp [shape, Shape.keys, Key.Apart, Key.same, Text.ofString_inj]
  wellFormed := by simp [shape, Shape.keys, Key.same]
  reads := by
    rintro members ⟨⟩
    simp only [shape, ofMembers, Reading.seq_eq_ok_iff, Reading.map_eq_ok_iff, Reading.ok.injEq,
      mk.injEq, ↓existsAndEq, true_and, exists_and_left, and_assoc]
    rfl
  writes _ := rfl
  again := by
    rintro ⟨⟩ ⟨⟩
    simp only [shape, mk.injEq, Part.All, Part.Again, Slot.reread_optional_simple]
    rfl

/-- The format of payloads of edges is exact. -/
theorem exact_format : format.Exact := describes.exact_format

/-- Each payload of an edge can be read once it was written. -/
theorem valid (data : EdgeData) : format.Valid data := by
  change ∀ part ∈ shape.parts, part.Valid data
  simp [shape, Part.Valid, Slot.anything, Slot.optional, Format.simple]

variable {data : EdgeData} {demand : Demand}

/-- What a demand asks of the payload of an edge. -/
theorem each_iff :
    format.Each demand data ↔ demand.extras keys data.extras ∧ demand.value data.condition := by
  refine and_congr_right fun _ => ?_
  simp [shape, Part.Each, Slot.anything, Slot.optional, Format.simple]

/-- The extras of a payload that was read spell no declared key, since these have one spelling each. -/
theorem once_of_kept (kept : format.Each .kept data) : format.Each .once data := by
  obtain ⟨extras, _⟩ := each_iff.1 kept
  refine each_iff.2 ⟨⟨fun member mem => (extras member mem).1, fun key inKeys member mem => ?_⟩,
    trivial⟩
  have notCamel := (extras member mem).2 key inKeys
  have sameSpelling : key.plain = key.camel := by
    obtain rfl | rfl : key = .same "condition" ∨ key = .same "label" := by simpa [keys] using inKeys
    · rfl
    · rfl
  exact ⟨notCamel, sameSpelling ▸ notCamel⟩

end EdgeData

namespace EdgeSpec

/-- The shape of edge specifications. -/
def shape : Shape EdgeSpec where
  name := "EdgeSpec"
  ofMembers := ofMembers
  toJson := toJson
  reread spec :=
    { spec with
      data := spec.data.map EdgeData.format.reread
      extras := Members.shown spec.extras }
  extras := extras
  parts :=
    [⟨.same "source", .required .text, source⟩, ⟨.same "target", .required .text, target⟩,
      ⟨.same "data", .optional EdgeData.format, data⟩]

/-- The format of edge specifications. -/
def format : Format EdgeSpec := shape.format

/-- The shape of edge specifications describes how they are read and written. -/
theorem describes : shape.Describes where
  exact :=
    ⟨Slot.required_exact Format.text_exact, Slot.required_exact Format.text_exact,
      Slot.optional_exact EdgeData.exact_format, trivial⟩
  apart := by simp [shape, Shape.keys, Key.Apart, Key.same, Text.ofString_inj]
  wellFormed := by simp [shape, Shape.keys, Key.same]
  reads := by
    rintro members ⟨⟩
    simp only [shape, ofMembers, Reading.seq_eq_ok_iff, Reading.map_eq_ok_iff, Reading.ok.injEq,
      mk.injEq, ↓existsAndEq, true_and, exists_and_left, and_assoc]
    rfl
  writes _ := rfl
  again := by
    rintro ⟨⟩ ⟨⟩
    exact Iff.of_eq (mk.injEq ..)

/-- The format of edge specifications is exact. -/
theorem exact_format : format.Exact := describes.exact_format

/-- Each edge specification can be read once it was written. -/
theorem valid (spec : EdgeSpec) : format.Valid spec := by
  change ∀ part ∈ shape.parts, part.Valid spec
  simp [shape, Part.Valid, Slot.required, Slot.optional, Format.simple, EdgeData.valid]

/-- What a demand asks of an edge specification. -/
theorem each_iff {spec : EdgeSpec} {demand : Demand} :
    format.Each demand spec ↔ demand.extras keys spec.extras ∧
      ∀ data ∈ spec.data, EdgeData.format.Each demand data := by
  refine and_congr_right fun _ => ?_
  simp [shape, Part.Each, Slot.required, Slot.optional, Format.simple]

end EdgeSpec

namespace Edge

/-- Read an edge from the members of an object that have an identifier. -/
def ofNamed (members : Members) : Reading Edge :=
  Edge.mk <$> members.required (.same "id") .text
    <*> members.required (.same "source") .text
    <*> members.required (.same "target") .text
    <*> members.optional (.same "data") EdgeData.read
    <*> .ok (members.extras keys)

/-- The shape of edges that have an identifier. -/
def shape : Shape Edge where
  name := "FlowchartEdge"
  ofMembers := ofNamed
  toJson := toJson
  reread edge :=
    { edge with
      data := edge.data.map EdgeData.format.reread
      extras := Members.shown edge.extras }
  extras := extras
  parts :=
    [⟨.same "id", .required .text, id⟩, ⟨.same "source", .required .text, source⟩,
      ⟨.same "target", .required .text, target⟩, ⟨.same "data", .optional EdgeData.format, data⟩]

/-- The format of edges. -/
def format : Format Edge := { shape.format with read := read }

/-- The shape of edges that have an identifier describes how they are read and written. -/
theorem describes : shape.Describes where
  exact :=
    ⟨Slot.required_exact Format.text_exact, Slot.required_exact Format.text_exact,
      Slot.required_exact Format.text_exact, Slot.optional_exact EdgeData.exact_format, trivial⟩
  apart := by simp [shape, Shape.keys, Key.Apart, Key.same, Text.ofString_inj]
  wellFormed := by simp [shape, Shape.keys, Key.same]
  reads := by
    rintro members ⟨⟩
    simp only [shape, ofNamed, Reading.seq_eq_ok_iff, Reading.map_eq_ok_iff, Reading.ok.injEq,
      mk.injEq, ↓existsAndEq, true_and, exists_and_left, and_assoc]
    rfl
  writes _ := rfl
  again := by
    rintro ⟨⟩ ⟨⟩
    exact Iff.of_eq (mk.injEq ..)

/-- The members of an edge with an identifier are the members, or a text under that key. -/
theorem mem_withDefaultId {members : Members} {member : Text × Json}
    (mem : member ∈ withDefaultId members) :
    (member.1 = "id" ∧ ∃ s, member.2 = .str s) ∨ member ∈ members := by
  unfold withDefaultId at mem
  split at mem
  · obtain rfl | mem := Members.mem_put mem
    · exact .inl ⟨rfl, _, rfl⟩
    · exact .inr mem
  · exact .inr mem

section DefaultId

variable {members : Members} {name : Text}

/-- An added identifier changes nothing under other keys. -/
theorem get?_withDefaultId (differ : "id" ≠ name) :
    (withDefaultId members).get? name = members.get? name := by
  unfold withDefaultId
  split
  · rw [Members.get?_put, if_neg differ]
  · rfl

/-- Adding an identifier leaves what is found under a key. -/
theorem find?_withDefaultId {found : Text × Json}
    (isFound : (Key.same name).find? members = some found) :
    (Key.same name).find? (withDefaultId members) = some found := by
  rw [Key.find?_same] at isFound ⊢
  by_cases same : "id" = name
  · unfold withDefaultId
    split
    · rename_i none _ _
      rw [← same, none] at isFound
      cases isFound
    · exact isFound
  · rw [get?_withDefaultId same, isFound]

/-- The members of an edge with an identifier may be read in place of the members. -/
theorem standsFor_withDefaultId (members : Members) :
    shape.format.StandsFor (.obj (withDefaultId members)) (.obj members) where
  finite finite := Json.haveFinite_iff.2 fun member mem => by
    obtain ⟨_, s, isText⟩ | mem := mem_withDefaultId mem
    · rw [isText]
      rfl
    · exact Json.haveFinite_iff.1 finite member mem
  once once := by
    obtain ⟨_, _, _, _, data, _⟩ := Shape.spellsOnce_obj_iff.1 once
    have single : ∀ key ∈ shape.keys, key.camel = key.plain := by simp [shape, Shape.keys, Key.same]
    -- Only the payload has objects among its parts, and its key is none that is set.
    refine Shape.spellsOnce_obj_iff.2 ⟨Members.spelledOnce_of_single single, Slot.spelledOnce_simple,
      Slot.spelledOnce_simple, Slot.spelledOnce_simple, ?_, trivial⟩
    rintro object ⟨found, isFound, inData⟩
    rw [Key.find?_same, get?_withDefaultId (by decide), ← Key.find?_same] at isFound
    exact data object ⟨found, isFound, inData⟩
  carries carries := by
    rintro _ ⟨⟩
    obtain ⟨unknown, parts⟩ := carries _ rfl
    refine ⟨fun name value isFound isUnknown => unknown name value ?_ isUnknown, ?_⟩
    · rwa [get?_withDefaultId (isUnknown (.same "id") List.mem_cons_self).1.symm]
    · obtain ⟨id, source, target, data, _⟩ := Part.all_iff.2 ⟨parts, trivial⟩
      exact And.left <| Part.all_iff.1 ⟨fun found isFound => id found (find?_withDefaultId isFound),
        fun found isFound => source found (find?_withDefaultId isFound),
        fun found isFound => target found (find?_withDefaultId isFound),
        fun found isFound => data found (find?_withDefaultId isFound), trivial⟩

end DefaultId

/-- The format of edges is exact. -/
theorem exact_format : format.Exact := by
  refine describes.exact_format.reading (fun edge => ?_) fun {found edge} isRead => ?_
  · -- A written edge has an identifier, so none is added.
    rfl
  · obtain ⟨members, rfl, wellFormed, isRead⟩ := Reading.record_eq_ok_iff.1 isRead
    have named : ofNamed (withDefaultId members) = .ok edge := isRead
    have namedWellFormed : ∀ member ∈ withDefaultId members, member.1.isWellFormed = true := by
      intro member mem
      obtain ⟨isId, _⟩ | mem := mem_withDefaultId mem
      · rw [isId]
        exact Text.isWellFormed_ofString "id"
      · exact wellFormed member mem
    have namedRead : Reading.record "FlowchartEdge" ofNamed (.obj (withDefaultId members)) =
        .ok edge := Reading.record_eq_ok_iff.2 ⟨_, rfl, namedWellFormed, named⟩
    exact ⟨.obj (withDefaultId members), namedRead, standsFor_withDefaultId members⟩

/-- Each edge can be read once it was written. -/
theorem valid (edge : Edge) : format.Valid edge := by
  change ∀ part ∈ shape.parts, part.Valid edge
  simp [shape, Part.Valid, Slot.required, Slot.optional, Format.simple, EdgeData.valid]

/-- What a demand asks of an edge. -/
theorem each_iff {edge : Edge} {demand : Demand} :
    format.Each demand edge ↔ demand.extras keys edge.extras ∧
      ∀ data ∈ edge.data, EdgeData.format.Each demand data := by
  refine and_congr_right fun _ => ?_
  simp [shape, Part.Each, Slot.required, Slot.optional, Format.simple]

end Edge

/-! ## Flows -/

namespace Flow

/-- The shape of flows. -/
def shape : Shape Flow where
  name := "FlowchartGraph"
  ofMembers := ofMembers
  toJson := toJson
  reread flow :=
    { nodes := flow.nodes.map Node.format.reread
      edges := flow.edges.map Edge.format.reread
      viewport := flow.viewport.map Viewport.format.reread
      extras := Members.shown flow.extras }
  extras := extras
  parts :=
    [⟨.same "nodes", .required Node.format.array, nodes⟩,
      ⟨.same "edges", .required Edge.format.array, edges⟩,
      ⟨.same "viewport", .optional Viewport.format, viewport⟩]

/-- The format of flows. -/
def format : Format Flow := shape.format

/-- The shape of flows describes how they are read and written. -/
theorem describes : shape.Describes where
  exact :=
    ⟨Slot.required_exact (Format.array_exact Node.exact_format),
      Slot.required_exact (Format.array_exact Edge.exact_format),
      Slot.optional_exact Viewport.exact_format, trivial⟩
  apart := by simp [shape, Shape.keys, Key.Apart, Key.same, Text.ofString_inj]
  wellFormed := by simp [shape, Shape.keys, Key.same]
  reads := by
    rintro members ⟨⟩
    simp only [shape, ofMembers, Reading.seq_eq_ok_iff, Reading.map_eq_ok_iff, Reading.ok.injEq,
      mk.injEq, ↓existsAndEq, true_and, exists_and_left, and_assoc]
    rfl
  writes _ := rfl
  again := by
    rintro ⟨⟩ ⟨⟩
    exact Iff.of_eq (mk.injEq ..)

/-- The format of flows is exact. -/
theorem exact_format : format.Exact := describes.exact_format

variable {flow : Flow} {demand : Demand}

/-- A flow can be read once it was written where its nodes can. -/
theorem valid_iff : format.Valid flow ↔ ∀ node ∈ flow.nodes, Node.format.Valid node := by
  change (∀ part ∈ shape.parts, part.Valid flow) ↔ _
  simp [shape, Part.Valid, Slot.required, Slot.optional, Format.array, Edge.valid, Viewport.valid]

/-- What a demand asks of a flow. -/
theorem each_iff :
    format.Each demand flow ↔ demand.extras keys flow.extras ∧
      (∀ node ∈ flow.nodes, Node.format.Each demand node) ∧
      (∀ edge ∈ flow.edges, Edge.format.Each demand edge) ∧
      ∀ viewport ∈ flow.viewport, Viewport.format.Each demand viewport := by
  refine and_congr_right fun _ => ?_
  simp [shape, Part.Each, Slot.required, Slot.optional, Format.array]

/-- The viewport that comes back with a flow is written as it was. -/
theorem viewport_reread (finite : format.Each .finite flow) :
    (format.reread flow).viewport.map Viewport.toJson = flow.viewport.map Viewport.toJson :=
  Viewport.exact_format.map_toJson_reread (each_iff.1 finite).2.2.2

end Flow

end CardForm
