import CardForm.Proofs.Flow.Readable
import CardForm.Proofs.Flow.Session
import CardForm.Proofs.Flow.Shown

/-!
# The chain through a field list, and back

A chain has a card for the first field of each identifier that is not reserved, and stands for these
fields in their order (`Flow.linear_chain_read`). Questions come back as they were, statements with their
text and their media only. So where the field list of a flow is made into a chain, what comes back is
written as before exactly where each statement in it holds nothing but these (`Flow.relisted_iff`): the
label that a statement card has of its own is lost where it is not the text
(`Flow.exists_relisted_changed`).
-/
namespace CardForm

variable {fields : List Field} {field : Field}

/-! ## Statements with nothing but their text -/

namespace Field

/-- The statement with the text and the media of a field. -/
def reduced (field : Field) : Field where
  id := field.id
  kind := .statement
  label := field.label
  placeholder := some field.label
  required := some false
  media := field.media

/-- What a chain keeps of a field: all of a question, the text and the media of a statement. -/
def keptInChain (field : Field) : Field := if field.isStatement then field.reduced else field

/-- A statement that holds nothing but its text and its media. -/
structure IsReduced (field : Field) : Prop where
  /-- It is a statement. -/
  statement : field.isStatement = true
  /-- Its placeholder repeats its text. -/
  placeholder : field.placeholder = some field.label
  /-- It offers no answers. -/
  options : field.options = none
  /-- It need not be answered. -/
  required : field.required = some false
  /-- It has no rules. -/
  logic : field.logic = none
  /-- It says nothing of earlier answers. -/
  enablePiping : field.enablePiping = none
  /-- Its answer has no name. -/
  pipingKey : field.pipingKey = none
  /-- Its unknown members are all null. -/
  extras : Members.shown field.extras = []

/-- What a demand asks of a field, it asks of the statement with its text and its media. -/
theorem each_reduced {demand : Demand} (each : format.Each demand field) :
    format.Each demand field.reduced :=
  each_iff.2 ⟨demand.extras_nil _, fun _ none => (nomatch none), (each_iff.1 each).2.2.1,
    fun _ none => (nomatch none)⟩

/-- A statement is written as the one with its text and its media where it holds nothing else. -/
theorem toJson_reduced_iff (kept : format.Each .kept field) (isStatement : field.isStatement = true) :
    field.reduced.toJson = field.toJson ↔ field.IsReduced := by
  have kind : field.kind = .statement := of_decide_eq_true isStatement
  have same := describes.toJson_eq_iff (each_reduced kept) kept
  change field.reduced.toJson = field.toJson ↔ _ at same
  have parts : (∀ part ∈ shape.parts, part.written field.reduced = part.written field) ↔
      field.placeholder = some field.label ∧ field.options = none ∧ field.required = some false ∧
        field.logic = none ∧ field.enablePiping = none ∧ field.pipingKey = none := by
    simp [shape, Part.written, Slot.required, Slot.optional, Format.simple, FieldKind.format, reduced,
      kind, eq_comm (a := none), eq_comm (b := Option.map _ _)]
  rw [same, parts]
  constructor
  · rintro ⟨⟨placeholder, options, required, logic, enablePiping, pipingKey⟩, extras⟩
    exact ⟨isStatement, placeholder, options, required, logic, enablePiping, pipingKey, extras.symm⟩
  · rintro ⟨_, placeholder, options, required, logic, enablePiping, pipingKey, extras⟩
    exact ⟨⟨placeholder, options, required, logic, enablePiping, pipingKey⟩, extras.symm⟩

/-- What a chain keeps of a field is written as the field where that, if a statement, holds nothing but its
text and its media. -/
theorem toJson_keptInChain_iff (kept : format.Each .kept field) :
    field.keptInChain.toJson = field.toJson ↔ (field.isStatement = true → field.IsReduced) := by
  unfold keptInChain
  split
  · rename_i isStatement
    rw [toJson_reduced_iff kept isStatement, forall_prop_of_true isStatement]
  · rename_i notStatement
    exact iff_of_true rfl fun isStatement => absurd isStatement notStatement

/-- What a chain keeps of some fields is written as these where that holds of each of them. -/
theorem listToJson_keptInChain_iff (kept : ∀ field ∈ fields, format.Each .kept field) :
    listToJson (fields.map keptInChain) = listToJson fields ↔
      ∀ field ∈ fields, field.isStatement = true → field.IsReduced := by
  rw [listToJson, listToJson, Json.arr.injEq, List.map_map, List.map_inj_left]
  exact forall₂_congr fun field mem => toJson_keptInChain_iff (kept field mem)

end Field

namespace Flow

/-! ## The fields of a chain -/

/-- The fields that become cards of a chain: of those whose identifiers are not reserved, the first of each
identifier. -/
def chained (fields : List Field) : List Field :=
  (fields.filter fun field => field.id != startId && field.id != endId).eraseDupsBy
    fun first second => first.id == second.id

/-- The fields that become nodes beside seen ones are the first of each identifier that was not seen. -/
theorem firstsAfter_eq (seen : List Text) (fields : List Field) :
    firstsAfter seen fields = (fields.filter fun field => !seen.contains field.id).eraseDupsBy
      fun first second => first.id == second.id := by
  induction fields generalizing seen with
  | nil => rfl
  | cons first rest ih =>
    rw [firstsAfter]
    split
    · rename_i isSeen
      rw [ih, List.filter_cons_of_neg (by simpa using isSeen)]
    · rename_i notSeen
      rw [ih, List.filter_cons_of_pos (by simpa using notSeen), List.eraseDupsBy_cons,
        List.filter_filter]
      congr 2
      refine List.filter_congr fun field _ => ?_
      rw [Bool.eq_iff_iff]
      simp

/-- The fields that become nodes of a chain. -/
theorem cardFields_eq (fields : List Field) : cardFields fields = chained fields := by
  rw [cardFields, firstsAfter_eq, chained]
  congr 1
  refine List.filter_congr fun field _ => ?_
  rw [Bool.eq_iff_iff]
  simp

/-! ## What a chain stands for -/

/-- The identifiers of the nodes of a chain are distinct. -/
theorem nodup_ids_chain (fields : List Field) (viewport : Option Viewport) :
    (chain fields viewport).ids.Nodup :=
  nodup_ids_column (nodup_firstsAfter _ _) (unreserved_cardFields fields)

/-- The nodes between the start and the end of a chain are its cards in their order. -/
theorem shownNodes_chain (fields : List Field) (viewport : Option Viewport) :
    (chain fields viewport).shownNodes = fieldNodes (cardFields fields) := by
  have distinct := nodup_ids_chain fields viewport
  have order : Ends.discovery (chain fields viewport).ends =
      (fieldNodes (cardFields fields)).map Node.id := by
    rw [ids_chain] at distinct
    rw [ends_chain, ids_chain, ids_fieldNodes]
    exact Ends.discovery_chain _ distinct
  have self := List.filterMap_some (l := fieldNodes (cardFields fields))
  rw [shownNodes, order, List.filterMap_map]
  refine Eq.trans (List.filterMap_congr fun node mem => ?_) self
  have inNodes : node ∈ (chain fields viewport).nodes :=
    List.mem_cons_of_mem _ (List.mem_append_left _ mem)
  exact lastNode?_of_mem distinct inNodes

/-- What the form shows for the card of a field is what a chain keeps of it. -/
theorem shownFor_eq (field : Field) : shownFor field = field.keptInChain := rfl

/-- The nodes of some fields show what a chain keeps of these. -/
theorem fields_fieldNodes (named : ∀ field ∈ fields, Format.name.Valid field.id) :
    Node.fields (fieldNodes fields) = .ok (fields.map Field.keptInChain) := by
  suffices anywhere : ∀ height : Nat → Number,
      Node.fields (fields.mapIdx fun place field => fieldNode field (height place)) =
        .ok (fields.map Field.keptInChain) from anywhere _
  induction fields with
  | nil => exact fun _ => rfl
  | cons field rest ih =>
    intro height
    rw [List.forall_mem_cons] at named
    have isFirst := field?_fieldNode named.1 (height 0)
    have areOthers := ih named.2 fun place => height (place + 1)
    rw [shownFor_eq] at isFirst
    rw [List.mapIdx_cons]
    exact Node.fields_cons_eq_ok_iff.2 ⟨_, _, isFirst, areOthers, rfl⟩

/-- A chain stands for what it keeps of the fields of its cards. -/
theorem linear_chain (viewport : Option Viewport)
    (named : ∀ field ∈ cardFields fields, Format.name.Valid field.id) :
    (chain fields viewport).linear = .ok ((cardFields fields).map Field.keptInChain) := by
  rw [linear, shownNodes_chain]
  exact fields_fieldNodes named

/-- A chain through validated fields has the start, a card for the first field of each identifier that is
not reserved, in their order, and the end, and an edge from each of these to the next. It stands for
the same fields, of which the statements keep their text and their media only. -/
theorem linear_chain_read (fields : List Field) (viewport : Option Viewport)
    (fieldsRead : ∀ field ∈ fields, ∃ found, Field.read found = .ok field) :
    (chain fields viewport).ids = startId :: ((chained fields).map Field.id ++ [endId]) ∧
      (chain fields viewport).nodes.length = (chained fields).length + 2 ∧
      (chain fields viewport).edges.length = (chained fields).length + 1 ∧
      (chain fields viewport).ends =
        (chain fields viewport).ids.zip (chain fields viewport).ids.tail ∧
      (chain fields viewport).linear = .ok ((chained fields).map Field.keptInChain) := by
  have ids := ids_chain fields viewport
  have nodesLength : (chain fields viewport).nodes.length = (cardFields fields).length + 2 := by
    simpa [Flow.ids] using congrArg List.length ids
  have edgesLength : (chain fields viewport).edges.length = (cardFields fields).length + 1 := by
    simpa [Flow.ends, ids] using congrArg List.length (ends_chain fields viewport)
  have named : ∀ field ∈ cardFields fields, Format.name.Valid field.id := fun field mem =>
    (Field.valid_iff.1 (Field.valid_of_reads fieldsRead field (mem_firstsAfter mem).1)).1
  rw [← cardFields_eq]
  exact ⟨ids, nodesLength, edgesLength, ends_chain fields viewport, linear_chain viewport named⟩

/-- A statement as it is listed for a card with a label. -/
def caption (label : Text) : Field :=
  { Field.bare "s" with kind := .statement, placeholder := some label, required := some false }

/-- Such a statement can be read once it was written. -/
theorem valid_caption (label : Text) : Field.format.Valid (caption label) := by
  have name : Format.name.Valid "s" := ⟨by decide, by decide⟩
  have known : FieldKind.statement ∈ FieldKind.known := by decide
  exact Field.valid_iff.2 ⟨name, known, fun _ none => (nomatch none), fun _ none => (nomatch none),
    fun _ none => (nomatch none)⟩

/-- A demand asks nothing of such a statement. -/
theorem each_caption {demand : Demand} (label : Text) : Field.format.Each demand (caption label) :=
  Field.each_iff.2 ⟨demand.extras_nil _, fun _ none => (nomatch none), fun _ none => (nomatch none),
    fun _ none => (nomatch none)⟩

/-- A chain through such a statement keeps the text in the place of the label. -/
theorem linear_chain_caption (label : Text) :
    (chain [caption label] none).linear = .ok [caption "s"] :=
  linear_chain none (List.forall_mem_singleton.2 (Field.valid_iff.1 (valid_caption label)).1)

/-- Of two fields with one identifier the first comes back, one with the identifier of the start does not,
and of a statement its text. -/
theorem linear_chain_read_repeated :
    (chain (["q", "start", "q"].map Field.bare ++ [caption "?"]) none).linear =
      .ok [.bare "q", caption "s"] := by
  have captionRead : Field.read (caption "?").toJson = .ok (caption "?") :=
    (Field.exact_format.read_toJson (each_caption "?")).2 ⟨valid_caption "?", rfl⟩
  have read : ∀ field ∈ ["q", "start", "q"].map Field.bare ++ [caption "?"],
      ∃ found, Field.read found = .ok field :=
    List.forall_mem_append.2 ⟨Field.exists_read_bare ["q", "start", "q"] (by decide),
      List.forall_mem_singleton.2 ⟨_, captionRead⟩⟩
  exact (linear_chain_read _ none read).2.2.2.2

end Flow

/-! ## A field list made into a chain -/

namespace Node

variable {node : Node} {shown : Option Field}

/-- What a node shows comes back from a chain: a statement has no label but its text, and a question that is
listed as a statement holds nothing but a text and media. -/
def Relists : Node → Prop
  | question card => card.data.shownField.isStatement = true → card.data.shownField.IsReduced
  | statement card => card.data.isSuccessCard = false → card.data.label = card.data.text
  | _ => True

/-- That is so where the field that it shows, if a statement, holds nothing but its text and its media. -/
theorem relists_iff (isShown : node.field? = .ok shown) :
    node.Relists ↔ ∀ field ∈ shown, field.isStatement = true → field.IsReduced := by
  cases node with
  | start card =>
    cases isShown
    exact iff_of_true trivial fun _ none => nomatch none
  | finish card =>
    cases isShown
    exact iff_of_true trivial fun _ none => nomatch none
  | question card =>
    cases isShown
    simp only [Relists, Option.mem_some_iff, forall_eq']
  | statement card =>
    obtain ⟨success, rfl⟩ | ⟨noSuccess, _, rfl⟩ := field?_statement_eq_ok_iff.1 isShown
    · exact iff_of_true (fun noSuccess => absurd success (Bool.eq_false_iff.1 noSuccess))
        fun _ none => nomatch none
    · have reduced : card.data.shownField.IsReduced ↔ card.data.label = card.data.text :=
        ⟨fun reduced => Option.some.inj reduced.placeholder,
          fun same => ⟨rfl, congrArg some same, rfl, rfl, rfl, rfl, rfl, rfl⟩⟩
      have isStatement : card.data.shownField.isStatement = true := rfl
      simp only [Relists, noSuccess, forall_const, Option.mem_some_iff, forall_eq', isStatement,
        reduced]

end Node

namespace Flow

variable {flow : Flow} {value : Json}

/-- The fields that a flow stands for come back from a chain where what each card shows does. -/
theorem forall_isReduced_iff (isLinear : flow.linear = .ok fields) :
    (∀ field ∈ fields, field.isStatement = true → field.IsReduced) ↔
      ∀ node ∈ flow.shownNodes, node.Relists := by
  constructor
  · intro reduced node inShown
    obtain ⟨shown, isShown, inFields⟩ := Node.exists_field?_of_mem isLinear inShown
    exact (Node.relists_iff isShown).2 fun field isField => reduced field (inFields field isField)
  · intro relists field mem
    obtain ⟨node, inShown, isShown⟩ := Node.exists_of_mem_fields isLinear mem
    exact (Node.relists_iff isShown).1 (relists node inShown) field rfl

/-- Where a flow that was loaded stands for fields of distinct identifiers, none of them reserved, a chain
through these stands for what it keeps of each of them, in the same order. That is written as before
exactly where what each card of the flow shows comes back from a chain. -/
theorem relisted_iff (viewport : Option Viewport) (loads : load value = .ok flow)
    (isLinear : flow.linear = .ok fields) (distinct : (fields.map Field.id).Nodup)
    (unreserved : startId ∉ fields.map Field.id ∧ endId ∉ fields.map Field.id) :
    (chain fields viewport).linear = .ok (fields.map Field.keptInChain) ∧
      (Field.listToJson (fields.map Field.keptInChain) = Field.listToJson fields ↔
        ∀ node ∈ flow.shownNodes, node.Relists) := by
  have cards : cardFields fields = fields := cardFields_eq_self distinct unreserved
  have named : ∀ field ∈ cardFields fields, Format.name.Valid field.id := by
    rw [cards]
    exact name_of_linear (valid_of_load loads) isLinear
  have relisted := linear_chain viewport named
  rw [cards] at relisted
  have kept : ∀ field ∈ fields, Field.format.Each .kept field :=
    each_linear (exact_format.kept_of_read (load_eq_ok_iff.1 loads).2) isLinear
  rw [Field.listToJson_keptInChain_iff kept, forall_isReduced_iff isLinear]
  exact ⟨relisted, Iff.rfl⟩

/-- A chain through a statement card with a label. -/
def captioned (label : Text) : Flow := (chain [caption label] none).merge [caption label]

/-- That chain is loaded. -/
theorem load_captioned (label : Text) : load (captioned label).toJson = .ok (captioned label) := by
  have valid : ∀ field ∈ [caption label], Field.format.Valid field :=
    List.forall_mem_singleton.2 (valid_caption label)
  have each : ∀ field ∈ [caption label], Field.format.Each .once field :=
    List.forall_mem_singleton.2 (each_caption label)
  have named : ∀ field ∈ [caption label], field.id ≠ [] := fun field mem =>
    (Field.valid_iff.1 (valid field mem)).1.2
  have sound : (captioned label).Sound := by
    refine (sound_merge_iff (sound_chain valid none) named).2 fun node _ card _ entry isGiven => ?_
    obtain ⟨_, _, isLast⟩ := Option.bind_eq_some_iff.1 isGiven
    exact (Field.valid_iff.1 (valid entry (Field.mem_of_last? isLast))).2.1
  have once : format.Each .once (captioned label) :=
    each_merge (each_chain each fun _ none => nomatch none) each
  exact (load_toJson_eq_ok_iff once).2 ⟨sound, valid_merge (valid_chain valid) valid, rfl⟩

/-- It shows its card. -/
theorem shownNodes_captioned (label : Text) :
    (captioned label).shownNodes =
      [(fieldNode (caption label) (.int firstY)).merged [caption label]] := by
  have nodes : (captioned label).shownNodes =
      (chain [caption label] none).shownNodes.map (Node.merged [caption label]) :=
    shownNodes_of_map rfl (Node.id_merged _) rfl
  rw [nodes, shownNodes_chain]
  rfl

/-- It stands for a statement with that label. -/
theorem linear_captioned (label : Text) : (captioned label).linear = .ok [caption label] := by
  rw [linear, shownNodes_captioned]
  rfl

/-- A statement whose label is its text comes back. -/
theorem relisted_captioned :
    (chain [caption "s"] none).linear = .ok ([caption "s"].map Field.keptInChain) ∧
      Field.listToJson ([caption "s"].map Field.keptInChain) = Field.listToJson [caption "s"] := by
  obtain ⟨isLinear, iff⟩ := relisted_iff none (load_captioned "s") (linear_captioned "s")
    (by decide) (by decide)
  refine ⟨isLinear, iff.2 fun node mem => ?_⟩
  rw [shownNodes_captioned, List.mem_singleton] at mem
  rw [mem]
  exact fun _ => rfl

/-- A statement with a label of its own does not come back: a flow is loaded that stands for fields of
distinct identifiers, none of them reserved, and a chain through these stands for others. -/
theorem exists_relisted_changed :
    ∃ value flow fields again, load value = .ok flow ∧ flow.linear = .ok fields ∧
      (fields.map Field.id).Nodup ∧
      (startId ∉ fields.map Field.id ∧ endId ∉ fields.map Field.id) ∧
      (chain fields none).linear = .ok again ∧
      Field.listToJson again ≠ Field.listToJson fields := by
  refine ⟨_, captioned "D", _, _, load_captioned "D", linear_captioned "D", by decide, by decide,
    linear_chain_caption "D", fun same => ?_⟩
  have sameField : (caption "s").toJson = (caption "D").toJson :=
    (List.cons.inj (Json.arr.inj same)).1
  have samePlaceholder : some (Json.str "s") = some (.str "D") :=
    congrArg (·.get? "placeholder") sameField
  exact absurd (Json.str.inj (Option.some.inj samePlaceholder)) (by decide)

end Flow

end CardForm
