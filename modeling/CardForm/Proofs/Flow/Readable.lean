import CardForm.Proofs.Flow.LaidOut
import CardForm.Proofs.Flow.Merge

/-!
# Flows that take over a field list

When a sound flow is still sound with the content of a field list, and when it can be written then. The
list that a flow stands for has no obstacle where the flow has none (`Flow.obstacle_linear`), nor has
the flow with that list. It stays sound exactly where each question takes a field of a known kind
(`Flow.sound_merge_iff`): a kind comes from the editor's copy in a question, which may hold any name.
-/
namespace CardForm

variable {fields : List Field} {entry field : Field} {room : Nat}

/-! ## Obstacles in fields and cards -/

namespace QuestionData

variable {data : QuestionData}

/-- The field that is shown for a payload has no obstacle where the payload has none. -/
theorem obstacle_shownField (free : data.obstacle room = none) :
    data.shownField.obstacle room = none := by
  obtain ⟨fieldFree, mediaFree, _⟩ := obstacle_eq_none_iff.1 free
  obtain ⟨options, fieldMedia, logic, extras⟩ := Field.obstacle_eq_none_iff.1 fieldFree
  refine Field.obstacle_eq_none_iff.2 ⟨options, fun media shown => ?_, logic, extras⟩
  obtain own | ⟨_, other⟩ := Option.or_eq_some_iff.1 shown
  · exact mediaFree media own
  · exact fieldMedia media other

/-- The payload with a newer field has no obstacle where both have none. -/
theorem obstacle_withField (free : data.obstacle room = none) (entryFree : entry.obstacle room = none) :
    (data.withField entry).obstacle room = none := by
  obtain ⟨fieldFree, mediaFree, extrasFree⟩ := obstacle_eq_none_iff.1 free
  obtain ⟨options, entryMedia, logic, extras⟩ := Field.obstacle_eq_none_iff.1 entryFree
  have media : ∀ media ∈ data.mediaFor entry, media.obstacle room = none := fun media mem =>
    (mem_mediaFor mem).elim ((Field.obstacle_eq_none_iff.1 fieldFree).2.1 media) (entryMedia media)
  exact obstacle_eq_none_iff.2
    ⟨Field.obstacle_eq_none_iff.2 ⟨options, media, logic, extras⟩, mediaFree, extrasFree⟩

end QuestionData

namespace Node

variable {node : Node}

/-- The field that is shown for a node has no obstacle where the node has none. -/
theorem obstacle_field? (free : node.obstacle room = none) (isShown : node.field? = .ok (some field)) :
    field.obstacle room = none := by
  cases node with
  | start card => cases isShown
  | finish card => cases isShown
  | question card =>
    cases isShown
    exact QuestionData.obstacle_shownField (Card.obstacle_eq_none_iff.1 free).2.1
  | statement card =>
    obtain ⟨_, none⟩ | ⟨_, _, isField⟩ := field?_statement_eq_ok_iff.1 isShown
    · cases none
    · cases isField
      have media := (StatementData.obstacle_eq_none_iff.1 (Card.obstacle_eq_none_iff.1 free).2.1).1
      exact Field.obstacle_eq_none_iff.2 ⟨fun _ none => (nomatch none), media,
        fun _ none => (nomatch none), rfl⟩

/-- A node with newer content has no obstacle where it and the fields have none. -/
theorem obstacle_merged (free : node.obstacle room = none)
    (fieldsFree : ∀ field ∈ fields, field.obstacle room = none) :
    (node.merged fields).obstacle room = none := by
  cases isGiven : node.given? fields with
  | none => rwa [merged_of_given?_eq_none isGiven]
  | some entry =>
    obtain ⟨_, _, isLast⟩ := Option.bind_eq_some_iff.1 isGiven
    have entryFree := fieldsFree entry (Field.mem_of_last? isLast)
    cases node with
    | start card => exact free
    | finish card => exact free
    | question card =>
      obtain ⟨position, data, extras⟩ := Card.obstacle_eq_none_iff.1 free
      rw [merged_question isGiven]
      exact Card.obstacle_eq_none_iff.2
        ⟨position, QuestionData.obstacle_withField data entryFree, extras⟩
    | statement card =>
      rw [merged_statement isGiven]
      split
      · exact free
      · exact free

end Node

namespace Flow

variable {flow : Flow}

/-- The fields that a flow stands for have no obstacle where the flow has none. -/
theorem obstacle_linear (free : flow.obstacle room = none) (isLinear : flow.linear = .ok fields) :
    ∀ field ∈ fields, field.obstacle room = none := by
  intro field mem
  obtain ⟨node, inShown, isShown⟩ := Node.exists_of_mem_fields isLinear mem
  exact Node.obstacle_field?
    ((obstacle_eq_none_iff.1 free).1 node (mem_of_mem_shownNodes inShown)) isShown

/-- A flow with newer content has no obstacle where it and the fields have none. -/
theorem obstacle_merge (free : flow.obstacle room = none)
    (fieldsFree : ∀ field ∈ fields, field.obstacle room = none) :
    (flow.merge fields).obstacle room = none := by
  obtain ⟨nodes, edges, viewport, extras⟩ := obstacle_eq_none_iff.1 free
  exact obstacle_eq_none_iff.2 ⟨List.forall_mem_map.2 fun node mem =>
    Node.obstacle_merged (nodes node mem) fieldsFree, edges, viewport, extras⟩

end Flow

/-! ## When the flow stays sound -/

namespace Node

variable {node : Node}

/-- The field that a question takes from a list, if any, is of a known kind. -/
def TakesKnown (fields : List Field) (node : Node) : Prop :=
  ∀ card, node = question card → ∀ entry ∈ node.given? fields, entry.kind ∈ FieldKind.known

/-- A node in order is so with newer content where a question takes a field of a known kind. -/
theorem proper_merged_iff (proper : node.Proper) (named : ∀ field ∈ fields, field.id ≠ []) :
    (node.merged fields).Proper ↔ node.TakesKnown fields := by
  cases isGiven : node.given? fields with
  | none =>
    rw [merged_of_given?_eq_none isGiven]
    exact iff_of_true proper fun card _ entry isEntry => nomatch isGiven.symm.trans isEntry
  | some entry =>
    obtain ⟨_, _, isLast⟩ := Option.bind_eq_some_iff.1 isGiven
    cases node with
    | start card => exact iff_of_true proper fun _ isQuestion => nomatch isQuestion
    | finish card => exact iff_of_true proper fun _ isQuestion => nomatch isQuestion
    | statement card =>
      refine iff_of_true ⟨?_, ?_⟩ fun _ isQuestion => nomatch isQuestion
      · rw [id_merged]
        exact proper.id
      · rw [merged_statement isGiven]
        rintro other same
        split at same <;> cases same
    | question card =>
      constructor
      · rintro merged _ ⟨⟩ other isOther
        cases isGiven.symm.trans isOther
        exact (merged.field _ (merged_question isGiven)).2
      · intro takes
        refine ⟨?_, ?_⟩
        · rw [id_merged]
          exact proper.id
        · rw [merged_question isGiven]
          rintro _ ⟨⟩
          exact ⟨named entry (Field.mem_of_last? isLast), takes card rfl entry isGiven⟩

end Node

namespace Flow

variable {flow : Flow}

/-- A sound flow stays sound with newer content exactly where each question takes a field of a known
kind. -/
theorem sound_merge_iff (sound : flow.Sound) (named : ∀ field ∈ fields, field.id ≠ []) :
    (flow.merge fields).Sound ↔ ∀ node ∈ flow.nodes, node.TakesKnown fields := by
  obtain ⟨proper, wired, path⟩ := sound_iff.1 sound
  have sameEnds : (flow.merge fields).ends = flow.ends := rfl
  rw [sound_iff, sameEnds, and_iff_left ⟨wired.merge fields, path⟩]
  change (∀ node ∈ flow.nodes.map (Node.merged fields), node.Proper) ↔ _
  rw [List.forall_mem_map]
  exact forall₂_congr fun node mem => Node.proper_merged_iff (proper node mem) named

/-- The fields that a flow stands for have identifiers that are names. -/
theorem name_of_linear (valid : format.Valid flow) (isLinear : flow.linear = .ok fields) :
    ∀ field ∈ fields, Format.name.Valid field.id := by
  intro field mem
  obtain ⟨node, inShown, isShown⟩ := Node.exists_of_mem_fields isLinear mem
  have nodeValid := valid_iff.1 valid node (mem_of_mem_shownNodes inShown)
  cases node with
  | start card => cases isShown
  | finish card => cases isShown
  | question card =>
    cases isShown
    exact (Field.valid_iff.1 (QuestionData.valid_iff.1 (Card.valid_content_iff.1 nodeValid).2).1).1
  | statement card =>
    obtain ⟨_, none⟩ | ⟨_, name, isField⟩ := Node.field?_statement_eq_ok_iff.1 isShown
    · cases none
    · cases isField
      exact name

/-- These are not empty. -/
theorem id_ne_nil_of_linear (valid : format.Valid flow) (isLinear : flow.linear = .ok fields) :
    ∀ field ∈ fields, field.id ≠ [] := fun field mem => (name_of_linear valid isLinear field mem).2

/-! ## Chains without statements that lack a name -/

/-- A column of fields that can be read once they were written has no statement without a name. -/
theorem not_unnamed_of_mem_column {fields : List Field} {node : Node}
    (valid : ∀ field ∈ fields, Field.format.Valid field) (mem : node ∈ column fields) :
    ¬node.Unnamed := by
  obtain rfl | ⟨field, inFields, y, rfl⟩ | ⟨y, rfl⟩ := mem_column mem
  · exact not_false
  · have name : Format.name.Valid field.id := (Field.valid_iff.1 (valid field inFields)).1
    unfold fieldNode
    split
    · exact fun unnamed => unnamed.2 name
    · exact not_false
  · exact not_false

/-! ## A chain through one question -/

/-- A chain through one question with a payload. -/
def posed (data : QuestionData) : Flow :=
  { chain [.bare "q"] none with
    nodes := [startNode, .question ⟨"q", inColumn (.int firstY), data, []⟩,
      endNode (.int (heightOf 1))] }

/-- The JSON of a question whose payload has a text field and some other members. -/
def questionJson (others : Members) : Json :=
  .obj
    [("id", .str "q"), ("type", .str "question"), ("position", (inColumn (.int firstY)).toJson),
      ("data", .obj (("field", (Field.bare "q").toJson) :: others))]

/-- The JSON of a chain through such a question. -/
def posedJson (others : Members) : Json :=
  .obj
    [("nodes", .arr [startNode.toJson, questionJson others, (endNode (.int (heightOf 1))).toJson]),
      ("edges", .arr ((chain [.bare "q"] none).edges.map Edge.toJson))]

/-- The check finds no defect in it, whatever these members are. -/
theorem defects_posedJson (others : Members) : defects (posedJson others) = [] := by
  have sound : (chain [.bare "q"] none).Sound :=
    sound_chain (Field.valid_bare ["q"] (by decide)) none
  have kept : format.Each .kept (chain [.bare "q"] none) := each_chain_bare ["q"]
  have nodesKept := (each_iff.1 kept).2.1
  have isQuestion : HasKind .question (questionJson others) := rfl
  have fieldRules : FieldRules (Field.bare "q").toJson :=
    (fieldRules_toJson_iff (Field.each_bare "q")).2 ⟨by decide, by decide⟩
  have rules : NodeRules (questionJson others) :=
    ⟨⟨_, rfl, by decide⟩, ⟨_, isQuestion⟩, ⟨_, rfl, ⟨_, rfl⟩, ⟨_, rfl⟩⟩,
      fun _ => ⟨_, _, rfl, rfl, fieldRules⟩,
      fun isStatement => nomatch Check.hasKind_unique isQuestion isStatement⟩
  -- The check sees of the question what it sees of the question of a bare chain.
  have shows : Shows (questionJson others) (fieldNode (.bare "q") (.int firstY)) :=
    ⟨rfl, isQuestion, iff_of_true rules (sound.node _ (.tail _ List.mem_cons_self))⟩
  have showsNodes : List.Forall₂ Shows _ (chain [.bare "q"] none).nodes :=
    .cons (shows_toJson (nodesKept startNode List.mem_cons_self)) <| .cons shows <|
      .cons (shows_toJson (nodesKept _ (.tail _ (.tail _ List.mem_cons_self)))) .nil
  exact defects_eq_nil_iff.2
    ⟨_, _, rfl, rfl, (structured_iff_sound showsNodes (forall₂_showsEdge _)).2 sound⟩

/-- Such a chain stands for the field that the payload shows. -/
theorem linear_posed (data : QuestionData) : (posed data).linear = .ok [data.shownField] :=
  linear_like_illustrated rfl rfl rfl

/-- A demand asks nothing of such a chain but of the payload. -/
theorem each_posed {demand : Demand} {data : QuestionData}
    (each : QuestionData.format.Each demand data) : format.Each demand (posed data) := by
  have bare : format.Each demand (chain [.bare "q"] none) := each_chain_bare ["q"]
  obtain ⟨extras, _, edges, viewport⟩ := each_iff.1 bare
  refine each_iff.2 ⟨extras, ?_, edges, viewport⟩
  have question : Node.format.Each demand (.question ⟨"q", inColumn (.int firstY), data, []⟩) :=
    Card.each_content_iff.2
      ⟨demand.extras_nil _, Position.each_iff.2 (demand.extras_nil _), each⟩
  rintro node (_ | ⟨_, _ | ⟨_, _ | ⟨_, ⟨⟩⟩⟩⟩)
  · exact each_startNode
  · exact question
  · exact each_endNode _

end Flow

/-! ## A chain through one statement -/

namespace Node

variable {node : Node} {name : Text}

/-- The node with another identifier for the field of a statement. -/
def called (name : Text) : Node → Node
  | statement card => statement { card with data := { card.data with fieldId := name } }
  | node => node

/-- A node in order is in order with that identifier. -/
theorem Proper.called (proper : node.Proper) : (node.called name).Proper := by
  cases node with
  | statement card => exact ⟨proper.id, fun _ same => nomatch same⟩
  | _ => exact proper

/-- A node that can be read once it was written can so be with that identifier. -/
theorem valid_called (valid : format.Valid node) : format.Valid (node.called name) := by
  cases node with
  | statement card =>
    obtain ⟨id, data⟩ := Card.valid_content_iff.1 valid
    have media := StatementData.valid_iff.1 data
    exact Card.valid_content_iff.2 ⟨id, StatementData.valid_iff.2 media⟩
  | _ => exact valid

/-- A demand asks nothing of that identifier. -/
theorem each_called {demand : Demand} (each : format.Each demand node) :
    format.Each demand (node.called name) := by
  cases node with
  | statement card =>
    obtain ⟨extras, position, data⟩ := Card.each_content_iff.1 each
    obtain ⟨dataExtras, media⟩ := StatementData.each_iff.1 data
    exact Card.each_content_iff.2
      ⟨extras, position, StatementData.each_iff.2 ⟨dataExtras, media⟩⟩
  | _ => exact each

end Node

namespace Flow

variable {name : Text}

/-- A statement as a field. -/
def notice : Field := { Field.bare "s" with kind := .statement }

/-- A chain through one statement, which has some identifier for its field. -/
def stated (name : Text) : Flow :=
  { chain [notice] none with nodes := (chain [notice] none).nodes.map (Node.called name) }

/-- Such a chain is loaded. -/
theorem load_stated (name : Text) : load (stated name).toJson = .ok (stated name) := by
  have isName : Format.name.Valid notice.id := ⟨by decide, by decide⟩
  have valid : ∀ field ∈ [notice], Field.format.Valid field :=
    List.forall_mem_singleton.2 <| Field.valid_iff.2
      ⟨isName, by decide, fun _ none => (nomatch none), fun _ none => (nomatch none),
        fun _ none => (nomatch none)⟩
  have fieldOnce : Field.format.Each .once notice := Field.each_iff.2
    ⟨Demand.once.extras_nil _, fun _ none => (nomatch none), fun _ none => (nomatch none),
      fun _ none => (nomatch none)⟩
  have chainOnce : format.Each .once (chain [notice] none) :=
    each_chain (List.forall_mem_singleton.2 fieldOnce) fun _ none => nomatch none
  obtain ⟨proper, wired, path⟩ := sound_iff.1 (sound_chain valid none)
  have sound : (stated name).Sound := sound_iff.2
    ⟨List.forall_mem_map.2 fun node mem => (proper node mem).called,
      wired.map rfl (fun node => by cases node <;> rfl) (fun node => by cases node <;> rfl) wired.edge,
      path⟩
  have validNodes : format.Valid (stated name) := valid_iff.2 <| List.forall_mem_map.2 fun node mem =>
    Node.valid_called (valid_iff.1 (valid_chain valid) node mem)
  obtain ⟨extras, nodes, rest⟩ := each_iff.1 chainOnce
  have once : format.Each .once (stated name) := each_iff.2
    ⟨extras, List.forall_mem_map.2 fun node mem => Node.each_called (nodes node mem), rest⟩
  exact (load_toJson_eq_ok_iff once).2 ⟨sound, validNodes, rfl⟩

/-- Such a chain shows a statement without a name where that identifier cannot be that of a field. -/
theorem showsUnnamed_stated (noName : ¬Format.name.Valid name) : (stated name).ShowsUnnamed := by
  have order : Ends.discovery (stated name).ends = (["s"] : List Text) :=
    Ends.discovery_chain ["s"] (by decide)
  refine ⟨(fieldNode notice (.int firstY)).called name, ?_, rfl, noName⟩
  rw [shownNodes, order]
  exact List.mem_cons_self

end Flow

end CardForm
