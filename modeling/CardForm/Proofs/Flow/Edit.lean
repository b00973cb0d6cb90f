import CardForm.Flow.Session
import CardForm.Proofs.Flow.Layout
import CardForm.Proofs.Flow.Linear

/-!
# What edits keep

The parts of a flow after an edit are parts of the flow before, parts of the fields that the edit
takes over, or new ones without extras. So what a demand asks of a flow and of these fields, it asks
of the flow after (`Flow.each_changed`).
-/
namespace CardForm

variable {demand : Demand}

/-! ## Newer content -/

namespace QuestionData

variable {data : QuestionData} {field : Field}

/-- The media for a newer field are its own, or those of the field before. -/
theorem mem_mediaFor {media : Media} (mem : media ∈ data.mediaFor field) :
    media ∈ data.field.media ∨ media ∈ field.media := by
  unfold mediaFor at mem
  split at mem
  · rename_i own new _ isNew
    split at mem
    · exact .inl mem
    · cases mem
      exact .inr isNew
  · exact .inr mem

/-- What a demand asks of a payload and a newer field, it asks of the payload with that field. -/
theorem each_withField (each : format.Each demand data) (fieldEach : Field.format.Each demand field) :
    format.Each demand (data.withField field) := by
  obtain ⟨extras, ownField, ownMedia⟩ := each_iff.1 each
  obtain ⟨fieldExtras, options, fieldMedia, logic⟩ := Field.each_iff.1 fieldEach
  have media : ∀ media ∈ data.mediaFor field, Media.format.Each demand media := fun media mem =>
    (mem_mediaFor mem).elim ((Field.each_iff.1 ownField).2.2.1 media) (fieldMedia media)
  exact each_iff.2 ⟨extras, Field.each_iff.2 ⟨fieldExtras, options, media, logic⟩, ownMedia⟩

end QuestionData

namespace Node

variable {node : Node} {fields : List Field}

/-- What a demand asks of a node, it asks of the node with its copies up to date. -/
theorem each_normalized (each : format.Each demand node) : format.Each demand node.normalized := by
  cases node with
  | start card => exact each
  | finish card => exact each
  | statement card => exact each
  | question card =>
    obtain ⟨extras, position, data⟩ := Card.each_content_iff.1 each
    obtain ⟨dataExtras, field, media⟩ := QuestionData.each_iff.1 data
    exact Card.each_content_iff.2
      ⟨extras, position, QuestionData.each_iff.2 ⟨dataExtras, field, media⟩⟩

/-- What a demand asks of a node and of some fields, it asks of the node with their content. -/
theorem each_merged (each : format.Each demand node)
    (fieldsEach : ∀ field ∈ fields, Field.format.Each demand field) :
    format.Each demand (node.merged fields) := by
  unfold merged
  split
  · rename_i card field isField
    obtain ⟨id, _, isLast⟩ := Option.bind_eq_some_iff.1 isField
    obtain ⟨extras, position, data⟩ := Card.each_content_iff.1 each
    exact each_normalized (Card.each_content_iff.2 ⟨extras, position,
      QuestionData.each_withField data (fieldsEach field (Field.mem_of_last? isLast))⟩)
  · split
    · obtain ⟨extras, position, data⟩ := Card.each_content_iff.1 each
      obtain ⟨dataExtras, media⟩ := StatementData.each_iff.1 data
      exact Card.each_content_iff.2
        ⟨extras, position, StatementData.each_iff.2 ⟨dataExtras, media⟩⟩
    · exact each
  · exact each

end Node

namespace Flow

variable {flow : Flow} {fields : List Field}

/-- What a demand asks of a flow and of some fields, it asks of the flow with their content. -/
theorem each_merge (each : format.Each demand flow)
    (fieldsEach : ∀ field ∈ fields, Field.format.Each demand field) :
    format.Each demand (flow.merge fields) := by
  obtain ⟨extras, nodes, edges, viewport⟩ := each_iff.1 each
  refine each_iff.2 ⟨extras, ?_, edges, viewport⟩
  exact List.forall_mem_map.2 fun node mem => Node.each_merged (nodes node mem) fieldsEach

/-- What a demand asks of some nodes, it asks of them with their copies up to date. -/
theorem each_map_normalized {nodes : List Node}
    (each : ∀ node ∈ nodes, Node.format.Each demand node) :
    ∀ node ∈ nodes.map Node.normalized, Node.format.Each demand node :=
  List.forall_mem_map.2 fun node mem => Node.each_normalized (each node mem)

/-! ## Adding -/

/-- A demand asks nothing of a new question. -/
theorem each_newQuestion (id : Text) (pipingKey : Option Text) (y : Number) :
    Node.format.Each demand (newQuestion id pipingKey y) := by
  have options : ∀ options ∈ (newField id pipingKey).options,
      FieldOption.format.array.Each demand options := by
    rintro options isOptions option mem
    obtain ⟨_, rfl⟩ := exists_plain_of_mem_newField isOptions mem
    trivial
  have field : Field.format.Each demand (newField id pipingKey) :=
    Field.each_iff.2 ⟨demand.extras_nil _, options, fun _ none => (nomatch none),
      fun _ none => (nomatch none)⟩
  exact Card.each_content_iff.2 ⟨demand.extras_nil _, Position.each_iff.2 (demand.extras_nil _),
    QuestionData.each_iff.2 ⟨demand.extras_nil _, field, fun _ none => nomatch none⟩⟩

/-- The identifier of a new card is taken as it is, where a field can bear it. -/
theorem cardId_eq_ok_iff {id result : Text} :
    cardId id = .ok result ↔ Format.name.Valid id ∧ result = id := by
  rw [cardId, Reading.orUnfit_eq_ok_iff, Reading.under_eq_ok_iff, Reading.nonEmptyText_eq_ok_iff,
    Json.str.injEq]
  constructor
  · rintro ⟨rfl, valid⟩
    exact ⟨valid, rfl⟩
  · rintro ⟨valid, rfl⟩
    exact ⟨rfl, valid⟩

/-- A new card is a statement or a question, and bears its identifier. -/
theorem newNode_cases {card : NewCard} {id : Text} {y : Number} {node : Node}
    (isNew : flow.newNode card id y = .ok node) :
    Format.name.Valid id ∧ (node = .statement ⟨id, inColumn y, newStatement id, []⟩ ∨
      ∃ pipingKey, node = newQuestion id pipingKey y) := by
  cases card with
  | question =>
    obtain ⟨key, _, named⟩ := Failure.bind_eq_ok_iff.1 isNew
    obtain ⟨found, isId, same⟩ := Failure.bind_eq_ok_iff.1 named
    obtain ⟨valid, rfl⟩ := cardId_eq_ok_iff.1 isId
    cases same
    exact ⟨valid, .inr ⟨_, rfl⟩⟩
  | statement =>
    obtain ⟨found, isId, rfl⟩ := Failure.map_eq_ok_iff.1 isNew
    obtain ⟨valid, rfl⟩ := cardId_eq_ok_iff.1 isId
    exact ⟨valid, .inl rfl⟩
  | unkeyed =>
    obtain ⟨found, isId, rfl⟩ := Failure.map_eq_ok_iff.1 isNew
    obtain ⟨valid, rfl⟩ := cardId_eq_ok_iff.1 isId
    exact ⟨valid, .inr ⟨_, rfl⟩⟩

/-- A demand asks nothing of a new card. -/
theorem each_newNode {card : NewCard} {id : Text} {y : Number} {node : Node}
    (isNew : flow.newNode card id y = .ok node) : Node.format.Each demand node := by
  obtain ⟨_, rfl | ⟨key, rfl⟩⟩ := newNode_cases isNew
  · exact Card.each_content_iff.2 ⟨demand.extras_nil _, Position.each_iff.2 (demand.extras_nil _),
      StatementData.each_iff.2 ⟨demand.extras_nil _, fun _ none => nomatch none⟩⟩
  · exact each_newQuestion _ _ _

/-- The nodes of a flow with the start and the end are its nodes with their copies up to date, and a new
start or end. -/
theorem mem_nodesWithMarkers {node : Node} (mem : node ∈ flow.nodesWithMarkers) :
    (∃ old ∈ flow.nodes, node = old.normalized) ∨ node = startNode ∨ ∃ y, node = endNode y := by
  obtain mem | isEnd := List.mem_append.1 mem
  · obtain inNodes | isStart := List.mem_append.1 mem
    · obtain ⟨old, inFlow, rfl⟩ := List.mem_map.1 inNodes
      exact .inl ⟨old, inFlow, rfl⟩
    · split at isStart
      · cases isStart
      · exact .inr (.inl (List.mem_singleton.1 isStart))
  · split at isEnd
    · cases isEnd
    · exact .inr (.inr ⟨_, List.mem_singleton.1 isEnd⟩)

/-- What a demand asks of the nodes of a flow, it asks of them with the start and the end. -/
theorem each_nodesWithMarkers (each : ∀ node ∈ flow.nodes, Node.format.Each demand node) :
    ∀ node ∈ flow.nodesWithMarkers, Node.format.Each demand node := by
  intro node mem
  obtain ⟨old, inFlow, rfl⟩ | rfl | ⟨y, rfl⟩ := mem_nodesWithMarkers mem
  · exact Node.each_normalized (each old inFlow)
  · exact each_startNode
  · exact each_endNode y

/-- What a demand asks of some edges, it asks of them when a node is put before the end. -/
theorem each_edgesThrough {edges : List Edge} {source id : Text}
    (each : ∀ edge ∈ edges, Edge.format.Each demand edge) :
    ∀ edge ∈ edgesThrough edges source id, Edge.format.Each demand edge := by
  have bare (id source target : Text) : Edge.format.Each demand ⟨id, source, target, none, []⟩ :=
    Edge.each_iff.2 ⟨demand.extras_nil _, fun _ none => nomatch none⟩
  intro edge mem
  obtain kept | new := List.mem_append.1 mem
  · exact each edge (List.mem_of_mem_filter kept)
  obtain rfl | rfl : edge = ⟨edgeId source id 0, source, id, none, []⟩ ∨
      edge = exitEdge (edges.find? fun edge => edge.target == endId) id := by simpa using new
  · exact bare _ _ _
  · unfold exitEdge
    split
    · rename_i before isBefore
      obtain ⟨extras, data⟩ := Edge.each_iff.1 (each before (List.mem_of_find?_eq_some isBefore))
      exact Edge.each_iff.2 ⟨extras, data⟩
    · exact bare _ _ _

/-- What a demand asks of a flow, it asks of the flow with a new card. -/
theorem each_addWithId {card : NewCard} {id : Text} {next : Flow} (each : format.Each demand flow)
    (adds : flow.addWithId card id = .ok next) : format.Each demand next := by
  unfold addWithId at adds
  split at adds
  · cases adds
  · obtain ⟨extras, nodes, edges, viewport⟩ := each_iff.1 each
    obtain ⟨node, isNew, rfl⟩ := Failure.map_eq_ok_iff.1 adds
    refine each_iff.2 ⟨extras, ?_, each_edgesThrough edges, viewport⟩
    exact List.forall_mem_append.2
      ⟨each_nodesWithMarkers nodes, List.forall_mem_singleton.2 (each_newNode isNew)⟩

/-! ## Other edits -/

/-- What a demand asks of a flow, it asks of the flow without a card. -/
theorem each_delete (each : format.Each demand flow) (id : Text) :
    format.Each demand (flow.delete id) := by
  obtain ⟨extras, nodes, edges, viewport⟩ := each_iff.1 each
  unfold delete
  split
  · exact each
  · exact each_iff.2
      ⟨extras, each_map_normalized fun node mem => nodes node (List.mem_of_mem_filter mem),
        fun edge mem => edges edge (List.mem_of_mem_filter mem), viewport⟩

/-- What a demand asks of a flow, it asks of the flow with its cards in an order. -/
theorem each_reorder (each : format.Each demand flow) (ids : List Text) :
    format.Each demand (flow.reorder ids) := by
  obtain ⟨extras, nodes, _, viewport⟩ := each_iff.1 each
  exact each_iff.2 ⟨extras, each_map_normalized nodes, each_edges_chainSpecs _, viewport⟩

/-- What a demand asks of a flow, it asks of the flow laid out anew. -/
theorem each_rebuilt {next : Flow} (each : format.Each demand flow)
    (rebuilds : flow.rebuilt = .ok next) : format.Each demand next := by
  obtain ⟨_, _, edges, viewport⟩ := each_iff.1 each
  obtain ⟨fields, isLinear, rfl⟩ := Failure.map_eq_ok_iff.1 rebuilds
  refine each_build (each_linear each isLinear) (fun spec mem data isData => ?_) viewport
  obtain ⟨edge, inEdges, rfl⟩ := List.mem_map.1 mem
  exact (Edge.each_iff.1 (edges edge inEdges)).2 data isData

/-- What a demand that spares no double spelling asks of a flow, it asks of the flow that is loaded of
what was written of it. -/
theorem each_reload {next : Flow} (strong : demand.Implies .once) (each : format.Each demand flow)
    (reloads : flow.reload = .ok next) : format.Each demand next := by
  obtain ⟨_, _, _, rfl⟩ := (reload_eq_ok_iff (exact_format.mono strong each)).1 reloads
  exact exact_format.each_reread each

/-! ## Steps -/

/-- What a demand asks of the fields that a step takes over. -/
def Step.Each (demand : Demand) : Step → Prop
  | .merge fields => ∀ field ∈ fields, Field.format.Each demand field
  | _ => True

/-- What a demand asks of a flow and of a step, it asks of the flow after the step, if it asks it of
what is loaded again. -/
theorem each_changed {step : Step} {next : Flow} (each : format.Each demand flow)
    (stepEach : step.Each demand)
    (again : flow.reload = .ok next → format.Each demand next)
    (changes : flow.changed step = .ok next) : format.Each demand next := by
  cases step with
  | add card wanted randomDigits => exact each_addWithId each changes
  | delete id =>
    cases changes
    exact each_delete each id
  | reorder ids =>
    cases changes
    exact each_reorder each ids
  | merge fields =>
    cases changes
    exact each_merge each stepEach
  | mergeOwn =>
    obtain ⟨fields, isLinear, rfl⟩ := Failure.map_eq_ok_iff.1 changes
    exact each_merge each (each_linear each isLinear)
  | normalize =>
    obtain ⟨extras, nodes, edges, viewport⟩ := each_iff.1 each
    cases changes
    exact each_iff.2 ⟨extras, each_map_normalized nodes, edges, viewport⟩
  | reload => exact again changes
  | rebuild => exact each_rebuilt each changes

/-- What a demand that spares no double spelling asks of a flow and of a step, it asks of the flow
after the step. -/
theorem each_step {step : Step} {next : Flow} (strong : demand.Implies .once)
    (each : format.Each demand flow) (stepEach : step.Each demand)
    (steps : flow.step step = .ok next) : format.Each demand next := by
  obtain ⟨changed, changes, keeps⟩ := Failure.bind_eq_ok_iff.1 steps
  obtain ⟨_, _, rfl⟩ := Failure.map_eq_ok_iff.1 keeps
  exact each_changed each stepEach (each_reload strong each) changes

end Flow

end CardForm
