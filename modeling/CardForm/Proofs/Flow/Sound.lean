import CardForm.Flow.Load
import CardForm.Proofs.Flow.Defects
import CardForm.Proofs.Written.Flow

/-!
# Sound flows

`Flow.Sound` says of a flow in memory what the check asks of its JSON form. A flow that was loaded is
sound (`Flow.sound_of_load`), and the check finds no defect in a flow exactly where it is sound
(`Flow.defects_toJson_eq_nil_iff`). Both hold because a JSON value shows the parts of the flow that
it was read from or written to, and has the structure of a flow where these parts have it.
-/
namespace CardForm

/-- What is asked of a node by itself. -/
structure Node.Proper (node : Node) : Prop where
  /-- It has an identifier. -/
  id : node.id ≠ []
  /-- The field of a question has an identifier and is of a known kind. -/
  field : ∀ card, node = .question card →
    card.data.field.id ≠ [] ∧ card.data.field.kind ∈ FieldKind.known

namespace Flow

/-- The identifiers of the nodes, in stored order. -/
def ids (flow : Flow) : List Text := flow.nodes.map Node.id

/-- A flow has the structure that the check asks for. -/
structure Sound (flow : Flow) : Prop where
  /-- Each node is in order. -/
  node : ∀ node ∈ flow.nodes, node.Proper
  /-- The identifiers of the nodes are pairwise distinct. -/
  distinct : flow.ids.Nodup
  /-- There is a start. -/
  hasStart : ∃ node ∈ flow.nodes, node.kind = .start
  /-- A start bears its reserved identifier. -/
  start : ∀ node ∈ flow.nodes, node.kind = .start → node.id = startId
  /-- There is an end. -/
  hasEnd : ∃ node ∈ flow.nodes, node.kind = .finish
  /-- An end bears its reserved identifier. -/
  finish : ∀ node ∈ flow.nodes, node.kind = .finish → node.id = endId
  /-- Each edge leads from a node to a node. -/
  edge : ∀ edge ∈ flow.edges, edge.source ∈ flow.ids ∧ edge.target ∈ flow.ids
  /-- Edges, one after the other, lead from the start to the end. -/
  path : Ends.Path flow.ends startId endId

/-! ## What JSON shows of a flow -/

/-- A JSON value shows a node: its identifier, its kind, and whether it is in order. -/
structure Shows (found : Json) (node : Node) : Prop where
  /-- It shows the identifier. -/
  id : found.get? "id" = some (.str node.id)
  /-- It shows the kind. -/
  kind : HasKind node.kind found
  /-- It keeps the rules where the node is in order. -/
  rules : NodeRules found ↔ node.Proper

/-- A JSON value shows an edge: its two ends. -/
structure ShowsEdge (found : Json) (edge : Edge) : Prop where
  /-- It shows the source. -/
  source : found.get? "source" = some (.str edge.source)
  /-- It shows the target. -/
  target : found.get? "target" = some (.str edge.target)

section Related

variable {α β : Type} {related : α → β → Prop} {as : List α} {bs : List β}

/-- All entries have a property where all related ones have another. -/
theorem forall_mem_iff_of_forall₂ (left : α → Prop) (right : β → Prop)
    (all : List.Forall₂ related as bs) (same : ∀ {a b}, related a b → (left a ↔ right b)) :
    (∀ a ∈ as, left a) ↔ ∀ b ∈ bs, right b := by
  induction all with
  | nil => simp
  | cons first _ ih => rw [List.forall_mem_cons, List.forall_mem_cons, same first, ih]

/-- Some entry has a property where some related one has another. -/
theorem exists_mem_iff_of_forall₂ (left : α → Prop) (right : β → Prop)
    (all : List.Forall₂ related as bs) (same : ∀ {a b}, related a b → (left a ↔ right b)) :
    (∃ a ∈ as, left a) ↔ ∃ b ∈ bs, right b := by
  induction all with
  | nil => simp
  | cons first _ ih => rw [List.exists_mem_cons_iff, List.exists_mem_cons_iff, same first, ih]

/-- Exactly one entry has a property where exactly one related one has another. -/
theorem exactlyOne_iff_of_forall₂ (left : α → Prop) (right : β → Prop)
    (all : List.Forall₂ related as bs) (same : ∀ {a b}, related a b → (left a ↔ right b)) :
    ExactlyOne left as ↔ ExactlyOne right bs := by
  have atPlace (place : Nat) :
      (∃ a ∈ as[place]?, left a) ↔ ∃ b ∈ bs[place]?, right b := by
    induction all generalizing place with
    | nil => simp
    | cons first _ ih =>
      cases place with
      | zero => simpa using same first
      | succ place => simpa using ih place
  unfold ExactlyOne
  simp only [atPlace]

/-- What is taken of related entries is the same where it is the same of each two. -/
theorem map_eq_map_of_forall₂ {γ : Type} (left : α → γ) (right : β → γ)
    (all : List.Forall₂ related as bs) (same : ∀ {a b}, related a b → left a = right b) :
    as.map left = bs.map right := by
  induction all with
  | nil => rfl
  | cons first _ ih => rw [List.map_cons, List.map_cons, same first, ih]

end Related

variable {flow : Flow} {nodes edges : List Json}

/-- Among nodes with distinct identifiers, of which only those of a kind bear a reserved one, exactly
one is of that kind where some one is. -/
theorem exactlyOne_kind_iff {kind : NodeKind} {reserved : Text} (distinct : flow.ids.Nodup)
    (bears : ∀ node ∈ flow.nodes, node.kind = kind → node.id = reserved) :
    ExactlyOne (fun node : Node => node.kind = kind) flow.nodes ↔
      ∃ node ∈ flow.nodes, node.kind = kind := by
  constructor
  · rintro ⟨place, ⟨node, found, isKind⟩, _⟩
    exact ⟨node, List.mem_of_getElem? found, isKind⟩
  · rintro ⟨node, mem, isKind⟩
    obtain ⟨place, found⟩ := List.mem_iff_getElem?.1 mem
    refine ⟨place, ⟨node, found, isKind⟩, ?_⟩
    rintro other ⟨otherNode, otherFound, otherKind⟩
    have otherMem := List.mem_of_getElem? otherFound
    have sameId : otherNode.id = node.id :=
      (bears otherNode otherMem otherKind).trans (bears node mem isKind).symm
    have inside : place < flow.ids.length := by
      rw [ids, List.length_map]
      exact (List.getElem?_eq_some_iff.1 found).1
    refine ((List.getElem?_inj inside distinct).1 ?_).symm
    rw [ids, List.getElem?_map, List.getElem?_map, found, otherFound, Option.map_some,
      Option.map_some, sameId]

/-- A node is of a kind where the value that shows it is. -/
theorem Shows.hasKind_iff {found : Json} {node : Node} {kind : NodeKind} (shows : Shows found node) :
    HasKind kind found ↔ node.kind = kind := by
  constructor
  · exact fun isKind => Check.hasKind_unique shows.kind isKind
  · rintro rfl
    exact shows.kind

/-- A node bears an identifier where the value that shows it does. -/
theorem Shows.get?_id_iff {found : Json} {node : Node} {id : Text} (shows : Shows found node) :
    found.get? "id" = some (.str id) ↔ node.id = id := by
  rw [shows.id, Option.some.injEq, Json.str.injEq]

/-- Nodes name the identifiers of the nodes that they show. -/
theorem names_iff_mem_ids (showsNodes : List.Forall₂ Shows nodes flow.nodes)
    (proper : ∀ node ∈ flow.nodes, node.Proper) {id : Text} : Names nodes id ↔ id ∈ flow.ids := by
  rw [Names, exists_mem_iff_of_forall₂ (fun found => found.get? "id" = some (.str id))
    (fun node : Node => node.id = id) showsNodes Shows.get?_id_iff, ids, List.mem_map]
  refine and_iff_right_of_imp ?_
  rintro ⟨node, mem, rfl⟩
  exact (proper node mem).id

/-- Nodes have distinct identifiers where the nodes that they show do. -/
theorem nodup_iff_nodup_ids (showsNodes : List.Forall₂ Shows nodes flow.nodes) :
    (nodes.map (·.get? "id")).Nodup ↔ flow.ids.Nodup := by
  have sameIds : nodes.map (·.get? "id") = flow.ids.map fun id => some (.str id) := by
    rw [ids, List.map_map]
    exact map_eq_map_of_forall₂ _ _ showsNodes Shows.id
  rw [sameIds]
  exact List.nodup_map_iff fun _ _ same => Json.str.inj (Option.some.inj same)

/-- Edges keep the rules where the edges that they show are between nodes of the flow. -/
theorem edgeRules_iff_ends_mem (showsNodes : List.Forall₂ Shows nodes flow.nodes)
    (showsEdges : List.Forall₂ ShowsEdge edges flow.edges)
    (proper : ∀ node ∈ flow.nodes, node.Proper) : (∀ found ∈ edges, EdgeRules nodes found) ↔
      ∀ edge ∈ flow.edges, edge.source ∈ flow.ids ∧ edge.target ∈ flow.ids := by
  refine forall_mem_iff_of_forall₂ _ _ showsEdges fun {found edge} shows => ?_
  rw [← names_iff_mem_ids showsNodes proper, ← names_iff_mem_ids showsNodes proper]
  constructor
  · rintro ⟨⟨source, isSource, sourceNames⟩, target, isTarget, targetNames⟩
    rw [shows.source, Option.some.injEq, Json.str.injEq] at isSource
    rw [shows.target, Option.some.injEq, Json.str.injEq] at isTarget
    rw [isSource, isTarget]
    exact ⟨sourceNames, targetNames⟩
  · rintro ⟨sourceNames, targetNames⟩
    exact ⟨⟨_, shows.source, sourceNames⟩, _, shows.target, targetNames⟩

/-- Edges join the nodes that the edges which they show join. -/
theorem joins_eq_ends (showsEdges : List.Forall₂ ShowsEdge edges flow.edges) :
    Joins edges = fun a b => (a, b) ∈ flow.ends := by
  funext a b
  rw [Joins, exists_mem_iff_of_forall₂ _ (fun edge : Edge => edge.ends = (a, b)) showsEdges
    fun shows => by simp [shows.source, shows.target, Edge.ends], ends, List.mem_map]

/-- Nodes and edges have the structure of a flow where the flow that they show is sound. -/
theorem structured_iff_sound (showsNodes : List.Forall₂ Shows nodes flow.nodes)
    (showsEdges : List.Forall₂ ShowsEdge edges flow.edges) :
    Structured nodes edges ↔ flow.Sound := by
  have rules : (∀ found ∈ nodes, NodeRules found) ↔ ∀ node ∈ flow.nodes, node.Proper :=
    forall_mem_iff_of_forall₂ _ _ showsNodes Shows.rules
  have distinct := nodup_iff_nodup_ids showsNodes
  have one (kind : NodeKind) :
      ExactlyOne (HasKind kind) nodes ↔ ExactlyOne (fun node : Node => node.kind = kind) flow.nodes :=
    exactlyOne_iff_of_forall₂ _ _ showsNodes Shows.hasKind_iff
  have bears (kind : NodeKind) (reserved : Text) :
      (∀ found ∈ nodes, HasKind kind found → found.get? "id" = some (.str reserved)) ↔
        ∀ node ∈ flow.nodes, node.kind = kind → node.id = reserved :=
    forall_mem_iff_of_forall₂ _ _ showsNodes fun shows => by
      rw [shows.hasKind_iff, shows.get?_id_iff]
  have edge := edgeRules_iff_ends_mem showsNodes showsEdges
  have path : Relation.ReflTransGen (Joins edges) startId endId ↔
      Ends.Path flow.ends startId endId := by
    rw [joins_eq_ends showsEdges, Ends.Path]
  constructor
  · intro structured
    have proper := rules.1 structured.node
    have distinctIds := distinct.1 structured.distinct
    have start := (bears .start startId).1 structured.start
    have finish := (bears .finish endId).1 structured.finish
    exact ⟨proper, distinctIds,
      (exactlyOne_kind_iff distinctIds start).1 ((one .start).1 structured.oneStart), start,
      (exactlyOne_kind_iff distinctIds finish).1 ((one .finish).1 structured.oneEnd), finish,
      (edge proper).1 structured.edge, path.1 structured.path⟩
  · intro sound
    exact ⟨rules.2 sound.node, distinct.2 sound.distinct,
      (one .start).2 ((exactlyOne_kind_iff sound.distinct sound.start).2 sound.hasStart),
      (bears .start startId).2 sound.start,
      (one .finish).2 ((exactlyOne_kind_iff sound.distinct sound.finish).2 sound.hasEnd),
      (bears .finish endId).2 sound.finish, (edge sound.node).2 sound.edge, path.2 sound.path⟩

/-! ## What is written of a flow -/

/-- A field that is written keeps the rules where it has an identifier and is of a known kind. -/
theorem fieldRules_toJson_iff {field : Field} (kept : Field.format.Each .kept field) :
    FieldRules field.toJson ↔ field.id ≠ [] ∧ field.kind ∈ FieldKind.known := by
  have options : field.toJson.get? "options" =
      field.options.map fun options => .arr (options.map FieldOption.toJson) :=
    Field.describes.get?_toJson (List.mem_iff_getElem?.2 ⟨4, rfl⟩) kept
  have type : field.toJson.get? "type" = some (.str field.kind.name) := rfl
  constructor
  · rintro ⟨⟨id, isId, notEmpty⟩, ⟨kind, known, isKind⟩, _, _⟩
    cases isId
    rw [type, Option.some.injEq, Json.str.injEq] at isKind
    refine ⟨notEmpty, ?_⟩
    rwa [show field.kind = kind from congrArg FieldKind.mk isKind]
  · rintro ⟨notEmpty, known⟩
    refine ⟨⟨_, rfl, notEmpty⟩, ⟨_, known, type⟩, ⟨_, rfl⟩, fun _ _ _ value isValue => ?_⟩
    rw [options] at isValue
    obtain ⟨options, _, rfl⟩ := Option.map_eq_some_iff.1 isValue
    exact .inr ⟨_, rfl⟩

/-- What is written of a node keeps the rules where the node is in order. -/
theorem nodeRules_toJson_iff {node : Node} (kept : Node.format.Each .kept node) :
    NodeRules node.toJson ↔ node.Proper := by
  have kind : HasKind node.kind node.toJson := by cases node <;> rfl
  have fieldRules {card : Card QuestionData} (same : node = .question card) :
      FieldRules card.data.field.toJson ↔
        card.data.field.id ≠ [] ∧ card.data.field.kind ∈ FieldKind.known := by
    subst same
    exact fieldRules_toJson_iff (QuestionData.each_iff.1 (Card.each_content_iff.1 kept).2.2).2.1
  constructor
  · rintro ⟨⟨id, isId, notEmpty⟩, _, _, question, _⟩
    constructor
    · cases node <;> cases isId <;> exact notEmpty
    · rintro card rfl
      obtain ⟨data, field, isData, isField, rules⟩ := question kind
      cases isData
      cases isField
      exact (fieldRules rfl).1 rules
  · rintro ⟨notEmpty, field⟩
    constructor
    · exact ⟨node.id, by cases node <;> rfl, notEmpty⟩
    · exact ⟨_, kind⟩
    · exact ⟨node.position.toJson, by cases node <;> rfl, ⟨_, rfl⟩, ⟨_, rfl⟩⟩
    · intro isQuestion
      have sameKind := Check.hasKind_unique kind isQuestion
      cases node <;> cases sameKind
      exact ⟨_, _, rfl, rfl, (fieldRules rfl).2 (field _ rfl)⟩
    · intro isStatement
      have sameKind := Check.hasKind_unique kind isStatement
      cases node <;> cases sameKind
      exact ⟨_, rfl, ⟨_, rfl⟩, ⟨_, rfl⟩, ⟨_, rfl⟩⟩

/-- What is written of a node shows it. -/
theorem shows_toJson {node : Node} (kept : Node.format.Each .kept node) :
    Shows node.toJson node where
  id := by cases node <;> rfl
  kind := by cases node <;> rfl
  rules := nodeRules_toJson_iff kept

/-- What is written of some nodes shows them. -/
theorem forall₂_shows {nodes : List Node} (kept : ∀ node ∈ nodes, Node.format.Each .kept node) :
    List.Forall₂ Shows (nodes.map Node.toJson) nodes := by
  rw [List.forall₂_map_left_iff, List.forall₂_same]
  exact fun node mem => shows_toJson (kept node mem)

/-- What is written of some edges shows them. -/
theorem forall₂_showsEdge (edges : List Edge) :
    List.Forall₂ ShowsEdge (edges.map Edge.toJson) edges := by
  rw [List.forall₂_map_left_iff, List.forall₂_same]
  exact fun edge _ => ⟨rfl, rfl⟩

/-- The check finds no defect in what is written of a flow exactly where the flow is sound. -/
theorem defects_toJson_eq_nil_iff {flow : Flow}
    (kept : ∀ node ∈ flow.nodes, Node.format.Each .kept node) :
    defects flow.toJson = [] ↔ flow.Sound := by
  rw [defects_eq_nil_iff, ← structured_iff_sound (forall₂_shows kept) (forall₂_showsEdge flow.edges)]
  constructor
  · rintro ⟨nodes, edges, isNodes, isEdges, structured⟩
    cases isNodes
    cases isEdges
    exact structured
  · exact fun structured => ⟨_, _, rfl, rfl, structured⟩

/-- What is written of a flow is loaded exactly where the flow is sound and its parts can be read. -/
theorem load_toJson_eq_ok_iff {flow result : Flow} (once : format.Each .once flow) :
    load flow.toJson = .ok result ↔
      flow.Sound ∧ format.Valid flow ∧ result = format.reread flow := by
  have kept := exact_format.mono Demand.once_implies_kept once
  have reads : read flow.toJson = .ok result ↔
      format.Valid flow ∧ result = format.reread flow := exact_format.read_toJson once
  rw [load_eq_ok_iff, defects_toJson_eq_nil_iff (each_iff.1 kept).2.1, reads]

/-- What is written of a tidy flow is loaded where the flow is sound and its parts can be read. -/
theorem load_toJson_of_tidy {flow : Flow} (tidy : format.Each .tidy flow) (sound : flow.Sound)
    (valid : format.Valid flow) : load flow.toJson = .ok (format.reread flow) :=
  (load_toJson_eq_ok_iff (exact_format.once_of_tidy tidy)).2 ⟨sound, valid, rfl⟩

/-- A flow that can be written is checked, and has no defect where it is sound. -/
theorem ownDefects_eq_ok_nil_iff {flow : Flow}
    (kept : ∀ node ∈ flow.nodes, Node.format.Each .kept node) :
    flow.ownDefects = .ok [] ↔ Writable.isWritable flow = true ∧ flow.Sound := by
  rw [← defects_toJson_eq_nil_iff kept, ownDefects, Failure.map_eq_ok_iff]
  simp only [Writable.write_eq_ok_iff, and_assoc, exists_and_left, exists_eq_left']
  rfl

/-- A flow that can be written is loaded again where it is sound and its parts can be read. -/
theorem reload_eq_ok_iff {flow result : Flow} (once : format.Each .once flow) :
    flow.reload = .ok result ↔ Writable.isWritable flow = true ∧ flow.Sound ∧
      format.Valid flow ∧ result = format.reread flow := by
  rw [← load_toJson_eq_ok_iff once, reload, Failure.bind_eq_ok_iff]
  simp only [Writable.write_eq_ok_iff, and_assoc, exists_and_left, exists_eq_left']
  rfl

/-! ## What is read as a flow -/

/-- The card of a marker takes the identifier that its value has. -/
theorem id_of_read_marker {kind : NodeKind} {found : Json} {card : Card MarkerData} {id : Text}
    (isRead : (Card.markerShape kind).format.read found = .ok card)
    (isId : found.get? "id" = some (.str id)) : card.id = id := by
  obtain ⟨members, rfl, _, reads, _⟩ := (Card.describes_marker kind).reads_of_read isRead
  have readId := (Members.defaulted_same_of_get? isId).1 (reads _ List.mem_cons_self)
  exact (Json.str.inj (Reading.text_eq_ok_iff.1 readId)).symm

/-- The card of a question or statement takes the identifier that its value has. -/
theorem id_of_read_content {α : Type} {kind : NodeKind} {payload : Format α}
    (exact : payload.Exact) {found : Json} {card : Card α} {id : Text}
    (isRead : (Card.contentShape kind payload).format.read found = .ok card)
    (isId : found.get? "id" = some (.str id)) : card.id = id := by
  obtain ⟨members, rfl, _, reads, _⟩ := (Card.describes_content kind exact).reads_of_read isRead
  obtain ⟨value, isValue, readId⟩ := Members.required_same_eq_ok_iff.1 (reads _ List.mem_cons_self)
  cases isId.symm.trans isValue
  have isText : Reading.nonEmptyText (.str id) = .ok card.id := readId
  exact (Json.str.inj (Reading.nonEmptyText_eq_ok_iff.1 isText).1).symm

/-- A node that keeps the rules shows the node that is read from it. -/
theorem shows_of_read {found : Json} {node : Node} (isRead : Node.read found = .ok node)
    (rules : NodeRules found) : Shows found node := by
  obtain ⟨names, isCard⟩ := Node.read_eq_ok_iff.1 isRead
  obtain ⟨id, isId, notEmpty⟩ := rules.id
  have sameId : node.id = id := by
    cases node with
    | start card => exact id_of_read_marker isCard isId
    | finish card => exact id_of_read_marker isCard isId
    | question card => exact id_of_read_content QuestionData.exact_format isCard isId
    | statement card => exact id_of_read_content StatementData.exact_format isCard isId
  have proper : node.Proper := by
    refine ⟨sameId ▸ notEmpty, ?_⟩
    rintro card rfl
    have valid := Card.valid_content_iff.1 (Node.exact_format.valid_of_read isRead)
    obtain ⟨⟨_, notEmpty⟩, known, _⟩ := Field.valid_iff.1 (QuestionData.valid_iff.1 valid.2).1
    exact ⟨notEmpty, known⟩
  exact ⟨sameId ▸ isId, names, iff_of_true rules proper⟩

/-- An edge shows the edge that is read from it. -/
theorem showsEdge_of_read {found : Json} {edge : Edge} (isRead : Edge.read found = .ok edge) :
    ShowsEdge found edge := by
  obtain ⟨members, rfl, _, ofMembers⟩ := Reading.record_eq_ok_iff.1 isRead
  have named : Edge.ofNamed (Edge.withDefaultId members) = .ok edge := ofMembers
  obtain ⟨_, source, target, _⟩ := (Edge.describes.reads _ _).1 named
  have kept {name : Text} {s : Text} (other : "id" ≠ name)
      (reads : (Edge.withDefaultId members).required (.same name) .text = .ok s) :
      (Json.obj members).get? name = some (.str s) := by
    obtain ⟨value, isValue, isText⟩ := Members.required_same_eq_ok_iff.1 reads
    rw [Reading.text_eq_ok_iff.1 isText] at isValue
    unfold Edge.withDefaultId at isValue
    split at isValue
    · rwa [Members.get?_put, if_neg other] at isValue
    · exact isValue
  exact ⟨kept (by decide) source, kept (by decide) target⟩

/-- A flow that was read from a value without defects is sound. -/
theorem sound_of_read {value : Json} {flow : Flow} (noDefect : defects value = [])
    (isRead : read value = .ok flow) : flow.Sound := by
  obtain ⟨nodes, edges, isNodes, isEdges, structured⟩ := defects_eq_nil_iff.1 noDefect
  obtain ⟨members, rfl, _, ofMembers⟩ := Reading.record_eq_ok_iff.1 isRead
  obtain ⟨readNodes, readEdges, _⟩ := (describes.reads _ _).1 ofMembers
  obtain ⟨foundNodes, isFoundNodes, readNodes⟩ := Members.required_same_eq_ok_iff.1 readNodes
  obtain ⟨foundEdges, isFoundEdges, readEdges⟩ := Members.required_same_eq_ok_iff.1 readEdges
  cases isNodes.symm.trans isFoundNodes
  cases isEdges.symm.trans isFoundEdges
  have arrayNodes : Reading.array Node.read (.arr nodes) = .ok flow.nodes := readNodes
  have arrayEdges : Reading.array Edge.read (.arr edges) = .ok flow.edges := readEdges
  obtain ⟨_, sameNodes, eachNode⟩ := Reading.array_eq_ok_iff.1 arrayNodes
  obtain ⟨_, sameEdges, eachEdge⟩ := Reading.array_eq_ok_iff.1 arrayEdges
  cases sameNodes
  cases sameEdges
  have showsNodes := ((List.forall₂_and_left _ _).2 ⟨structured.node, eachNode⟩).imp
    fun _ _ both => shows_of_read both.2 both.1
  have showsEdges := eachEdge.imp fun _ _ edgeRead => showsEdge_of_read edgeRead
  exact (structured_iff_sound showsNodes showsEdges).1 structured

/-- A flow that was loaded is sound. -/
theorem sound_of_load {value : Json} {flow : Flow} (loads : load value = .ok flow) : flow.Sound := by
  obtain ⟨noDefect, isRead⟩ := load_eq_ok_iff.1 loads
  exact sound_of_read noDefect isRead

/-- A flow that was loaded can be read once it was written. -/
theorem valid_of_load {value : Json} {flow : Flow} (loads : load value = .ok flow) :
    format.Valid flow :=
  exact_format.valid_of_read (load_eq_ok_iff.1 loads).2

end Flow

end CardForm
