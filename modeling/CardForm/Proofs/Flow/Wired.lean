import CardForm.Proofs.Flow.Edit
import CardForm.Proofs.Flow.Places

/-!
# Wired flows

`Flow.Wired` asks of a flow what the check asks of the identifiers, of the start and the end, and of
the ends of the edges: all but the parts of each node and a way from the start to the end. Adding,
deleting, reordering and taking over content keep it, whatever they are given. So the check finds in
an edited flow whose nodes are in order at most that the end cannot be reached
(`Flow.exists_ownDefects`).
-/
namespace CardForm

namespace Node

variable {node : Node}

/-- Bringing the copies up to date keeps the kind. -/
@[simp] theorem kind_normalized (node : Node) : node.normalized.kind = node.kind := by
  cases node <;> rfl

/-- Newer content keeps the identifier. -/
@[simp] theorem id_merged (fields : List Field) (node : Node) :
    (node.merged fields).id = node.id := by
  unfold merged
  split
  · rfl
  · split <;> rfl
  · rfl

/-- Newer content keeps the kind. -/
@[simp] theorem kind_merged (fields : List Field) (node : Node) :
    (node.merged fields).kind = node.kind := by
  unfold merged
  split
  · rfl
  · split <;> rfl
  · rfl

/-- A question or statement is neither the start nor the end. -/
theorem isContent_iff : node.isContent = true ↔ node.kind ≠ .start ∧ node.kind ≠ .finish := by
  cases node <;> simp [isContent, kind]

end Node

namespace Flow

variable {flow next : Flow}

/-- The identifiers, the start, the end and the edges of a flow are as the check asks. -/
structure Wired (flow : Flow) : Prop where
  /-- The identifiers of the nodes are pairwise distinct. -/
  distinct : flow.ids.Nodup
  /-- There is a start. -/
  hasStart : ∃ node ∈ flow.nodes, node.kind = .start
  /-- A start bears its reserved identifier. -/
  start : ∀ node ∈ flow.nodes, node.kind = .start → node.id = startId
  /-- There is an end. -/
  hasEnd : ∃ node ∈ flow.nodes, node.kind = .finish
  /-- An end bears its reserved identifier. -/
  finish : ∀ node ∈ flow.nodes, node.kind = .finish → node.id = endId
  /-- Each edge leads from a node to a node. -/
  edge : ∀ edge ∈ flow.edges, edge.source ∈ flow.ids ∧ edge.target ∈ flow.ids

/-- A flow is sound where its nodes are in order, it is wired, and the end can be reached. -/
theorem sound_iff :
    flow.Sound ↔ (∀ node ∈ flow.nodes, node.Proper) ∧ flow.Wired ∧
      Ends.Path flow.ends startId endId := by
  constructor
  · intro sound
    exact ⟨sound.node, ⟨sound.distinct, sound.hasStart, sound.start, sound.hasEnd, sound.finish,
      sound.edge⟩, sound.path⟩
  · rintro ⟨node, wired, path⟩
    exact ⟨node, wired.distinct, wired.hasStart, wired.start, wired.hasEnd, wired.finish, wired.edge,
      path⟩

/-- A sound flow is wired. -/
theorem Sound.wired (sound : flow.Sound) : flow.Wired := (sound_iff.1 sound).2.1

/-- Edges join nodes where their ends are nodes. -/
theorem edges_join_iff {edges : List Edge} {ids : List Text} :
    (∀ edge ∈ edges, edge.source ∈ ids ∧ edge.target ∈ ids) ↔
      ∀ e ∈ edges.map Edge.ends, e.1 ∈ ids ∧ e.2 ∈ ids := by
  rw [List.forall_mem_map]
  rfl

/-- A flow has an identifier where it is one of its identifiers. -/
theorem has_iff {id : Text} : flow.has id = true ↔ id ∈ flow.ids := by
  simp [has, ids]

/-- A flow in another order has the same nodes. -/
theorem ids_reorder (flow : Flow) (order : List Text) : (flow.reorder order).ids = flow.ids := by
  rw [ids, ids, reorder, List.map_map]
  exact List.map_congr_left fun node _ => node.id_normalized

/-- The edges of a flow in another order join each of the nodes that this names with the next. -/
theorem ends_reorder (flow : Flow) (order : List Text) :
    (flow.reorder order).ends = (order.filter flow.has).zip (order.filter flow.has).tail :=
  (ends_ofSpecs _).trans (ends_chainSpecs _)

/-- The edges of a flow in another order join nodes, whatever identifiers the order names. -/
theorem mem_ids_of_mem_ends_reorder {order : List Text} {pair : Text × Text}
    (mem : pair ∈ (flow.reorder order).ends) :
    pair.1 ∈ (flow.reorder order).ids ∧ pair.2 ∈ (flow.reorder order).ids := by
  have known : ∀ id ∈ order.filter flow.has, id ∈ flow.ids := fun id inOrder =>
    has_iff.1 (List.mem_filter.1 inOrder).2
  rw [ends_reorder] at mem
  have joined := List.of_mem_zip mem
  rw [ids_reorder]
  exact ⟨known pair.1 joined.1, known pair.2 (List.mem_of_mem_tail joined.2)⟩

namespace Wired

/-- The reserved identifier of the start is one of the identifiers. -/
theorem startId_mem_ids (wired : flow.Wired) : startId ∈ flow.ids := by
  obtain ⟨node, mem, isStart⟩ := wired.hasStart
  rw [← wired.start node mem isStart]
  exact List.mem_map_of_mem mem

/-- The reserved identifier of the end is one of the identifiers. -/
theorem endId_mem_ids (wired : flow.Wired) : endId ∈ flow.ids := by
  obtain ⟨node, mem, isEnd⟩ := wired.hasEnd
  rw [← wired.finish node mem isEnd]
  exact List.mem_map_of_mem mem

/-- Two nodes of distinct kinds bear distinct identifiers. -/
theorem id_ne_of_kind_ne (wired : flow.Wired) {node other : Node} (mem : node ∈ flow.nodes)
    (otherMem : other ∈ flow.nodes) (differs : node.kind ≠ other.kind) : node.id ≠ other.id :=
  fun same => differs (congrArg Node.kind (List.inj_on_of_nodup_map wired.distinct mem otherMem same))

/-- No question or statement bears a reserved identifier. -/
theorem id_ne_of_isContent (wired : flow.Wired) {node : Node} (mem : node ∈ flow.nodes)
    (isContent : node.isContent = true) : node.id ≠ startId ∧ node.id ≠ endId := by
  obtain ⟨notStart, notEnd⟩ := Node.isContent_iff.1 isContent
  obtain ⟨start, startMem, isStart⟩ := wired.hasStart
  obtain ⟨finish, finishMem, isEnd⟩ := wired.hasEnd
  rw [← wired.start start startMem isStart, ← wired.finish finish finishMem isEnd]
  exact ⟨wired.id_ne_of_kind_ne mem startMem (isStart ▸ notStart),
    wired.id_ne_of_kind_ne mem finishMem (isEnd ▸ notEnd)⟩

/-- The identifiers of the questions and statements are pairwise distinct. -/
theorem nodup_content (wired : flow.Wired) : (flow.content.map Node.id).Nodup :=
  wired.distinct.sublist (List.filter_sublist.map Node.id)

/-! ## Edits -/

/-- A flow stays wired where each node is replaced by one of its kind and identifier, and the edges
join the old nodes. -/
theorem map {replace : Node → Node} (wired : flow.Wired)
    (nodes : next.nodes = flow.nodes.map replace)
    (kind : ∀ node, (replace node).kind = node.kind) (id : ∀ node, (replace node).id = node.id)
    (edge : ∀ edge ∈ next.edges, edge.source ∈ flow.ids ∧ edge.target ∈ flow.ids) : next.Wired := by
  have sameIds : next.ids = flow.ids := by
    rw [ids, nodes, List.map_map]
    exact List.map_congr_left fun node _ => id node
  have bears {of : NodeKind} {reserved : Text}
      (before : ∀ node ∈ flow.nodes, node.kind = of → node.id = reserved) :
      ∀ node ∈ next.nodes, node.kind = of → node.id = reserved := by
    rw [nodes, List.forall_mem_map]
    intro node mem
    rw [kind, id]
    exact before node mem
  have has {of : NodeKind} (before : ∃ node ∈ flow.nodes, node.kind = of) :
      ∃ node ∈ next.nodes, node.kind = of := by
    obtain ⟨node, mem, isKind⟩ := before
    rw [nodes]
    exact ⟨_, List.mem_map_of_mem mem, (kind node).trans isKind⟩
  exact ⟨sameIds ▸ wired.distinct, has wired.hasStart, bears wired.start, has wired.hasEnd,
    bears wired.finish, sameIds ▸ edge⟩

/-- A wired flow stays wired when its copies are brought up to date. -/
theorem normalized (wired : flow.Wired) : flow.normalized.Wired :=
  wired.map rfl Node.kind_normalized Node.id_normalized wired.edge

/-- A wired flow stays wired with newer content. -/
theorem merge (wired : flow.Wired) (fields : List Field) : (flow.merge fields).Wired :=
  wired.map rfl (Node.kind_merged fields) (Node.id_merged fields) wired.edge

/-- A wired flow stays wired with its cards in another order, whatever identifiers that names. -/
theorem reorder (wired : flow.Wired) (order : List Text) : (flow.reorder order).Wired := by
  have edges : ∀ edge ∈ (flow.reorder order).edges,
      edge.source ∈ flow.ids ∧ edge.target ∈ flow.ids := by
    rw [edges_join_iff, ← ids_reorder flow order]
    exact fun pair mem => mem_ids_of_mem_ends_reorder mem
  exact wired.map rfl Node.kind_normalized Node.id_normalized edges

/-- A wired flow stays wired without the node of an identifier that is not reserved and the edges at
it. -/
theorem without (wired : flow.Wired) {id : Text} (notStart : id ≠ startId) (notEnd : id ≠ endId) :
    Wired { flow with
      nodes := flow.nodes.filter fun node => node.id != id
      edges := flow.edges.filter fun edge => edge.source != id && edge.target != id } := by
  have keeps {node : Node} (mem : node ∈ flow.nodes) (other : node.id ≠ id) :
      node ∈ flow.nodes.filter fun node => node.id != id :=
    List.mem_filter.2 ⟨mem, bne_iff_ne.2 other⟩
  have keepsId {other : Text} (mem : other ∈ flow.ids) (differs : other ≠ id) :
      other ∈ (flow.nodes.filter fun node => node.id != id).map Node.id := by
    obtain ⟨node, inNodes, rfl⟩ := List.mem_map.1 mem
    exact List.mem_map_of_mem (keeps inNodes differs)
  constructor
  · exact wired.distinct.sublist (List.filter_sublist.map Node.id)
  · obtain ⟨start, mem, isStart⟩ := wired.hasStart
    have reserved : start.id = startId := wired.start start mem isStart
    exact ⟨start, keeps mem (reserved ▸ notStart.symm), isStart⟩
  · exact fun node mem => wired.start node (List.mem_of_mem_filter mem)
  · obtain ⟨finish, mem, isEnd⟩ := wired.hasEnd
    have reserved : finish.id = endId := wired.finish finish mem isEnd
    exact ⟨finish, keeps mem (reserved ▸ notEnd.symm), isEnd⟩
  · exact fun node mem => wired.finish node (List.mem_of_mem_filter mem)
  · intro edge mem
    obtain ⟨inEdges, others⟩ := List.mem_filter.1 mem
    rw [Bool.and_eq_true, bne_iff_ne, bne_iff_ne] at others
    obtain ⟨source, target⟩ := wired.edge edge inEdges
    exact ⟨keepsId source others.1, keepsId target others.2⟩

/-- A wired flow stays wired without a card. -/
theorem delete (wired : flow.Wired) (id : Text) : (flow.delete id).Wired := by
  unfold Flow.delete
  by_cases reserved : id = startId ∨ id = endId
  · rw [if_pos reserved]
    exact wired
  · rw [if_neg reserved]
    obtain ⟨notStart, notEnd⟩ := not_or.1 reserved
    have rest := wired.without notStart notEnd
    exact rest.map rfl Node.kind_normalized Node.id_normalized rest.edge

end Wired

/-! ## Adding -/

/-- The identifier of the last question or statement in stored order, that of the start where there is
none. A new card is joined to that node. -/
def lastCardId (flow : Flow) : Text := (flow.content.getLast?.map Node.id).getD startId

/-- The last card of a wired flow is one of its nodes, and not the end. -/
theorem Wired.lastCardId_mem (wired : flow.Wired) :
    flow.lastCardId ∈ flow.ids ∧ flow.lastCardId ≠ endId := by
  unfold lastCardId
  cases isLast : flow.content.getLast? with
  | none => exact ⟨wired.startId_mem_ids, by decide⟩
  | some node =>
    obtain ⟨mem, isContent⟩ := List.mem_filter.1 (List.mem_of_getLast? isLast)
    exact ⟨List.mem_map_of_mem mem, (wired.id_ne_of_isContent mem isContent).2⟩

/-- Putting a node before the end keeps the edges that do not enter the end, and adds one to the node
and one from it. -/
theorem ends_edgesThrough (edges : List Edge) (source id : Text) :
    (edgesThrough edges source id).map Edge.ends =
      (edges.map Edge.ends).filter (fun e => e.2 != endId) ++ [(source, id), (id, endId)] := by
  have exit : (exitEdge (edges.find? fun edge => edge.target == endId) id).ends = (id, endId) := by
    unfold exitEdge
    split
    · rename_i edge isBefore
      have entersEnd : edge.target = endId := by simpa using List.find?_some isBefore
      rw [← entersEnd]
      rfl
    · rfl
  rw [edgesThrough, List.map_append, List.map_cons, List.map_singleton, exit, List.filter_map]
  rfl

/-- A wired flow lacks neither the start nor the end. -/
theorem Wired.nodesWithMarkers_eq (wired : flow.Wired) :
    flow.nodesWithMarkers = flow.nodes.map Node.normalized := by
  rw [nodesWithMarkers, if_pos (has_iff.2 wired.startId_mem_ids),
    if_pos (has_iff.2 wired.endId_mem_ids), List.append_nil, List.append_nil]

/-- What adding a card makes of a wired flow: the new card stands behind the others, and is joined to
the last of them and to the end. -/
theorem Wired.exists_of_addWithId (wired : flow.Wired) {card : NewCard} {id : Text}
    (adds : flow.addWithId card id = .ok next) :
    id ∉ flow.ids ∧ ∃ y node, flow.newNode card id y = .ok node ∧
      next = { flow with
        nodes := flow.nodes.map Node.normalized ++ [node]
        edges := edgesThrough flow.edges flow.lastCardId id } := by
  unfold addWithId at adds
  split at adds
  · cases adds
  · rename_i isFree
    obtain ⟨node, isNew, rfl⟩ := Failure.map_eq_ok_iff.1 adds
    rw [wired.nodesWithMarkers_eq]
    exact ⟨fun mem => isFree (has_iff.2 mem), _, node, isNew, rfl⟩

/-- A new card bears its identifier, and is neither the start nor the end. -/
theorem id_and_isContent_of_newNode {card : NewCard} {id : Text} {y : Number} {node : Node}
    (isNew : flow.newNode card id y = .ok node) : node.id = id ∧ node.isContent = true := by
  obtain ⟨_, rfl | ⟨key, rfl⟩⟩ := newNode_cases isNew
  · exact ⟨rfl, rfl⟩
  · exact ⟨rfl, rfl⟩

/-- The edges of a wired flow through a new card join nodes of the flow and that card. -/
theorem Wired.edgesThrough_join (wired : flow.Wired) (id : Text) :
    ∀ edge ∈ edgesThrough flow.edges flow.lastCardId id,
      edge.source ∈ flow.ids ++ [id] ∧ edge.target ∈ flow.ids ++ [id] := by
  rw [edges_join_iff, ends_edgesThrough]
  have oldEdge := edges_join_iff.1 wired.edge
  have new : id ∈ flow.ids ++ [id] := List.mem_append_right _ List.mem_cons_self
  intro e mem
  rcases List.mem_append.1 mem with old | added
  · obtain ⟨source, target⟩ := oldEdge e (List.mem_of_mem_filter old)
    exact ⟨List.mem_append_left _ source, List.mem_append_left _ target⟩
  · obtain rfl | rfl : e = (flow.lastCardId, id) ∨ e = (id, endId) := by simpa using added
    · exact ⟨List.mem_append_left _ wired.lastCardId_mem.1, new⟩
    · exact ⟨new, List.mem_append_left _ wired.endId_mem_ids⟩

/-- A wired flow stays wired with a new card. -/
theorem Wired.addWithId (wired : flow.Wired) {card : NewCard} {id : Text}
    (adds : flow.addWithId card id = .ok next) : next.Wired := by
  obtain ⟨isFree, y, node, isNew, rfl⟩ := wired.exists_of_addWithId adds
  obtain ⟨sameId, isContent⟩ := id_and_isContent_of_newNode isNew
  obtain ⟨notStart, notEnd⟩ := Node.isContent_iff.1 isContent
  let before : Flow := flow.normalized
  have beforeWired : before.Wired := wired.normalized
  have oldIds : before.ids = flow.ids := by
    change (flow.nodes.map Node.normalized).map Node.id = flow.nodes.map Node.id
    rw [List.map_map]
    exact List.map_congr_left fun node _ => Node.id_normalized node
  have newIds : (before.nodes ++ [node]).map Node.id = flow.ids ++ [id] := by
    rw [List.map_append, List.map_singleton, sameId, ← oldIds]
    rfl
  constructor
  · change ((before.nodes ++ [node]).map Node.id).Nodup
    rw [newIds, ← List.concat_eq_append]
    exact wired.distinct.concat isFree
  · obtain ⟨start, mem, isStart⟩ := beforeWired.hasStart
    exact ⟨start, List.mem_append_left _ mem, isStart⟩
  · refine List.forall_mem_append.2 ⟨beforeWired.start, List.forall_mem_singleton.2 ?_⟩
    exact fun isStart => absurd isStart notStart
  · obtain ⟨finish, mem, isEnd⟩ := beforeWired.hasEnd
    exact ⟨finish, List.mem_append_left _ mem, isEnd⟩
  · refine List.forall_mem_append.2 ⟨beforeWired.finish, List.forall_mem_singleton.2 ?_⟩
    exact fun isEnd => absurd isEnd notEnd
  · change ∀ edge ∈ edgesThrough flow.edges flow.lastCardId id,
      edge.source ∈ (before.nodes ++ [node]).map Node.id ∧
        edge.target ∈ (before.nodes ++ [node]).map Node.id
    rw [newIds]
    exact wired.edgesThrough_join id

/-! ## What the check finds -/

/-- The nodes of a wired flow that can be read once they were written are in order. -/
theorem Wired.proper_of_valid (wired : flow.Wired) (valid : format.Valid flow) :
    ∀ node ∈ flow.nodes, node.Proper := by
  intro node mem
  have nodeValid : Node.format.Valid node := valid_iff.1 valid node mem
  cases node with
  | start card =>
    have reserved : (Node.start card).id = startId := wired.start _ mem rfl
    refine ⟨?_, fun _ isQuestion => nomatch isQuestion⟩
    rw [reserved]
    exact List.cons_ne_nil _ _
  | finish card =>
    have reserved : (Node.finish card).id = endId := wired.finish _ mem rfl
    refine ⟨?_, fun _ isQuestion => nomatch isQuestion⟩
    rw [reserved]
    exact List.cons_ne_nil _ _
  | question card =>
    obtain ⟨⟨_, notEmpty⟩, dataValid⟩ := Card.valid_content_iff.1 nodeValid
    obtain ⟨⟨_, fieldNotEmpty⟩, known, _⟩ :=
      Field.valid_iff.1 (QuestionData.valid_iff.1 dataValid).1
    refine ⟨notEmpty, ?_⟩
    rintro other same
    cases same
    exact ⟨fieldNotEmpty, known⟩
  | statement card =>
    obtain ⟨⟨_, notEmpty⟩, _⟩ := Card.valid_content_iff.1 nodeValid
    exact ⟨notEmpty, fun _ isQuestion => nomatch isQuestion⟩

/-- The flow with one more edge, from the start to the end. -/
def bridged (flow : Flow) : Flow :=
  { flow with edges := ⟨[], startId, endId, none, []⟩ :: flow.edges }

/-- With such an edge a flow is sound where it is wired and its nodes are in order. -/
theorem sound_bridged_iff :
    flow.bridged.Sound ↔ flow.Wired ∧ ∀ node ∈ flow.nodes, node.Proper := by
  have sameNodes : flow.nodes = flow.nodes.map fun node => node := (List.map_id _).symm
  constructor
  · intro sound
    have wired : flow.bridged.Wired := sound.wired
    have edges := (List.forall_mem_cons.1 wired.edge).2
    exact ⟨wired.map sameNodes (fun _ => rfl) (fun _ => rfl) edges, sound.node⟩
  · rintro ⟨wired, proper⟩
    have edges : ∀ edge ∈ flow.bridged.edges, edge.source ∈ flow.ids ∧ edge.target ∈ flow.ids :=
      List.forall_mem_cons.2 ⟨⟨wired.startId_mem_ids, wired.endId_mem_ids⟩, wired.edge⟩
    exact sound_iff.2 ⟨proper, wired.map sameNodes (fun _ => rfl) (fun _ => rfl) edges,
      (Ends.Path.refl startId).snoc List.mem_cons_self⟩

open Check in
/-- The check finds in a wired flow whose nodes are in order at most that the end cannot be reached. -/
theorem Wired.defects_toJson (wired : flow.Wired) (proper : ∀ node ∈ flow.nodes, node.Proper)
    (kept : ∀ node ∈ flow.nodes, Node.format.Each .kept node) :
    defects flow.toJson = [] ∨ defects flow.toJson = [.disconnected] := by
  -- With an edge from the start to the end the flow is sound, so the check finds nothing in the nodes
  -- and in the edges.
  have checked : defects flow.bridged.toJson = [] ↔ flow.bridged.Sound :=
    defects_toJson_eq_nil_iff kept
  have noDefect : structureDefects (flow.nodes.map Node.toJson)
      (flow.bridged.edges.map Edge.toJson) = [] := checked.2 (sound_bridged_iff.2 ⟨wired, proper⟩)
  simp only [structureDefects, List.append_eq_nil_iff] at noDefect
  obtain ⟨⟨⟨nodes, markers⟩, edges⟩, _⟩ := noDefect
  have others : edgesDefects ((flow.nodes.map Node.toJson).filterMap nodeId?) 0
      (flow.edges.map Edge.toJson) = [] := by
    rw [edgesDefects_eq_nil_iff] at edges ⊢
    exact fun edge mem => edges edge (List.mem_cons_of_mem _ mem)
  have onlyPath : defects flow.toJson =
      expect (connects (flow.edges.map Edge.toJson)) .disconnected := by
    change structureDefects (flow.nodes.map Node.toJson) (flow.edges.map Edge.toJson) = _
    rw [structureDefects, nodes, markers, others]
    rfl
  rw [onlyPath]
  cases connects (flow.edges.map Edge.toJson)
  · exact .inr rfl
  · exact .inl rfl

/-- The check finds in a flow at most that the end cannot be reached exactly where the flow is wired and its
nodes are in order. -/
theorem onlyDisconnected_iff (kept : ∀ node ∈ flow.nodes, Node.format.Each .kept node) :
    (∀ defect ∈ defects flow.toJson, defect = .disconnected) ↔
      flow.Wired ∧ ∀ node ∈ flow.nodes, node.Proper := by
  constructor
  · intro only
    have structured : Structured (flow.nodes.map Node.toJson)
        (flow.bridged.edges.map Edge.toJson) := Check.structured_of_onlyDisconnected only rfl rfl
    have showsNodes : List.Forall₂ Shows (flow.nodes.map Node.toJson) flow.bridged.nodes :=
      forall₂_shows kept
    exact sound_bridged_iff.1
      ((structured_iff_sound showsNodes (forall₂_showsEdge flow.bridged.edges)).1 structured)
  · rintro ⟨wired, proper⟩ defect mem
    rcases wired.defects_toJson proper kept with nothing | found
    · rw [nothing] at mem
      cases mem
    · rw [found] at mem
      exact List.mem_singleton.1 mem

/-- What the check of a wired flow finds whose nodes are in order: at most that the end cannot be
reached. The check fails exactly as writing the flow does. -/
theorem Wired.exists_ownDefects (wired : flow.Wired) (proper : ∀ node ∈ flow.nodes, node.Proper)
    (kept : format.Each .kept flow) :
    ∃ found ∈ [[], [Defect.disconnected]],
      (found = [] ↔ Ends.Path flow.ends startId endId) ∧
      flow.ownDefects = (Writable.write flow).map fun _ => found := by
  have nodesKept := (each_iff.1 kept).2.1
  refine ⟨defects flow.toJson, ?_, ?_, ?_⟩
  · simpa using wired.defects_toJson proper nodesKept
  · rw [defects_toJson_eq_nil_iff nodesKept, sound_iff]
    exact ⟨fun sound => sound.2.2, fun path => ⟨proper, wired, path⟩⟩
  · rw [ownDefects, Writable.write]
    split
    · rfl
    · rfl

end Flow

end CardForm
