import CardForm.Proofs.Flow.Adding
import CardForm.Proofs.Flow.Dependence
import CardForm.Proofs.Flow.EdgeIds
import CardForm.Proofs.Flow.Readable
import CardForm.Proofs.Flow.Session

/-!
# Flows in another order

A flow in which the check finds at most that the end cannot be reached is wired, so an order that names the
start, some cards and the end makes a sound flow of it, whatever its edges were: `Flow.Follows` says what
that flow is, and `Flow.follows_reorder` that it is so. It shows the cards that were named, in the order in
which they were. It stands for their fields unless one of them is a statement that has no name for its
own (`Flow.exists_reordered_unlisted`).
-/
namespace CardForm

/-- A node is a statement without a name where it was one before its copies were brought up to date. -/
@[simp] theorem Node.unnamed_normalized (node : Node) : node.normalized.Unnamed ↔ node.Unnamed := by
  cases node <;> rfl

namespace Flow

variable {flow : Flow} {order : List Text} {node : Node} {id : Text}

/-! ## What is shown in another order -/

/-- Of the identifiers in an order from the start to the end, a wired flow has these two and some of those
between them. -/
theorem Wired.filter_has (wired : flow.Wired) (order : List Text) :
    (startId :: (order ++ [endId])).filter flow.has = startId :: (order.filter flow.has ++ [endId]) := by
  rw [List.filter_cons_of_pos (has_iff.2 wired.startId_mem_ids), List.filter_append,
    List.filter_cons_of_pos (has_iff.2 wired.endId_mem_ids), List.filter_nil]

/-- Distinct identifiers between the start and the end make a chain without repetitions. -/
theorem nodup_between (distinct : order.Nodup) (notStart : startId ∉ order) (notEnd : endId ∉ order)
    (known : Text → Bool) : (startId :: (order.filter known ++ [endId])).Nodup := by
  have kept {id : Text} (mem : id ∈ order.filter known) : id ∈ order := (List.mem_filter.1 mem).1
  rw [List.nodup_cons, List.nodup_append_comm, List.mem_append, not_or]
  exact ⟨⟨fun mem => notStart (kept mem), by decide⟩,
    List.nodup_cons.2 ⟨fun mem => notEnd (kept mem), distinct.filter known⟩⟩

/-- The edges of a chain through distinct identifiers are numbered without a count. -/
theorem ofSpecs_chainSpecs {ids : List Text} (distinct : ids.Nodup) :
    Edge.ofSpecs (chainSpecs ids) = (ids.zip ids.tail).map fun pair =>
      ⟨edgeId pair.1 pair.2 0, pair.1, pair.2, none, []⟩ := by
  have shorter : ids.tail.length ≤ ids.length := by
    rw [List.length_tail]
    omega
  have targets : ((ids.zip ids.tail).map Prod.snd).Nodup := by
    rw [List.map_snd_zip shorter]
    exact distinct.tail
  have pairs : (ids.zip ids.tail).Nodup := targets.of_map Prod.snd
  rw [Edge.ofSpecs, ends_chainSpecs, Ends.edgeIds_of_nodup pairs, chainSpecs, List.zip_map',
    List.map_map]
  rfl

/-- A flow in another order shows the cards that this names, each with its copies up to date. -/
theorem shownNodes_reorder (wired : flow.Wired) (distinct : order.Nodup) (notStart : startId ∉ order)
    (notEnd : endId ∉ order) :
    (flow.reorder (startId :: (order ++ [endId]))).shownNodes =
      (order.filterMap flow.lastNode?).map Node.normalized := by
  have last (id : Text) : (flow.reorder (startId :: (order ++ [endId]))).lastNode? id =
      (flow.lastNode? id).map Node.normalized :=
    lastNode?_of_map rfl Node.id_normalized id
  have known : (order.filter flow.has).filterMap flow.lastNode? = order.filterMap flow.lastNode? := by
    rw [List.filterMap_filter]
    refine List.filterMap_congr fun id _ => ?_
    split
    · rfl
    · rename_i unknown
      refine (Option.eq_none_iff_forall_ne_some.2 fun node isLast => unknown ?_).symm
      rw [has_iff, ← id_of_lastNode? isLast]
      exact List.mem_map_of_mem (mem_of_lastNode? isLast)
  rw [shownNodes, ends_reorder, wired.filter_has, List.tail_cons,
    Ends.discovery_chain _ (nodup_between distinct notStart notEnd flow.has), ← known,
    List.map_filterMap]
  exact List.filterMap_congr fun id _ => last id

/-- Among nodes with distinct identifiers those are found of which an order names the identifier. -/
theorem mem_filterMap_lastNode?_iff (distinct : flow.ids.Nodup) :
    node ∈ order.filterMap flow.lastNode? ↔ node ∈ flow.nodes ∧ node.id ∈ order := by
  rw [List.mem_filterMap]
  constructor
  · rintro ⟨id, inOrder, isLast⟩
    exact ⟨mem_of_lastNode? isLast, id_of_lastNode? isLast ▸ inOrder⟩
  · rintro ⟨inNodes, inOrder⟩
    exact ⟨node.id, inOrder, lastNode?_of_mem distinct inNodes⟩

/-- A flow in another order stands for fields unless a card that this names is a statement without a
name. -/
theorem exists_linear_reorder_iff (wired : flow.Wired) (distinct : order.Nodup)
    (notStart : startId ∉ order) (notEnd : endId ∉ order) :
    (∃ fields, (flow.reorder (startId :: (order ++ [endId]))).linear = .ok fields) ↔
      ∀ node ∈ flow.nodes, node.id ∈ order → ¬node.Unnamed := by
  rw [exists_linear_iff, ShowsUnnamed, shownNodes_reorder wired distinct notStart notEnd]
  simp only [List.mem_map, exists_exists_and_eq_and, Node.unnamed_normalized,
    mem_filterMap_lastNode?_iff wired.distinct, not_exists, not_and, and_imp]

/-- A flow that can be written can be written in another order. -/
theorem isWritable_reorder (writable : Writable.isWritable flow = true) (order : List Text) :
    Writable.isWritable (flow.reorder order) = true := by
  obtain ⟨nodes, _, viewport, extras⟩ := isWritable_iff.1 writable
  have newNodes : ∀ node ∈ flow.nodes.map Node.normalized,
      node.obstacle Json.writableNesting = none := by
    refine List.forall_mem_map.2 fun node mem => ?_
    rw [Node.obstacle_normalized]
    exact nodes node mem
  exact isWritable_iff.2 ⟨newNodes, fun _ mem => obstacle_of_mem_chainSpecs mem _, viewport, extras⟩

/-! ## What the flow is -/

/-- A flow leads through the cards of another one that an order names. -/
structure Follows (next flow : Flow) (order : List Text) : Prop where
  /-- The check finds no defect in it. -/
  noDefect : next.ownDefects = .ok []
  /-- Its edges lead from the start to the first card that is named and known, from each of these to the
  next and from the last one to the end, and carry nothing. -/
  edges : next.edges =
    ((startId :: (order.filter flow.has ++ [endId])).zip (order.filter flow.has ++ [endId])).map
      fun pair => ⟨edgeId pair.1 pair.2 0, pair.1, pair.2, none, []⟩
  /-- It has the same nodes, with their copies up to date. -/
  nodes : next.nodes = flow.nodes.map Node.normalized
  /-- They stand where they stood. -/
  positions : next.nodes.map Node.position = flow.nodes.map Node.position
  /-- The editor shows the same part of the board. -/
  viewport : next.viewport = flow.viewport
  /-- The unknown members are the same. -/
  extras : next.extras = flow.extras
  /-- It stands for fields unless a card that is named is a statement without a name. -/
  stands : (∃ fields, next.linear = .ok fields) ↔
    ∀ node ∈ flow.nodes, node.id ∈ order → ¬node.Unnamed
  /-- These are one field of each card that is named and listed, in the order in which they are named. -/
  listed : ∀ fields, next.linear = .ok fields →
    List.Forall₂ (fun node field => node.field? = .ok (some field))
      (((order.filterMap flow.lastNode?).map Node.normalized).filter Node.isListed) fields

/-- A flow in which the check finds at most that the end cannot be reached leads, in an order that names
the start, distinct other identifiers and the end, through those of its cards that this names. -/
theorem follows_reorder {found : List Defect} (kept : format.Each .kept flow)
    (checked : flow.ownDefects = .ok found) (only : ∀ defect ∈ found, defect = .disconnected)
    (distinct : order.Nodup) (notStart : startId ∉ order) (notEnd : endId ∉ order) :
    (flow.reorder (startId :: (order ++ [endId]))).Follows flow order := by
  have nodesKept := (each_iff.1 kept).2.1
  obtain ⟨written, writes, rfl⟩ := Failure.map_eq_ok_iff.1 checked
  obtain ⟨writable, rfl⟩ := Writable.write_eq_ok_iff.1 writes
  obtain ⟨wired, proper⟩ := (onlyDisconnected_iff nodesKept).1 only
  have chain := nodup_between distinct notStart notEnd flow.has
  have ends : (flow.reorder (startId :: (order ++ [endId]))).ends =
      (startId :: (order.filter flow.has ++ [endId])).zip (order.filter flow.has ++ [endId]) := by
    rw [ends_reorder, wired.filter_has, List.tail_cons]
  have sound : (flow.reorder (startId :: (order ++ [endId]))).Sound := by
    refine sound_iff.2 ⟨?_, wired.reorder _, ?_⟩
    · exact List.forall_mem_map.2 fun node mem => (proper node mem).normalized
    · rw [ends]
      exact path_chain (List.mem_cons_of_mem _ List.mem_concat_self)
  exact
    { noDefect := (ownDefects_eq_ok_nil_iff (each_iff.1 (each_reorder kept _)).2.1).2
        ⟨isWritable_reorder writable _, sound⟩
      edges := by
        rw [reorder, wired.filter_has, ofSpecs_chainSpecs chain, List.tail_cons]
      nodes := rfl
      positions := by
        rw [reorder, List.map_map]
        exact List.map_congr_left fun node _ => by cases node <;> rfl
      viewport := rfl
      extras := rfl
      stands := exists_linear_reorder_iff wired distinct notStart notEnd
      listed := fun fields isLinear => by
        rw [← shownNodes_reorder wired distinct notStart notEnd]
        exact Node.forall₂_fields isLinear }

/-- The cards of a chain without its edges. -/
def scattered : Flow := (chain [.bare "a", .bare "b"] none).reorder []

/-- Cards that nothing joins are put into an order, in which one more identifier is named. -/
theorem follows_reorder_scattered :
    scattered.ownDefects = .ok [.disconnected] ∧
      (scattered.reorder ["start", "b", "ghost", "a", "end"]).Follows scattered
        ["b", "ghost", "a"] ∧
      (scattered.reorder ["start", "b", "ghost", "a", "end"]).linear =
        .ok [.bare "b", .bare "a"] := by
  have kept : format.Each .kept scattered := each_reorder (each_chain_bare ["a", "b"]) []
  have before := sound_chain (Field.valid_bare ["a", "b"] (by decide)) none
  have proper : ∀ node ∈ scattered.nodes, node.Proper :=
    List.forall_mem_map.2 fun node mem => (before.node node mem).normalized
  obtain ⟨found, isFound, nothing, checked⟩ :=
    (before.wired.reorder []).exists_ownDefects proper kept
  have isDisconnected : found = [.disconnected] := by
    have something : found ≠ [] := by
      intro none
      rcases (nothing.1 none).cases_head with same | ⟨_, edge, _⟩
      · exact absurd same (by decide)
      · cases edge
    simpa [something] using isFound
  rw [isDisconnected,
    Writable.write_of_isWritable (isWritable_reorder (by decide +kernel) [])] at checked
  let order : List Text := ["b", "ghost", "a"]
  have follows : (scattered.reorder (startId :: (order ++ [endId]))).Follows scattered order :=
    follows_reorder kept checked (List.forall_mem_singleton.2 rfl) (by decide) (by decide) (by decide)
  have shown : (scattered.reorder (startId :: (order ++ [endId]))).shownNodes =
      (order.filterMap scattered.lastNode?).map Node.normalized :=
    shownNodes_reorder (before.wired.reorder []) (by decide) (by decide) (by decide)
  exact ⟨checked, follows, (congrArg Node.fields shown).trans rfl⟩

/-- A flow without defects has a statement whose identifier for its field is not empty, but is no text that
can be sent: in an order that names this statement the flow stands for no fields. -/
theorem exists_reordered_unlisted :
    ∃ value flow, load value = .ok flow ∧ flow.ownDefects = .ok [] ∧
      (∀ card, Node.statement card ∈ flow.nodes → card.data.fieldId ≠ []) ∧
      ¬∃ fields, (flow.reorder ["start", "s", "end"]).linear = .ok fields := by
  let lone : Text := [⟨0xD800, by decide⟩]
  have noName : ¬Format.name.Valid lone := fun name => absurd name.1 (by decide)
  have loads := load_stated lone
  have steady := steady_of_load loads
  have checked : (stated lone).ownDefects = .ok [] :=
    (ownDefects_eq_ok_nil_iff (each_iff.1 steady.kept).2.1).2
      ⟨by decide +kernel, sound_of_load loads⟩
  let card : Card StatementData :=
    ⟨"s", inColumn (.int firstY), { statementData notice with fieldId := lone }, []⟩
  have nodes : (stated lone).nodes = [startNode, .statement card, endNode (.int (heightOf 1))] := rfl
  let order : List Text := ["s"]
  have stands : (∃ fields, ((stated lone).reorder (startId :: (order ++ [endId]))).linear = .ok fields) ↔
      ∀ node ∈ (stated lone).nodes, node.id ∈ order → ¬node.Unnamed :=
    exists_linear_reorder_iff steady.wired (by decide) (by decide) (by decide)
  refine ⟨_, stated lone, loads, checked, ?_, fun isLinear => ?_⟩
  · intro other mem
    rw [nodes] at mem
    have same : other = card := by simpa [startNode, endNode] using mem
    rw [same]
    exact List.cons_ne_nil _ _
  · have inNodes : Node.statement card ∈ (stated lone).nodes := by
      rw [nodes]
      exact .tail _ List.mem_cons_self
    exact stands.1 isLinear _ inNodes List.mem_cons_self ⟨rfl, noName⟩

end Flow

end CardForm
