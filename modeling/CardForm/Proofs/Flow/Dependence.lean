import CardForm.Proofs.Flow.Discovery
import CardForm.Proofs.Flow.Layout
import CardForm.Proofs.Flow.Linear

/-!
# What the linear form depends on

The linear form reads of a flow only what is reached from the start without entering the end: of each such
node its content, and which nodes its edges enter, in their order. Flows that are alike in this much stand
for the same fields, and each question and each statement that is not shown after the form was sent gives
one field if it is reached so (`Flow.linear_of_reached`). A node with the identifier of the start gives
none, whatever its kind (`Flow.exists_start_unlisted`).
-/
namespace CardForm

namespace Node

variable {node : Node} {nodes others : List Node} {field : Option Field} {fields : List Field}

/-! ## Nodes elsewhere -/

/-- The node in another place. -/
def moved (place : Position) : Node → Node
  | start card => start { card with position := place }
  | finish card => finish { card with position := place }
  | question card => question { card with position := place }
  | statement card => statement { card with position := place }

/-- A node bears the same identifier in another place. -/
@[simp] theorem id_moved (place : Position) (node : Node) : (node.moved place).id = node.id := by
  cases node <;> rfl

/-- A node shows the same field in another place. -/
@[simp] theorem field?_moved (place : Position) (node : Node) :
    (node.moved place).field? = node.field? := by
  cases node <;> rfl

/-- A node is where it was moved to last. -/
@[simp] theorem moved_moved (first second : Position) (node : Node) :
    (node.moved first).moved second = node.moved second := by
  cases node <;> rfl

/-- A node is itself in its own place. -/
@[simp] theorem moved_position (node : Node) : node.moved node.position = node := by
  cases node <;> rfl

/-! ## The fields of some nodes -/

/-- Nodes that show the same fields, or refuse them, stand for the same fields. -/
theorem fields_congr (same : nodes.map field? = others.map field?) :
    Node.fields nodes = Node.fields others := by
  induction nodes generalizing others with
  | nil => rw [List.map_eq_nil_iff.1 same.symm]
  | cons node rest ih =>
    obtain ⟨other, later, rfl, sameFirst, sameRest⟩ := List.map_eq_cons_iff.1 same.symm
    rw [Node.fields, Node.fields, sameFirst, ih sameRest.symm]

/-- Whether the form lists a node where it is reached: a question, or a statement that is not shown after
the form was sent. -/
def isListed : Node → Bool
  | question _ => true
  | statement card => !card.data.isSuccessCard
  | _ => false

/-- A node that shows a field is listed, and another is not. -/
theorem isListed_eq_isSome (isShown : node.field? = .ok field) : node.isListed = field.isSome := by
  cases node with
  | start card => cases isShown; rfl
  | finish card => cases isShown; rfl
  | question card => cases isShown; rfl
  | statement card =>
    obtain ⟨success, rfl⟩ | ⟨noSuccess, _, rfl⟩ := field?_statement_eq_ok_iff.1 isShown
    · simp [isListed, success]
    · simp [isListed, noSuccess]

/-- Some nodes stand for one field of each that is listed, in their order. -/
theorem forall₂_fields (areShown : Node.fields nodes = .ok fields) :
    List.Forall₂ (fun node field => node.field? = .ok (some field)) (nodes.filter isListed) fields := by
  induction nodes generalizing fields with
  | nil =>
    cases areShown
    exact .nil
  | cons node rest ih =>
    obtain ⟨first, others, isFirst, areOthers, rfl⟩ := fields_cons_eq_ok_iff.1 areShown
    have listed := isListed_eq_isSome isFirst
    cases first with
    | none =>
      rw [List.filter_cons_of_neg (by simp [listed])]
      exact ih areOthers
    | some field =>
      rw [List.filter_cons_of_pos listed]
      exact .cons isFirst (ih areOthers)

end Node

namespace Flow

variable {flow other : Flow} {node : Node} {id : Text}

/-! ## Nodes that are seen alike -/

/-- Two flows are alike at an identifier. -/
structure SeenAlike (flow other : Flow) (id : Text) : Prop where
  /-- The edges from it enter the same nodes, in the same order. -/
  targets : Ends.targets other.ends id = Ends.targets flow.ends id
  /-- A node of the first flow that bears it is one of the second, in some place. -/
  kept : ∀ node ∈ flow.nodes, node.id = id → ∃ place, node.moved place ∈ other.nodes
  /-- A node of the second flow that bears it is one of the first, in some place. -/
  known : ∀ node ∈ other.nodes, node.id = id → ∃ place, node.moved place ∈ flow.nodes

namespace SeenAlike

/-- Flows are alike either way round. -/
theorem symm (alike : flow.SeenAlike other id) : other.SeenAlike flow id :=
  ⟨alike.targets.symm, alike.known, alike.kept⟩

/-- A flow with distinct identifiers that is like another at one of these has the node that bears it there,
in some place. -/
theorem exists_lastNode? (alike : flow.SeenAlike other id) (distinct : other.ids.Nodup)
    (isLast : flow.lastNode? id = some node) :
    ∃ place, other.lastNode? id = some (node.moved place) := by
  obtain ⟨place, inOther⟩ := alike.kept node (mem_of_lastNode? isLast) (id_of_lastNode? isLast)
  have otherLast := lastNode?_of_mem distinct inOther
  rw [Node.id_moved, id_of_lastNode? isLast] at otherLast
  exact ⟨place, otherLast⟩

/-- So what the form shows for the identifier is the same in both where both have distinct identifiers. -/
theorem map_field? (alike : flow.SeenAlike other id) (distinct : flow.ids.Nodup)
    (otherDistinct : other.ids.Nodup) :
    (other.lastNode? id).map Node.field? = (flow.lastNode? id).map Node.field? := by
  cases isLast : flow.lastNode? id with
  | some node =>
    obtain ⟨place, otherLast⟩ := alike.exists_lastNode? otherDistinct isLast
    rw [otherLast, Option.map_some, Option.map_some, Node.field?_moved]
  | none =>
    cases otherLast : other.lastNode? id with
    | none => rfl
    | some node =>
      obtain ⟨place, last⟩ := alike.symm.exists_lastNode? distinct otherLast
      cases isLast.symm.trans last

end SeenAlike

/-- Flows that are alike at the start and at all that is listed of one list the same. -/
theorem discovery_of_seenAlike
    (alike : ∀ id ∈ startId :: Ends.discovery flow.ends, flow.SeenAlike other id) :
    Ends.discovery other.ends = Ends.discovery flow.ends :=
  Ends.discovery_congr fun id listed => by
    rw [Ends.targets_inner, Ends.targets_inner, (alike id listed).targets]

/-- A flow shows its nodes, but for the start, to which a path leads from the start that does not enter the
end. -/
theorem mem_shownNodes_iff (distinct : flow.ids.Nodup) :
    node ∈ flow.shownNodes ↔ node ∈ flow.nodes ∧ node.id ≠ startId ∧
      Ends.Path (Ends.inner flow.ends) startId node.id := by
  rw [← Ends.mem_discovery_iff]
  constructor
  · intro inShown
    obtain ⟨id, listed, isLast⟩ := List.mem_filterMap.1 inShown
    exact ⟨mem_of_mem_shownNodes inShown, id_of_lastNode? isLast ▸ listed⟩
  · rintro ⟨inNodes, listed⟩
    exact List.mem_filterMap.2 ⟨node.id, listed, lastNode?_of_mem distinct inNodes⟩

/-- A flow whose nodes bear distinct identifiers stands for what each other such flow stands for, or fails
as that does, which is like it at each identifier to which a path leads from the start that does not
enter the end. Where it stands for fields, these are one of each node that is listed, to which such a path
leads, and that does not bear the identifier of the start. -/
theorem linear_of_reached (flow : Flow) (distinct : flow.ids.Nodup) :
    (∀ other : Flow, other.ids.Nodup →
        (∀ id, Ends.Path (Ends.inner flow.ends) startId id → flow.SeenAlike other id) →
          other.linear = flow.linear) ∧
      ∀ fields, flow.linear = .ok fields → ∃ cards : List Node, (cards.map Node.id).Nodup ∧
        (∀ node, node ∈ cards ↔ node ∈ flow.nodes ∧ node.isListed = true ∧ node.id ≠ startId ∧
          Ends.Path (Ends.inner flow.ends) startId node.id) ∧
        List.Forall₂ (fun node field => node.field? = .ok (some field)) cards fields := by
  constructor
  · intro other otherDistinct alike
    have alikeListed : ∀ id ∈ startId :: Ends.discovery flow.ends, flow.SeenAlike other id :=
      fun id listed => alike id ((Ends.breadthFirst_discovery flow.ends).mem_iff.1 listed)
    refine Node.fields_congr ?_
    rw [shownNodes, shownNodes, discovery_of_seenAlike alikeListed, List.map_filterMap,
      List.map_filterMap]
    exact List.filterMap_congr fun id listed =>
      (alikeListed id (List.mem_cons_of_mem _ listed)).map_field? distinct otherDistinct
  · intro fields isLinear
    refine ⟨flow.shownNodes.filter Node.isListed, ?_, fun node => ?_, Node.forall₂_fields isLinear⟩
    · exact (nodup_shownNodes flow).sublist (List.filter_sublist.map Node.id)
    · rw [List.mem_filter, mem_shownNodes_iff distinct]
      tauto

/-- A chain through a statement that is shown after the form was sent, and a question. -/
def preceded : Flow where
  nodes :=
    [startNode, .statement ⟨"s", inColumn (.int firstY), ⟨"s", "Sent", "Sent", true, none, []⟩, []⟩,
      .question ⟨"q", inColumn (.int (heightOf 1)), { field := .bare "q" }, []⟩,
      endNode (.int (heightOf 2))]
  edges := Edge.ofSpecs (chainSpecs ["start", "s", "q", "end"])

/-- The same nodes in another order and in other places, with a question that only an edge out of the end
enters, and the edges in another order and with other identifiers. -/
def rearranged : Flow where
  nodes :=
    (.question ⟨"u", inColumn (.int firstY), { field := .bare "u" }, []⟩ ::
      preceded.nodes).reverse.map (Node.moved (inColumn (.int startY)))
  edges :=
    ⟨"b", endId, "u", some { label := some "Again" }, []⟩ ::
      preceded.edges.reverse.map fun edge => { edge with id := "a" }

/-- The question is listed behind the statement, which is not, and nothing of this depends on the order, the
places or what only the end leads to. -/
theorem linear_of_reached_rearranged : rearranged.linear = .ok [.bare "q"] := by
  have order : Ends.discovery preceded.ends = (["s", "q"] : List Text) :=
    Ends.discovery_chain ["s", "q"] (by decide)
  have reached : ∀ id, Ends.Path (Ends.inner preceded.ends) startId id →
      id ∈ (["start", "s", "q"] : List Text) := by
    intro id path
    have listed := (Ends.breadthFirst_discovery preceded.ends).mem_iff.2 path
    rwa [order] at listed
  have targets : ∀ id ∈ (["start", "s", "q"] : List Text),
      Ends.targets rearranged.ends id = Ends.targets preceded.ends id := by decide
  have same := (linear_of_reached preceded (by decide)).1 rearranged (by decide) fun id path => {
    targets := targets id (reached id path)
    kept := fun node mem _ => ⟨_, List.mem_map_of_mem (List.mem_reverse.2 (.tail _ mem))⟩
    known := by
      rintro node mem rfl
      obtain ⟨before, inBefore, rfl⟩ := List.mem_map.1 mem
      rcases List.mem_cons.1 (List.mem_reverse.1 inBefore) with rfl | old
      · exact absurd (reached _ path) (by decide)
      · exact ⟨before.position, by simpa using old⟩ }
  rw [same, linear, shownNodes, order]
  rfl

/-- A flow that is a question with the identifier of the start. -/
def selfStarted : Flow where
  nodes := [.question ⟨startId, inColumn (.int startY), { field := .bare "q" }, []⟩]
  edges := []

/-- A question is not listed that bears the identifier of the start, though a path leads to it from the
start. -/
theorem exists_start_unlisted :
    ∃ found flow node, read found = .ok flow ∧ flow.ids.Nodup ∧ node ∈ flow.nodes ∧
      node.isListed = true ∧ Ends.Path (Ends.inner flow.ends) startId node.id ∧
      flow.linear = .ok [] := by
  have order : Ends.discovery selfStarted.ends = [] :=
    Ends.discovery_eq ⟨by simp [Ends.Path.refl], by decide⟩
  refine ⟨selfStarted.toJson, selfStarted, _, rfl, by decide, List.mem_cons_self, rfl, .refl _, ?_⟩
  rw [linear, shownNodes, order]
  rfl

end Flow

end CardForm
