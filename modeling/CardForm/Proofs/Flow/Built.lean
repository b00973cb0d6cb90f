import CardForm.Proofs.Flow.Discovery
import CardForm.Proofs.Flow.Layout

/-!
# What is built of fields and edge specifications

`Flow.LaysOut` says what a flow that is built looks like. Its cards are the fields that the edge
specifications reach from the start without passing the end, in breadth-first order and in one
column. Its edges are the specifications that join its nodes, and then only those that are missing to
reach each node from the start, each from the node laid out before (`Flow.laysOut_build`). A field
that bears a reserved identifier is never laid out, though it may be reached
(`Flow.exists_reached_unlaid`).
-/
namespace CardForm.Flow

variable {fields cards : List Field} {field : Field} {specs : List EdgeSpec}
  {viewport : Option Viewport} {id : Text}

/-! ## The cards -/

/-- Fields of distinct identifiers all become nodes where none of these was seen. -/
theorem firstsAfter_eq_self {seen : List Text} (distinct : (fields.map Field.id).Nodup)
    (notSeen : ∀ id ∈ fields.map Field.id, id ∉ seen) : firstsAfter seen fields = fields := by
  induction fields generalizing seen with
  | nil => rfl
  | cons first rest ih =>
    rw [List.map_cons, List.nodup_cons] at distinct
    rw [List.map_cons, List.forall_mem_cons] at notSeen
    have restNotSeen : ∀ id ∈ rest.map Field.id, id ∉ first.id :: seen := by
      intro id inRest again
      rcases List.mem_cons.1 again with rfl | old
      · exact distinct.1 inRest
      · exact notSeen.2 id inRest old
    rw [firstsAfter, if_neg (by simpa using notSeen.1), ih distinct.2 restNotSeen]

/-- Fields of distinct identifiers, none of them reserved, all become nodes. -/
theorem cardFields_eq_self (distinct : (fields.map Field.id).Nodup)
    (unreserved : startId ∉ fields.map Field.id ∧ endId ∉ fields.map Field.id) :
    cardFields fields = fields := by
  refine firstsAfter_eq_self distinct fun id mem reserved => ?_
  rcases List.mem_pair.1 reserved with rfl | rfl
  · exact unreserved.1 mem
  · exact unreserved.2 mem

/-- The fields that specifications reach bear the identifiers of fields that are reached, in the order in
which these are. -/
theorem ids_reachedFields (fields : List Field) (specs : List EdgeSpec) :
    (reachedFields fields specs).map Field.id =
      (Ends.discovery (specs.map EdgeSpec.ends)).filter fun id => id ∈ fields.map Field.id := by
  rw [reachedFields, List.map_filterMap, ← List.filterMap_eq_filter]
  refine List.filterMap_congr fun id _ => ?_
  by_cases mem : id ∈ fields.map Field.id
  · obtain ⟨field, inFields, rfl⟩ := List.mem_map.1 mem
    obtain ⟨last, isLast⟩ := Field.exists_last?_of_mem inFields
    rw [isLast, Option.guard, if_pos (by simpa using mem), Option.map_some,
      Field.id_of_last? isLast]
  · have none : Field.last? fields id = none := by
      refine Option.eq_none_iff_forall_ne_some.2 fun field isLast => mem ?_
      exact List.mem_map.2 ⟨field, Field.mem_of_last? isLast, Field.id_of_last? isLast⟩
    rw [none, Option.guard, if_neg (by simpa using mem), Option.map_none]

/-- The fields that specifications reach have distinct identifiers. -/
theorem nodup_ids_reachedFields (fields : List Field) (specs : List EdgeSpec) :
    ((reachedFields fields specs).map Field.id).Nodup := by
  rw [ids_reachedFields]
  exact (Ends.nodup_discovery _).filter _

/-- A field is reached if it is the last one of its identifier, and this is other than that of the start and
is reached without entering the end. -/
theorem mem_reachedFields_iff :
    field ∈ reachedFields fields specs ↔ Field.last? fields field.id = some field ∧
      field.id ≠ startId ∧ (Ends.inner (specs.map EdgeSpec.ends)).Path startId field.id := by
  rw [reachedFields, List.mem_filterMap, ← Ends.mem_discovery_iff, and_comm]
  constructor
  · rintro ⟨id, listed, isLast⟩
    cases Field.id_of_last? isLast
    exact ⟨listed, isLast⟩
  · rintro ⟨listed, isLast⟩
    exact ⟨field.id, listed, isLast⟩

/-- No field that is reached bears a reserved identifier. -/
theorem unreserved_reachedFields (mem : field ∈ reachedFields fields specs) :
    field.id ≠ startId ∧ field.id ≠ endId := by
  have listed : field.id ∈ Ends.discovery (specs.map EdgeSpec.ends) := by
    have inIds := List.mem_map_of_mem (f := Field.id) mem
    rw [ids_reachedFields] at inIds
    exact List.mem_of_mem_filter inIds
  have new := Ends.notMem_of_mem_discoveryFrom listed
  exact ⟨fun isStart => new.1 (List.mem_singleton.2 isStart), new.2⟩

/-- All fields that are reached become nodes. -/
theorem cardFields_reachedFields (fields : List Field) (specs : List EdgeSpec) :
    cardFields (reachedFields fields specs) = reachedFields fields specs := by
  refine firstsAfter_eq_self (nodup_ids_reachedFields fields specs) ?_
  rw [List.forall_mem_map]
  intro field mem reserved
  obtain ⟨notStart, notEnd⟩ := unreserved_reachedFields mem
  simp [notStart, notEnd] at reserved

/-! ## The column -/

/-- The node of a field stands in the column. -/
@[simp] theorem position_fieldNode (field : Field) (y : Number) :
    (fieldNode field y).position = inColumn y := by
  unfold fieldNode
  split <;> rfl

/-- The node of a field is a card. -/
@[simp] theorem isContent_fieldNode (field : Field) (y : Number) :
    (fieldNode field y).isContent = true := by
  unfold fieldNode
  split <;> rfl

/-- The cards in a column are the nodes of its fields. -/
theorem content_of_column {flow : Flow} (nodes : flow.nodes = column cards) :
    flow.content = fieldNodes cards := by
  have all : (fieldNodes cards).filter Node.isContent = fieldNodes cards := by
    refine List.filter_eq_self.2 fun node mem => ?_
    obtain ⟨place, inside, rfl⟩ := List.mem_mapIdx.1 mem
    exact isContent_fieldNode _ _
  have endLeft : [endNode (.int (heightOf cards.length))].filter Node.isContent = [] := rfl
  rw [content, nodes, column, List.filter_cons_of_neg (by simp [startNode, Node.isContent]),
    List.filter_append, all, endLeft, List.append_nil]

/-- The cards in a column bear the identifiers of its fields. -/
theorem ids_fieldNodes (cards : List Field) :
    (fieldNodes cards).map Node.id = cards.map Field.id := by
  refine List.ext_getElem (by simp [fieldNodes]) fun place _ _ => ?_
  simp [fieldNodes]

/-- The nodes of a column stand in equal steps, the start apart. -/
theorem positions_column (cards : List Field) :
    (column cards).map Node.position =
      (startY :: (List.range (cards.length + 1)).map fun place => heightOf place).map
        fun y => inColumn (.int y) := by
  have inFields : (fieldNodes cards).map Node.position =
      (List.range cards.length).map fun place => inColumn (.int (heightOf place)) := by
    refine List.ext_getElem (by simp [fieldNodes]) fun place _ _ => ?_
    simp [fieldNodes]
  rw [column, List.map_cons, List.map_append, inFields, List.range_succ]
  simp only [List.map_cons, List.map_append, List.map_map, List.map_nil]
  rfl

/-- The nodes of what is built are a column of the fields that are reached. -/
theorem nodes_build (fields : List Field) (specs : List EdgeSpec) (viewport : Option Viewport) :
    (build fields specs viewport).nodes = column (reachedFields fields specs) :=
  congrArg column (cardFields_reachedFields fields specs)

/-- The identifiers of the nodes of what is built. -/
theorem ids_build (fields : List Field) (specs : List EdgeSpec) (viewport : Option Viewport) :
    (build fields specs viewport).ids =
      startId :: ((reachedFields fields specs).map Field.id ++ [endId]) := by
  rw [ids, nodes_build, ids_column]

/-- A node of what is built is the start, a card or the end. -/
theorem mem_ids_build_iff : id ∈ (build fields specs viewport).ids ↔
    id = startId ∨ id ∈ (reachedFields fields specs).map Field.id ∨ id = endId := by
  rw [ids_build, List.mem_cons, List.mem_append, List.mem_singleton]

/-- The identifiers of the cards of what is built. -/
theorem ids_content_build (fields : List Field) (specs : List EdgeSpec)
    (viewport : Option Viewport) :
    (build fields specs viewport).content.map Node.id = (reachedFields fields specs).map Field.id := by
  rw [content_of_column (nodes_build fields specs viewport), ids_fieldNodes]

/-! ## The edges -/

/-- The edge specifications that join nodes of a flow. -/
def joining (flow : Flow) (specs : List EdgeSpec) : List EdgeSpec :=
  specs.filter fun spec => flow.ids.contains spec.source && flow.ids.contains spec.target

/-- An edge specification joins nodes of a flow. -/
theorem mem_joining_iff {flow : Flow} {spec : EdgeSpec} :
    spec ∈ flow.joining specs ↔ spec ∈ specs ∧ spec.source ∈ flow.ids ∧ spec.target ∈ flow.ids := by
  simp [joining]

/-- What a repair adds to some edge specifications, for nodes that were laid out one after the other. -/
structure Repairs (specs : List EdgeSpec) (laidOut : List Text) (added : List EdgeSpec) : Prop where
  /-- The new edges carry nothing. -/
  bare : ∀ spec ∈ added, spec.data = none ∧ spec.extras = []
  /-- They lead from nodes to the next ones, in the order of the nodes and no two to the same one. -/
  steps : (added.map EdgeSpec.ends).Sublist (laidOut.zip laidOut.tail)
  /-- Each leads to a node that the edges before it do not reach. -/
  needed : ∀ before spec after, added = before ++ spec :: after →
    ¬Ends.Path ((specs ++ before).map EdgeSpec.ends) startId spec.target

/-- Nothing is missing for one node by itself. -/
theorem Repairs.nil (specs : List EdgeSpec) (laidOut : List Text) : Repairs specs laidOut [] :=
  ⟨fun _ mem => (nomatch mem), List.nil_sublist _, fun before _ _ parts => by simp at parts⟩

/-- Nothing is added where all nodes are reached. -/
theorem Repairs.eq_nil {laidOut : List Text} {added : List EdgeSpec}
    (repairs : Repairs specs laidOut added)
    (reached : ∀ id ∈ laidOut, Ends.Path (specs.map EdgeSpec.ends) startId id) : added = [] := by
  cases added with
  | nil => rfl
  | cons spec after =>
    have inZip : spec.ends ∈ laidOut.zip laidOut.tail := repairs.steps.subset List.mem_cons_self
    have laid := List.mem_of_mem_tail (List.of_mem_zip inZip).2
    have notReached := repairs.needed [] spec after rfl
    rw [List.append_nil] at notReached
    exact absurd (reached spec.target laid) notReached

/-- A node that is reached needs no new edge. -/
theorem Repairs.skip {laidOut : List Text} {added : List EdgeSpec} {last : Text}
    (repairs : Repairs specs (id :: laidOut) added) :
    Repairs specs (last :: id :: laidOut) added :=
  ⟨repairs.bare, repairs.steps.trans (List.sublist_cons_self _ _), repairs.needed⟩

/-- A node that is not reached needs one from the node before it. -/
theorem Repairs.link {laidOut : List Text} {added : List EdgeSpec} {last : Text}
    (notReached : id ∉ reachedBy specs)
    (repairs : Repairs (specs ++ [⟨last, id, none, []⟩]) (id :: laidOut) added) :
    Repairs specs (last :: id :: laidOut) (⟨last, id, none, []⟩ :: added) where
  bare := List.forall_mem_cons.2 ⟨⟨rfl, rfl⟩, repairs.bare⟩
  steps := repairs.steps.cons_cons (last, id)
  needed := by
    intro before spec after parts
    cases before with
    | nil =>
      obtain ⟨rfl, _⟩ := List.cons.inj parts
      rw [List.append_nil]
      exact fun path => notReached (mem_reachedBy_iff.2 path)
    | cons first before =>
      obtain ⟨rfl, laterParts⟩ := List.cons.inj parts
      have later := repairs.needed before spec after laterParts
      rwa [List.append_assoc] at later

/-- The repair adds what is missing to reach each node and the end. -/
theorem exists_repaired (specs : List EdgeSpec) (last : Text) (ids : List Text) :
    ∃ added, repaired specs (reachedBy specs) last ids = specs ++ added ∧
      Repairs specs (last :: (ids ++ [endId])) added := by
  induction ids generalizing specs last with
  | nil =>
    rw [repaired]
    split
    · exact ⟨[], (List.append_nil _).symm, .nil _ _⟩
    · rename_i notReached
      exact ⟨[⟨last, endId, none, []⟩], rfl, .link (by simpa using notReached) (.nil _ _)⟩
  | cons id rest ih =>
    rw [repaired]
    split
    · obtain ⟨added, isRepaired, repairs⟩ := ih specs id
      exact ⟨added, isRepaired, repairs.skip⟩
    · rename_i notReached
      obtain ⟨added, isRepaired, repairs⟩ := ih (specs ++ [⟨last, id, none, []⟩]) id
      refine ⟨⟨last, id, none, []⟩ :: added, ?_, .link (by simpa using notReached) repairs⟩
      rw [isRepaired, List.append_assoc]
      rfl

/-- The edges of what is built are those of the specifications that join its nodes, and of what a repair
adds to them. -/
theorem exists_edges_build (fields : List Field) (specs : List EdgeSpec)
    (viewport : Option Viewport) :
    ∃ added, (build fields specs viewport).edges =
        Edge.ofSpecs ((build fields specs viewport).joining specs ++ added) ∧
      Repairs ((build fields specs viewport).joining specs) (build fields specs viewport).ids
        added := by
  obtain ⟨added, isRepaired, repairs⟩ := exists_repaired
    ((build fields specs viewport).joining specs) startId
    ((reachedFields fields specs).map Field.id)
  rw [← ids_build fields specs viewport] at repairs
  rw [← cardFields_reachedFields] at isRepaired
  exact ⟨added, congrArg Edge.ofSpecs isRepaired, repairs⟩

/-- The edges of some specifications carry what these carry, from and to the same nodes. -/
theorem carried_ofSpecs (specs : List EdgeSpec) :
    (Edge.ofSpecs specs).map (fun edge => (edge.source, edge.target, edge.data)) =
      specs.map fun spec => (spec.source, spec.target, spec.data) :=
  map_ofSpecs (fun _ _ => rfl) specs

/-! ## What is built -/

/-- A flow lays out some of the fields as cards, in the order and by the edges that edge specifications give,
and has some edges more. -/
structure LaysOut (flow : Flow) (fields : List Field) (specs : List EdgeSpec) (cards : List Field)
    (added : List EdgeSpec) : Prop where
  /-- The cards stand in the breadth-first order of what is reached from the start without entering the
  end. -/
  order : ∃ reached, (Ends.inner (specs.map EdgeSpec.ends)).BreadthFirst startId
    (startId :: reached) ∧ cards = reached.filterMap (Field.last? fields)
  /-- A field is a card if it is the last one of its identifier, and this is not reserved and is reached from
  the start without entering the end. -/
  card : ∀ field, field ∈ cards ↔ Field.last? fields field.id = some field ∧
    field.id ≠ startId ∧ field.id ≠ endId ∧
      (Ends.inner (specs.map EdgeSpec.ends)).Path startId field.id
  /-- No two cards bear the same identifier. -/
  distinct : (cards.map Field.id).Nodup
  /-- The cards are laid out one below the other. -/
  content : flow.content = cards.mapIdx fun place field => fieldNode field (.int (100 + 120 * place))
  /-- The start is above them and the end below. -/
  nodes : flow.nodes =
    startNode :: (flow.content ++ [endNode (.int (100 + 120 * cards.length))])
  /-- All nodes stand in one column. -/
  positions : flow.nodes.map Node.position =
    (0 :: (List.range (cards.length + 1)).map fun place : Nat => (100 + 120 * place : Int)).map
      fun y => ⟨.int 400, .int y, []⟩
  /-- The edges are those of the specifications that join nodes, in their order, and then the new ones. -/
  edges : flow.edges = Edge.ofSpecs (flow.joining specs ++ added)
  /-- They carry what the specifications carry. -/
  carried : flow.edges.map (fun edge => (edge.source, edge.target, edge.data)) =
    (flow.joining specs ++ added).map fun spec => (spec.source, spec.target, spec.data)
  /-- The new edges carry nothing. Each leads from a node to the one laid out next, which the edges before
  it do not reach; and so at most one leads to the end. -/
  repairs : Repairs (flow.joining specs) flow.ids added
  /-- There is no new edge where the specifications that join nodes reach each node. -/
  spared : (∀ id ∈ flow.ids, Ends.Path ((flow.joining specs).map EdgeSpec.ends) startId id) →
    added = []

/-- What is built of fields and edge specifications lays out the fields that these reach, by the edges that
join them and those that a repair adds. -/
theorem laysOut_build (fields : List Field) (specs : List EdgeSpec) (viewport : Option Viewport) :
    ∃ cards added, (build fields specs viewport).LaysOut fields specs cards added := by
  have nodes := nodes_build fields specs viewport
  have content := content_of_column nodes
  obtain ⟨added, edges, repairs⟩ := exists_edges_build fields specs viewport
  refine ⟨reachedFields fields specs, added, ?_⟩
  exact
    { order := ⟨_, Ends.breadthFirst_discovery _, rfl⟩
      card := fun field => by
        constructor
        · intro mem
          obtain ⟨isLast, notStart, path⟩ := mem_reachedFields_iff.1 mem
          exact ⟨isLast, notStart, (unreserved_reachedFields mem).2, path⟩
        · rintro ⟨isLast, notStart, _, path⟩
          exact mem_reachedFields_iff.2 ⟨isLast, notStart, path⟩
      distinct := nodup_ids_reachedFields fields specs
      content := content
      nodes := by
        rw [content, nodes]
        rfl
      positions := by
        rw [nodes]
        exact positions_column _
      edges := edges
      carried := by rw [edges, carried_ofSpecs]
      repairs := repairs
      spared := repairs.eq_nil }

/-- A field that bears the identifier of the start is not laid out, though an edge specification leads
there. -/
theorem exists_reached_unlaid :
    ∃ (fields : List Field) (specs : List EdgeSpec) (field : Field),
      (∀ field ∈ fields, ∃ found, Field.read found = .ok field) ∧
      (∀ spec ∈ specs, ∃ found, EdgeSpec.read found = .ok spec) ∧
      Field.last? fields field.id = some field ∧
      Relation.TransGen (fun a b => (a, b) ∈ Ends.inner (specs.map EdgeSpec.ends)) startId field.id ∧
      field.id ∉ (build fields specs none).content.map Node.id := by
  have leads : ((startId, startId) : Text × Text) ∈ Ends.inner [("start", "start")] := by decide
  refine ⟨[.bare "start"], _, .bare "start", Field.exists_read_bare ["start"] (by decide),
    EdgeSpec.exists_read_bare [("start", "start")], rfl, .single leads, fun laid => ?_⟩
  rw [ids_content_build] at laid
  obtain ⟨field, mem, isStart⟩ := List.mem_map.1 laid
  exact (unreserved_reachedFields mem).1 isStart

end CardForm.Flow
