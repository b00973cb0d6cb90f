import CardForm.Flow.Layout
import CardForm.Proofs.Flow.Sound

/-!
# Laid out flows are sound

Whatever field list and edge specifications a flow is laid out from, it is sound (`Flow.sound_chain`,
`Flow.sound_build`). For `build` this rests on an invariant of the repair: the node laid out last is
reached over the edges so far, so an edge from it makes the next node reached as well, and at last
the end.
-/
namespace CardForm

/-- Fields that were read can be read once they were written. -/
theorem Field.valid_of_reads {fields : List Field}
    (fieldsRead : ∀ field ∈ fields, ∃ found, read found = .ok field) :
    ∀ field ∈ fields, format.Valid field := by
  intro field mem
  obtain ⟨found, isRead⟩ := fieldsRead field mem
  exact exact_format.valid_of_read isRead

/-- A text field with its required parts only, its identifier being its label. -/
def Field.bare (id : Text) : Field where
  id := id
  kind := ⟨"text"⟩
  label := id

/-- Text fields with their required parts only can be read once they were written where their identifiers
are names. -/
theorem Field.valid_bare (ids : List Text)
    (names : ∀ id ∈ ids, id.isWellFormed = true ∧ id ≠ []) :
    ∀ field ∈ ids.map bare, format.Valid field := by
  have known : FieldKind.mk "text" ∈ FieldKind.known := by decide
  refine List.forall_mem_map.2 fun id mem => ?_
  exact valid_iff.2 ⟨names id mem, known, fun _ none => (nomatch none),
    fun _ none => (nomatch none), fun _ none => (nomatch none)⟩

/-- A demand asks nothing of a text field with its required parts only. -/
theorem Field.each_bare {demand : Demand} (id : Text) : format.Each demand (bare id) :=
  each_iff.2 ⟨demand.extras_nil _, fun _ none => (nomatch none), fun _ none => (nomatch none),
    fun _ none => (nomatch none)⟩

/-- Text fields with their required parts only are read where their identifiers are names. -/
theorem Field.exists_read_bare (ids : List Text)
    (names : ∀ id ∈ ids, id.isWellFormed = true ∧ id ≠ []) :
    ∀ field ∈ ids.map bare, ∃ found, Field.read found = .ok field := by
  intro field mem
  have valid := valid_bare ids names field mem
  obtain ⟨id, _, rfl⟩ := List.mem_map.1 mem
  have isRead : Field.read (bare id).toJson = .ok (bare id) :=
    (exact_format.read_toJson (each_bare id)).2 ⟨valid, rfl⟩
  exact ⟨_, isRead⟩

/-- Edge specifications without a payload are read. -/
theorem EdgeSpec.exists_read_bare (ends : List (Text × Text)) :
    ∀ spec ∈ ends.map (fun e => EdgeSpec.mk e.1 e.2 none []),
      ∃ found, EdgeSpec.read found = .ok spec :=
  List.forall_mem_map.2 fun e _ => ⟨.obj [("source", .str e.1), ("target", .str e.2)], rfl⟩

/-! ## The last field of an identifier -/

namespace Field

variable {fields : List Field} {field : Field} {id : Text}

/-- The last field of an identifier is among the fields. -/
theorem mem_of_last? (isLast : last? fields id = some field) : field ∈ fields :=
  List.mem_reverse.1 (List.mem_of_find?_eq_some isLast)

/-- The last field of an identifier bears it. -/
theorem id_of_last? (isLast : last? fields id = some field) : field.id = id := by
  simpa using List.find?_some isLast

/-- There is a last field of the identifier of a field. -/
theorem exists_last?_of_mem (mem : field ∈ fields) : ∃ found, last? fields field.id = some found :=
  Option.isSome_iff_exists.1 (List.find?_isSome.2 ⟨field, List.mem_reverse.2 mem, by simp⟩)

/-- Among fields of distinct identifiers each one is the last of its own. -/
theorem last?_of_mem (distinct : (fields.map Field.id).Nodup) (mem : field ∈ fields) :
    last? fields field.id = some field := by
  obtain ⟨found, isLast⟩ := exists_last?_of_mem mem
  rw [isLast, List.inj_on_of_nodup_map distinct (mem_of_last? isLast) mem (id_of_last? isLast)]

end Field

namespace Flow

/-! ## The fields that become nodes -/

section Fields

variable {fields : List Field} {seen : List Text} {field : Field}

/-- A field that becomes a node is one of the fields, with an identifier that was not seen. -/
theorem mem_firstsAfter (mem : field ∈ firstsAfter seen fields) :
    field ∈ fields ∧ field.id ∉ seen := by
  induction fields generalizing seen with
  | nil => cases mem
  | cons first rest ih =>
    rw [firstsAfter] at mem
    split at mem
    · obtain ⟨inRest, notSeen⟩ := ih mem
      exact ⟨List.mem_cons_of_mem _ inRest, notSeen⟩
    · rename_i notSeen
      obtain rfl | later := List.mem_cons.1 mem
      · exact ⟨List.mem_cons_self, by simpa using notSeen⟩
      · obtain ⟨inRest, notLater⟩ := ih later
        exact ⟨List.mem_cons_of_mem _ inRest,
          fun inSeen => notLater (List.mem_cons_of_mem _ inSeen)⟩

/-- The fields that become nodes have distinct identifiers. -/
theorem nodup_firstsAfter (seen : List Text) (fields : List Field) :
    ((firstsAfter seen fields).map Field.id).Nodup := by
  induction fields generalizing seen with
  | nil => exact List.nodup_nil
  | cons first rest ih =>
    rw [firstsAfter]
    split
    · exact ih seen
    · rw [List.map_cons, List.nodup_cons, List.mem_map]
      refine ⟨?_, ih _⟩
      rintro ⟨later, mem, same⟩
      exact (mem_firstsAfter mem).2 (same ▸ List.mem_cons_self)

/-- Fields that make a column: each can be a node beside the others, the start and the end. -/
structure MakeColumn (fields : List Field) : Prop where
  /-- Each field can be read once it was written. -/
  valid : ∀ field ∈ fields, Field.format.Valid field
  /-- The identifiers are pairwise distinct. -/
  distinct : (fields.map Field.id).Nodup
  /-- No identifier is that of the start. -/
  notStart : startId ∉ fields.map Field.id
  /-- No identifier is that of the end. -/
  notEnd : endId ∉ fields.map Field.id

/-- No field that becomes a node bears a reserved identifier. -/
theorem unreserved_cardFields (fields : List Field) :
    startId ∉ (cardFields fields).map Field.id ∧ endId ∉ (cardFields fields).map Field.id := by
  have unreserved : ∀ id ∈ ([startId, endId] : List Text), id ∉ (cardFields fields).map Field.id := by
    rintro id reserved inCards
    obtain ⟨field, mem, rfl⟩ := List.mem_map.1 inCards
    exact (mem_firstsAfter mem).2 reserved
  exact ⟨unreserved startId (by simp), unreserved endId (by simp)⟩

/-- The fields that become nodes make a column. -/
theorem makeColumn_cardFields (valid : ∀ field ∈ fields, Field.format.Valid field) :
    MakeColumn (cardFields fields) where
  valid field mem := valid field (mem_firstsAfter mem).1
  distinct := nodup_firstsAfter _ _
  notStart := (unreserved_cardFields fields).1
  notEnd := (unreserved_cardFields fields).2

/-- The fields that edge specifications reach are among the fields. -/
theorem mem_of_mem_reachedFields {specs : List EdgeSpec} (mem : field ∈ reachedFields fields specs) :
    field ∈ fields := by
  obtain ⟨id, _, isLast⟩ := List.mem_filterMap.1 mem
  exact Field.mem_of_last? isLast

end Fields

/-! ## The column -/

section Column

variable {fields : List Field}

/-- The identifiers in a column. -/
theorem ids_column (fields : List Field) :
    (column fields).map Node.id = startId :: (fields.map Field.id ++ [endId]) := by
  have ids : (fieldNodes fields).map Node.id = fields.map Field.id := by
    refine List.ext_getElem (by simp [fieldNodes]) fun place _ _ => ?_
    simp [fieldNodes]
  rw [column, List.map_cons, List.map_append, ids]
  rfl

/-- The identifiers in a column of distinct fields, none of them reserved, are distinct. -/
theorem nodup_ids_column (distinct : (fields.map Field.id).Nodup)
    (unreserved : startId ∉ fields.map Field.id ∧ endId ∉ fields.map Field.id) :
    ((column fields).map Node.id).Nodup := by
  rw [ids_column, List.nodup_cons, List.nodup_append_comm, List.mem_append, not_or]
  exact ⟨⟨unreserved.1, by decide⟩, List.nodup_cons.2 ⟨unreserved.2, distinct⟩⟩

/-- A node of a column is the start, the end, or the node of a field. -/
theorem mem_column {node : Node} (mem : node ∈ column fields) :
    node = startNode ∨ (∃ field ∈ fields, ∃ y, node = fieldNode field y) ∨ ∃ y, node = endNode y := by
  obtain rfl | mem := List.mem_cons.1 mem
  · exact .inl rfl
  obtain inFields | isEnd := List.mem_append.1 mem
  · obtain ⟨place, inside, rfl⟩ := List.mem_mapIdx.1 inFields
    exact .inr (.inl ⟨_, List.getElem_mem inside, _, rfl⟩)
  · exact .inr (.inr ⟨_, List.mem_singleton.1 isEnd⟩)

/-- The node of a field is a statement or a question. -/
theorem kind_fieldNode (field : Field) (y : Number) :
    (fieldNode field y).kind = if field.isStatement then .statement else .question := by
  unfold fieldNode
  split <;> rfl

/-- The node of a field that can be read once it was written is in order. -/
theorem proper_fieldNode {field : Field} (valid : Field.format.Valid field) (y : Number) :
    (fieldNode field y).Proper := by
  obtain ⟨⟨_, notEmpty⟩, known, _⟩ := Field.valid_iff.1 valid
  refine ⟨(id_fieldNode field y).symm ▸ notEmpty, ?_⟩
  intro card isQuestion
  unfold fieldNode at isQuestion
  split at isQuestion
  · cases isQuestion
  · cases isQuestion
    exact ⟨notEmpty, known⟩

/-- The nodes of a column are in order. -/
theorem proper_of_mem_column (make : MakeColumn fields) {node : Node} (mem : node ∈ column fields) :
    node.Proper := by
  obtain rfl | ⟨field, inFields, y, rfl⟩ | ⟨y, rfl⟩ := mem_column mem
  · exact ⟨List.cons_ne_nil _ _, fun _ isQuestion => nomatch isQuestion⟩
  · exact proper_fieldNode (make.valid field inFields) y
  · exact ⟨List.cons_ne_nil _ _, fun _ isQuestion => nomatch isQuestion⟩

/-- A flow of a column is sound where its edges join its nodes and lead from the start to the end. -/
theorem sound_of_column {flow : Flow} (make : MakeColumn fields) (nodes : flow.nodes = column fields)
    (edge : ∀ edge ∈ flow.edges, edge.source ∈ flow.ids ∧ edge.target ∈ flow.ids)
    (path : Ends.Path flow.ends startId endId) : flow.Sound where
  node := by
    rw [nodes]
    exact fun node mem => proper_of_mem_column make mem
  distinct := by
    rw [ids, nodes]
    exact nodup_ids_column make.distinct ⟨make.notStart, make.notEnd⟩
  hasStart := ⟨startNode, nodes ▸ List.mem_cons_self, rfl⟩
  start := by
    rw [nodes]
    rintro node mem isStart
    obtain rfl | ⟨field, _, y, rfl⟩ | ⟨y, rfl⟩ := mem_column mem
    · rfl
    · rw [kind_fieldNode] at isStart
      split at isStart <;> cases isStart
    · cases isStart
  hasEnd := by
    rw [nodes]
    exact ⟨endNode _, List.mem_cons_of_mem _ (List.mem_append_right _ (List.mem_singleton.2 rfl)),
      rfl⟩
  finish := by
    rw [nodes]
    rintro node mem isEnd
    obtain rfl | ⟨field, _, y, rfl⟩ | ⟨y, rfl⟩ := mem_column mem
    · cases isEnd
    · rw [kind_fieldNode] at isEnd
      split at isEnd <;> cases isEnd
    · rfl
  edge := edge
  path := path

end Column

/-- What does not depend on the identifiers of the edges of some specifications is read off the
specifications. -/
theorem map_ofSpecs {α : Type} {ofEdge : Edge → α} {ofSpec : EdgeSpec → α}
    (same : ∀ spec id, ofEdge ⟨id, spec.source, spec.target, spec.data, []⟩ = ofSpec spec)
    (specs : List EdgeSpec) : (Edge.ofSpecs specs).map ofEdge = specs.map ofSpec := by
  have enough : specs.length ≤ (edgeIds (specs.map EdgeSpec.ends)).length := by simp [edgeIds]
  rw [Edge.ofSpecs, List.map_map]
  conv_rhs => rw [← List.map_fst_zip enough, List.map_map]
  exact List.map_congr_left fun _ _ => same _ _

/-- The edges of some specifications have the same ends. -/
theorem ends_ofSpecs (specs : List EdgeSpec) :
    (Edge.ofSpecs specs).map Edge.ends = specs.map EdgeSpec.ends :=
  map_ofSpecs (fun _ _ => rfl) specs

/-- An edge of some specifications has the ends and the payload of one of them, and no extras. -/
theorem exists_of_mem_ofSpecs {specs : List EdgeSpec} {edge : Edge} (mem : edge ∈ Edge.ofSpecs specs) :
    ∃ spec ∈ specs, edge.ends = spec.ends ∧ edge.data = spec.data ∧ edge.extras = [] := by
  obtain ⟨⟨spec, id⟩, inZip, rfl⟩ := List.mem_map.1 mem
  exact ⟨spec, (List.of_mem_zip inZip).1, rfl, rfl, rfl⟩

/-! ## The chain -/

/-- The ends of a chain are each node with the next. -/
theorem ends_chainSpecs (ids : List Text) :
    (chainSpecs ids).map EdgeSpec.ends = ids.zip ids.tail := by
  rw [chainSpecs, List.map_map]
  exact List.map_id _

/-- The identifiers of the nodes of a chain. -/
theorem ids_chain (fields : List Field) (viewport : Option Viewport) :
    (chain fields viewport).ids = startId :: ((cardFields fields).map Field.id ++ [endId]) :=
  ids_column _

/-- The edges of a chain join each node with the next. -/
theorem ends_chain (fields : List Field) (viewport : Option Viewport) :
    (chain fields viewport).ends = (chain fields viewport).ids.zip (chain fields viewport).ids.tail :=
  (ends_ofSpecs _).trans (ends_chainSpecs _)

/-- A chain leads from its first node to each of its nodes. -/
theorem path_chain {first id : Text} {later : List Text} (mem : id ∈ first :: later) :
    Ends.Path ((first :: later).zip later) first id := by
  induction later generalizing first with
  | nil => rw [List.mem_singleton.1 mem]
  | cons next rest ih =>
    rcases List.mem_cons.1 mem with rfl | inLater
    · rfl
    · exact Ends.Path.cons List.mem_cons_self ((ih inLater).mono (List.subset_cons_self _ _))

/-- The flow through the fields of a list one after the other is sound. -/
theorem sound_chain {fields : List Field} (valid : ∀ field ∈ fields, Field.format.Valid field)
    (viewport : Option Viewport) : (chain fields viewport).Sound := by
  refine sound_of_column (makeColumn_cardFields valid) rfl ?_ ?_
  · intro edge mem
    have inZip : edge.ends ∈ (chain fields viewport).ids.zip (chain fields viewport).ids.tail := by
      rw [← ends_chain]
      exact List.mem_map_of_mem mem
    exact (List.of_mem_zip inZip).imp_right List.mem_of_mem_tail
  · rw [ends_chain, ids_chain]
    exact path_chain (List.mem_cons_of_mem _ List.mem_concat_self)

/-! ## The repair -/

/-- The nodes that edge specifications reach are those to which a path leads from the start. -/
theorem mem_reachedBy_iff {specs : List EdgeSpec} {id : Text} :
    id ∈ reachedBy specs ↔ Ends.Path (specs.map EdgeSpec.ends) startId id :=
  Ends.mem_reachable_iff

/-- More edge specifications reach what some of them reach. -/
theorem reachedBy_mono {specs more : List EdgeSpec} (subset : specs ⊆ more) :
    reachedBy specs ⊆ reachedBy more := fun _ mem =>
  mem_reachedBy_iff.2 ((mem_reachedBy_iff.1 mem).mono (List.map_subset _ subset))

/-- An edge from a node that is reached makes its target reached. -/
theorem target_mem_reachedBy {specs : List EdgeSpec} {source : Text} (target : Text)
    (reached : source ∈ reachedBy specs) :
    target ∈ reachedBy (specs ++ [⟨source, target, none, []⟩]) := by
  have more : specs ⊆ specs ++ [⟨source, target, none, []⟩] := List.subset_append_left _ _
  refine mem_reachedBy_iff.2 ((mem_reachedBy_iff.1 (reachedBy_mono more reached)).snoc ?_)
  rw [List.map_append]
  exact List.mem_append_right _ (List.mem_singleton.2 rfl)

/-- The repair keeps what is reached, and where the node laid out last is reached, so are in the end
all nodes after it and the end. -/
theorem reached_repaired {specs : List EdgeSpec} {last : Text} (ids : List Text)
    (lastReached : last ∈ reachedBy specs) :
    reachedBy specs ⊆ reachedBy (repaired specs (reachedBy specs) last ids) ∧
      ∀ id ∈ ids ++ [endId], id ∈ reachedBy (repaired specs (reachedBy specs) last ids) := by
  induction ids generalizing specs last with
  | nil =>
    simp only [repaired, List.nil_append, List.mem_singleton, forall_eq]
    split
    · rename_i endReached
      exact ⟨List.Subset.refl _, by simpa using endReached⟩
    · exact ⟨reachedBy_mono (List.subset_append_left _ _), target_mem_reachedBy endId lastReached⟩
  | cons id rest ih =>
    rw [repaired]
    simp only [List.cons_append, List.forall_mem_cons]
    split
    · rename_i idReached
      have idReached : id ∈ reachedBy specs := by simpa using idReached
      obtain ⟨kept, others⟩ := ih idReached
      exact ⟨kept, kept idReached, others⟩
    · have idReached := target_mem_reachedBy id lastReached
      obtain ⟨kept, others⟩ := ih idReached
      exact ⟨List.Subset.trans (reachedBy_mono (List.subset_append_left _ _)) kept, kept idReached,
        others⟩

/-- The repair adds only bare edges from the nodes to the nodes after the first. -/
theorem mem_repaired {specs : List EdgeSpec} {reached : List Text} {last : Text} {ids : List Text}
    {spec : EdgeSpec} (mem : spec ∈ repaired specs reached last ids) :
    spec ∈ specs ∨ spec.source ∈ last :: ids ∧ spec.target ∈ ids ++ [endId] ∧ spec.data = none := by
  induction ids generalizing specs reached last with
  | nil =>
    rw [repaired] at mem
    split at mem
    · exact .inl mem
    · obtain old | new := List.mem_append.1 mem
      · exact .inl old
      · rw [List.mem_singleton.1 new]
        exact .inr ⟨List.mem_cons_self, List.mem_cons_self, rfl⟩
  | cons id rest ih =>
    rw [repaired] at mem
    split at mem
    · refine (ih mem).imp_right ?_
      rintro ⟨source, target, bare⟩
      exact ⟨List.mem_cons_of_mem _ source, List.mem_cons_of_mem _ target, bare⟩
    · obtain old | ⟨source, target, bare⟩ := ih mem
      · obtain old | new := List.mem_append.1 old
        · exact .inl old
        · rw [List.mem_singleton.1 new]
          exact .inr ⟨List.mem_cons_self, List.mem_cons_self, rfl⟩
      · exact .inr ⟨List.mem_cons_of_mem _ source, List.mem_cons_of_mem _ target, bare⟩

/-- An edge of a flow that was built has ends among its nodes, and the payload of a specification or
none. -/
theorem exists_of_mem_edges_build {fields : List Field} {specs : List EdgeSpec}
    {viewport : Option Viewport} {edge : Edge} (mem : edge ∈ (build fields specs viewport).edges) :
    edge.source ∈ (build fields specs viewport).ids ∧
      edge.target ∈ (build fields specs viewport).ids ∧ edge.extras = [] ∧
      ∀ data ∈ edge.data, ∃ spec ∈ specs, spec.data = some data := by
  obtain ⟨spec, inRepaired, ends, sameData, noExtras⟩ := exists_of_mem_ofSpecs mem
  obtain ⟨sameSource, sameTarget⟩ := Prod.mk.inj ends
  have ids : (build fields specs viewport).ids =
      startId :: ((cardFields (reachedFields fields specs)).map Field.id ++ [endId]) :=
    ids_column _
  rw [sameSource, sameTarget, sameData, noExtras]
  obtain kept | ⟨source, target, bare⟩ := mem_repaired inRepaired
  · obtain ⟨inSpecs, joins⟩ := List.mem_filter.1 kept
    rw [Bool.and_eq_true, List.contains_iff_mem, List.contains_iff_mem] at joins
    exact ⟨joins.1, joins.2, rfl, fun data isData => ⟨spec, inSpecs, isData⟩⟩
  · rw [ids, bare]
    refine ⟨?_, List.mem_cons_of_mem _ target, rfl, fun data none => nomatch none⟩
    obtain isStart | inCards := List.mem_cons.1 source
    · exact List.mem_cons.2 (.inl isStart)
    · exact List.mem_cons_of_mem _ (List.mem_append_left _ inCards)

/-- The edges of a flow that was built lead from the start to each of its nodes. -/
theorem path_build {fields : List Field} {specs : List EdgeSpec} {viewport : Option Viewport}
    {id : Text} (mem : id ∈ (build fields specs viewport).ids) :
    Ends.Path (build fields specs viewport).ends startId id := by
  have startReached (specs : List EdgeSpec) : startId ∈ reachedBy specs :=
    mem_reachedBy_iff.2 (Ends.Path.refl startId)
  have ids : (build fields specs viewport).ids =
      startId :: ((cardFields (reachedFields fields specs)).map Field.id ++ [endId]) :=
    ids_column _
  rw [ids] at mem
  obtain isStart | later := List.mem_cons.1 mem
  · rw [isStart]
  · rw [Flow.ends, build, ends_ofSpecs]
    exact mem_reachedBy_iff.1 ((reached_repaired _ (startReached _)).2 id later)

/-- The flow of a field list and edge specifications is sound. -/
theorem sound_build {fields : List Field} (valid : ∀ field ∈ fields, Field.format.Valid field)
    (specs : List EdgeSpec) (viewport : Option Viewport) : (build fields specs viewport).Sound := by
  have validReached : ∀ field ∈ reachedFields fields specs, Field.format.Valid field :=
    fun field mem => valid field (mem_of_mem_reachedFields mem)
  have endLaidOut : endId ∈ (build fields specs viewport).ids :=
    List.mem_map.2 ⟨endNode _, List.mem_cons_of_mem _ List.mem_concat_self, rfl⟩
  refine sound_of_column (makeColumn_cardFields validReached) rfl (fun edge mem => ?_)
    (path_build endLaidOut)
  obtain ⟨source, target, _⟩ := exists_of_mem_edges_build mem
  exact ⟨source, target⟩

/-! ## The parts of a laid out flow -/

section Parts

variable {demand : Demand} {fields : List Field} {specs : List EdgeSpec} {viewport : Option Viewport}

/-- What a demand asks of a field, it asks of the node of the field. -/
theorem each_fieldNode {field : Field} (each : Field.format.Each demand field) (y : Number) :
    Node.format.Each demand (fieldNode field y) := by
  have position : Position.format.Each demand (inColumn y) :=
    Position.each_iff.2 (demand.extras_nil _)
  have media := (Field.each_iff.1 each).2.2.1
  unfold fieldNode
  split
  · exact Card.each_content_iff.2 ⟨demand.extras_nil _, position,
      StatementData.each_iff.2 ⟨demand.extras_nil _, media⟩⟩
  · exact Card.each_content_iff.2 ⟨demand.extras_nil _, position,
      QuestionData.each_iff.2 ⟨demand.extras_nil _, each, media⟩⟩

/-- A demand asks nothing of the start of a column. -/
theorem each_startNode : Node.format.Each demand startNode :=
  Card.each_marker_iff.2
    ⟨demand.extras_nil _, Position.each_iff.2 (demand.extras_nil _), demand.extras_nil _⟩

/-- A demand asks nothing of the end of a column. -/
theorem each_endNode (y : Number) : Node.format.Each demand (endNode y) :=
  Card.each_marker_iff.2
    ⟨demand.extras_nil _, Position.each_iff.2 (demand.extras_nil _), demand.extras_nil _⟩

/-- What a demand asks of some fields, it asks of their column. -/
theorem each_column (each : ∀ field ∈ fields, Field.format.Each demand field) :
    ∀ node ∈ column fields, Node.format.Each demand node := by
  intro node mem
  obtain rfl | ⟨field, inFields, y, rfl⟩ | ⟨y, rfl⟩ := mem_column mem
  · exact each_startNode
  · exact each_fieldNode (each field inFields) y
  · exact each_endNode y

/-- The node of a field can be read once it was written where the field can. -/
theorem valid_fieldNode {field : Field} (valid : Field.format.Valid field) (y : Number) :
    Node.format.Valid (fieldNode field y) := by
  obtain ⟨name, _, _, media, _⟩ := Field.valid_iff.1 valid
  unfold fieldNode
  split
  · exact Card.valid_content_iff.2 ⟨name, StatementData.valid_iff.2 media⟩
  · exact Card.valid_content_iff.2 ⟨name, QuestionData.valid_iff.2 ⟨valid, media⟩⟩

/-- The nodes of a column can be read once they were written where its fields can. -/
theorem valid_column (valid : ∀ field ∈ fields, Field.format.Valid field) :
    ∀ node ∈ column fields, Node.format.Valid node := by
  intro node mem
  obtain rfl | ⟨field, inFields, y, rfl⟩ | ⟨y, rfl⟩ := mem_column mem
  · exact Card.valid_marker _
  · exact valid_fieldNode (valid field inFields) y
  · exact Card.valid_marker _

/-- What a demand asks of the payloads of edge specifications, it asks of their edges. -/
theorem each_ofSpecs (each : ∀ spec ∈ specs, ∀ data ∈ spec.data, EdgeData.format.Each demand data) :
    ∀ edge ∈ Edge.ofSpecs specs, Edge.format.Each demand edge := by
  intro edge mem
  obtain ⟨spec, inSpecs, _, sameData, noExtras⟩ := exists_of_mem_ofSpecs mem
  rw [Edge.each_iff, sameData, noExtras]
  exact ⟨demand.extras_nil _, each spec inSpecs⟩

/-- The edges of a chain have no payloads. -/
theorem each_edges_chainSpecs (ids : List Text) :
    ∀ edge ∈ Edge.ofSpecs (chainSpecs ids), Edge.format.Each demand edge := by
  refine each_ofSpecs fun spec inChain => ?_
  obtain ⟨_, _, rfl⟩ := List.mem_map.1 inChain
  exact fun _ none => nomatch none

/-- What a demand asks of some fields, it asks of the chain through them. -/
theorem each_chain (each : ∀ field ∈ fields, Field.format.Each demand field)
    (viewportEach : ∀ shown ∈ viewport, Viewport.format.Each demand shown) :
    format.Each demand (chain fields viewport) :=
  each_iff.2 ⟨demand.extras_nil _, each_column fun field mem => each field (mem_firstsAfter mem).1,
    each_edges_chainSpecs _, viewportEach⟩

/-- A demand asks nothing of a chain through text fields with their required parts only. -/
theorem each_chain_bare (ids : List Text) : format.Each demand (chain (ids.map .bare) none) :=
  each_chain (List.forall_mem_map.2 fun id _ => Field.each_bare id) fun _ none => nomatch none

/-- What a demand asks of some fields and the payloads of edge specifications, it asks of the flow
that is built from them. -/
theorem each_build (each : ∀ field ∈ fields, Field.format.Each demand field)
    (specsEach : ∀ spec ∈ specs, ∀ data ∈ spec.data, EdgeData.format.Each demand data)
    (viewportEach : ∀ shown ∈ viewport, Viewport.format.Each demand shown) :
    format.Each demand (build fields specs viewport) := by
  refine each_iff.2 ⟨demand.extras_nil _, each_column fun field mem => each field
    (mem_of_mem_reachedFields (mem_firstsAfter mem).1), fun edge mem => ?_, viewportEach⟩
  obtain ⟨_, _, noExtras, payload⟩ := exists_of_mem_edges_build mem
  rw [Edge.each_iff, noExtras]
  refine ⟨demand.extras_nil _, fun data isData => ?_⟩
  obtain ⟨spec, inSpecs, same⟩ := payload data isData
  exact specsEach spec inSpecs data same

/-- The chain through some fields can be read once it was written where the fields can. -/
theorem valid_chain (valid : ∀ field ∈ fields, Field.format.Valid field) :
    format.Valid (chain fields viewport) :=
  valid_iff.2 (valid_column fun field mem => valid field (mem_firstsAfter mem).1)

/-- The flow that is built from some fields can be read once it was written where the fields can. -/
theorem valid_build (valid : ∀ field ∈ fields, Field.format.Valid field) :
    format.Valid (build fields specs viewport) :=
  valid_iff.2 (valid_column fun field mem =>
    valid field (mem_of_mem_reachedFields (mem_firstsAfter mem).1))

end Parts

end Flow

end CardForm
