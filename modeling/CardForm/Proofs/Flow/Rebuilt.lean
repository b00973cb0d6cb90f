import CardForm.Proofs.Flow.Shown

/-!
# Building again

A flow is built as it stands where the edge specifications join only its nodes and reach all of them
(`Flow.build_of_reached`). So nothing is added to a chain, whichever way its fields are listed
(`Flow.build_chainSpecs`), and a flow that was built is built again from the fields and the edges that
it has (`Flow.rebuilt_build`).
-/
namespace CardForm.Flow

variable {fields listed cards : List Field} {specs : List EdgeSpec} {viewport : Option Viewport}

/-- A field of each of some distinct identifiers is found in any list of their fields. -/
theorem filterMap_last? (distinct : (fields.map Field.id).Nodup) (perm : listed.Perm fields) :
    (fields.map Field.id).filterMap (Field.last? listed) = fields := by
  have listedDistinct : (listed.map Field.id).Nodup := (perm.map Field.id).nodup_iff.2 distinct
  have self := List.filterMap_some (l := fields)
  refine Eq.trans ?_ self
  rw [List.filterMap_map]
  exact List.filterMap_congr fun field mem =>
    Field.last?_of_mem listedDistinct (perm.mem_iff.2 mem)

/-- Where edge specifications join only the nodes of the fields that they reach, and reach all of them,
nothing is left out and nothing is added. -/
theorem build_of_reached (viewport : Option Viewport)
    (reached : reachedFields fields specs = cards)
    (joins : ∀ spec ∈ specs, spec.source ∈ (column cards).map Node.id ∧
      spec.target ∈ (column cards).map Node.id)
    (paths : ∀ id ∈ (column cards).map Node.id, Ends.Path (specs.map EdgeSpec.ends) startId id) :
    build fields specs viewport =
      { nodes := column cards, edges := Edge.ofSpecs specs, viewport := viewport } := by
  have nodes := nodes_build fields specs viewport
  rw [reached] at nodes
  have all : (build fields specs viewport).joining specs = specs := by
    refine List.filter_eq_self.2 fun spec mem => ?_
    have laid := joins spec mem
    rw [← nodes] at laid
    rw [Bool.and_eq_true, List.contains_iff_mem, List.contains_iff_mem]
    exact laid
  obtain ⟨added, edges, repairs⟩ := exists_edges_build fields specs viewport
  rw [all] at edges repairs
  have nothing : added = [] := by
    refine repairs.eq_nil ?_
    rw [ids, nodes]
    exact paths
  rw [nothing, List.append_nil] at edges
  calc build fields specs viewport
      = { nodes := (build fields specs viewport).nodes
          edges := (build fields specs viewport).edges
          viewport := viewport } := rfl
    _ = _ := by rw [nodes, edges]

/-! ## Chains -/

/-- Fields of distinct identifiers, none of them reserved, are built into a chain by edge specifications
from each to the next, in whatever order the fields are listed. -/
theorem build_chainSpecs (fields listed : List Field) (viewport : Option Viewport)
    (distinct : (fields.map Field.id).Nodup)
    (unreserved : startId ∉ fields.map Field.id ∧ endId ∉ fields.map Field.id)
    (perm : listed.Perm fields) :
    build listed (chainSpecs (startId :: (fields.map Field.id ++ [endId]))) viewport =
      chain fields viewport := by
  have cards : cardFields fields = fields := by
    refine firstsAfter_eq_self distinct fun id mem reserved => ?_
    rcases List.mem_pair.1 reserved with rfl | rfl
    · exact unreserved.1 mem
    · exact unreserved.2 mem
  have idsDistinct : (startId :: (fields.map Field.id ++ [endId])).Nodup := by
    rw [List.nodup_cons, List.nodup_append_comm, List.mem_append, not_or]
    exact ⟨⟨unreserved.1, by decide⟩, List.nodup_cons.2 ⟨unreserved.2, distinct⟩⟩
  have ends := ends_chainSpecs (startId :: (fields.map Field.id ++ [endId]))
  rw [List.tail_cons] at ends
  have reached : reachedFields listed
      (chainSpecs (startId :: (fields.map Field.id ++ [endId]))) = fields := by
    rw [reachedFields, ends, Ends.discovery_chain _ idsDistinct, filterMap_last? distinct perm]
  rw [chain, cards, ids_column]
  refine build_of_reached viewport reached (fun spec mem => ?_) fun id mem => ?_
  · have inZip := List.mem_map_of_mem (f := EdgeSpec.ends) mem
    rw [ends] at inZip
    rw [ids_column]
    exact (List.of_mem_zip inZip).imp_right (List.mem_cons_of_mem _)
  · rw [ids_column] at mem
    rw [ends]
    exact path_chain mem

/-- A chain of two fields, of which the second is listed first. -/
theorem build_chainSpecs_swapped :
    build [.bare "b", .bare "a"] (chainSpecs ["start", "a", "b", "end"]) none =
      chain [.bare "a", .bare "b"] none :=
  build_chainSpecs [.bare "a", .bare "b"] [.bare "b", .bare "a"] none (by decide) (by decide)
    (List.Perm.swap _ _ _)

/-! ## What was built -/

/-- The node of a field is the node of what is shown for it. -/
theorem fieldNode_shownFor (field : Field) (y : Number) :
    fieldNode (shownFor field) y = fieldNode field y := by
  unfold shownFor
  split
  · rename_i isStatement
    rw [fieldNode, fieldNode, if_pos isStatement]
    rfl
  · rfl

/-- The column of some fields is that of what is shown for them. -/
theorem column_map_shownFor (cards : List Field) : column (cards.map shownFor) = column cards := by
  have nodes : fieldNodes (cards.map shownFor) = fieldNodes cards := by
    refine List.ext_getElem (by simp [fieldNodes]) fun place _ _ => ?_
    simp [fieldNodes, fieldNode_shownFor]
  rw [column, column, nodes, List.length_map]

/-- The edges of some specifications, taken as specifications again, give the same edges. -/
theorem ofSpecs_map_spec (specs : List EdgeSpec) :
    Edge.ofSpecs ((Edge.ofSpecs specs).map Edge.spec) = Edge.ofSpecs specs := by
  have taken : (Edge.ofSpecs specs).map Edge.spec = specs.map fun spec => { spec with extras := [] } :=
    map_ofSpecs (fun _ _ => rfl) specs
  have ends : (specs.map fun spec => { spec with extras := [] }).map EdgeSpec.ends =
      specs.map EdgeSpec.ends := by
    rw [List.map_map]
    rfl
  rw [taken, Edge.ofSpecs, ends, List.zip_map_left, List.map_map]
  rfl

/-- The fields that a built flow stands for are those of its cards, as they are shown and in the order in
which they are laid out, where each identifier that the specifications reach is that of a field. -/
theorem shown_of_known
    (known : ∀ id ∈ Ends.discovery (specs.map EdgeSpec.ends), id ∈ fields.map Field.id) :
    ((Ends.discovery (build fields specs viewport).ends).filterMap fun id =>
      (Field.last? fields id).map shownFor) = (reachedFields fields specs).map shownFor := by
  rw [discovery_build known, reachedFields, List.map_filterMap]

/-- The fields of the cards of what was built are shown under the same identifiers. -/
theorem ids_map_shownFor (cards : List Field) :
    (cards.map shownFor).map Field.id = cards.map Field.id := by
  rw [List.map_map]
  exact List.map_congr_left fun field _ => id_shownFor field

/-- Built of the fields that its cards show and of its own edges, what was built is the same again. -/
theorem build_map_spec
    (known : ∀ id ∈ Ends.discovery (specs.map EdgeSpec.ends), id ∈ fields.map Field.id) :
    build ((reachedFields fields specs).map shownFor)
        ((build fields specs viewport).edges.map Edge.spec) viewport =
      build fields specs viewport := by
  have ends : ((build fields specs viewport).edges.map Edge.spec).map EdgeSpec.ends =
      (build fields specs viewport).ends := by
    rw [List.map_map]
    rfl
  have reached : reachedFields ((reachedFields fields specs).map shownFor)
      ((build fields specs viewport).edges.map Edge.spec) =
        (reachedFields fields specs).map shownFor := by
    rw [reachedFields, ends, discovery_build known, ← ids_reachedFields_of_known known,
      ← ids_map_shownFor]
    refine filterMap_last? ?_ (List.Perm.refl _)
    rw [ids_map_shownFor]
    exact nodup_ids_reachedFields fields specs
  have nodes : column ((reachedFields fields specs).map shownFor) =
      (build fields specs viewport).nodes := by
    rw [column_map_shownFor, nodes_build]
  have edges : Edge.ofSpecs ((build fields specs viewport).edges.map Edge.spec) =
      (build fields specs viewport).edges := by
    obtain ⟨added, edges, _⟩ := exists_edges_build fields specs viewport
    rw [edges, ofSpecs_map_spec]
  have again := build_of_reached viewport reached
  rw [nodes, ends, edges] at again
  refine again (List.forall_mem_map.2 fun edge mem => ?_) fun id mem => path_build mem
  obtain ⟨source, target, _⟩ := exists_of_mem_edges_build mem
  exact ⟨source, target⟩

/-- A flow that was built of fields and edge specifications which reach no identifiers but those of fields
stands for these fields, as its cards show them and in the order in which they are laid out. Built of
these and its own edges, it is the same again. -/
theorem rebuilt_build (fields : List Field) (specs : List EdgeSpec) (viewport : Option Viewport)
    (fieldsRead : ∀ field ∈ fields, ∃ found, Field.read found = .ok field)
    (known : ∀ id, id ≠ startId → id ≠ endId →
      Ends.Path (Ends.inner (specs.map EdgeSpec.ends)) startId id → id ∈ fields.map Field.id) :
    ∃ shown, (build fields specs viewport).linear = .ok shown ∧
      shown.map Field.id = (build fields specs viewport).content.map Node.id ∧
      shown = ((build fields specs viewport).content.map Node.id).filterMap (fun id =>
        (Field.last? fields id).map shownFor) ∧
      build shown ((build fields specs viewport).edges.map Edge.spec)
        (build fields specs viewport).viewport = build fields specs viewport := by
  have knownIds := known_of_paths known
  have order : Ends.discovery (build fields specs viewport).ends =
      (build fields specs viewport).content.map Node.id := by
    rw [discovery_build knownIds, ids_content_build, ids_reachedFields_of_known knownIds]
  refine ⟨(reachedFields fields specs).map shownFor, ?_, ?_, ?_, build_map_spec knownIds⟩
  · rw [linear_build (Field.valid_of_reads fieldsRead), shown_of_known knownIds]
  · rw [ids_map_shownFor, ids_content_build]
  · rw [← order, shown_of_known knownIds]

/-- Edge specifications of two ways, one of them with a label, of one edge from an identifier of no field, and of
none into the end. -/
def branching : List EdgeSpec :=
  [⟨"start", "a", none, []⟩, ⟨"start", "b", some { label := some "else" }, []⟩,
    ⟨"a", "b", none, []⟩, ⟨"a", "b", none, []⟩, ⟨"ghost", "b", none, []⟩]

/-- The fields of two ways are built again from what was built of them. -/
theorem rebuilt_build_branching :
    ∃ shown, (build [.bare "b", .bare "a"] branching none).linear = .ok shown ∧
      build shown ((build [.bare "b", .bare "a"] branching none).edges.map Edge.spec) none =
        build [.bare "b", .bare "a"] branching none := by
  have order : Ends.discovery (branching.map EdgeSpec.ends) = (["a", "b"] : List Text) := by
    have toA : Ends.Path (Ends.inner (branching.map EdgeSpec.ends)) startId "a" :=
      .snoc (.refl _) (by decide)
    have toB : Ends.Path (Ends.inner (branching.map EdgeSpec.ends)) startId "b" :=
      .snoc (.refl _) (by decide)
    exact Ends.discovery_eq ⟨by simp [toA, toB, Ends.Path.refl], by decide⟩
  obtain ⟨shown, isLinear, _, _, same⟩ := rebuilt_build [.bare "b", .bare "a"] branching none
    (Field.exists_read_bare ["b", "a"] (by decide)) fun id notStart _ path => by
      have listed := Ends.mem_discovery_iff.2 ⟨notStart, path⟩
      rw [order] at listed
      exact (List.Perm.swap _ _ _).mem_iff.1 listed
  exact ⟨shown, isLinear, same⟩

end CardForm.Flow
