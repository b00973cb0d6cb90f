import CardForm.Proofs.Flow.Built
import CardForm.Proofs.Flow.Linear

/-!
# Which cards of a built flow are shown

A flow that is built stands for the fields of its cards, in the order in which its own edges reach
these without passing the end (`Flow.linear_build`). The repair counts a card as reached also where
each way to it passes the end, and leaves such a card without a way that the form shows: it is lost
exactly where an edge out of the end leads to a card that is not shown otherwise
(`Flow.shows_built_iff`, `Flow.exists_built_unshown`).
-/
namespace CardForm

/-! ## Ways past the end -/

namespace Ends

variable {ends : Ends} {a b : Text}

/-- Where each node to which an edge out of the end leads can be reached without entering the end, so can
each other node but the end that can be reached. -/
theorem path_inner_of_leaving
    (leaving : ∀ c, (endId, c) ∈ ends → c ≠ endId → (inner ends).Path a c)
    (path : ends.Path a b) (notEnd : b ≠ endId) : (inner ends).Path a b := by
  induction path with
  | refl => rfl
  | @tail b c _ edge ih =>
    by_cases fromEnd : b = endId
    · exact leaving c (fromEnd ▸ edge) notEnd
    · exact (ih fromEnd).snoc (List.mem_filter.2 ⟨edge, bne_iff_ne.2 notEnd⟩)

/-- A way that does not enter the end is a way. -/
theorem path_of_inner (path : (inner ends).Path a b) : ends.Path a b :=
  path.mono (List.filter_subset_self _)

end Ends

namespace Flow

variable {fields : List Field} {field : Field} {specs : List EdgeSpec}
  {viewport : Option Viewport} {id : Text}

/-! ## The fields of the cards -/

/-- The field that the form shows for the card of a field: the field itself, or what a statement keeps of
it. -/
def shownFor (field : Field) : Field :=
  if field.isStatement then (statementData field).shownField else field

/-- The field that is shown for a card bears the identifier of the card. -/
@[simp] theorem id_shownFor (field : Field) : (shownFor field).id = field.id := by
  unfold shownFor
  split <;> rfl

/-- What the form shows for the card of a field. -/
theorem field?_fieldNode (name : Format.name.Valid field.id) (y : Number) :
    (fieldNode field y).field? = .ok (some (shownFor field)) := by
  unfold fieldNode shownFor
  split
  · exact Node.field?_statement_eq_ok_iff.2 (.inr ⟨rfl, name, rfl⟩)
  · have sameMedia : field.media.or field.media = field.media := Option.or_self
    change Except.ok (some { field with media := field.media.or field.media }) = _
    rw [sameMedia]

/-- The identifiers of the nodes of what is built are distinct. -/
theorem nodup_ids_build (fields : List Field) (specs : List EdgeSpec)
    (viewport : Option Viewport) : (build fields specs viewport).ids.Nodup := by
  have unreserved := unreserved_cardFields (reachedFields fields specs)
  rw [cardFields_reachedFields] at unreserved
  rw [ids, nodes_build]
  exact nodup_ids_column (nodup_ids_reachedFields fields specs) unreserved

/-- The node that is shown for a card is the one that was laid out for its field. -/
theorem exists_lastNode?_build (viewport : Option Viewport)
    (mem : field ∈ reachedFields fields specs) :
    ∃ y, (build fields specs viewport).lastNode? field.id = some (fieldNode field y) := by
  obtain ⟨place, inside, rfl⟩ := List.mem_iff_getElem.1 mem
  refine ⟨.int (heightOf place), ?_⟩
  have inNodes : fieldNode (reachedFields fields specs)[place] (.int (heightOf place)) ∈
      (build fields specs viewport).nodes := by
    rw [nodes_build]
    exact List.mem_cons_of_mem _ (List.mem_append_left _ (List.mem_mapIdx.2 ⟨place, inside, rfl⟩))
  have isLast := lastNode?_of_mem (nodup_ids_build fields specs viewport) inNodes
  rwa [id_fieldNode] at isLast

/-- The edges of a built flow enter its nodes. -/
theorem mem_ids_of_entered {source : Text} (entered : (source, id) ∈ (build fields specs viewport).ends) :
    id ∈ (build fields specs viewport).ids := by
  obtain ⟨edge, inEdges, isEntered⟩ := List.mem_map.1 entered
  cases isEntered
  exact (exists_of_mem_edges_build inEdges).2.1

/-- What the edges of a built flow reach between the start and the end are cards. -/
theorem mem_ids_of_mem_discovery
    (listed : id ∈ Ends.discovery (build fields specs viewport).ends) :
    id ∈ (reachedFields fields specs).map Field.id := by
  obtain ⟨source, entered⟩ := Ends.exists_of_mem_discovery listed
  have new := Ends.notMem_of_mem_discoveryFrom listed
  rcases mem_ids_build_iff.1 (mem_ids_of_entered entered) with isStart | card | isEnd
  · exact absurd (List.mem_singleton.2 isStart) new.1
  · exact card
  · exact absurd isEnd new.2

/-- The fields for some cards are those that were laid out, as they are shown. -/
theorem fields_cards (valid : ∀ field ∈ fields, Field.format.Valid field) {cards : List Text}
    (areCards : ∀ id ∈ cards, id ∈ (reachedFields fields specs).map Field.id) :
    Node.fields (cards.filterMap (build fields specs viewport).lastNode?) =
      .ok (cards.filterMap fun id => (Field.last? fields id).map shownFor) := by
  induction cards with
  | nil => rfl
  | cons id rest ih =>
    rw [List.forall_mem_cons] at areCards
    obtain ⟨field, mem, rfl⟩ := List.mem_map.1 areCards.1
    obtain ⟨y, isLast⟩ := exists_lastNode?_build viewport mem
    have ofField : (Field.last? fields field.id).map shownFor = some (shownFor field) := by
      rw [(mem_reachedFields_iff.1 mem).1, Option.map_some]
    have name := (Field.valid_iff.1 (valid field (mem_of_mem_reachedFields mem))).1
    rw [List.filterMap_cons_some isLast,
      List.filterMap_cons_some (f := fun id => (Field.last? fields id).map shownFor) ofField]
    exact Node.fields_cons_eq_ok_iff.2 ⟨_, _, field?_fieldNode name y, ih areCards.2, rfl⟩

/-- A built flow stands for the fields of its cards, as these are shown, in the order in which its edges
reach them. -/
theorem linear_build (valid : ∀ field ∈ fields, Field.format.Valid field) :
    (build fields specs viewport).linear =
      .ok ((Ends.discovery (build fields specs viewport).ends).filterMap fun id =>
        (Field.last? fields id).map shownFor) :=
  fields_cards valid fun _ => mem_ids_of_mem_discovery

/-- The fields that a built flow stands for bear the identifiers that its edges reach. -/
theorem ids_linear_build (fields : List Field) (specs : List EdgeSpec)
    (viewport : Option Viewport) :
    ((Ends.discovery (build fields specs viewport).ends).filterMap fun id =>
      (Field.last? fields id).map shownFor).map Field.id =
        Ends.discovery (build fields specs viewport).ends := by
  have self := List.filterMap_some (l := Ends.discovery (build fields specs viewport).ends)
  refine Eq.trans ?_ self
  rw [List.map_filterMap]
  refine List.filterMap_congr fun id listed => ?_
  obtain ⟨field, mem, rfl⟩ := List.mem_map.1 (mem_ids_of_mem_discovery listed)
  rw [(mem_reachedFields_iff.1 mem).1, Option.map_some, Option.map_some, id_shownFor]

/-! ## The cards that are shown -/

/-- An edge out of the end is that of an edge specification: no repair starts there. -/
theorem exists_of_leaving_end (leaves : (endId, id) ∈ (build fields specs viewport).ends) :
    ∃ spec ∈ specs, spec.source = endId ∧ spec.target = id := by
  have ends : (build fields specs viewport).ends =
      (repaired ((build fields specs viewport).joining specs)
        (reachedBy ((build fields specs viewport).joining specs)) startId
        ((cardFields (reachedFields fields specs)).map Field.id)).map EdgeSpec.ends :=
    ends_ofSpecs _
  rw [ends] at leaves
  obtain ⟨spec, mem, isEnds⟩ := List.mem_map.1 leaves
  obtain ⟨isSource, isTarget⟩ := Prod.mk.inj isEnds
  rcases mem_repaired mem with old | ⟨inCards, _⟩
  · exact ⟨spec, (mem_joining_iff.1 old).1, isSource, isTarget⟩
  · rw [isSource, cardFields_reachedFields] at inCards
    rcases List.mem_cons.1 inCards with isStart | card
    · exact absurd isStart (by decide)
    · obtain ⟨field, inReached, isEnd⟩ := List.mem_map.1 card
      exact absurd isEnd (unreserved_reachedFields inReached).2

/-- The fields that a built flow stands for bear, in some order, the identifiers of all cards exactly where
each card to which an edge specification leads from the end is reached without entering the end. -/
theorem perm_ids_build_iff :
    (Ends.discovery (build fields specs viewport).ends).Perm
        ((build fields specs viewport).content.map Node.id) ↔
      ∀ spec ∈ specs, spec.source = endId →
        spec.target ∈ (build fields specs viewport).content.map Node.id →
          (Ends.inner (build fields specs viewport).ends).Path startId spec.target := by
  rw [ids_content_build]
  constructor
  · intro perm spec _ _ isCard
    exact (Ends.mem_discovery_iff.1 (perm.mem_iff.2 isCard)).2
  · intro leaving
    have leavingEnd : ∀ c, (endId, c) ∈ (build fields specs viewport).ends → c ≠ endId →
        (Ends.inner (build fields specs viewport).ends).Path startId c := by
      intro c leaves notEnd
      obtain ⟨spec, inSpecs, isSource, rfl⟩ := exists_of_leaving_end leaves
      rcases mem_ids_build_iff.1 (mem_ids_of_entered leaves) with isStart | card | isEnd
      · rw [isStart]
      · exact leaving spec inSpecs isSource card
      · exact absurd isEnd notEnd
    refine (List.perm_ext_iff_of_nodup (Ends.nodup_discovery _)
      (nodup_ids_reachedFields fields specs)).2 fun id => ⟨mem_ids_of_mem_discovery, fun card => ?_⟩
    obtain ⟨field, mem, rfl⟩ := List.mem_map.1 card
    obtain ⟨notStart, notEnd⟩ := unreserved_reachedFields mem
    have laid : field.id ∈ (build fields specs viewport).ids := mem_ids_build_iff.2 (.inr (.inl card))
    exact Ends.mem_discovery_iff.2
      ⟨notStart, Ends.path_inner_of_leaving leavingEnd (path_build laid) notEnd⟩

/-! ## Where all that is reached is known -/

/-- The targets of a node by the edges of some specifications. -/
theorem targets_ends (specs : List EdgeSpec) (id : Text) :
    Ends.targets (specs.map EdgeSpec.ends) id =
      (specs.filter fun spec => spec.source == id).map EdgeSpec.target := by
  rw [Ends.targets, List.filter_map, List.map_map]
  rfl

/-- The specifications reach identifiers of fields only where each identifier to which a path leads that
does not enter the end is that of a field. -/
theorem known_of_paths (known : ∀ id, id ≠ startId → id ≠ endId →
      (Ends.inner (specs.map EdgeSpec.ends)).Path startId id → id ∈ fields.map Field.id) :
    ∀ id ∈ Ends.discovery (specs.map EdgeSpec.ends), id ∈ fields.map Field.id := by
  intro id listed
  obtain ⟨notStart, path⟩ := Ends.mem_discovery_iff.1 listed
  exact known id notStart (Ends.notMem_of_mem_discoveryFrom listed).2 path

/-- The cards are all that the specifications reach where each identifier that these reach is that of a
field. -/
theorem ids_reachedFields_of_known
    (known : ∀ id ∈ Ends.discovery (specs.map EdgeSpec.ends), id ∈ fields.map Field.id) :
    (reachedFields fields specs).map Field.id = Ends.discovery (specs.map EdgeSpec.ends) := by
  rw [ids_reachedFields]
  exact List.filter_eq_self.2 fun id listed => decide_eq_true (known id listed)

/-- The specifications that join nodes then reach the same in the same order. -/
theorem discovery_joining (viewport : Option Viewport)
    (known : ∀ id ∈ Ends.discovery (specs.map EdgeSpec.ends), id ∈ fields.map Field.id) :
    Ends.discovery (((build fields specs viewport).joining specs).map EdgeSpec.ends) =
      Ends.discovery (specs.map EdgeSpec.ends) := by
  have order := Ends.breadthFirst_discovery (specs.map EdgeSpec.ends)
  have laid : ∀ id ∈ startId :: Ends.discovery (specs.map EdgeSpec.ends),
      id ∈ (build fields specs viewport).ids := by
    rw [ids_build, ids_reachedFields_of_known known, ← List.cons_append]
    exact fun id => List.mem_append_left _
  refine Ends.discovery_congr fun id listed => ?_
  simp only [Ends.targets_inner, targets_ends, joining, List.filter_map, List.filter_filter]
  congr 1
  refine List.filter_congr fun spec inSpecs => ?_
  -- An edge that goes on from what is reached, and not into the end, joins two nodes.
  by_cases goesOn : spec.source = id ∧ spec.target ≠ endId
  · obtain ⟨rfl, notEnd⟩ := goesOn
    have edge : (spec.source, spec.target) ∈ Ends.inner (specs.map EdgeSpec.ends) :=
      List.mem_filter.2 ⟨List.mem_map_of_mem inSpecs, bne_iff_ne.2 notEnd⟩
    have targetListed := order.mem_iff.2 ((order.mem_iff.1 listed).snoc edge)
    simp [laid _ listed, laid _ targetListed]
  · rw [not_and_or, not_not] at goesOn
    rcases goesOn with other | entersEnd
    · simp [beq_eq_false_iff_ne.2 other]
    · simp [entersEnd]

/-- A repair then only joins the last card to the end. -/
theorem entersEnd_of_known {added : List EdgeSpec}
    (known : ∀ id ∈ Ends.discovery (specs.map EdgeSpec.ends), id ∈ fields.map Field.id)
    (repairs : Repairs ((build fields specs viewport).joining specs)
      (build fields specs viewport).ids added) : ∀ spec ∈ added, spec.target = endId := by
  intro spec mem
  obtain ⟨before, after, parts⟩ := List.append_of_mem mem
  have step := repairs.steps.subset (List.mem_map_of_mem (f := EdgeSpec.ends) mem)
  have laid := (List.of_mem_zip step).2
  rw [ids_build, List.tail_cons, ids_reachedFields_of_known known, List.mem_append,
    List.mem_singleton] at laid
  refine laid.resolve_left fun listed => repairs.needed before spec after parts ?_
  rw [← discovery_joining viewport known] at listed
  have path := Ends.path_of_inner (Ends.mem_discovery_iff.1 listed).2
  exact path.mono (List.map_subset _ (List.subset_append_left _ _))

/-- So what is built reaches the same in the same order. -/
theorem discovery_build
    (known : ∀ id ∈ Ends.discovery (specs.map EdgeSpec.ends), id ∈ fields.map Field.id) :
    Ends.discovery (build fields specs viewport).ends =
      Ends.discovery (specs.map EdgeSpec.ends) := by
  obtain ⟨added, edges, repairs⟩ := exists_edges_build fields specs viewport
  have entering : Ends.inner (added.map EdgeSpec.ends) = [] := by
    refine List.filter_eq_nil_iff.2 (List.forall_mem_map.2 fun spec mem => ?_)
    simp [EdgeSpec.ends, entersEnd_of_known known repairs spec mem]
  have sameInner : Ends.inner (build fields specs viewport).ends =
      Ends.inner (((build fields specs viewport).joining specs).map EdgeSpec.ends) := by
    rw [Flow.ends, edges, ends_ofSpecs, List.map_append, Ends.inner, List.filter_append]
    exact (congrArg (_ ++ ·) entering).trans (List.append_nil _)
  rw [← discovery_joining viewport known]
  exact Ends.discovery_congr fun id _ => by rw [sameInner]

/-- A built flow stands for fields with distinct identifiers, which are those of its cards to which its own
edges lead from the start without entering the end. These are all of its cards exactly where each card
to which an edge specification leads from the end is among them. They are, and in the order in which the
cards are laid out, where each identifier that the specifications reach is that of a field. -/
theorem shows_built_iff (fields : List Field) (specs : List EdgeSpec) (viewport : Option Viewport)
    (fieldsRead : ∀ field ∈ fields, ∃ found, Field.read found = .ok field) :
    ∃ shown, (build fields specs viewport).linear = .ok shown ∧ (shown.map Field.id).Nodup ∧
      (∀ id, id ∈ shown.map Field.id ↔
        id ∈ (build fields specs viewport).content.map Node.id ∧
          Ends.Path (Ends.inner (build fields specs viewport).ends) startId id) ∧
      ((shown.map Field.id).Perm ((build fields specs viewport).content.map Node.id) ↔
        ∀ spec ∈ specs, spec.source = endId →
          spec.target ∈ (build fields specs viewport).content.map Node.id →
            Ends.Path (Ends.inner (build fields specs viewport).ends) startId spec.target) ∧
      ((∀ id, id ≠ startId → id ≠ endId →
          Ends.Path (Ends.inner (specs.map EdgeSpec.ends)) startId id → id ∈ fields.map Field.id) →
        shown.map Field.id = (build fields specs viewport).content.map Node.id) := by
  refine ⟨_, linear_build (Field.valid_of_reads fieldsRead), ?_⟩
  rw [ids_linear_build]
  refine ⟨Ends.nodup_discovery _, fun id => ?_, perm_ids_build_iff, fun known => ?_⟩
  · rw [ids_content_build]
    constructor
    · exact fun listed => ⟨mem_ids_of_mem_discovery listed, (Ends.mem_discovery_iff.1 listed).2⟩
    · rintro ⟨card, path⟩
      obtain ⟨field, mem, rfl⟩ := List.mem_map.1 card
      exact Ends.mem_discovery_iff.2 ⟨(unreserved_reachedFields mem).1, path⟩
  · have knownIds := known_of_paths known
    rw [discovery_build knownIds, ids_content_build, ids_reachedFields_of_known knownIds]

/-- A card that is reached through an identifier of no field is shown, as no edge leads out of the end. -/
theorem shows_built_relinked :
    ∃ shown, (build [.bare "a"] [⟨"start", "ghost", none, []⟩, ⟨"ghost", "a", none, []⟩]
        none).linear = .ok shown ∧
      (shown.map Field.id).Perm ((build [.bare "a"] [⟨"start", "ghost", none, []⟩,
        ⟨"ghost", "a", none, []⟩] none).content.map Node.id) := by
  obtain ⟨shown, isLinear, _, _, perm, _⟩ := shows_built_iff [.bare "a"]
    [⟨"start", "ghost", none, []⟩, ⟨"ghost", "a", none, []⟩] none
    (Field.exists_read_bare ["a"] (by decide))
  refine ⟨shown, isLinear, perm.2 fun spec mem fromEnd => ?_⟩
  rcases List.mem_cons.1 mem with rfl | later
  · exact absurd fromEnd (by decide)
  · cases List.mem_singleton.1 later
    exact absurd fromEnd (by decide)

/-- Edge specifications that lead to a card through an identifier of no field, and past the end. -/
def passing : List EdgeSpec :=
  [⟨"start", "ghost", none, []⟩, ⟨"ghost", "a", none, []⟩, ⟨"start", "end", none, []⟩,
    ⟨"end", "a", none, []⟩]

/-- The card is laid out. -/
theorem reachedFields_passing : reachedFields [.bare "a"] passing = [.bare "a"] := by
  have order : Ends.BreadthFirst (Ends.inner (passing.map EdgeSpec.ends)) startId
      [startId, "ghost", "a"] := by
    have toGhost : Ends.Path (Ends.inner (passing.map EdgeSpec.ends)) startId "ghost" :=
      .snoc (.refl _) (by decide)
    have toCard : Ends.Path (Ends.inner (passing.map EdgeSpec.ends)) startId "a" :=
      toGhost.snoc (by decide)
    exact ⟨by simp [toGhost, toCard, Ends.Path.refl], by decide⟩
  rw [reachedFields, Ends.discovery_eq order]
  rfl

/-- The repair counts it as reached. -/
theorem edges_passing : (build [.bare "a"] passing none).edges =
    Edge.ofSpecs [⟨"start", "end", none, []⟩, ⟨"end", "a", none, []⟩] := by
  have joining : (build [.bare "a"] passing none).joining passing =
      [⟨"start", "end", none, []⟩, ⟨"end", "a", none, []⟩] := by
    rw [Flow.joining, ids_build, reachedFields_passing]
    rfl
  obtain ⟨added, edges, repairs⟩ := exists_edges_build [.bare "a"] passing none
  rw [joining] at edges repairs
  have toEnd : Ends.Path [("start", "end"), ("end", "a")] startId endId :=
    .snoc (.refl _) (by decide)
  have toCard : Ends.Path [("start", "end"), ("end", "a")] startId "a" := toEnd.snoc (by decide)
  have nothing : added = [] := by
    refine repairs.eq_nil ?_
    rw [ids_build, reachedFields_passing]
    exact List.forall_mem_cons.2
      ⟨.refl _, List.forall_mem_cons.2 ⟨toCard, List.forall_mem_singleton.2 toEnd⟩⟩
  rw [edges, nothing, List.append_nil]

/-- A card to which each way leads past the end is laid out and not shown. -/
theorem exists_built_unshown :
    ∃ (fields : List Field) (specs : List EdgeSpec) (shown : List Field),
      (∀ field ∈ fields, ∃ found, Field.read found = .ok field) ∧
      (∀ spec ∈ specs, ∃ found, EdgeSpec.read found = .ok spec) ∧
      (build fields specs none).linear = .ok shown ∧
      ¬(shown.map Field.id).Perm ((build fields specs none).content.map Node.id) := by
  have valid := Field.valid_bare ["a"] (by decide)
  have ends : (build [.bare "a"] passing none).ends =
      ([("start", "end"), ("end", "a")] : List (Text × Text)) := by
    rw [Flow.ends, edges_passing]
    rfl
  have nothing : Ends.discovery [("start", "end"), ("end", "a")] = [] :=
    Ends.discovery_eq ⟨by simp [Ends.Path.refl], by decide⟩
  refine ⟨[.bare "a"], passing, _, Field.exists_read_bare ["a"] (by decide),
    EdgeSpec.exists_read_bare [("start", "ghost"), ("ghost", "a"), ("start", "end"), ("end", "a")],
    linear_build valid, fun perm => ?_⟩
  rw [ids_linear_build, ends, nothing, ids_content_build, reachedFields_passing] at perm
  exact absurd perm.length_eq (by decide)

end Flow

end CardForm
