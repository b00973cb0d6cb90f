import CardForm.Flow.Reach
import Mathlib.Data.List.Chain
import Mathlib.Logic.Relation

/-!
# What the search for reachable nodes finds

`Ends.Path` is the relation that the search decides: some edges, one after the other, lead from a
node to another. The search meets its root, meets only nodes to which a path leads, and leaves no
node whose targets it did not meet; so it finds exactly the nodes to which a path leads
(`Ends.mem_reachable_iff`). The breadth-first order lists no node twice (`Ends.nodup_discovery`), and
those of a chain one after the other (`Ends.discovery_chain`).
-/
namespace CardForm.Ends

/-- Edges, one after the other, lead from a node to another. -/
def Path (ends : Ends) : Text → Text → Prop := Relation.ReflTransGen fun a b => (a, b) ∈ ends

namespace Path

variable {ends : Ends} {a b c : Text}

/-- No edge is needed to stay at a node. -/
@[refl] theorem refl (a : Text) : ends.Path a a := Relation.ReflTransGen.refl

/-- A path goes on along an edge. -/
theorem snoc (path : ends.Path a b) (edge : (b, c) ∈ ends) : ends.Path a c :=
  Relation.ReflTransGen.tail path edge

/-- An edge goes on along a path. -/
theorem cons (edge : (a, b) ∈ ends) (path : ends.Path b c) : ends.Path a c :=
  Relation.ReflTransGen.head edge path

/-- A path stays one where there are more edges. -/
theorem mono {more : Ends} (subset : ends ⊆ more) (path : ends.Path a b) : more.Path a b :=
  Relation.ReflTransGen.mono (fun _ _ edge => subset edge) a b path

end Path

variable {ends : Ends} {seen queue : List Text} {source target : Text}

/-- The targets of a node are the nodes that edges from it enter. -/
theorem mem_targets : target ∈ ends.targets source ↔ (source, target) ∈ ends := by
  simp only [targets, List.mem_map, List.mem_filter, beq_iff_eq]
  constructor
  · rintro ⟨e, ⟨mem, rfl⟩, rfl⟩
    exact mem
  · intro mem
    exact ⟨(source, target), ⟨mem, rfl⟩, rfl⟩

/-- The fresh targets of a node are its targets that are not yet seen. -/
theorem mem_fresh :
    target ∈ ends.fresh seen source ↔ (source, target) ∈ ends ∧ target ∉ seen := by
  simp only [fresh, List.mem_eraseDups, List.mem_filter, mem_targets, Bool.not_eq_true',
    List.contains_eq_mem, decide_eq_false_iff_not]

/-- What was seen stays seen. -/
theorem subset_reachableFrom (ends : Ends) (seen queue : List Text) :
    seen ⊆ ends.reachableFrom seen queue := by
  fun_induction reachableFrom ends seen queue with
  | case1 seen => exact List.Subset.refl _
  | case2 seen source rest _ ih => exact ih
  | case3 seen source rest _ ih => exact fun id mem => ih (List.mem_append_left _ mem)

/-- The search meets only nodes with a property that the seen nodes have, that the nodes in the
queue have, and that an edge hands on. -/
theorem reachableFrom_sound (holds : Text → Prop)
    (step : ∀ {a b}, (a, b) ∈ ends → holds a → holds b) (seenHolds : ∀ id ∈ seen, holds id)
    (queueHolds : ∀ id ∈ queue, holds id) : ∀ id ∈ ends.reachableFrom seen queue, holds id := by
  fun_induction reachableFrom ends seen queue with
  | case1 seen => exact seenHolds
  | case2 seen source rest _ ih =>
    exact ih seenHolds fun id mem => queueHolds id (List.mem_cons_of_mem _ mem)
  | case3 seen source rest _ ih =>
    have sourceHolds := queueHolds source List.mem_cons_self
    have freshHolds : ∀ id ∈ ends.fresh seen source, holds id := fun id mem =>
      step (mem_fresh.1 mem).1 sourceHolds
    apply ih
    · intro id mem
      exact (List.mem_append.1 mem).elim (seenHolds id) (freshHolds id)
    · intro id mem
      exact (List.mem_append.1 mem).elim
        (fun old => queueHolds id (List.mem_cons_of_mem _ old)) (freshHolds id)

/-- Where the targets of every seen node outside the queue are seen, the search leaves no node
whose targets it did not meet. -/
theorem reachableFrom_closed
    (closed : ∀ {a b}, a ∈ seen → a ∉ queue → (a, b) ∈ ends → b ∈ seen) {a b : Text}
    (met : a ∈ ends.reachableFrom seen queue) (edge : (a, b) ∈ ends) :
    b ∈ ends.reachableFrom seen queue := by
  fun_induction reachableFrom ends seen queue with
  | case1 seen => exact closed met List.not_mem_nil edge
  | case2 seen source rest none ih =>
    refine ih (fun {c d} inSeen notIn edge => ?_) met
    by_cases same : c = source
    · -- The node that leaves the queue has no fresh target, so all its targets were seen.
      by_cases notSeen : d ∈ seen
      · exact notSeen
      · have fresh : d ∈ ends.fresh seen source := mem_fresh.2 ⟨same ▸ edge, notSeen⟩
        rw [none] at fresh
        exact absurd fresh List.not_mem_nil
    · exact closed inSeen (by simp [same, notIn]) edge
  | case3 seen source rest _ ih =>
    refine ih (fun {c d} inSeen notIn edge => ?_) met
    rw [List.mem_append, not_or] at notIn
    have old : c ∈ seen := (List.mem_append.1 inSeen).resolve_right notIn.2
    by_cases same : c = source
    · by_cases notSeen : d ∈ seen
      · exact List.mem_append_left _ notSeen
      · exact List.mem_append_right _ (mem_fresh.2 ⟨same ▸ edge, notSeen⟩)
    · exact List.mem_append_left _ (closed old (by simp [same, notIn.1]) edge)

/-- The nodes found from a root are those to which a path leads from it. -/
theorem mem_reachable_iff {root id : Text} : id ∈ ends.reachable root ↔ ends.Path root id := by
  constructor
  · intro met
    refine reachableFrom_sound (ends.Path root) (fun edge path => path.snoc edge) ?_ ?_ id met <;>
      intro id mem <;> rw [List.mem_singleton.1 mem]
  · intro path
    unfold reachable
    induction path with
    | refl => exact subset_reachableFrom _ _ _ List.mem_cons_self
    | tail _ edge ih => exact reachableFrom_closed (fun inSeen notIn => absurd inSeen notIn) ih edge

/-- The edges that do not enter the end. -/
def inner (ends : Ends) : Ends := ends.filter fun e => e.2 != endId

/-! ## The breadth-first order -/

/-- What the order meets from a queue on is not visited before, and not the end. -/
theorem notMem_of_mem_discoveryFrom {visited : List Text} {id : Text}
    (met : id ∈ ends.discoveryFrom visited queue) : id ∉ visited ∧ id ≠ endId := by
  fun_induction discoveryFrom ends visited queue with
  | case1 visited => cases met
  | case2 visited node rest _ ih => exact ih met
  | case3 visited node rest new ih =>
    rw [not_or] at new
    rcases List.mem_cons.1 met with rfl | later
    · exact ⟨new.2, new.1⟩
    · have notVisited := ih later
      exact ⟨fun old => notVisited.1 (List.mem_cons_of_mem _ old), notVisited.2⟩

/-- The order meets no node twice. -/
theorem nodup_discoveryFrom (ends : Ends) (visited queue : List Text) :
    (ends.discoveryFrom visited queue).Nodup := by
  fun_induction discoveryFrom ends visited queue with
  | case1 visited => exact List.nodup_nil
  | case2 visited node rest _ ih => exact ih
  | case3 visited node rest _ ih =>
    refine List.nodup_cons.2 ⟨fun again => ?_, ih⟩
    exact (notMem_of_mem_discoveryFrom again).1 List.mem_cons_self

/-- The nodes between the start and the end are listed once each. -/
theorem nodup_discovery (ends : Ends) : ends.discovery.Nodup := nodup_discoveryFrom _ _ _

/-! ## The order of a chain -/

/-- The targets of a node where there is one edge more. -/
theorem targets_cons (source target id : Text) (ends : Ends) :
    targets ((source, target) :: ends) id =
      if source = id then target :: targets ends id else targets ends id := by
  by_cases same : source = id
  · simp [targets, same]
  · simp [targets, same]

/-- A node that is on the left of no pair has no targets. -/
theorem targets_zip_eq_nil {left right : List Text} (notMem : source ∉ left) :
    targets (left.zip right) source = [] := by
  refine List.eq_nil_iff_forall_not_mem.2 fun target mem => notMem ?_
  exact (List.of_mem_zip (mem_targets.1 mem)).1

/-- In a chain through distinct nodes each node has the next one as its only target. -/
theorem isChain_targets {path : List Text} (distinct : path.Nodup) :
    path.IsChain fun a b => targets (path.zip path.tail) a = [b] := by
  induction path with
  | nil => exact .nil
  | cons first rest ih =>
    obtain ⟨notMem, restDistinct⟩ := List.nodup_cons.1 distinct
    cases rest with
    | nil => exact .singleton first
    | cons second others =>
      refine List.isChain_cons_cons.2 ⟨?_, (ih restDistinct).imp_of_mem_imp ?_⟩
      · rw [List.tail_cons, List.zip_cons_cons, targets_cons, if_pos rfl, targets_zip_eq_nil notMem]
      · intro a b inRest _ single
        have other : first ≠ a := fun same => notMem (same ▸ inRest)
        rw [List.tail_cons, List.zip_cons_cons, targets_cons, if_neg other]
        exact single

/-- Where each of some distinct nodes has the next one as its only target, up to the end, the order meets
them one after the other from the first. -/
theorem discoveryFrom_of_isChain {visited ids rest : List Text} {first : Text}
    (leads : (first :: rest).IsChain fun a b => ends.targets a = [b])
    (isPath : first :: rest = ids ++ [endId]) (distinct : (first :: rest).Nodup)
    (notVisited : ∀ id ∈ first :: rest, id ∉ visited) : ends.discoveryFrom visited [first] = ids := by
  induction ids generalizing first rest visited with
  | nil =>
    obtain ⟨rfl, _⟩ := List.cons.inj isPath
    rw [discoveryFrom, if_pos (.inl rfl), discoveryFrom]
  | cons id others ih =>
    have isFirst : first = id := (List.cons.inj isPath).1
    have isRest : rest = others ++ [endId] := (List.cons.inj isPath).2
    obtain ⟨notLater, laterDistinct⟩ := List.nodup_cons.1 distinct
    have endLater : endId ∈ rest := isRest ▸ List.mem_append_right _ List.mem_cons_self
    have new : ¬(first = endId ∨ first ∈ visited) := by
      refine not_or.2 ⟨?_, notVisited first List.mem_cons_self⟩
      rintro rfl
      exact notLater endLater
    cases rest with
    | nil => cases endLater
    | cons second rest =>
      obtain ⟨target, restLeads⟩ := List.isChain_cons_cons.1 leads
      have laterNew : ∀ id ∈ second :: rest, id ∉ first :: visited := by
        intro id mem again
        rcases List.mem_cons.1 again with rfl | old
        · exact notLater mem
        · exact notVisited id (List.mem_cons_of_mem _ mem) old
      have queue : [second].filter (fun target => !(first :: visited).contains target) = [second] := by
        simpa using laterNew second List.mem_cons_self
      rw [discoveryFrom, if_neg new, target, queue, List.nil_append,
        ih restLeads isRest laterDistinct laterNew, isFirst]

/-- The nodes of a chain from the start to the end are met in their order. -/
theorem discovery_chain (ids : List Text)
    (distinct : (startId :: (ids ++ [endId])).Nodup) :
    discovery ((startId :: (ids ++ [endId])).zip (ids ++ [endId])) = ids := by
  have leads := isChain_targets distinct
  rw [List.tail_cons] at leads
  obtain ⟨notStart, laterDistinct⟩ := List.nodup_cons.1 distinct
  cases later : ids ++ [endId] with
  | nil => exact absurd later (List.append_ne_nil_of_right_ne_nil _ (List.cons_ne_nil _ _))
  | cons first rest =>
    rw [later] at leads notStart laterDistinct
    obtain ⟨target, restLeads⟩ := List.isChain_cons_cons.1 leads
    have notVisited : ∀ id ∈ first :: rest, id ∉ [startId] := by
      intro id mem isStart
      exact notStart (List.mem_singleton.1 isStart ▸ mem)
    rw [discovery, target]
    exact discoveryFrom_of_isChain restLeads later.symm laterDistinct notVisited

end CardForm.Ends
