import CardForm.Proofs.Flow.Reach
import Mathlib.Data.List.Perm.Subperm

/-!
# The breadth-first order

`Ends.BreadthFirst` says what a breadth-first order is, without a queue: a node is listed where it
first comes among the root and the targets of the listed nodes. There is one such order only
(`BreadthFirst.unique`), and the search for reachable nodes lists them in it
(`Ends.breadthFirst_reachable`). The search for the nodes between the start and the end marks a node
when it leaves the queue, and not when it enters it, but lists the same nodes in the same order: those
to which a path leads that does not enter the end (`Ends.breadthFirst_discovery`). A node without edges of
its own can be left out of the order, and the others stay in theirs (`BreadthFirst.without_leaf`).
-/
namespace CardForm.Ends

/-- A list without its repetitions has none. -/
theorem nodup_eraseDups (ids : List Text) : ids.eraseDups.Nodup := by
  match ids with
  | [] => exact List.nodup_nil
  | id :: rest =>
    rw [List.eraseDups_cons, List.nodup_cons]
    refine ⟨fun again => ?_, nodup_eraseDups _⟩
    have other := (List.mem_filter.1 (List.mem_eraseDups.1 again)).2
    simp at other
termination_by ids.length
decreasing_by exact Nat.lt_succ_of_le (List.length_filter_le _ _)

/-- Leaving out some nodes and leaving out repetitions can be done in either order. -/
theorem filter_eraseDups (keeps : Text → Bool) (ids : List Text) :
    ids.eraseDups.filter keeps = (ids.filter keeps).eraseDups := by
  match ids with
  | [] => rfl
  | id :: rest =>
    have ih := filter_eraseDups keeps (rest.filter fun other => !other == id)
    rw [List.eraseDups_cons]
    by_cases kept : keeps id = true
    · rw [List.filter_cons_of_pos kept, List.filter_cons_of_pos kept, List.eraseDups_cons, ih,
        List.filter_filter, List.filter_filter]
      congr 2
      exact List.filter_congr fun other _ => Bool.and_comm _ _
    · have others : (rest.filter fun other => !other == id).filter keeps = rest.filter keeps := by
        rw [List.filter_filter]
        refine List.filter_congr fun other _ => ?_
        by_cases same : other = id
        · rw [same, Bool.eq_false_iff.2 kept, Bool.false_and]
        · simp [same]
      rw [List.filter_cons_of_neg kept, List.filter_cons_of_neg kept, ih, others]
termination_by ids.length
decreasing_by exact Nat.lt_succ_of_le (List.length_filter_le _ _)

/-! ## What a breadth-first order is -/

/-- A root and the targets of some nodes, each where it first comes. -/
def met (ends : Ends) (root : Text) (done : List Text) : List Text :=
  (root :: done.flatMap ends.targets).eraseDups

/-- The breadth-first order of what can be reached from a root. -/
structure BreadthFirst (ends : Ends) (root : Text) (order : List Text) : Prop where
  /-- A path leads from the root to each node of the order. -/
  reached : ∀ id ∈ order, ends.Path root id
  /-- Each node comes where it is first met, as the root or as a target of a node of the order. -/
  first : order = ends.met root order

variable {ends : Ends} {root id : Text} {order other : List Text}

/-- The root and the targets of some nodes are met. -/
theorem mem_met_iff {done : List Text} :
    id ∈ ends.met root done ↔ id = root ∨ ∃ node ∈ done, (node, id) ∈ ends := by
  rw [met, List.mem_eraseDups, List.mem_cons, List.mem_flatMap]
  simp only [mem_targets]

/-- After one more node is done, its targets are met that were not met before. -/
theorem met_concat (ends : Ends) (root : Text) (done : List Text) (source : Text) :
    ends.met root (done ++ [source]) =
      ends.met root done ++ ends.fresh (ends.met root done) source := by
  have same : ∀ target ∈ ends.targets source,
      (!List.elem target (root :: done.flatMap ends.targets)) =
        !(ends.met root done).contains target := by
    intro target _
    rw [Bool.eq_iff_iff]
    simp [met]
  rw [met, List.flatMap_append, List.flatMap_singleton, ← List.cons_append, List.eraseDups_append,
    List.removeAll, List.filter_congr same]
  rfl

/-- What is met by the nodes of a prefix is met first. -/
theorem met_isPrefix {done more : List Text} (prefixed : done <+: more) :
    ends.met root done <+: ends.met root more := by
  obtain ⟨later, rfl⟩ := prefixed
  rw [met, met, List.flatMap_append, ← List.cons_append, List.eraseDups_append]
  exact List.prefix_append _ _

namespace BreadthFirst

/-- The order lists what can be reached from the root. -/
theorem mem_iff (isOrder : BreadthFirst ends root order) : id ∈ order ↔ ends.Path root id := by
  refine ⟨isOrder.reached id, fun path => ?_⟩
  induction path with
  | refl =>
    rw [isOrder.first]
    exact mem_met_iff.2 (.inl rfl)
  | tail _ edge listed =>
    rw [isOrder.first]
    exact mem_met_iff.2 (.inr ⟨_, listed, edge⟩)

/-- The order lists no node twice. -/
theorem nodup (isOrder : BreadthFirst ends root order) : order.Nodup := by
  rw [isOrder.first]
  exact nodup_eraseDups _

/-- What is met by the first nodes of the order comes first in it. -/
theorem met_isPrefix_order (isOrder : BreadthFirst ends root order) {done : List Text}
    (prefixed : done <+: order) : ends.met root done <+: order := by
  have metFirst : ends.met root done <+: ends.met root order := met_isPrefix prefixed
  rwa [← isOrder.first] at metFirst

/-- Before the order ends, more nodes are met than done: else the nodes done so far would have no
target but themselves, and nothing else could be reached. -/
theorem length_lt_met (isOrder : BreadthFirst ends root order) {done : List Text}
    (prefixed : done <+: order) (more : done.length < order.length) :
    done.length < (ends.met root done).length := by
  refine Nat.lt_of_not_le fun noMore => ?_
  have closed : ends.met root done <+: done :=
    List.prefix_of_prefix_length_le (isOrder.met_isPrefix_order prefixed) prefixed noMore
  have allDone : ∀ id, ends.Path root id → id ∈ done := by
    intro id path
    induction path with
    | refl => exact closed.subset (mem_met_iff.2 (.inl rfl))
    | tail _ edge isDone => exact closed.subset (mem_met_iff.2 (.inr ⟨_, isDone, edge⟩))
  have subset : order ⊆ done := fun id listed => allDone id (isOrder.reached id listed)
  exact Nat.not_le.2 more (List.subperm_of_subset isOrder.nodup subset).length_le

/-- There is one breadth-first order only. -/
theorem unique (isOrder : BreadthFirst ends root order) (isOther : BreadthFirst ends root other) :
    order = other := by
  -- Each order goes on as the other does, because what is met next depends on what is done only.
  have agrees {order other : List Text} (isOrder : BreadthFirst ends root order)
      (isOther : BreadthFirst ends root other) (n : Nat) : order.take n <+: other := by
    induction n with
    | zero => exact List.nil_prefix
    | succ n ih =>
      by_cases more : n < order.length
      · have done : order.take n <+: order := List.take_prefix n order
        have metMore := isOrder.length_lt_met done (by rw [List.length_take]; omega)
        have inOrder := isOrder.met_isPrefix_order done
        have inOther := isOther.met_isPrefix_order ih
        refine (List.prefix_of_prefix_length_le (List.take_prefix _ _) inOrder ?_).trans inOther
        rw [List.length_take] at metMore ⊢
        omega
      · have whole : order.length ≤ n := Nat.le_of_not_lt more
        rw [List.take_of_length_le whole] at ih
        rwa [List.take_of_length_le (Nat.le_succ_of_le whole)]
  have left := agrees isOrder isOther order.length
  have right := agrees isOther isOrder other.length
  rw [List.take_length] at left right
  exact left.eq_of_length (Nat.le_antisymm left.length_le right.length_le)

/-- The order stays one where the nodes in it keep their targets. -/
theorem of_targets (isOrder : BreadthFirst ends root order) {more : Ends}
    (same : ∀ id ∈ order, more.targets id = ends.targets id) : BreadthFirst more root order where
  reached := by
    intro id listed
    have path := isOrder.reached id listed
    clear listed
    induction path with
    | refl => rfl
    | @tail source target path edge ih =>
      have isTarget : target ∈ ends.targets source := mem_targets.2 edge
      rw [← same source (isOrder.mem_iff.2 path)] at isTarget
      exact ih.snoc (mem_targets.1 isTarget)
  first := by
    rw [met, List.flatMap_congr same]
    exact isOrder.first

end BreadthFirst

/-! ## Leaves -/

/-- The edges but those that enter a node. -/
def notInto (ends : Ends) (id : Text) : Ends := ends.filter fun e => e.2 != id

/-- The targets of a node by edges that do not enter another one. -/
theorem targets_notInto (ends : Ends) (id source : Text) :
    (ends.notInto id).targets source = (ends.targets source).filter (· != id) := by
  rw [targets, targets, notInto, List.filter_filter, List.filter_map, List.filter_filter]
  congr 1
  exact List.filter_congr fun _ _ => Bool.and_comm _ _

/-- No path to another node goes through a leaf. -/
theorem path_notInto_iff (leaf : ends.targets id = []) {node : Text} (notLeaf : node ≠ id) :
    (ends.notInto id).Path root node ↔ ends.Path root node := by
  constructor
  · exact Path.mono (List.filter_subset_self _)
  · intro path
    induction path with
    | refl => rfl
    | @tail source target _ edge ih =>
      have sourceNotLeaf : source ≠ id := by
        rintro rfl
        have isTarget := mem_targets.2 edge
        rw [leaf] at isTarget
        cases isTarget
      exact (ih sourceNotLeaf).snoc (List.mem_filter.2 ⟨edge, bne_iff_ne.2 notLeaf⟩)

/-- Nothing is met from a leaf, so it can be left out of the nodes from which others are met. -/
theorem flatMap_targets_leaf (leaf : ends.targets id = []) (nodes : List Text) :
    (nodes.filter (· != id)).flatMap ends.targets = nodes.flatMap ends.targets := by
  induction nodes with
  | nil => rfl
  | cons node rest ih =>
    rw [List.flatMap_cons, ← ih]
    by_cases isLeaf : node = id
    · rw [List.filter_cons_of_neg (by simp [isLeaf]), isLeaf, leaf, List.nil_append]
    · rw [List.filter_cons_of_pos (by simp [isLeaf]), List.flatMap_cons]

/-- Without a leaf the others stay in their order. -/
theorem BreadthFirst.without_leaf (isOrder : BreadthFirst ends root order)
    (leaf : ends.targets id = []) (notRoot : root ≠ id) :
    BreadthFirst (ends.notInto id) root (order.filter (· != id)) where
  reached node mem := by
    obtain ⟨listed, notLeaf⟩ := List.mem_filter.1 mem
    exact (path_notInto_iff leaf (bne_iff_ne.1 notLeaf)).2 (isOrder.reached node listed)
  first := by
    have others : (root :: order.flatMap ends.targets).filter (· != id) =
        root :: (order.filter (· != id)).flatMap (ends.notInto id).targets := by
      have stillLeaf : (ends.notInto id).targets id = [] := by
        rw [targets_notInto, leaf, List.filter_nil]
      rw [List.filter_cons_of_pos (by simp [notRoot]), List.filter_flatMap,
        flatMap_targets_leaf stillLeaf]
      congr 1
      exact List.flatMap_congr fun node _ => (targets_notInto ends id node).symm
    calc order.filter (· != id)
        = (ends.met root order).filter (· != id) := by rw [← isOrder.first]
      _ = ((root :: order.flatMap ends.targets).filter (· != id)).eraseDups := filter_eraseDups _ _
      _ = (ends.notInto id).met root (order.filter (· != id)) := by rw [others, met]

/-! ## The search for reachable nodes -/

/-- One step of the search: a node leaves the queue, and its fresh targets enter it. -/
theorem reachableFrom_cons (ends : Ends) (seen : List Text) (source : Text) (rest : List Text) :
    ends.reachableFrom seen (source :: rest) =
      ends.reachableFrom (seen ++ ends.fresh seen source) (rest ++ ends.fresh seen source) := by
  rw [reachableFrom]
  split
  · rename_i none
    rw [none, List.append_nil, List.append_nil]
  · rfl

/-- Where what was seen is what the nodes outside the queue have met, this is so at the end of the
search. -/
theorem reachableFrom_first {seen queue : List Text} (done : List Text)
    (parts : seen = done ++ queue) (first : seen = ends.met root done) :
    ends.reachableFrom seen queue = ends.met root (ends.reachableFrom seen queue) := by
  fun_induction reachableFrom ends seen queue generalizing done with
  | case1 seen =>
    rw [List.append_nil] at parts
    rwa [← parts] at first
  | case2 seen source rest none ih =>
    refine ih (done ++ [source]) (by simp [parts]) ?_
    rw [met_concat, ← first, none, List.append_nil]
  | case3 seen source rest _ ih =>
    refine ih (done ++ [source]) (by simp [parts]) ?_
    rw [met_concat, ← first]

/-- The search for reachable nodes meets them in the breadth-first order. -/
theorem breadthFirst_reachable (ends : Ends) (root : Text) :
    BreadthFirst ends root (ends.reachable root) where
  reached _ := mem_reachable_iff.1
  first := reachableFrom_first [] rfl rfl

/-! ## The search between the start and the end -/

/-- The targets of a node by edges that do not enter the end. -/
theorem targets_inner (ends : Ends) (id : Text) :
    (inner ends).targets id = (ends.targets id).filter (· != endId) :=
  targets_notInto ends endId id

/-- The nodes of a queue that the search between the start and the end lists, each where it first
comes. -/
def waiting (visited queue : List Text) : List Text :=
  (queue.filter fun id => id != endId && !visited.contains id).eraseDups

/-- A node waits in a queue that is neither the end nor visited. -/
theorem mem_waiting_iff {visited queue : List Text} :
    id ∈ waiting visited queue ↔ id ∈ queue ∧ id ≠ endId ∧ id ∉ visited := by
  simp [waiting]

/-- A node that leaves the queue without being listed did not wait. -/
theorem waiting_cons_old {visited rest : List Text} (old : id = endId ∨ id ∈ visited) :
    waiting visited (id :: rest) = waiting visited rest := by
  rw [waiting, List.filter_cons_of_neg, waiting]
  simpa [or_iff_not_imp_left] using old

/-- A node that leaves the queue and is listed waited first, and those after it still wait. -/
theorem waiting_cons_new {visited rest : List Text} (new : ¬(id = endId ∨ id ∈ visited)) :
    waiting visited (id :: rest) = id :: waiting (id :: visited) rest := by
  rw [waiting, List.filter_cons_of_pos (by simpa [not_or] using new), List.eraseDups_cons, waiting,
    List.filter_filter]
  congr 2
  refine List.filter_congr fun other _ => ?_
  rw [Bool.eq_iff_iff]
  simp
  tauto

/-- When the targets of a node enter the queue, those begin to wait that are fresh for a search which
marks what waits. -/
theorem waiting_append_targets {visited rest done : List Text}
    (same : ∀ other, other ∈ done ↔ other ∈ id :: visited) :
    waiting (id :: visited)
        (rest ++ (ends.targets id).filter fun target => !(id :: visited).contains target) =
      waiting (id :: visited) rest ++
        (inner ends).fresh (done ++ waiting (id :: visited) rest) id := by
  rw [waiting, List.filter_append, List.eraseDups_append, fresh, targets_inner, List.filter_filter,
    List.filter_filter, List.removeAll, List.filter_filter]
  congr 2
  refine List.filter_congr fun target _ => ?_
  rw [Bool.eq_iff_iff]
  simp [mem_waiting_iff, same]
  tauto

/-- The search that marks a node when it leaves the queue lists what the search finds that marks it
when it enters the queue, over the edges that do not enter the end. -/
theorem reachableFrom_waiting {visited queue : List Text} (done : List Text)
    (same : ∀ id, id ∈ done ↔ id ∈ visited) :
    (inner ends).reachableFrom (done ++ waiting visited queue) (waiting visited queue) =
      done ++ ends.discoveryFrom visited queue := by
  fun_induction discoveryFrom ends visited queue generalizing done with
  | case1 visited => rw [waiting, List.filter_nil, List.eraseDups_nil, reachableFrom]
  | case2 visited node rest old ih => rw [waiting_cons_old old, ih done same]
  | case3 visited node rest new ih =>
    have sameNext : ∀ id, id ∈ done ++ [node] ↔ id ∈ node :: visited := by
      intro id
      simp [same, or_comm]
    have next := ih (done ++ [node]) sameNext
    rw [waiting_append_targets sameNext] at next
    rw [waiting_cons_new new, reachableFrom_cons]
    simpa using next

/-- The start and the nodes between it and the end are what the search finds over the edges that do not
enter the end. -/
theorem reachable_inner (ends : Ends) :
    (inner ends).reachable startId = startId :: ends.discovery := by
  have entering : (inner ends).fresh [startId] startId = waiting [startId] (ends.targets startId) := by
    rw [fresh, targets_inner, List.filter_filter, waiting]
    congr 1
    exact List.filter_congr fun _ _ => Bool.and_comm _ _
  rw [reachable, reachableFrom_cons, entering]
  exact reachableFrom_waiting [startId] fun _ => Iff.rfl

/-- The nodes between the start and the end are listed in the breadth-first order of the edges that do
not enter the end. -/
theorem breadthFirst_discovery (ends : Ends) :
    BreadthFirst (inner ends) startId (startId :: ends.discovery) := by
  rw [← reachable_inner]
  exact breadthFirst_reachable _ _

/-- The nodes between the start and the end are those other than these to which a path leads from the start that
does not enter the end. -/
theorem mem_discovery_iff :
    id ∈ ends.discovery ↔ id ≠ startId ∧ (inner ends).Path startId id := by
  have isOrder := breadthFirst_discovery ends
  have notStart := (List.nodup_cons.1 isOrder.nodup).1
  rw [← isOrder.mem_iff, List.mem_cons]
  constructor
  · exact fun listed => ⟨fun isStart => notStart (isStart ▸ listed), .inr listed⟩
  · exact fun listed => listed.2.resolve_left listed.1

/-- An edge enters each node between the start and the end. -/
theorem exists_of_mem_discovery (listed : id ∈ ends.discovery) : ∃ source, (source, id) ∈ ends := by
  obtain ⟨notStart, path⟩ := mem_discovery_iff.1 listed
  rcases path.cases_tail with isStart | ⟨source, _, edge⟩
  · exact absurd isStart notStart
  · exact ⟨source, List.mem_of_mem_filter edge⟩

/-- What comes after the start in a breadth-first order of the edges that do not enter the end are the nodes
between the start and the end. -/
theorem discovery_eq (isOrder : BreadthFirst (inner ends) startId (startId :: order)) :
    ends.discovery = order :=
  (List.cons.inj ((breadthFirst_discovery ends).unique isOrder)).2

/-- Other edges leave the order as it is where the start and the nodes listed keep their targets other than
the end. -/
theorem discovery_congr {more : Ends}
    (same : ∀ id ∈ startId :: ends.discovery, (inner more).targets id = (inner ends).targets id) :
    more.discovery = ends.discovery :=
  discovery_eq ((breadthFirst_discovery ends).of_targets same)

end CardForm.Ends
