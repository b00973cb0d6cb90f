import CardForm.Proofs.Flow.Worklist
import Mathlib.Data.Nat.Find

/-!
# Distances in the breadth-first order

How many edges a shortest path from the root to a node has (`Ends.Distance`), and what that says of the
breadth-first order: nearer nodes come first, of nodes at one distance the one comes first whose first
predecessor does, and of those with one first predecessor the one that its edges enter first
(`Ends.Before`, `Ends.BreadthFirst.pairwise_before`). The search between the start and the end lists the
nodes so, and its queue is empty after no more steps than there are edges, although nodes enter it
repeatedly (`Ends.discovery_inOrder`).
-/
namespace CardForm.Ends

variable {ends : Ends} {root id other : Text} {order : List Text}

/-! ## Distances -/

/-- A path of a number of edges leads from a root to a node. -/
inductive Walk (ends : Ends) (root : Text) : Nat → Text → Prop where
  /-- No edge is needed to stay at the root. -/
  | here : Walk ends root 0 root
  /-- A path goes on along an edge. -/
  | onward {n : Nat} {source target : Text} : Walk ends root n source → (source, target) ∈ ends →
      Walk ends root (n + 1) target

/-- A shortest path from a root to a node has a number of edges. -/
structure Distance (ends : Ends) (root id : Text) (n : Nat) : Prop where
  /-- There is a path of so many edges. -/
  walk : ends.Walk root n id
  /-- No path has fewer. -/
  least : ∀ m, ends.Walk root m id → n ≤ m

/-- A path has some number of edges. -/
theorem path_iff_exists_walk : ends.Path root id ↔ ∃ n, ends.Walk root n id := by
  constructor
  · intro path
    induction path with
    | refl => exact ⟨0, .here⟩
    | tail _ edge ih =>
      obtain ⟨n, walk⟩ := ih
      exact ⟨n + 1, walk.onward edge⟩
  · rintro ⟨n, walk⟩
    induction walk with
    | here => rfl
    | onward _ edge ih => exact ih.snoc edge

/-- A node to which a path leads is at some distance. -/
theorem Path.exists_distance (path : ends.Path root id) : ∃ n, ends.Distance root id n := by
  classical
  have walks := path_iff_exists_walk.1 path
  exact ⟨Nat.find walks, Nat.find_spec walks, fun m walk => Nat.find_min' walks walk⟩

/-- A node is at one distance only. -/
theorem Distance.unique {m n : Nat} (isDistance : ends.Distance root id m)
    (isOther : ends.Distance root id n) : m = n :=
  Nat.le_antisymm (isDistance.least n isOther.walk) (isOther.least m isDistance.walk)

/-- A node is a predecessor of another one at the distance before: an edge leads from the one to the other,
and the one is nearer to the root by one. -/
def Precedes (ends : Ends) (root pred id : Text) : Prop :=
  (pred, id) ∈ ends ∧ ∃ n, ends.Distance root pred n ∧ ends.Distance root id (n + 1)

/-- Of the predecessors of a node at the distance before, one comes first in an order. -/
def FirstPrecedes (ends : Ends) (root : Text) (order : List Text) (pred id : Text) : Prop :=
  ends.Precedes root pred id ∧
    ∀ other, ends.Precedes root other id → order.idxOf pred ≤ order.idxOf other

/-- Of the nodes of an order from which an edge enters a node, one comes first. -/
structure FirstSource (ends : Ends) (order : List Text) (source id : Text) : Prop where
  /-- It is in the order. -/
  listed : source ∈ order
  /-- An edge leads from it to the node. -/
  edge : (source, id) ∈ ends
  /-- None comes earlier. -/
  first : ∀ other ∈ order, (other, id) ∈ ends → order.idxOf source ≤ order.idxOf other

/-- One node comes before another: it is nearer to the root; or the two are at one distance and its first
predecessor comes earlier in the order; or that is the same for both, and its edges enter the one node
first. -/
def Before (ends : Ends) (root : Text) (order : List Text) (id other : Text) : Prop :=
  ∃ m n, ends.Distance root id m ∧ ends.Distance root other n ∧
    (m < n ∨ m = n ∧ ∃ pred otherPred,
      ends.FirstPrecedes root order pred id ∧ ends.FirstPrecedes root order otherPred other ∧
        (order.idxOf pred < order.idxOf otherPred ∨
          pred = otherPred ∧ (ends.targets pred).idxOf id < (ends.targets pred).idxOf other))

/-! ## Places in lists -/

/-- With a further node in front, other nodes keep their order by the first places, and come behind it. -/
theorem pairwise_idxOf_cons {ids rest : List Text} (others : ∀ other ∈ ids, other ≠ id)
    (pairwise : ids.Pairwise fun a b => rest.idxOf a < rest.idxOf b) :
    (id :: ids).Pairwise fun a b => (id :: rest).idxOf a < (id :: rest).idxOf b := by
  have later {a : Text} (mem : a ∈ ids) : (id :: rest).idxOf a = rest.idxOf a + 1 :=
    List.idxOf_cons_ne rest (others a mem).symm
  refine List.pairwise_cons.2 ⟨fun a mem => ?_, pairwise.imp_of_mem ?_⟩
  · rw [List.idxOf_cons_self, later mem]
    exact Nat.succ_pos _
  · intro a b inA inB less
    rw [later inA, later inB]
    exact Nat.succ_lt_succ less

/-- The nodes of a list without repetitions come by their places in it. -/
theorem pairwise_idxOf {ids : List Text} (distinct : ids.Nodup) :
    ids.Pairwise fun a b => ids.idxOf a < ids.idxOf b := by
  induction ids with
  | nil => exact .nil
  | cons id rest ih =>
    obtain ⟨notMem, restDistinct⟩ := List.nodup_cons.1 distinct
    exact pairwise_idxOf_cons (fun other mem => ne_of_mem_of_not_mem mem notMem) (ih restDistinct)

/-- A list without its repetitions is in the order of the first places in the list. -/
theorem pairwise_idxOf_eraseDups (ids : List Text) :
    ids.eraseDups.Pairwise fun a b => ids.idxOf a < ids.idxOf b := by
  induction ids with
  | nil => exact .nil
  | cons id rest ih =>
    rw [List.eraseDups_cons, ← filter_eraseDups]
    refine pairwise_idxOf_cons (fun other mem => ?_) (ih.filter _)
    simpa using (List.mem_filter.1 mem).2

/-- Of two nodes of a list the one that comes first has to the other what each node has to later ones. -/
theorem rel_of_idxOf_lt {ids : List Text} {holds : Text → Text → Prop} (pairwise : ids.Pairwise holds)
    (mem : id ∈ ids) (otherMem : other ∈ ids) (less : ids.idxOf id < ids.idxOf other) :
    holds id other := by
  have rel := List.pairwise_iff_getElem.1 pairwise _ _ (List.idxOf_lt_length_of_mem mem)
    (List.idxOf_lt_length_of_mem otherMem) less
  rwa [List.getElem_idxOf, List.getElem_idxOf] at rel

/-! ## The breadth-first order by distances -/

namespace BreadthFirst

/-- What comes no later than a target of a node is the root, or a target of that node or an earlier one. -/
theorem exists_source (isOrder : BreadthFirst ends root order) {source target : Text}
    (mem : source ∈ order) (edge : (source, target) ∈ ends) (notRoot : id ≠ root)
    (noLater : order.idxOf id ≤ order.idxOf target) :
    ∃ pred ∈ order, (pred, id) ∈ ends ∧ order.idxOf pred ≤ order.idxOf source := by
  have done : order.take (order.idxOf source + 1) <+: order := List.take_prefix _ _
  have metFirst := isOrder.met_isPrefix_order done
  have targetMet : target ∈ ends.met root (order.take (order.idxOf source + 1)) :=
    mem_met_iff.2 (.inr ⟨source, (List.mem_take_iff_idxOf_lt mem).2 (Nat.lt_succ_self _), edge⟩)
  have idMet : id ∈ ends.met root (order.take (order.idxOf source + 1)) :=
    (metFirst.mem_iff_idxOf_lt_length id).2
      (Nat.lt_of_le_of_lt noLater ((metFirst.mem_iff_idxOf_lt_length target).1 targetMet))
  rcases mem_met_iff.1 idMet with isRoot | ⟨pred, isDone, enters⟩
  · exact absurd isRoot notRoot
  · have listed := done.subset isDone
    exact ⟨pred, listed, enters,
      Nat.le_of_lt_succ ((List.mem_take_iff_idxOf_lt listed).1 isDone)⟩

/-- The root comes first. -/
theorem idxOf_root (isOrder : BreadthFirst ends root order) : order.idxOf root = 0 := by
  rw [isOrder.first, met, List.eraseDups_cons, List.idxOf_cons_self]

/-- To what comes no later than a node no longer path leads than to that node. -/
theorem exists_walk_le (isOrder : BreadthFirst ends root order) {n : Nat} {target : Text}
    (walk : ends.Walk root n target) (mem : id ∈ order)
    (noLater : order.idxOf id ≤ order.idxOf target) : ∃ m ≤ n, ends.Walk root m id := by
  induction walk generalizing id with
  | here =>
    have isRoot : id = root := by
      rw [isOrder.idxOf_root] at noLater
      exact (List.idxOf_inj mem).1 (by rw [isOrder.idxOf_root]; omega)
    exact ⟨0, Nat.le_refl 0, isRoot ▸ .here⟩
  | onward walk edge ih =>
    by_cases isRoot : id = root
    · exact ⟨0, Nat.zero_le _, isRoot ▸ .here⟩
    · have sourceMem := isOrder.mem_iff.2 (path_iff_exists_walk.2 ⟨_, walk⟩)
      obtain ⟨pred, listed, enters, earlier⟩ :=
        isOrder.exists_source sourceMem edge isRoot noLater
      obtain ⟨m, le, walkPred⟩ := ih listed earlier
      exact ⟨m + 1, Nat.succ_le_succ le, walkPred.onward enters⟩

/-- What comes no later is no farther from the root. -/
theorem distance_le (isOrder : BreadthFirst ends root order) {m n : Nat}
    (isDistance : ends.Distance root id m) (isOther : ends.Distance root other n) (mem : id ∈ order)
    (noLater : order.idxOf id ≤ order.idxOf other) : m ≤ n := by
  obtain ⟨k, le, walk⟩ := isOrder.exists_walk_le isOther.walk mem noLater
  exact Nat.le_trans (isDistance.least k walk) le

/-- Of the nodes from which an edge enters a node other than the root, one comes first. -/
theorem exists_firstSource (isOrder : BreadthFirst ends root order) (mem : id ∈ order)
    (notRoot : id ≠ root) : ∃ source, ends.FirstSource order source id := by
  classical
  have entered : ∃ place, ∃ source ∈ order, (source, id) ∈ ends ∧ order.idxOf source = place := by
    rw [isOrder.first] at mem
    obtain isRoot | ⟨source, listed, edge⟩ := mem_met_iff.1 mem
    · exact absurd isRoot notRoot
    · exact ⟨_, source, listed, edge, rfl⟩
  obtain ⟨source, listed, edge, isFirst⟩ := Nat.find_spec entered
  refine ⟨source, listed, edge, fun other otherListed enters => ?_⟩
  rw [isFirst]
  exact Nat.find_min' entered ⟨other, otherListed, enters, rfl⟩

/-- The first node from which an edge enters another one is nearer to the root by one, so it is the first
predecessor at the distance before. -/
theorem firstPrecedes (isOrder : BreadthFirst ends root order) {source : Text} (mem : id ∈ order)
    (notRoot : id ≠ root) (isFirst : ends.FirstSource order source id) :
    ends.FirstPrecedes root order source id := by
  obtain ⟨n, isDistance⟩ := (isOrder.mem_iff.1 isFirst.listed).exists_distance
  obtain ⟨k, ofId⟩ := (isOrder.mem_iff.1 mem).exists_distance
  refine ⟨?_, fun other ⟨enters, m, ofOther, _⟩ => ?_⟩
  · -- the last edge of a shortest path leaves a node that comes no earlier than the first source
    cases ofId.walk with
    | here => exact absurd rfl notRoot
    | @onward m last _ walk enters =>
      have lastListed := isOrder.mem_iff.2 (path_iff_exists_walk.2 ⟨m, walk⟩)
      obtain ⟨j, le, toSource⟩ :=
        isOrder.exists_walk_le walk isFirst.listed (isFirst.first last lastListed enters)
      have least := isDistance.least j toSource
      have noShorter := ofId.least (n + 1) (isDistance.walk.onward isFirst.edge)
      have same : n = m := by omega
      exact ⟨isFirst.edge, n, isDistance, same ▸ ofId⟩
  · exact isFirst.first other (isOrder.mem_iff.2 (path_iff_exists_walk.2 ⟨m, ofOther.walk⟩)) enters

/-- A node other than the root is not met before its first source. -/
theorem notMem_met (notRoot : id ≠ root) {source : Text} (isFirst : ends.FirstSource order source id) :
    id ∉ ends.met root (order.take (order.idxOf source)) := by
  intro isMet
  obtain isRoot | ⟨other, isDone, enters⟩ := mem_met_iff.1 isMet
  · exact notRoot isRoot
  · have listed := List.mem_of_mem_take isDone
    have earlier := (List.mem_take_iff_idxOf_lt listed).1 isDone
    exact Nat.not_le.2 earlier (isFirst.first other listed enters)

/-- Of two nodes with one first source, its edges enter the one first that comes first. -/
theorem idxOf_targets_lt (isOrder : BreadthFirst ends root order) {source : Text}
    (notRoot : id ≠ root) (otherNotRoot : other ≠ root)
    (isFirst : ends.FirstSource order source id) (otherFirst : ends.FirstSource order source other)
    (less : order.idxOf id < order.idxOf other) :
    (ends.targets source).idxOf id < (ends.targets source).idxOf other := by
  have done : order.take (order.idxOf source) ++ [source] <+: order := by
    have next := List.take_append_getElem (List.idxOf_lt_length_of_mem isFirst.listed)
    rw [List.getElem_idxOf] at next
    exact next ▸ List.take_prefix _ _
  have metFirst := isOrder.met_isPrefix_order done
  rw [met_concat] at metFirst
  have notMet := notMem_met notRoot isFirst
  have otherNotMet := notMem_met otherNotRoot otherFirst
  have isFresh := mem_fresh.2 ⟨isFirst.edge, notMet⟩
  have otherFresh := mem_fresh.2 ⟨otherFirst.edge, otherNotMet⟩
  rw [← metFirst.idxOf_eq_of_mem (List.mem_append_right _ isFresh),
    ← metFirst.idxOf_eq_of_mem (List.mem_append_right _ otherFresh),
    List.idxOf_append_of_notMem notMet, List.idxOf_append_of_notMem otherNotMet] at less
  -- the fresh targets are in the order of the edges
  have inOrder : (ends.fresh (ends.met root (order.take (order.idxOf source))) source).Pairwise
      fun a b => (ends.targets source).idxOf a < (ends.targets source).idxOf b := by
    rw [fresh, ← filter_eraseDups]
    exact (pairwise_idxOf_eraseDups _).filter _
  exact rel_of_idxOf_lt inOrder isFresh otherFresh (Nat.lt_of_add_lt_add_left less)

/-- In a breadth-first order each node comes before the later ones by its distance from the root, then by
its first predecessor, then by the edges of that. -/
theorem pairwise_before (isOrder : BreadthFirst ends root (root :: order)) :
    order.Pairwise (ends.Before root (root :: order)) := by
  have places := (List.pairwise_cons.1 (pairwise_idxOf isOrder.nodup)).2
  have notRoot {id : Text} (mem : id ∈ order) : id ≠ root := fun same =>
    (List.nodup_cons.1 isOrder.nodup).1 (same ▸ mem)
  refine places.imp_of_mem fun {id other} mem otherMem less => ?_
  have listed := List.mem_cons_of_mem root mem
  have otherListed := List.mem_cons_of_mem root otherMem
  obtain ⟨m, isDistance⟩ := (isOrder.mem_iff.1 listed).exists_distance
  obtain ⟨n, isOther⟩ := (isOrder.mem_iff.1 otherListed).exists_distance
  refine ⟨m, n, isDistance, isOther, ?_⟩
  rcases Nat.lt_or_eq_of_le
    (isOrder.distance_le isDistance isOther listed (Nat.le_of_lt less)) with nearer | same
  · exact .inl nearer
  · obtain ⟨source, isFirst⟩ := isOrder.exists_firstSource listed (notRoot mem)
    obtain ⟨otherSource, otherFirst⟩ := isOrder.exists_firstSource otherListed (notRoot otherMem)
    refine .inr ⟨same, source, otherSource, isOrder.firstPrecedes listed (notRoot mem) isFirst,
      isOrder.firstPrecedes otherListed (notRoot otherMem) otherFirst, ?_⟩
    obtain ⟨entering, enteringListed, enters, earlier⟩ := isOrder.exists_source otherFirst.listed
      otherFirst.edge (notRoot mem) (Nat.le_of_lt less)
    have noLater := Nat.le_trans (isFirst.first entering enteringListed enters) earlier
    rcases Nat.lt_or_eq_of_le noLater with before | samePlace
    · exact .inl before
    · obtain rfl := (List.idxOf_inj isFirst.listed).1 samePlace
      exact .inr ⟨rfl, isOrder.idxOf_targets_lt (notRoot mem) (notRoot otherMem) isFirst otherFirst
        less⟩

end BreadthFirst

/-! ## The search step by step -/

/-- Where the search between the start and the end stands. -/
structure Search where
  /-- The nodes listed so far. -/
  listed : List Text
  /-- The nodes that are not listed any more. -/
  visited : List Text
  /-- The nodes that were met and wait, a node as often as an edge into it was followed. -/
  queue : List Text

namespace Search

/-- The search begins with the targets of the start. -/
def initial (ends : Ends) : Search := ⟨[], [startId], ends.targets startId⟩

/-- One step of the search: a node leaves the queue. If it is new, it is listed, and its targets that are
not visited enter the queue. -/
def next (ends : Ends) (search : Search) : Search :=
  match search.queue with
  | [] => search
  | node :: rest =>
    if node == endId || search.visited.contains node then { search with queue := rest }
    else
      { listed := search.listed ++ [node]
        visited := node :: search.visited
        queue := rest ++
          (ends.targets node).filter fun target => !(node :: search.visited).contains target }

section Step

variable {node : Text} {listed visited rest : List Text}

/-- The end, or a node that was visited, only leaves the queue. -/
theorem next_old (old : node = endId ∨ node ∈ visited) :
    next ends ⟨listed, visited, node :: rest⟩ = ⟨listed, visited, rest⟩ :=
  if_pos (by simpa using old)

/-- A new node is listed, and its targets enter the queue. -/
theorem next_new (new : ¬(node = endId ∨ node ∈ visited)) :
    next ends ⟨listed, visited, node :: rest⟩ =
      ⟨listed ++ [node], node :: visited,
        rest ++ (ends.targets node).filter fun target => !(node :: visited).contains target⟩ :=
  if_neg (by simpa using new)

end Step

/-- How many steps are left at most: one for each node in the queue, and one for each edge that was not
followed. -/
def stepsLeft (ends : Ends) (search : Search) : Nat :=
  search.queue.length + ends.unexpanded search.visited

/-- The edges that leave a node not yet visited are no longer unexpanded when it is. -/
theorem unexpanded_eq {visited : List Text} (new : id ∉ visited) :
    ends.unexpanded visited = (ends.targets id).length + ends.unexpanded (id :: visited) := by
  unfold unexpanded targets
  rw [List.length_map, ← List.countP_eq_length_filter]
  induction ends with
  | nil => rfl
  | cons e rest ih =>
    rw [List.countP_cons, List.countP_cons, List.countP_cons, ih]
    by_cases same : e.1 = id
    · simp [same, new]
      omega
    · simp [same]
      omega

/-- At the beginning there are as many steps left as there are edges. -/
theorem stepsLeft_initial (ends : Ends) : stepsLeft ends (initial ends) = ends.length := by
  have all : ends.unexpanded [] = ends.length := by
    simp [unexpanded]
  rw [stepsLeft, initial, ← unexpanded_eq List.not_mem_nil, all]

/-- A step leaves fewer steps, as long as the queue is not empty. -/
theorem stepsLeft_next_lt {search : Search} (waits : search.queue ≠ []) :
    stepsLeft ends (next ends search) < stepsLeft ends search := by
  obtain ⟨listed, visited, queue⟩ := search
  cases queue with
  | nil => exact absurd rfl waits
  | cons node rest =>
    by_cases old : node = endId ∨ node ∈ visited
    · simp [next_old old, stepsLeft]
    · have entering := List.length_filter_le
        (fun target => !(node :: visited).contains target) (ends.targets node)
      have expanded : ends.unexpanded visited = _ := unexpanded_eq (not_or.1 old).2
      simp only [next_new old, stepsLeft, List.length_append, List.length_cons]
      omega

/-- A step changes nothing of what is listed in the end. -/
theorem next_discoveryFrom (search : Search) :
    (next ends search).listed ++ ends.discoveryFrom (next ends search).visited (next ends search).queue =
      search.listed ++ ends.discoveryFrom search.visited search.queue := by
  obtain ⟨listed, visited, queue⟩ := search
  cases queue with
  | nil => rfl
  | cons node rest =>
    by_cases old : node = endId ∨ node ∈ visited
    · rw [next_old old]
      conv_rhs => rw [discoveryFrom, if_pos old]
    · rw [next_new old]
      conv_rhs => rw [discoveryFrom, if_neg old]
      rw [List.append_assoc, List.singleton_append]

/-- After all steps the queue is empty, and what is listed is what the search lists. -/
theorem iterate_next (search : Search) {steps : Nat} (enough : stepsLeft ends search ≤ steps) :
    ((next ends)^[steps] search).queue = [] ∧ ((next ends)^[steps] search).listed =
      search.listed ++ ends.discoveryFrom search.visited search.queue := by
  have stays : ∀ search : Search, search.queue = [] → next ends search = search := fun search empty => by
    rw [next, empty]
  have fewer : ∀ search : Search, ¬search.queue = [] →
      stepsLeft ends (next ends search) < stepsLeft ends search := fun _ => stepsLeft_next_lt
  obtain ⟨empty, same⟩ := iterate_of_fewer
    (fun search : Search => search.listed ++ ends.discoveryFrom search.visited search.queue) stays fewer
    next_discoveryFrom search enough
  rw [empty, discoveryFrom, List.append_nil] at same
  exact ⟨empty, same⟩

end Search

/-- The queue of the search between the start and the end is empty after no more steps than there are edges.
The nodes listed then are, without repetitions, those other than the start and the end to which a path leads
from the start that does not enter the end. Each comes before the later ones by its distance from the start,
then by its first predecessor, then by the edges of that. The search that marks a node when it enters the
queue lists the same. -/
theorem discovery_inOrder (ends : Ends) :
    (((Search.next ends)^[ends.length] (Search.initial ends)).queue = [] ∧
        ((Search.next ends)^[ends.length] (Search.initial ends)).listed = ends.discovery) ∧
      ends.discovery.Nodup ∧
      (∀ id, id ∈ ends.discovery ↔
        id ≠ startId ∧ id ≠ endId ∧ (inner ends).Path startId id) ∧
      ends.discovery.Pairwise ((inner ends).Before startId (startId :: ends.discovery)) ∧
      (inner ends).reachable startId = startId :: ends.discovery := by
  refine ⟨?_, nodup_discovery ends, fun id => ?_, (breadthFirst_discovery ends).pairwise_before,
    reachable_inner ends⟩
  · exact Search.iterate_next (Search.initial ends) (Nat.le_of_eq (Search.stepsLeft_initial ends))
  · rw [mem_discovery_iff]
    constructor
    · intro reached
      have listed := mem_discovery_iff.2 reached
      exact ⟨reached.1, (notMem_of_mem_discoveryFrom listed).2, reached.2⟩
    · exact fun reached => ⟨reached.1, reached.2.2⟩

end CardForm.Ends
