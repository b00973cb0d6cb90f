import CardForm.Proofs.Flow.Discovery
import Mathlib.Logic.Function.Iterate

/-!
# The search for reachable nodes, step by step

The targets of the edges are first put together by their sources (`Ends.outgoing`). The search then keeps a
queue of nodes that were reached and whose targets were not looked at (`Ends.Worklist`). Each reached node
enters the queue once, and for the sake of an edge that enters it, so the queue is empty after at most one
step more than there are edges. What was reached by then is what a path from the root leads to, whatever the
order of the edges (`Ends.reachable_exact`).
-/
namespace CardForm.Ends

variable {ends : Ends} {root id source target : Text}

/-! ## The targets by their sources -/

/-- Nodes with the targets of the edges that leave them, in the order in which the nodes were first
met. -/
abbrev Adjacency := List (Text × List Text)

namespace Adjacency

/-- The targets of a node, none where no edge leaves it. -/
def get (adjacency : Adjacency) (source : Text) : List Text :=
  ((adjacency.find? fun entry => entry.1 == source).map Prod.snd).getD []

/-- With one more edge, its target is the last one of its source. -/
def add (edge : Text × Text) : Adjacency → Adjacency
  | [] => [(edge.1, [edge.2])]
  | (source, targets) :: rest =>
    if source == edge.1 then (source, targets ++ [edge.2]) :: rest
    else (source, targets) :: add edge rest

variable {ids : List Text} {targets : Text → List Text}

/-- Where nodes are listed with their targets, and those that are not listed have none, the targets of a node
are found. -/
theorem get_map (nothing : source ∉ ids → targets source = []) :
    get (ids.map fun id => (id, targets id)) source = targets source := by
  induction ids with
  | nil => exact (nothing List.not_mem_nil).symm
  | cons id rest ih =>
    by_cases same : id = source
    · rw [get, List.map_cons, List.find?_cons_of_pos (by simpa using same), same]
      rfl
    · rw [get, List.map_cons, List.find?_cons_of_neg (by simpa using same)]
      exact ih fun notLater => nothing (List.not_mem_cons_of_ne_of_not_mem (Ne.symm same) notLater)

/-- One more edge gives its source one more target, and lists it last if it was not listed. -/
theorem add_map (distinct : ids.Nodup) (nothing : source ∉ ids → targets source = []) :
    add (source, target) (ids.map fun id => (id, targets id)) =
      (if source ∈ ids then ids else ids ++ [source]).map fun id =>
        (id, if id = source then targets id ++ [target] else targets id) := by
  induction ids with
  | nil => simp [add, nothing List.not_mem_nil]
  | cons id rest ih =>
    obtain ⟨notLater, restDistinct⟩ := List.nodup_cons.1 distinct
    by_cases same : id = source
    · have others : ∀ other ∈ rest, other ≠ source := fun other later =>
        same ▸ ne_of_mem_of_not_mem later notLater
      simpa [add, same] using fun other later isSource => absurd isSource (others other later)
    · have restNothing : source ∉ rest → targets source = [] := fun notMem =>
        nothing (List.not_mem_cons_of_ne_of_not_mem (Ne.symm same) notMem)
      rw [List.map_cons, add, if_neg (by simpa using same), ih restDistinct restNothing]
      by_cases later : source ∈ rest
      · simp [later, same]
      · simp [later, same, Ne.symm same]

end Adjacency

/-- The targets of some edges by their sources, edge by edge. -/
def outgoing (ends : Ends) : Adjacency := ends.foldl (fun adjacency edge => adjacency.add edge) []

/-- No edge leaves a node that is not a source. -/
theorem targets_eq_nil (notSource : source ∉ ends.sources) : ends.targets source = [] := by
  refine List.eq_nil_iff_forall_not_mem.2 fun target isTarget => notSource ?_
  exact List.mem_eraseDups.2 (List.mem_map.2 ⟨_, mem_targets.1 isTarget, rfl⟩)

/-- The sources with one more edge. -/
theorem sources_concat (ends : Ends) (source target : Text) :
    sources (ends ++ [(source, target)]) =
      if source ∈ ends.sources then ends.sources else ends.sources ++ [source] := by
  rw [sources, List.map_append, List.eraseDups_append, ← sources]
  by_cases mem : source ∈ ends.sources
  · simp [mem, List.removeAll, List.mem_eraseDups.1 mem]
  · simp [mem, List.removeAll, mt List.mem_eraseDups.2 mem, List.eraseDups_cons]

/-- The targets of a node with one more edge. -/
theorem targets_concat (ends : Ends) (source target id : Text) :
    targets (ends ++ [(source, target)]) id =
      if id = source then ends.targets id ++ [target] else ends.targets id := by
  by_cases same : source = id
  · simp [targets, same]
  · simp [targets, same, Ne.symm same]

/-- Each source is listed where it first leaves an edge, with its targets in the order of the edges. -/
theorem outgoing_eq (ends : Ends) :
    ends.outgoing = ends.sources.map fun source => (source, ends.targets source) := by
  induction ends using List.reverseRecOn with
  | nil => rfl
  | append_singleton earlier edge ih =>
    obtain ⟨source, target⟩ := edge
    have distinct : (sources earlier).Nodup := nodup_eraseDups _
    rw [outgoing, List.foldl_append, ← outgoing, ih, List.foldl_cons, List.foldl_nil,
      Adjacency.add_map distinct targets_eq_nil, sources_concat]
    simp only [targets_concat]

/-- What is found for a node are its targets. -/
theorem get_outgoing (ends : Ends) (source : Text) : ends.outgoing.get source = ends.targets source := by
  rw [outgoing_eq]
  exact Adjacency.get_map targets_eq_nil

/-! ## Searches step by step -/

/-- A step is repeated until nothing is left to do. Where each step before that leaves fewer steps, so many
steps are enough; and what no step changes is the same then. -/
theorem iterate_of_fewer {σ ρ : Type} {next : σ → σ} {ended : σ → Prop} {left : σ → Nat} (result : σ → ρ)
    (stays : ∀ s, ended s → next s = s) (fewer : ∀ s, ¬ended s → left (next s) < left s)
    (same : ∀ s, result (next s) = result s) {steps : Nat} (s : σ) (enough : left s ≤ steps) :
    ended (next^[steps] s) ∧ result (next^[steps] s) = result s := by
  induction steps generalizing s with
  | zero =>
    refine ⟨Classical.byContradiction fun more => ?_, rfl⟩
    have less := fewer s more
    omega
  | succ steps ih =>
    by_cases isEnd : ended s
    · rw [Function.iterate_fixed (stays s isEnd)]
      exact ⟨isEnd, rfl⟩
    · have less := fewer s isEnd
      rw [Function.iterate_succ_apply, ← same s]
      exact ih (next s) (by omega)

/-- Where the search for reachable nodes stands. -/
structure Worklist where
  /-- The nodes that were reached. -/
  reached : List Text
  /-- Those of them whose targets were not looked at. -/
  queue : List Text

namespace Worklist

/-- The search begins at the root. -/
def initial (root : Text) : Worklist := ⟨[root], [root]⟩

/-- A target is reached, and enters the queue if it was not reached before. -/
def meet (list : Worklist) (target : Text) : Worklist :=
  if list.reached.contains target then list else ⟨list.reached ++ [target], list.queue ++ [target]⟩

/-- One step of the search: a node leaves the queue, and its targets are reached one by one. -/
def next (adjacency : Adjacency) (list : Worklist) : Worklist :=
  match list.queue with
  | [] => list
  | node :: rest => (adjacency.get node).foldl meet ⟨list.reached, rest⟩

section Meet

variable {reached queue : List Text}

/-- A target that was reached before changes nothing. -/
theorem meet_old (old : target ∈ reached) : meet ⟨reached, queue⟩ target = ⟨reached, queue⟩ :=
  if_pos (by simpa using old)

/-- A new target is reached and enters the queue. -/
theorem meet_new (new : target ∉ reached) :
    meet ⟨reached, queue⟩ target = ⟨reached ++ [target], queue ++ [target]⟩ :=
  if_neg (by simpa using new)

/-- Of some targets those are reached that were not reached before, each once. -/
theorem foldl_meet (targets reached queue : List Text) :
    targets.foldl meet ⟨reached, queue⟩ =
      ⟨reached ++ (targets.filter fun target => !reached.contains target).eraseDups,
        queue ++ (targets.filter fun target => !reached.contains target).eraseDups⟩ := by
  induction targets generalizing reached queue with
  | nil => simp
  | cons target rest ih =>
    rw [List.foldl_cons]
    by_cases old : target ∈ reached
    · rw [meet_old old, ih, List.filter_cons_of_neg (by simpa using old)]
    · have others : (rest.filter fun other => !(reached ++ [target]).contains other) =
          (rest.filter fun other => !reached.contains other).filter fun other => !other == target := by
        rw [List.filter_filter]
        refine List.filter_congr fun other _ => ?_
        rw [List.contains_append, Bool.not_or, Bool.and_comm, List.contains_cons, List.contains_nil,
          Bool.or_false]
      rw [meet_new old, ih, others, List.filter_cons_of_pos (by simpa using old), List.eraseDups_cons,
        List.append_assoc, List.append_assoc]
      rfl

/-- A node that leaves the queue brings in its fresh targets. -/
theorem next_cons (ends : Ends) (reached rest : List Text) (node : Text) :
    next ends.outgoing ⟨reached, node :: rest⟩ =
      ⟨reached ++ ends.fresh reached node, rest ++ ends.fresh reached node⟩ := by
  have isFold : next ends.outgoing ⟨reached, node :: rest⟩ =
      (ends.outgoing.get node).foldl meet ⟨reached, rest⟩ := rfl
  rw [isFold, get_outgoing, foldl_meet, fresh]

end Meet

/-- A step changes nothing of what is reached in the end. -/
theorem next_reachableFrom (ends : Ends) (list : Worklist) :
    ends.reachableFrom (next ends.outgoing list).reached (next ends.outgoing list).queue =
      ends.reachableFrom list.reached list.queue := by
  obtain ⟨reached, queue⟩ := list
  cases queue with
  | nil => rfl
  | cons node rest => rw [next_cons, reachableFrom_cons]

/-- How many steps are left at most: one for each node in the queue, and one for each edge that enters a node
not yet reached. -/
def stepsLeft (ends : Ends) (list : Worklist) : Nat := list.queue.length + ends.unseen list.reached

/-- The edges that enter a new target no longer enter one that was not reached. -/
theorem unseen_concat_lt {seen : List Text} (edge : (source, target) ∈ ends) (new : target ∉ seen) :
    ends.unseen (seen ++ [target]) < ends.unseen seen := by
  refine countP_lt_countP (fun e _ unseen => ?_) edge (by simpa using new) (by simp)
  rw [List.contains_append, Bool.not_or, Bool.and_eq_true] at unseen
  exact unseen.1

/-- To reach the targets of a node leaves no more steps: for each node that enters the queue there is an edge
that enters no unreached node any more. -/
theorem stepsLeft_foldl_meet_le {targets : List Text} (list : Worklist)
    (entered : ∀ target ∈ targets, (source, target) ∈ ends) :
    stepsLeft ends (targets.foldl meet list) ≤ stepsLeft ends list := by
  induction targets generalizing list with
  | nil => exact Nat.le_refl _
  | cons target rest ih =>
    rw [List.foldl_cons]
    refine Nat.le_trans (ih _ fun other later => entered other (List.mem_cons_of_mem _ later)) ?_
    obtain ⟨reached, queue⟩ := list
    by_cases old : target ∈ reached
    · rw [meet_old old]
    · have fewer := unseen_concat_lt (entered target List.mem_cons_self) old
      simp only [meet_new old, stepsLeft, List.length_append, List.length_singleton]
      omega

/-- A step leaves fewer steps, as long as the queue is not empty. -/
theorem stepsLeft_next_lt {list : Worklist} (waits : list.queue ≠ []) :
    stepsLeft ends (next ends.outgoing list) < stepsLeft ends list := by
  obtain ⟨reached, queue⟩ := list
  cases queue with
  | nil => exact absurd rfl waits
  | cons node rest =>
    have entered : ∀ target ∈ ends.outgoing.get node, (node, target) ∈ ends := by
      intro target isTarget
      rw [get_outgoing] at isTarget
      exact mem_targets.1 isTarget
    refine Nat.lt_of_le_of_lt (stepsLeft_foldl_meet_le ⟨reached, rest⟩ entered) ?_
    simp [stepsLeft]

/-- At the beginning there is at most one step left more than there are edges. -/
theorem stepsLeft_initial_le (ends : Ends) (root : Text) :
    stepsLeft ends (initial root) ≤ ends.length + 1 := by
  have unseen : ends.unseen [root] ≤ ends.length := List.countP_le_length
  simp only [stepsLeft, initial, List.length_singleton]
  omega

/-- After all steps the queue is empty, and what was reached is what the search reaches. -/
theorem iterate_next (list : Worklist) {steps : Nat} (enough : stepsLeft ends list ≤ steps) :
    ((next ends.outgoing)^[steps] list).queue = [] ∧
      ((next ends.outgoing)^[steps] list).reached = ends.reachableFrom list.reached list.queue := by
  have stays : ∀ list : Worklist, list.queue = [] → next ends.outgoing list = list := fun list empty => by
    rw [next, empty]
  have fewer : ∀ list : Worklist, ¬list.queue = [] →
      stepsLeft ends (next ends.outgoing list) < stepsLeft ends list := fun _ => stepsLeft_next_lt
  obtain ⟨empty, same⟩ := iterate_of_fewer
    (fun list : Worklist => ends.reachableFrom list.reached list.queue) stays fewer (next_reachableFrom ends)
    list enough
  rw [empty, reachableFrom] at same
  exact ⟨empty, same⟩

end Worklist

/-! ## What is reached -/

/-- The queue of the search for reachable nodes is empty after no more steps than one more than there are
edges. The nodes reached then are, without repetitions, those to which a path leads from the root, the root
included. Further edges take none of them away, and the order of the edges makes no difference to which nodes
they are. -/
theorem reachable_exact (ends : Ends) (root : Text) :
    (((Worklist.next ends.outgoing)^[ends.length + 1] (Worklist.initial root)).queue = [] ∧
        ((Worklist.next ends.outgoing)^[ends.length + 1] (Worklist.initial root)).reached =
          ends.reachable root) ∧
      (ends.reachable root).Nodup ∧
      (∀ id, id ∈ ends.reachable root ↔ ends.Path root id) ∧
      (∀ more : Ends, ends ⊆ more → ends.reachable root ⊆ more.reachable root) ∧
      ∀ other : Ends, ends.Perm other → (ends.reachable root).Perm (other.reachable root) := by
  have distinct (ends : Ends) : (ends.reachable root).Nodup := (breadthFirst_reachable ends root).nodup
  have grows {ends more : Ends} (subset : ends ⊆ more) : ends.reachable root ⊆ more.reachable root :=
    fun id reached => mem_reachable_iff.2 ((mem_reachable_iff.1 reached).mono subset)
  refine ⟨Worklist.iterate_next (.initial root) (Worklist.stepsLeft_initial_le ends root), distinct ends,
    fun id => mem_reachable_iff, fun more => grows, fun other reordered => ?_⟩
  exact (List.perm_ext_iff_of_nodup (distinct ends) (distinct other)).2 fun id =>
    ⟨fun reached => grows reordered.subset reached, fun reached => grows reordered.symm.subset reached⟩

/-- A cycle through the root, an edge from a node to itself, and an edge from a node that is not reached. -/
example : (Worklist.next (outgoing [("a", "b"), ("c", "a"), ("b", "b"), ("b", "a")]))^[2]
    (Worklist.initial "a") = ⟨["a", "b"], []⟩ := by rfl

end CardForm.Ends
