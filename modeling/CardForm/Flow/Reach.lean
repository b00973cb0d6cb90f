import CardForm.Flow.Node

/-!
# Reachability and discovery

Two searches over edges given by their ends. `reachable` collects every node that can be reached
from a root. `discovery` lists the nodes between the start and the end in breadth-first order,
where nothing is searched beyond the end. Both searches end because each step either takes a node
from the queue without adding any, or meets a node for the first time.
-/
namespace CardForm

/-- The ends of the edges of a graph. -/
abbrev Ends := List (Text × Text)

namespace Ends

/-- The nodes that edges from a node enter, in the order of the edges. -/
def targets (ends : Ends) (source : Text) : List Text :=
  (ends.filter fun e => e.1 == source).map Prod.snd

/-- The nodes that edges leave, each once, in order. -/
def sources (ends : Ends) : List Text := (ends.map Prod.fst).eraseDups

/-- How many edges enter a node that is not yet seen. -/
def unseen (ends : Ends) (seen : List Text) : Nat := ends.countP fun e => !seen.contains e.2

/-- How many edges leave a node that is not yet seen. -/
def unexpanded (ends : Ends) (seen : List Text) : Nat := ends.countP fun e => !seen.contains e.1

/-- The targets of a node that are not yet seen, each once. -/
def fresh (ends : Ends) (seen : List Text) (source : Text) : List Text :=
  ((ends.targets source).filter fun target => !seen.contains target).eraseDups

/-- A strictly weaker condition that fails of an element counts fewer. -/
theorem countP_lt_countP {α : Type} {p q : α → Bool} {l : List α}
    (weaker : ∀ a ∈ l, q a = true → p a = true) {a : α} (mem : a ∈ l) (holds : p a = true)
    (fails : q a = false) : l.countP q < l.countP p := by
  induction l with
  | nil => cases mem
  | cons b l ih =>
    have le : l.countP q ≤ l.countP p :=
      List.countP_mono_left fun c hc => weaker c (List.mem_cons_of_mem _ hc)
    simp only [List.countP_cons]
    rcases List.mem_cons.1 mem with rfl | mem
    · rw [if_pos holds, fails, if_neg Bool.false_ne_true]
      omega
    · have tail := ih (fun c hc => weaker c (List.mem_cons_of_mem _ hc)) mem
      by_cases hq : q b = true
      · rw [if_pos hq, if_pos (weaker b List.mem_cons_self hq)]
        omega
      · rw [if_neg hq]
        omega

/-- Meeting fresh nodes leaves fewer edges into unseen ones. -/
theorem unseen_append_fresh_lt {ends : Ends} {seen : List Text} {source : Text}
    (h : ends.fresh seen source ≠ []) :
    ends.unseen (seen ++ ends.fresh seen source) < ends.unseen seen := by
  obtain ⟨target, mem⟩ := List.exists_mem_of_ne_nil _ h
  have inFresh := mem
  simp only [fresh, List.mem_eraseDups, List.mem_filter, targets, List.mem_map,
    Bool.not_eq_true', List.contains_eq_mem, decide_eq_false_iff_not] at mem
  obtain ⟨⟨e, ⟨he, _⟩, rfl⟩, notSeen⟩ := mem
  apply countP_lt_countP (a := e) _ he
  · simpa using notSeen
  · simp [inFresh]
  · intro e _ h
    simp only [List.contains_eq_mem, List.mem_append, not_or, Bool.not_eq_true',
      decide_eq_false_iff_not] at h ⊢
    exact h.1

/-- Expanding an unseen node that edges leave leaves fewer unexpanded edges. -/
theorem unexpanded_cons_lt {ends : Ends} {seen : List Text} {source : Text}
    (notSeen : source ∉ seen) (h : ends.targets source ≠ []) :
    ends.unexpanded (source :: seen) < ends.unexpanded seen := by
  obtain ⟨target, mem⟩ := List.exists_mem_of_ne_nil _ h
  simp only [targets, List.mem_map, List.mem_filter, beq_iff_eq] at mem
  obtain ⟨e, ⟨he, rfl⟩, _⟩ := mem
  apply countP_lt_countP (a := e) _ he
  · simpa using notSeen
  · simp
  · intro e _ h
    simp only [List.contains_eq_mem, List.mem_cons, not_or, Bool.not_eq_true',
      decide_eq_false_iff_not] at h ⊢
    exact h.2

/-- Expanding a node never adds unexpanded edges. -/
theorem unexpanded_cons_le (ends : Ends) (seen : List Text) (source : Text) :
    ends.unexpanded (source :: seen) ≤ ends.unexpanded seen :=
  List.countP_mono_left fun e _ h => by
    simp only [List.contains_eq_mem, List.mem_cons, not_or, Bool.not_eq_true',
      decide_eq_false_iff_not] at h ⊢
    exact h.2

/-- Everything seen so far, and everything reachable from the nodes in the queue. -/
def reachableFrom (ends : Ends) (seen : List Text) : (queue : List Text) → List Text
  | [] => seen
  | source :: rest =>
    if ends.fresh seen source = [] then reachableFrom ends seen rest
    else
      reachableFrom ends (seen ++ ends.fresh seen source) (rest ++ ends.fresh seen source)
termination_by queue => (ends.unseen seen, queue.length)
decreasing_by
  · exact Prod.Lex.right _ (by simp)
  · rename_i h
    exact Prod.Lex.left _ _ (unseen_append_fresh_lt h)

/-- The nodes reachable from a root, the root included. -/
def reachable (ends : Ends) (root : Text) : List Text := ends.reachableFrom [root] [root]

/-- The nodes met from the queue on, other than the end and those visited. -/
def discoveryFrom (ends : Ends) (visited : List Text) : (queue : List Text) → List Text
  | [] => []
  | node :: rest =>
    if node = endId ∨ node ∈ visited then discoveryFrom ends visited rest
    else
      node :: discoveryFrom ends (node :: visited)
        (rest ++ (ends.targets node).filter fun target => !(node :: visited).contains target)
termination_by queue => (ends.unexpanded visited, queue.length)
decreasing_by
  · exact Prod.Lex.right _ (by simp)
  · rename_i h
    rw [not_or] at h
    by_cases none : ends.targets node = []
    · rw [none]
      rcases Nat.lt_or_eq_of_le (unexpanded_cons_le ends visited node) with less | same
      · exact Prod.Lex.left _ _ less
      · rw [same]
        exact Prod.Lex.right _ (by simp)
    · exact Prod.Lex.left _ _ (unexpanded_cons_lt h.2 none)

/-- The nodes between the start and the end, in breadth-first order from the start. -/
def discovery (ends : Ends) : List Text := ends.discoveryFrom [startId] (ends.targets startId)

end Ends

end CardForm
