import CardForm.Proofs.Flow.Structure
import Mathlib.Data.List.Nodup

/-!
# Defects, list by list

The defects of some nodes are those that each node has after the nodes before it, and the defects
of some edges are those that each edge has. So the nodes are in order where each keeps the rules and
none repeats an identifier, and the markers, the edges and the search each add what they decide.
-/
namespace CardForm.Check

open CardForm.Flow

variable {value node edge : Json} {id : Text} {kind : NodeKind} {place : Nat}
  {nodes edges : List Json} {seen ids : List Text} {defect : Defect}

/-- An entry of a list at some place is the first one or one of the others. -/
theorem exists_getElem?_cons_iff {α : Type} {first : α} {rest : List α} (holds : Nat → α → Prop) :
    (∃ i entry, (first :: rest)[i]? = some entry ∧ holds i entry) ↔
      holds 0 first ∨ ∃ i entry, rest[i]? = some entry ∧ holds (i + 1) entry := by
  rw [← Nat.or_exists_add_one]
  simp only [List.getElem?_cons_zero, List.getElem?_cons_succ, Option.some.injEq, exists_eq_left']

/-! ## Nodes -/

/-- The defects of some nodes are those of each node after the identifiers before it. -/
theorem mem_nodesDefects :
    defect ∈ nodesDefects seen place nodes ↔
      ∃ i node, nodes[i]? = some node ∧
        defect ∈ nodeDefects (seen ++ (nodes.take i).filterMap nodeId?) (place + i) node := by
  induction nodes generalizing seen place with
  | nil => simp [nodesDefects]
  | cons node rest ih =>
    rw [nodesDefects, List.mem_append, ih, exists_getElem?_cons_iff fun i node' =>
      defect ∈ nodeDefects (seen ++ ((node :: rest).take i).filterMap nodeId?) (place + i) node']
    have before (i : Nat) : ((node :: rest).take (i + 1)).filterMap nodeId? =
        (nodeId? node).toList ++ (rest.take i).filterMap nodeId? := by
      cases h : nodeId? node <;> simp [h]
    simp only [before, List.take_zero, List.filterMap_nil, List.append_nil, Nat.add_zero,
      List.append_assoc, Nat.add_assoc, Nat.add_comm 1]

/-- An identifier came before a place where an earlier node bears it. -/
theorem mem_earlier_iff :
    id ∈ (nodes.take place).filterMap nodeId? ↔
      ∃ earlier, earlier < place ∧ id ≠ [] ∧
        (nodes[earlier]?.bind (·.get? "id")) = some (.str id) := by
  rw [List.mem_filterMap]
  simp only [List.mem_iff_getElem?, List.getElem?_take, nodeId?_eq_some_iff]
  constructor
  · rintro ⟨node, ⟨earlier, found⟩, bears, notEmpty⟩
    split at found
    · rename_i before
      exact ⟨earlier, before, notEmpty, by rw [found]; exact bears⟩
    · cases found
  · rintro ⟨earlier, before, notEmpty, bears⟩
    obtain ⟨node, found, bears⟩ := Option.bind_eq_some_iff.1 bears
    exact ⟨node, ⟨earlier, by rw [if_pos before, found]⟩, bears, notEmpty⟩

/-- A node repeats an identifier where its own came before it. -/
theorem repeats_iff (found : nodes[place]? = some node) :
    Repeats nodes place ↔
      ∃ id, nodeId? node = some id ∧ id ∈ (nodes.take place).filterMap nodeId? := by
  simp only [Repeats, mem_earlier_iff, nodeId?_eq_some_iff, found, Option.bind_some]
  constructor
  · rintro ⟨earlier, id, before, notEmpty, first, second⟩
    exact ⟨id, ⟨second, notEmpty⟩, earlier, before, notEmpty, first⟩
  · rintro ⟨id, ⟨second, notEmpty⟩, earlier, before, _, first⟩
    exact ⟨earlier, id, before, notEmpty, first, second⟩

/-- A node among others is in order where it keeps the rules and repeats no identifier. -/
theorem nodeDefects_eq_nil_iff_not_repeats (found : nodes[place]? = some node) :
    nodeDefects ((nodes.take place).filterMap nodeId?) place node = [] ↔
      NodeRules node ∧ ¬Repeats nodes place := by
  rw [nodeDefects_eq_nil_iff, repeats_iff found]
  simp only [not_exists, not_and]

/-- No node repeats an identifier where all of them have one and these are pairwise distinct. -/
theorem not_repeats_iff_nodup (named : ∀ node ∈ nodes, HasName node "id") :
    (∀ place, ¬Repeats nodes place) ↔ (nodes.map (·.get? "id")).Nodup := by
  have bearer {place : Nat} (inside : place < nodes.length) : ∃ id, id ≠ [] ∧
      nodes[place].get? "id" = some (.str id) := by
    obtain ⟨id, bears, notEmpty⟩ := named _ (List.getElem_mem inside)
    exact ⟨id, notEmpty, bears⟩
  rw [List.nodup_iff_getElem?_ne_getElem?]
  simp only [List.length_map, List.getElem?_map]
  constructor
  · intro fresh earlier place before inside same
    obtain ⟨id, notEmpty, bears⟩ := bearer inside
    have atPlace : (nodes[place]?.bind (·.get? "id")) = some (.str id) := by
      rw [List.getElem?_eq_getElem inside]
      exact bears
    refine fresh place ⟨earlier, id, before, notEmpty, ?_, atPlace⟩
    rw [List.getElem?_eq_getElem (Nat.lt_trans before inside), List.getElem?_eq_getElem inside,
      Option.map_some, Option.map_some, Option.some.injEq, bears] at same
    rw [List.getElem?_eq_getElem (Nat.lt_trans before inside)]
    exact same
  · rintro distinct place ⟨earlier, id, before, _, first, second⟩
    obtain ⟨node, found, bears⟩ := Option.bind_eq_some_iff.1 second
    obtain ⟨other, otherFound, otherBears⟩ := Option.bind_eq_some_iff.1 first
    refine distinct earlier place before (List.getElem?_eq_some_iff.1 found).1 ?_
    rw [found, otherFound, Option.map_some, Option.map_some, bears, otherBears]

/-- Some nodes are in order where each keeps the rules and their identifiers are distinct. -/
theorem nodesDefects_eq_nil_iff :
    nodesDefects [] 0 nodes = [] ↔
      (∀ node ∈ nodes, NodeRules node) ∧ (nodes.map (·.get? "id")).Nodup := by
  have eachOne : nodesDefects [] 0 nodes = [] ↔ ∀ place node, nodes[place]? = some node →
      NodeRules node ∧ ¬Repeats nodes place := by
    simp only [List.eq_nil_iff_forall_not_mem, mem_nodesDefects, List.nil_append, Nat.zero_add]
    constructor
    · intro none place node found
      rw [← nodeDefects_eq_nil_iff_not_repeats found, List.eq_nil_iff_forall_not_mem]
      exact fun defect mem => none defect ⟨place, node, found, mem⟩
    · rintro all defect ⟨place, node, found, mem⟩
      rw [(nodeDefects_eq_nil_iff_not_repeats found).2 (all place node found)] at mem
      cases mem
  rw [eachOne]
  constructor
  · intro all
    have rules : ∀ node ∈ nodes, NodeRules node := by
      intro node mem
      obtain ⟨place, found⟩ := List.mem_iff_getElem?.1 mem
      exact (all place node found).1
    refine ⟨rules, (not_repeats_iff_nodup fun node mem => (rules node mem).id).1 ?_⟩
    rintro place ⟨earlier, id, before, notEmpty, first, second⟩
    obtain ⟨node, found, _⟩ := Option.bind_eq_some_iff.1 second
    exact (all place node found).2 ⟨earlier, id, before, notEmpty, first, second⟩
  · rintro ⟨rules, distinct⟩ place node found
    exact ⟨rules node (List.mem_of_getElem? found),
      (not_repeats_iff_nodup fun node mem => (rules node mem).id).2 distinct place⟩

/-! ## Edges -/

/-- The defects of some edges are those of each edge. -/
theorem mem_edgesDefects :
    defect ∈ edgesDefects ids place edges ↔
      ∃ i edge, edges[i]? = some edge ∧ defect ∈ edgeDefects ids (place + i) edge := by
  induction edges generalizing place with
  | nil => simp [edgesDefects]
  | cons edge rest ih =>
    rw [edgesDefects, List.mem_append, ih,
      exists_getElem?_cons_iff fun i edge' => defect ∈ edgeDefects ids (place + i) edge']
    simp only [Nat.add_zero, Nat.add_assoc, Nat.add_comm 1]

/-- The identifiers that the check takes from some nodes are those that the nodes bear. -/
theorem mem_filterMap_nodeId?_iff : id ∈ nodes.filterMap nodeId? ↔ Names nodes id := by
  rw [List.mem_filterMap]
  simp only [nodeId?_eq_some_iff, Names]
  constructor
  · rintro ⟨node, mem, bears, notEmpty⟩
    exact ⟨notEmpty, node, mem, bears⟩
  · rintro ⟨notEmpty, node, mem, bears⟩
    exact ⟨node, mem, bears, notEmpty⟩

/-- The source of an edge is in order where it names a node. -/
theorem sourceDefects_eq_nil_iff :
    sourceDefects (nodes.filterMap nodeId?) place edge = [] ↔
      ∃ source, edge.get? "source" = some (.str source) ∧ Names nodes source := by
  unfold sourceDefects
  simp only [← text?_eq_some_iff, ← mem_filterMap_nodeId?_iff]
  cases text? edge "source" with
  | none => simp
  | some source => simp [expect_eq_nil_iff]

/-- The target of an edge is in order where it names a node. -/
theorem targetDefects_eq_nil_iff :
    targetDefects (nodes.filterMap nodeId?) place edge = [] ↔
      ∃ target, edge.get? "target" = some (.str target) ∧ Names nodes target := by
  unfold targetDefects
  simp only [← text?_eq_some_iff, ← mem_filterMap_nodeId?_iff]
  cases text? edge "target" with
  | none => simp
  | some target => simp [expect_eq_nil_iff]

/-- An edge is in order where it keeps the rules. -/
theorem edgeDefects_eq_nil_iff :
    edgeDefects (nodes.filterMap nodeId?) place edge = [] ↔ EdgeRules nodes edge := by
  unfold edgeDefects
  split
  · rw [List.append_eq_nil_iff, sourceDefects_eq_nil_iff, targetDefects_eq_nil_iff]
    exact ⟨fun ⟨source, target⟩ => ⟨source, target⟩, fun rules => ⟨rules.source, rules.target⟩⟩
  · rename_i noObject
    simp only [reduceCtorEq, false_iff]
    intro rules
    obtain ⟨source, found, _⟩ := rules.source
    cases edge with
    | obj members => exact absurd rfl (noObject members)
    | _ => simp [Json.get?] at found

/-- Some edges are in order where each keeps the rules. -/
theorem edgesDefects_eq_nil_iff :
    edgesDefects (nodes.filterMap nodeId?) 0 edges = [] ↔ ∀ edge ∈ edges, EdgeRules nodes edge := by
  simp only [List.eq_nil_iff_forall_not_mem, mem_edgesDefects]
  constructor
  · intro none edge mem
    obtain ⟨place, found⟩ := List.mem_iff_getElem?.1 mem
    rw [← edgeDefects_eq_nil_iff, List.eq_nil_iff_forall_not_mem]
    exact fun defect inEdge => none defect ⟨place, edge, found, inEdge⟩
  · rintro rules defect ⟨place, edge, found, mem⟩
    rw [edgeDefects_eq_nil_iff.2 (rules edge (List.mem_of_getElem? found))] at mem
    cases mem

/-! ## The start and the end -/

/-- Exactly one entry has a property where counting finds one. -/
theorem exactlyOne_iff {α : Type} {holds : α → Prop} {test : α → Bool}
    (tells : ∀ entry, test entry = true ↔ holds entry) (entries : List α) :
    ExactlyOne holds entries ↔ entries.countP test = 1 := by
  unfold ExactlyOne
  induction entries with
  | nil => simp [ExistsUnique]
  | cons first rest ih =>
    rw [List.countP_cons]
    by_cases atFirst : test first = true
    · -- The first entry has the property, so no other one may have it.
      have none : rest.countP test = 0 ↔ ∀ place : Nat, ∀ entry ∈ rest[place]?, ¬holds entry := by
        simp only [List.countP_eq_zero, tells]
        exact ⟨fun all place entry found => all entry (List.mem_of_getElem? found),
          fun all entry mem => (List.mem_iff_getElem?.1 mem).elim (all · entry)⟩
      rw [if_pos atFirst, Nat.add_eq_right, none]
      constructor
      · rintro ⟨place, _, unique⟩ other entry found entryHolds
        have atZero := unique 0 ⟨first, rfl, (tells first).1 atFirst⟩
        have atOther := unique (other + 1) ⟨entry, found, entryHolds⟩
        omega
      · intro others
        refine ⟨0, ⟨first, rfl, (tells first).1 atFirst⟩, ?_⟩
        rintro (_ | place) ⟨entry, found, entryHolds⟩
        · rfl
        · exact absurd entryHolds (others place entry found)
    · rw [if_neg atFirst, Nat.add_zero, ← ih]
      constructor
      · rintro ⟨_ | place, ⟨entry, found, entryHolds⟩, unique⟩
        · cases found
          exact absurd ((tells first).2 entryHolds) atFirst
        · refine ⟨place, ⟨entry, found, entryHolds⟩, fun other holdsThere => ?_⟩
          exact Nat.succ.inj (unique (other + 1) holdsThere)
      · rintro ⟨place, holdsThere, unique⟩
        refine ⟨place + 1, holdsThere, ?_⟩
        rintro (_ | other) ⟨entry, found, entryHolds⟩
        · cases found
          exact absurd ((tells first).2 entryHolds) atFirst
        · exact congrArg Nat.succ (unique other ⟨entry, found, entryHolds⟩)

/-- The number of the nodes of a kind is in order where there is exactly one. -/
theorem countDefects_eq_nil_iff :
    countDefects kind nodes = [] ↔ ExactlyOne (HasKind kind) nodes := by
  rw [countDefects, expect_eq_nil_iff, beq_iff_eq, exactlyOne_iff fun _ => hasKind_iff]

/-- A node is in order in its part where the start and the end, and no other nodes, bear the
identifiers reserved for them. -/
theorem markerDefects_eq_nil_iff :
    markerDefects node = [] ↔
      (HasKind .start node → node.get? "id" = some (.str startId)) ∧
      (HasKind .finish node → node.get? "id" = some (.str endId)) ∧
      (¬HasKind .start node → ¬HasKind .finish node →
        node.get? "id" ≠ some (.str startId) ∧ node.get? "id" ≠ some (.str endId)) := by
  simp only [ne_eq, ← nodeKind?_eq_some_iff, ← text?_eq_some_iff]
  unfold markerDefects
  split <;> simp_all [expect_eq_nil_iff]

/-- The start and the end are in order among nodes with distinct identifiers where there is one of
each and they bear the identifiers reserved for them. -/
theorem markersDefects_eq_nil_iff (distinct : (nodes.map (·.get? "id")).Nodup) :
    markersDefects nodes = [] ↔
      (ExactlyOne (HasKind .start) nodes ∧
        ∀ node ∈ nodes, HasKind .start node → node.get? "id" = some (.str startId)) ∧
      (ExactlyOne (HasKind .finish) nodes ∧
        ∀ node ∈ nodes, HasKind .finish node → node.get? "id" = some (.str endId)) := by
  rw [markersDefects, List.append_eq_nil_iff, List.append_eq_nil_iff, List.flatMap_eq_nil_iff]
  simp only [countDefects_eq_nil_iff, markerDefects_eq_nil_iff]
  constructor
  · rintro ⟨⟨parts, oneStart⟩, oneEnd⟩
    exact ⟨⟨oneStart, fun node mem => (parts node mem).1⟩,
      oneEnd, fun node mem => (parts node mem).2.1⟩
  · rintro ⟨⟨oneStart, start⟩, oneEnd, finish⟩
    -- A reserved identifier is borne by the start or the end, and by no second node.
    have same {kind : NodeKind} {reserved : Text} (one : ExactlyOne (HasKind kind) nodes)
        (bears : ∀ node ∈ nodes, HasKind kind node → node.get? "id" = some (.str reserved))
        {node : Json} (mem : node ∈ nodes) (reservedId : node.get? "id" = some (.str reserved)) :
        HasKind kind node := by
      obtain ⟨place, ⟨marker, found, hasKind⟩, _⟩ := one
      have markerMem := List.mem_of_getElem? found
      rwa [List.inj_on_of_nodup_map distinct mem markerMem
        (reservedId.trans (bears marker markerMem hasKind).symm)]
    refine ⟨⟨fun node mem => ⟨start node mem, finish node mem, ?_⟩, oneStart⟩, oneEnd⟩
    exact fun noStart noEnd => ⟨fun id => noStart (same oneStart start mem id),
      fun id => noEnd (same oneEnd finish mem id)⟩

/-! ## The whole -/

/-- The ends that the check takes from an edge are the texts under its keys. -/
theorem mem_filterMap_ends?_iff {source target : Text} :
    (source, target) ∈ edges.filterMap ends? ↔ Joins edges source target := by
  have ends (edge : Json) : ends? edge = some (source, target) ↔
      edge.get? "source" = some (.str source) ∧ edge.get? "target" = some (.str target) := by
    simp only [← text?_eq_some_iff]
    unfold ends?
    split <;> simp_all
  rw [List.mem_filterMap]
  simp only [ends, Joins]

/-- The end is found where edges lead to it from the start. -/
theorem connects_iff :
    connects edges = true ↔ Relation.ReflTransGen (Joins edges) startId endId := by
  have joins : (fun a b => (a, b) ∈ edges.filterMap ends?) = Joins edges := by
    funext a b
    exact propext mem_filterMap_ends?_iff
  rw [connects, List.contains_iff_mem, Ends.mem_reachable_iff, Ends.Path, joins]

/-- Nodes and edges are in order where they have the structure of a flow. -/
theorem structureDefects_eq_nil_iff : structureDefects nodes edges = [] ↔ Structured nodes edges := by
  simp only [structureDefects, List.append_eq_nil_iff, nodesDefects_eq_nil_iff,
    edgesDefects_eq_nil_iff, expect_eq_nil_iff, Bool.or_eq_true, connects_iff]
  constructor
  · rintro ⟨⟨⟨⟨node, distinct⟩, markers⟩, edge⟩, path⟩
    obtain ⟨⟨oneStart, start⟩, oneEnd, finish⟩ := (markersDefects_eq_nil_iff distinct).1 markers
    rw [markers] at path
    exact ⟨node, distinct, oneStart, start, oneEnd, finish, edge,
      path.resolve_left Bool.false_ne_true⟩
  · intro structured
    have markers := (markersDefects_eq_nil_iff structured.distinct).2
      ⟨⟨structured.oneStart, structured.start⟩, structured.oneEnd, structured.finish⟩
    exact ⟨⟨⟨⟨structured.node, structured.distinct⟩, markers⟩, structured.edge⟩,
      .inr structured.path⟩

/-- A value is an array where it has its items. -/
theorem isArray_iff : isArray value = true ↔ value = .arr (items value) := by
  cases value <;> simp [isArray, items]

end CardForm.Check

namespace CardForm.Flow

/-- The check finds no defect exactly where a value has the structure of a flow. -/
theorem defects_eq_nil_iff {value : Json} : defects value = [] ↔ WellStructured value := by
  unfold defects WellStructured
  split
  · simp only [List.append_eq_nil_iff, Check.expect_eq_nil_iff, Check.isArray_iff,
      Check.structureDefects_eq_nil_iff]
    constructor
    · rintro ⟨⟨nodes, edges⟩, structured⟩
      exact ⟨_, _, (Check.get_eq_iff (by simp)).1 nodes, (Check.get_eq_iff (by simp)).1 edges,
        structured⟩
    · rintro ⟨nodes, edges, foundNodes, foundEdges, structured⟩
      rw [← Check.get_eq_iff (by simp)] at foundNodes foundEdges
      rw [foundNodes, foundEdges]
      exact ⟨⟨rfl, rfl⟩, structured⟩
  · rename_i noObject
    simp only [reduceCtorEq, false_iff]
    rintro ⟨nodes, edges, found, _⟩
    cases value with
    | obj members => exact absurd rfl (noObject members)
    | _ => simp [Json.get?] at found

end CardForm.Flow
