import CardForm.Proofs.Flow.Defects

/-!
# Where defects are found

A defect is found at one node, at one edge, or in the flow as a whole, and its text begins with that
node or edge exactly where it is found there. The check finds a defect at the place of an entry
exactly where that entry breaks a rule or, of a node, repeats an identifier: no defect of one entry
hides one of another or makes one up (`Flow.defects_exact`).
-/
namespace CardForm

/-- Where a defect is found. -/
inductive Place where
  /-- At the node of a number. -/
  | node (number : Nat)
  /-- At the edge of a number. -/
  | edge (number : Nat)
  /-- In the flow as a whole. -/
  | whole
deriving DecidableEq

namespace Defect

variable {defect : Defect}

/-- The place of a defect. -/
def place : Defect → Place
  | nodeNotObject number | nodeWithoutId number | repeatedId number _ | nodeKind number _
  | nodePosition number _ | fieldMissing number | fieldWithoutId number | fieldWithoutKind number
  | fieldKindUnknown number | fieldWithoutLabel number | fieldOptions number _
  | statementWithoutFieldId number | statementWithoutText number
  | statementWithoutLabel number => .node number
  | edgeNotObject number | edgeWithoutSource number | sourceUnknown number _
  | edgeWithoutTarget number | targetUnknown number _ => .edge number
  | notObject | nodesNotArray | edgesNotArray | markerMisnamed _ _ | reservedId _ _
  | markerCount _ _ | disconnected => .whole

/-- The texts with which those of the defects at an entry begin. -/
def opening : Place → Text
  | .node number => node number
  | .edge number => edge number
  | .whole => []

/-- The text of a defect begins as those at its place do. -/
theorem exists_text_eq (defect : Defect) : ∃ rest, defect.text = opening defect.place ++ rest := by
  cases defect <;>
    simp only [text, place, opening, nodeWithId, fieldOf, statement, List.append_assoc,
      List.nil_append] <;>
    exact ⟨_, rfl⟩

/-- The text of a defect in the flow as a whole begins with a letter with which no node and no edge
begins. -/
theorem text_of_place_whole (inWhole : defect.place = .whole) :
    ∃ letter ∈ (['f', 'N', 'E'] : List CodePoint), ∃ rest, defect.text = letter :: rest := by
  cases defect <;> cases inWhole <;> exact ⟨_, by decide, _, rfl⟩

/-- A text begins as those at one entry only do. -/
theorem opening_isPrefix_iff {place other : Place} {rest : Text} (atEntry : place ≠ .whole)
    (otherEntry : other ≠ .whole) : opening place <+: opening other ++ rest ↔ place = other := by
  constructor
  · intro begins
    cases place with
    | whole => exact absurd rfl atEntry
    | node number =>
      cases other with
      | whole => exact absurd rfl otherEntry
      | edge => exact absurd (List.cons_prefix_cons.1 begins).1 (by decide)
      | node =>
        simp only [opening, node, List.append_assoc, List.prefix_append_right_inj] at begins
        rw [Text.eq_of_prefix_ofNat (by decide) begins]
    | edge number =>
      cases other with
      | whole => exact absurd rfl otherEntry
      | node => exact absurd (List.cons_prefix_cons.1 begins).1 (by decide)
      | edge =>
        simp only [opening, edge, List.append_assoc, List.prefix_append_right_inj] at begins
        rw [Text.eq_of_prefix_ofNat (by decide) begins]
  · rintro rfl
    exact List.prefix_append _ _

/-- The text of a defect begins as those at an entry do exactly where the defect is found there. -/
theorem opening_isPrefix_text_iff {place : Place} (atEntry : place ≠ .whole) :
    opening place <+: defect.text ↔ defect.place = place := by
  by_cases inWhole : defect.place = .whole
  · obtain ⟨letter, mem, rest, same⟩ := text_of_place_whole inWhole
    rw [same, inWhole]
    refine iff_of_false (fun begins => ?_) (Ne.symm atEntry)
    cases place with
    | whole => exact atEntry rfl
    | node =>
      rw [← (List.cons_prefix_cons.1 begins).1] at mem
      exact absurd mem (by decide)
    | edge =>
      rw [← (List.cons_prefix_cons.1 begins).1] at mem
      exact absurd mem (by decide)
  · obtain ⟨rest, same⟩ := exists_text_eq defect
    rw [same, opening_isPrefix_iff atEntry inWhole, eq_comm]

end Defect

namespace Check

open CardForm.Flow

variable {defect other : Defect} {seen ids : List Text} {number : Nat} {value node edge : Json}
  {nodes edges : List Json}

/-- Where all is not well, the defect that was named is listed. -/
theorem eq_of_mem_expect {holds : Bool} (mem : defect ∈ expect holds other) : defect = other := by
  cases holds with
  | true => cases mem
  | false => exact List.mem_singleton.1 mem

/-- The defects of the identifier of a node are found at the node. -/
theorem place_of_mem_idDefects (mem : defect ∈ idDefects seen number node) :
    defect.place = .node number := by
  unfold idDefects at mem
  split at mem
  · rw [List.mem_singleton.1 mem, Defect.place]
  · rw [eq_of_mem_expect mem, Defect.place]

/-- The defects of the kind of a field are found at its node. -/
theorem place_of_mem_fieldKindDefects (mem : defect ∈ fieldKindDefects number value) :
    defect.place = .node number := by
  unfold fieldKindDefects at mem
  split at mem
  · rw [List.mem_singleton.1 mem, Defect.place]
  · rw [eq_of_mem_expect mem, Defect.place]

/-- The defects of the options of a field are found at its node. -/
theorem place_of_mem_optionDefects (mem : defect ∈ optionDefects number value) :
    defect.place = .node number := by
  unfold optionDefects at mem
  split at mem
  · cases mem
  · cases mem
  · cases mem
  · rw [eq_of_mem_expect mem, Defect.place]

/-- The defects of the payload of a question are found at its node. -/
theorem place_of_mem_questionDefects (mem : defect ∈ questionDefects number value) :
    defect.place = .node number := by
  unfold questionDefects at mem
  split at mem
  · simp only [List.mem_append] at mem
    obtain ((id | kind) | label) | options := mem
    · rw [eq_of_mem_expect id, Defect.place]
    · exact place_of_mem_fieldKindDefects kind
    · rw [eq_of_mem_expect label, Defect.place]
    · exact place_of_mem_optionDefects options
  · rw [List.mem_singleton.1 mem, Defect.place]

/-- The defects of the payload of a statement are found at its node. -/
theorem place_of_mem_statementDefects (mem : defect ∈ statementDefects number value) :
    defect.place = .node number := by
  simp only [statementDefects, List.mem_append] at mem
  obtain (fieldId | text) | label := mem
  · rw [eq_of_mem_expect fieldId, Defect.place]
  · rw [eq_of_mem_expect text, Defect.place]
  · rw [eq_of_mem_expect label, Defect.place]

/-- The defects of a node are found at the node. -/
theorem place_of_mem_nodeDefects (mem : defect ∈ nodeDefects seen number node) :
    defect.place = .node number := by
  unfold nodeDefects at mem
  split at mem
  · simp only [List.mem_append] at mem
    obtain ((id | kind) | position) | payload := mem
    · exact place_of_mem_idDefects id
    · rw [eq_of_mem_expect kind, Defect.place]
    · rw [eq_of_mem_expect position, Defect.place]
    · unfold payloadDefects at payload
      split at payload
      · exact place_of_mem_questionDefects payload
      · exact place_of_mem_statementDefects payload
      · cases payload
  · rw [List.mem_singleton.1 mem, Defect.place]

/-- The defects of the start and the end are of three sorts. -/
theorem exists_of_mem_markersDefects (mem : defect ∈ markersDefects nodes) :
    (∃ kind id, defect = .markerMisnamed kind id) ∨ (∃ id kind, defect = .reservedId id kind) ∨
      ∃ kind count, defect = .markerCount kind count := by
  simp only [markersDefects, countDefects, List.mem_append, List.mem_flatMap] at mem
  obtain (⟨node, _, part⟩ | count) | count := mem
  · unfold markerDefects at part
    split at part
    · exact .inl ⟨_, _, eq_of_mem_expect part⟩
    · exact .inl ⟨_, _, eq_of_mem_expect part⟩
    · exact .inr (.inl ⟨_, _, eq_of_mem_expect part⟩)
    · cases part
  · exact .inr (.inr ⟨_, _, eq_of_mem_expect count⟩)
  · exact .inr (.inr ⟨_, _, eq_of_mem_expect count⟩)

/-- The defects of the start and the end are found in the flow as a whole. -/
theorem place_of_mem_markersDefects (mem : defect ∈ markersDefects nodes) :
    defect.place = .whole := by
  obtain ⟨kind, id, rfl⟩ | ⟨id, kind, rfl⟩ | ⟨kind, count, rfl⟩ := exists_of_mem_markersDefects mem
  · rw [Defect.place]
  · rw [Defect.place]
  · rw [Defect.place]

/-- The defects of an edge are found at the edge. -/
theorem place_of_mem_edgeDefects (mem : defect ∈ edgeDefects ids number edge) :
    defect.place = .edge number := by
  unfold edgeDefects at mem
  split at mem
  · rw [List.mem_append] at mem
    obtain source | target := mem
    · unfold sourceDefects at source
      split at source
      · rw [List.mem_singleton.1 source, Defect.place]
      · rw [eq_of_mem_expect source, Defect.place]
    · unfold targetDefects at target
      split at target
      · rw [List.mem_singleton.1 target, Defect.place]
      · rw [eq_of_mem_expect target, Defect.place]
  · rw [List.mem_singleton.1 mem, Defect.place]

/-- The defects at the node of a number are those of the node there. -/
theorem mem_structureDefects_at_node (atNode : defect.place = .node number) :
    defect ∈ structureDefects nodes edges ↔
      ∃ node, nodes[number]? = some node ∧
        defect ∈ nodeDefects ((nodes.take number).filterMap nodeId?) number node := by
  simp only [structureDefects, List.mem_append, mem_nodesDefects, mem_edgesDefects,
    List.nil_append, Nat.zero_add]
  constructor
  · rintro (((⟨place, node, found, mem⟩ | mem) | ⟨place, edge, found, mem⟩) | mem)
    · rw [place_of_mem_nodeDefects mem, Place.node.injEq] at atNode
      subst atNode
      exact ⟨node, found, mem⟩
    · rw [place_of_mem_markersDefects mem] at atNode
      cases atNode
    · rw [place_of_mem_edgeDefects mem] at atNode
      cases atNode
    · rw [eq_of_mem_expect mem] at atNode
      cases atNode
  · rintro ⟨node, found, mem⟩
    exact .inl (.inl (.inl ⟨number, node, found, mem⟩))

/-- The defects at the edge of a number are those of the edge there. -/
theorem mem_structureDefects_at_edge (atEdge : defect.place = .edge number) :
    defect ∈ structureDefects nodes edges ↔
      ∃ edge, edges[number]? = some edge ∧
        defect ∈ edgeDefects (nodes.filterMap nodeId?) number edge := by
  simp only [structureDefects, List.mem_append, mem_nodesDefects, mem_edgesDefects,
    List.nil_append, Nat.zero_add]
  constructor
  · rintro (((⟨place, node, found, mem⟩ | mem) | ⟨place, edge, found, mem⟩) | mem)
    · rw [place_of_mem_nodeDefects mem] at atEdge
      cases atEdge
    · rw [place_of_mem_markersDefects mem] at atEdge
      cases atEdge
    · rw [place_of_mem_edgeDefects mem, Place.edge.injEq] at atEdge
      subst atEdge
      exact ⟨edge, found, mem⟩
    · rw [eq_of_mem_expect mem] at atEdge
      cases atEdge
  · rintro ⟨edge, found, mem⟩
    exact .inl (.inr ⟨number, edge, found, mem⟩)

/-- A defect is listed at a node exactly where the node breaks a rule or repeats an identifier. -/
theorem exists_defect_at_node_iff :
    (∃ defect ∈ structureDefects nodes edges, defect.place = .node number) ↔
      ∃ node, nodes[number]? = some node ∧ (¬NodeRules node ∨ Repeats nodes number) := by
  constructor
  · rintro ⟨defect, mem, atNode⟩
    obtain ⟨node, found, mem⟩ := (mem_structureDefects_at_node atNode).1 mem
    have wrong : ¬(NodeRules node ∧ ¬Repeats nodes number) := by
      rw [← nodeDefects_eq_nil_iff_not_repeats found]
      exact List.ne_nil_of_mem mem
    exact ⟨node, found, (Classical.not_and_iff_not_or_not.1 wrong).imp_right Classical.not_not.1⟩
  · rintro ⟨node, found, wrong⟩
    have some : nodeDefects ((nodes.take number).filterMap nodeId?) number node ≠ [] := by
      rw [ne_eq, nodeDefects_eq_nil_iff_not_repeats found]
      exact fun ⟨rules, fresh⟩ => wrong.elim (· rules) fresh
    obtain ⟨defect, mem⟩ := List.exists_mem_of_ne_nil _ some
    have atNode := place_of_mem_nodeDefects mem
    exact ⟨defect, (mem_structureDefects_at_node atNode).2 ⟨node, found, mem⟩, atNode⟩

/-- A defect is listed at an edge exactly where the edge breaks a rule. -/
theorem exists_defect_at_edge_iff :
    (∃ defect ∈ structureDefects nodes edges, defect.place = .edge number) ↔
      ∃ edge, edges[number]? = some edge ∧ ¬EdgeRules nodes edge := by
  constructor
  · rintro ⟨defect, mem, atEdge⟩
    obtain ⟨edge, found, mem⟩ := (mem_structureDefects_at_edge atEdge).1 mem
    refine ⟨edge, found, ?_⟩
    rw [← edgeDefects_eq_nil_iff]
    exact List.ne_nil_of_mem mem
  · rintro ⟨edge, found, wrong⟩
    rw [← edgeDefects_eq_nil_iff] at wrong
    obtain ⟨defect, mem⟩ := List.exists_mem_of_ne_nil _ wrong
    have atEdge := place_of_mem_edgeDefects mem
    exact ⟨defect, (mem_structureDefects_at_edge atEdge).2 ⟨edge, found, mem⟩, atEdge⟩

/-- Where the check finds at most that the end cannot be reached, some nodes and edges and an edge from the
start to the end have the structure of a flow. -/
theorem structured_of_onlyDisconnected {bridge : Json}
    (only : ∀ defect ∈ structureDefects nodes edges, defect = .disconnected)
    (source : bridge.get? "source" = some (.str startId))
    (target : bridge.get? "target" = some (.str endId)) : Structured nodes (bridge :: edges) := by
  simp only [structureDefects, List.mem_append] at only
  have noNode : nodesDefects [] 0 nodes = [] := by
    refine List.eq_nil_iff_forall_not_mem.2 fun defect mem => ?_
    obtain ⟨place, node, _, inNode⟩ := mem_nodesDefects.1 mem
    have atNode := place_of_mem_nodeDefects inNode
    rw [only defect (.inl (.inl (.inl mem)))] at atNode
    cases atNode
  have noEdge : edgesDefects (nodes.filterMap nodeId?) 0 edges = [] := by
    refine List.eq_nil_iff_forall_not_mem.2 fun defect mem => ?_
    obtain ⟨place, edge, _, inEdge⟩ := mem_edgesDefects.1 mem
    have atEdge := place_of_mem_edgeDefects inEdge
    rw [only defect (.inl (.inr mem))] at atEdge
    cases atEdge
  have noMarker : markersDefects nodes = [] := by
    refine List.eq_nil_iff_forall_not_mem.2 fun defect mem => ?_
    have isDisconnected := only defect (.inl (.inl (.inr mem)))
    rcases exists_of_mem_markersDefects mem with ⟨_, _, other⟩ | ⟨_, _, other⟩ | ⟨_, _, other⟩ <;>
      cases isDisconnected.symm.trans other
  obtain ⟨rules, distinct⟩ := nodesDefects_eq_nil_iff.1 noNode
  obtain ⟨⟨oneStart, start⟩, oneEnd, finish⟩ := (markersDefects_eq_nil_iff distinct).1 noMarker
  have names {kind : NodeKind} {reserved : Text} (one : ExactlyOne (HasKind kind) nodes)
      (bears : ∀ node ∈ nodes, HasKind kind node → node.get? "id" = some (.str reserved))
      (notEmpty : reserved ≠ []) : Names nodes reserved := by
    obtain ⟨_, ⟨node, found, hasKind⟩, _⟩ := one
    have mem := List.mem_of_getElem? found
    exact ⟨notEmpty, node, mem, bears node mem hasKind⟩
  exact
    { node := rules
      distinct := distinct
      oneStart := oneStart
      start := start
      oneEnd := oneEnd
      finish := finish
      edge := List.forall_mem_cons.2
        ⟨⟨⟨_, source, names oneStart start (by decide)⟩, _, target, names oneEnd finish (by decide)⟩,
          edgesDefects_eq_nil_iff.1 noEdge⟩
      path := .single ⟨bridge, List.mem_cons_self, source, target⟩ }

end Check

namespace Flow

open Check (items structureDefects)

/-- The defects of a value at an entry are those of its nodes and edges. -/
theorem mem_defects_iff {value : Json} {defect : Defect} (atEntry : defect.place ≠ .whole) :
    defect ∈ defects value ↔
      defect ∈ structureDefects (items (value.get "nodes")) (items (value.get "edges")) := by
  unfold defects
  split
  · simp only [List.mem_append]
    constructor
    · rintro ((mem | mem) | mem)
      · rw [Check.eq_of_mem_expect mem] at atEntry
        exact absurd rfl atEntry
      · rw [Check.eq_of_mem_expect mem] at atEntry
        exact absurd rfl atEntry
      · exact mem
    · exact .inr
  · rename_i noObject
    -- A value that is no object has no entries, so nothing but the whole can be at fault.
    have noKey (key : Text) : value.get key = .null := by
      cases value with
      | obj members => exact absurd rfl (noObject members)
      | _ => rfl
    rw [noKey, noKey]
    refine iff_of_false (fun mem => atEntry ?_) (fun mem => atEntry ?_)
    · rw [List.mem_singleton.1 mem, Defect.place]
    · simp only [items, structureDefects, Check.nodesDefects, Check.edgesDefects, List.nil_append,
        List.append_nil, List.mem_append] at mem
      obtain mem | mem := mem
      · exact Check.place_of_mem_markersDefects mem
      · rw [Check.eq_of_mem_expect mem, Defect.place]

/-- The check is exact: it finds no defect exactly where a value has the structure of a flow. And it
is exact entry by entry: a text of a defect begins with the node of a number exactly where the value
has such a node and this breaks a rule or repeats the identifier of an earlier one, and a text
begins with the edge of a number exactly where the value has such an edge and this breaks a rule. -/
theorem defects_exact (value : Json) :
    (defects value = [] ↔ WellStructured value) ∧
    (∀ number, (∃ defect ∈ defects value, Defect.node number <+: defect.text) ↔
      ∃ node, (items (value.get "nodes"))[number]? = some node ∧
        (¬NodeRules node ∨ Repeats (items (value.get "nodes")) number)) ∧
    ∀ number, (∃ defect ∈ defects value, Defect.edge number <+: defect.text) ↔
      ∃ edge, (items (value.get "edges"))[number]? = some edge ∧
        ¬EdgeRules (items (value.get "nodes")) edge := by
  have listed {place : Place} (atEntry : place ≠ .whole) :
      (∃ defect ∈ defects value, defect.place = place) ↔
        ∃ defect ∈ structureDefects (items (value.get "nodes")) (items (value.get "edges")),
          defect.place = place := by
    refine exists_congr fun defect => and_congr_left ?_
    rintro rfl
    exact mem_defects_iff atEntry
  refine ⟨defects_eq_nil_iff, fun number => ?_, fun number => ?_⟩
  · have atEntry : Place.node number ≠ .whole := Place.noConfusion
    rw [← Check.exists_defect_at_node_iff, ← listed atEntry]
    exact exists_congr fun _ => and_congr_right fun _ => Defect.opening_isPrefix_text_iff atEntry
  · have atEntry : Place.edge number ≠ .whole := Place.noConfusion
    rw [← Check.exists_defect_at_edge_iff, ← listed atEntry]
    exact exists_congr fun _ => and_congr_right fun _ => Defect.opening_isPrefix_text_iff atEntry

end Flow

end CardForm
