import CardForm.Proofs.Flow.Rebuilt
import CardForm.Proofs.Flow.Wired
import CardForm.Proofs.Text

/-!
# Which edges share an identifier

The identifier of an edge joins the identifiers of its two nodes by a hyphen, and a count behind another
hyphen where the same nodes were joined before. The nodes may have hyphens of their own, so two edges
between different nodes can share an identifier (`Flow.exists_shared_edgeId`). The identifiers are distinct
exactly where no two pairs of nodes read the same, with or without a count (`Ends.ToldApart`,
`Ends.nodup_edgeIds_iff`). It is enough that the identifier of no node goes on, behind a hyphen, in that of
another one (`NoneContinues`), as is so for the start, the end and nodes of fresh identifiers
(`noneContinues_fresh`).
-/
namespace CardForm

/-! ## Counting the same pairs -/

namespace Ends

variable {earlier ends : Ends} {pair : Text × Text} {count : Nat}

/-- Each pair of ends with the number of the same pairs before it, some earlier ones included. -/
def countedAfter (earlier : Ends) : Ends → List ((Text × Text) × Nat)
  | [] => []
  | pair :: rest => (pair, earlier.count pair) :: countedAfter (pair :: earlier) rest

/-- Each pair is counted once, in order. -/
theorem map_fst_countedAfter (earlier ends : Ends) :
    (countedAfter earlier ends).map Prod.fst = ends := by
  induction ends generalizing earlier with
  | nil => rfl
  | cons pair rest ih => rw [countedAfter, List.map_cons, ih]

/-- The counts of a pair go on from the earlier ones, one for each time that the pair comes. -/
theorem mem_countedAfter_iff : (pair, count) ∈ countedAfter earlier ends ↔
    earlier.count pair ≤ count ∧ count < earlier.count pair + ends.count pair := by
  induction ends generalizing earlier with
  | nil =>
    rw [countedAfter, List.count_nil]
    constructor
    · intro mem
      cases mem
    · omega
  | cons first rest ih =>
    rw [countedAfter, List.mem_cons, ih, Prod.mk.injEq]
    by_cases same : first = pair
    · subst same
      rw [List.count_cons_self, List.count_cons_self]
      constructor
      · rintro (⟨_, isCount⟩ | later) <;> omega
      · intro between
        by_cases isFirst : count = earlier.count first
        · exact .inl ⟨rfl, isFirst⟩
        · right
          omega
    · rw [List.count_cons_of_ne same, List.count_cons_of_ne same]
      constructor
      · rintro (⟨rfl, _⟩ | later)
        · exact absurd rfl same
        · exact later
      · exact .inr

/-- No pair is counted alike twice. -/
theorem nodup_countedAfter (earlier ends : Ends) : (countedAfter earlier ends).Nodup := by
  induction ends generalizing earlier with
  | nil => exact List.nodup_nil
  | cons pair rest ih =>
    rw [countedAfter, List.nodup_cons]
    refine ⟨?_, ih _⟩
    intro again
    have larger := (mem_countedAfter_iff.1 again).1
    rw [List.count_cons_self] at larger
    omega

/-- The identifiers of edges are made of their ends and their counts. -/
theorem edgeIdsAfter_eq (earlier ends : Ends) : edgeIdsAfter earlier ends =
    (countedAfter earlier ends).map fun counted =>
      edgeId counted.1.1 counted.1.2 counted.2 := by
  induction ends generalizing earlier with
  | nil => rfl
  | cons pair rest ih => rw [edgeIdsAfter, countedAfter, List.map_cons, ih]

/-- Where no two edges join the same nodes, no identifier has a count. -/
theorem edgeIds_of_nodup (distinct : ends.Nodup) :
    edgeIds ends = ends.map fun pair => edgeId pair.1 pair.2 0 := by
  have uncounted : ∀ counted ∈ countedAfter [] ends, counted.2 = 0 := by
    rintro ⟨pair, count⟩ mem
    have few := (mem_countedAfter_iff.1 mem).2
    have once : ends.count pair ≤ 1 := List.nodup_iff_count_le_one.1 distinct pair
    rw [List.count_nil] at few
    show count = 0
    omega
  calc edgeIds ends
      = (countedAfter [] ends).map fun counted => edgeId counted.1.1 counted.1.2 counted.2 :=
        edgeIdsAfter_eq [] ends
    _ = (countedAfter [] ends).map fun counted => edgeId counted.1.1 counted.1.2 0 := by
        refine List.map_congr_left fun counted mem => ?_
        rw [uncounted counted mem]
    _ = ((countedAfter [] ends).map Prod.fst).map fun pair => edgeId pair.1 pair.2 0 := by
        rw [List.map_map]
        rfl
    _ = ends.map fun pair => edgeId pair.1 pair.2 0 := by rw [map_fst_countedAfter]

/-! ## When identifiers are distinct -/

/-- The identifiers of two ends with a hyphen between them. -/
def hyphenated (pair : Text × Text) : Text := pair.1 ++ "-" ++ pair.2

/-- A count is written behind a hyphen, which is no digit. -/
theorem hyphenated_append_inj {pair other : Text × Text} {m n : Nat} :
    hyphenated pair ++ "-" ++ Text.ofNat m = hyphenated other ++ "-" ++ Text.ofNat n ↔
      hyphenated pair = hyphenated other ∧ m = n := by
  have noDigit : (CodePoint.ofChar '-').isDigit = false := by decide
  rw [List.append_assoc, List.append_assoc]
  exact Text.append_ofNat_inj noDigit

/-- The identifier of the first edge between two nodes. -/
theorem edgeId_zero (pair : Text × Text) : edgeId pair.1 pair.2 0 = "e-" ++ hyphenated pair := by
  rw [edgeId, if_pos rfl, hyphenated]
  simp only [List.append_assoc]

/-- The identifier of an edge between nodes that were joined before. -/
theorem edgeId_of_pos (pair : Text × Text) (again : 0 < count) :
    edgeId pair.1 pair.2 count = "e-" ++ (hyphenated pair ++ "-" ++ Text.ofNat count) := by
  rw [edgeId, if_neg (Nat.ne_of_gt again), hyphenated]
  simp only [List.append_assoc]

/-- Pairs of ends whose edges can be told apart by a text that joins the two by a hyphen. -/
structure ToldApart (ends : Ends) : Prop where
  /-- Different pairs read differently. -/
  joined : ∀ first ∈ ends, ∀ second ∈ ends, hyphenated first = hyphenated second → first = second
  /-- No pair reads as another one with the count of an edge that comes again. -/
  counted : ∀ first ∈ ends, ∀ second ∈ ends, ∀ count, 0 < count → count < ends.count first →
    hyphenated second ≠ hyphenated first ++ "-" ++ Text.ofNat count

/-- The identifiers of edges are distinct exactly where their pairs of ends can be told apart. -/
theorem nodup_edgeIds_iff : (edgeIds ends).Nodup ↔ ends.ToldApart := by
  have counts {pair : Text × Text} {count : Nat} :
      (pair, count) ∈ countedAfter [] ends ↔ count < ends.count pair := by
    rw [mem_countedAfter_iff, List.count_nil]
    omega
  have first {pair : Text × Text} (mem : pair ∈ ends) : (pair, 0) ∈ countedAfter [] ends :=
    counts.2 (List.count_pos_iff.2 mem)
  have among {pair : Text × Text} {count : Nat} (mem : (pair, count) ∈ countedAfter [] ends) :
      pair ∈ ends :=
    List.count_pos_iff.1 (Nat.zero_lt_of_lt (counts.1 mem))
  rw [edgeIds, edgeIdsAfter_eq, List.nodup_map_iff_inj_on (nodup_countedAfter [] ends)]
  constructor
  · intro inj
    constructor
    · intro a aMem b bMem same
      have sameIds : edgeId a.1 a.2 0 = edgeId b.1 b.2 0 := by
        rw [edgeId_zero, edgeId_zero, same]
      exact congrArg Prod.fst (inj (a, 0) (first aMem) (b, 0) (first bMem) sameIds)
    · intro a _ b bMem count again few same
      have sameIds : edgeId b.1 b.2 0 = edgeId a.1 a.2 count := by
        rw [edgeId_zero, edgeId_of_pos a again, same]
      have noCount : 0 = count :=
        congrArg Prod.snd (inj (b, 0) (first bMem) (a, count) (counts.2 few) sameIds)
      omega
  · rintro apart ⟨a, m⟩ aMem ⟨b, n⟩ bMem (same : edgeId a.1 a.2 m = edgeId b.1 b.2 n)
    -- which of the two edges come again decides which of their texts are compared
    rcases Nat.eq_zero_or_pos m with rfl | mPos <;> rcases Nat.eq_zero_or_pos n with rfl | nPos
    · rw [edgeId_zero, edgeId_zero] at same
      rw [apart.joined a (among aMem) b (among bMem) (List.append_cancel_left same)]
    · rw [edgeId_zero, edgeId_of_pos b nPos] at same
      exact absurd (List.append_cancel_left same)
        (apart.counted b (among bMem) a (among aMem) n nPos (counts.1 bMem))
    · rw [edgeId_of_pos a mPos, edgeId_zero] at same
      exact absurd (List.append_cancel_left same).symm
        (apart.counted a (among aMem) b (among bMem) m mPos (counts.1 aMem))
    · rw [edgeId_of_pos a mPos, edgeId_of_pos b nPos] at same
      obtain ⟨sameEnds, sameCount⟩ := hyphenated_append_inj.1 (List.append_cancel_left same)
      rw [apart.joined a (among aMem) b (among bMem) sameEnds, sameCount]

end Ends

/-! ## Nodes whose identifiers do not go on in others -/

/-- Identifiers of which none goes on, behind a hyphen, in one of them. -/
def NoneContinues (ids : List Text) : Prop := ∀ id ∈ ids, ∀ other ∈ ids, ¬id ++ ("-" : Text) <+: other

instance (ids : List Text) : Decidable (NoneContinues ids) :=
  inferInstanceAs (Decidable (∀ id ∈ ids, ∀ other ∈ ids, ¬id ++ ("-" : Text) <+: other))

namespace NoneContinues

variable {ids : List Text}

/-- What stands before the first hyphen that can follow one of the identifiers is told from the whole. -/
theorem append_inj (none : NoneContinues ids) {id other rest tail : Text} (idMem : id ∈ ids)
    (otherMem : other ∈ ids) (same : id ++ ("-" : Text) ++ rest = other ++ ("-" : Text) ++ tail) :
    id = other ∧ rest = tail := by
  have begins : id ++ ("-" : Text) <+: other ++ ("-" : Text) ++ tail := ⟨rest, same⟩
  have alike : id = other := by
    rcases List.prefix_or_prefix_of_prefix begins (List.prefix_append _ tail) with shorter | longer
    · rcases List.prefix_concat_iff.1 shorter with whole | part
      · exact List.append_cancel_right whole
      · exact absurd part (none id idMem other otherMem)
    · rcases List.prefix_concat_iff.1 longer with whole | part
      · exact (List.append_cancel_right whole).symm
      · exact absurd part (none other otherMem id idMem)
  subst alike
  exact ⟨rfl, List.append_cancel_left same⟩

/-- Pairs of such identifiers can be told apart. -/
theorem toldApart (none : NoneContinues ids) {ends : Ends}
    (among : ∀ pair ∈ ends, pair.1 ∈ ids ∧ pair.2 ∈ ids) : ends.ToldApart where
  joined first firstMem second secondMem same := by
    obtain ⟨sameSource, sameTarget⟩ :=
      none.append_inj (among first firstMem).1 (among second secondMem).1 same
    exact Prod.ext sameSource sameTarget
  counted first firstMem second secondMem count _ _ same := by
    have parts : second.1 ++ ("-" : Text) ++ second.2 =
        first.1 ++ ("-" : Text) ++ (first.2 ++ ("-" : Text) ++ Text.ofNat count) := by
      simpa only [Ends.hyphenated, List.append_assoc] using same
    have target := (none.append_inj (among second secondMem).1 (among first firstMem).1 parts).2
    have goesOn : first.2 ++ ("-" : Text) <+: second.2 := ⟨Text.ofNat count, target.symm⟩
    exact none first.2 (among first firstMem).2 second.2 (among second secondMem).2 goesOn

end NoneContinues

/-- A fresh identifier of a node is as long as any other. -/
theorem length_freshNodeId {stem digits : Text} (enough : 8 ≤ digits.length) :
    (freshNodeId stem digits).length = stem.length + 9 := by
  have hyphen : ("-" : Text).length = 1 := rfl
  simp only [freshNodeId, Text.toLower, List.length_append, List.length_map, List.length_take, hyphen]
  omega

/-- The identifiers of the start, the end and nodes that were added with fresh identifiers do not go on in
one another. -/
theorem noneContinues_fresh (draws : List Text) (enough : ∀ digits ∈ draws, 8 ≤ digits.length) :
    NoneContinues (startId :: endId :: draws.map (freshNodeId "node")) := by
  have longer {id other : Text} (begins : id ++ ("-" : Text) <+: other) : id.length < other.length := by
    have bound := begins.length_le
    rw [List.length_append] at bound
    exact bound
  have fresh {id : Text} (mem : id ∈ draws.map (freshNodeId "node")) :
      id.length = 13 ∧ ∃ rest, id = "node-" ++ rest := by
    obtain ⟨digits, inDraws, rfl⟩ := List.mem_map.1 mem
    exact ⟨length_freshNodeId (enough digits inDraws), _, List.append_assoc _ _ _⟩
  intro id idMem other otherMem begins
  have shorter := longer begins
  rw [List.mem_cons, List.mem_cons] at idMem otherMem
  rcases otherMem with rfl | rfl | otherFresh
  · rcases idMem with rfl | rfl | idFresh
    · exact absurd shorter (Nat.lt_irrefl _)
    · exact absurd begins (by decide)
    · rw [(fresh idFresh).1] at shorter
      exact absurd shorter (by decide)
  · rcases idMem with rfl | rfl | idFresh
    · exact absurd begins (by decide)
    · exact absurd shorter (Nat.lt_irrefl _)
    · rw [(fresh idFresh).1] at shorter
      exact absurd shorter (by decide)
  · obtain ⟨length, rest, rfl⟩ := fresh otherFresh
    rcases idMem with rfl | rfl | idFresh
    · obtain ⟨_, same⟩ := begins
      cases same
    · obtain ⟨_, same⟩ := begins
      cases same
    · rw [(fresh idFresh).1, length] at shorter
      exact absurd shorter (Nat.lt_irrefl _)

namespace Flow

/-! ## Flows whose edges are numbered all at once -/

/-- The edges of some specifications bear the identifiers of the pairs of ends. -/
theorem ids_ofSpecs (specs : List EdgeSpec) :
    (Edge.ofSpecs specs).map Edge.id = edgeIds (specs.map EdgeSpec.ends) := by
  have enough : (edgeIds (specs.map EdgeSpec.ends)).length ≤ specs.length := by simp [edgeIds]
  rw [Edge.ofSpecs, List.map_map]
  exact List.map_snd_zip enough

/-- Edges that were numbered all at once have distinct identifiers exactly where their pairs of ends can be
told apart. -/
theorem nodup_ids_ofSpecs_iff (specs : List EdgeSpec) :
    ((Edge.ofSpecs specs).map Edge.id).Nodup ↔
      Ends.ToldApart ((Edge.ofSpecs specs).map Edge.ends) := by
  rw [ids_ofSpecs, ends_ofSpecs, Ends.nodup_edgeIds_iff]

/-- The edges of a chain, of what is built, and of a flow in another order have distinct identifiers exactly
where their pairs of ends can be told apart; so they have where no identifier of a node goes on, behind a
hyphen, in that of another one. -/
theorem edges_toldApart_iff (fields : List Field) (specs : List EdgeSpec) (viewport : Option Viewport)
    (flow : Flow) (order : List Text) :
    (∀ ends : Ends, (edgeIds ends).Nodup ↔ ends.ToldApart) ∧
      (∀ draws : List Text, (∀ digits ∈ draws, 8 ≤ digits.length) →
        NoneContinues (startId :: endId :: draws.map (freshNodeId "node"))) ∧
      ∀ made ∈ [chain fields viewport, build fields specs viewport, flow.reorder order],
        ((made.edges.map Edge.id).Nodup ↔ Ends.ToldApart made.ends) ∧
          (NoneContinues made.ids → (made.edges.map Edge.id).Nodup) := by
  have laws {made : Flow} (numbered : ∃ specs, made.edges = Edge.ofSpecs specs)
      (among : ∀ pair ∈ made.ends, pair.1 ∈ made.ids ∧ pair.2 ∈ made.ids) :
      ((made.edges.map Edge.id).Nodup ↔ Ends.ToldApart made.ends) ∧
        (NoneContinues made.ids → (made.edges.map Edge.id).Nodup) := by
    obtain ⟨used, edges⟩ := numbered
    have apart : (made.edges.map Edge.id).Nodup ↔ Ends.ToldApart made.ends := by
      rw [Flow.ends, edges]
      exact nodup_ids_ofSpecs_iff used
    exact ⟨apart, fun none => apart.2 (none.toldApart among)⟩
  refine ⟨fun _ => Ends.nodup_edgeIds_iff, noneContinues_fresh, ?_⟩
  rw [List.forall_mem_cons, List.forall_mem_cons, List.forall_mem_singleton]
  have inChain : ∀ pair ∈ (chain fields viewport).ends,
      pair.1 ∈ (chain fields viewport).ids ∧ pair.2 ∈ (chain fields viewport).ids := by
    rw [ends_chain]
    exact fun pair mem => (List.of_mem_zip mem).imp_right List.mem_of_mem_tail
  have inBuilt : ∀ pair ∈ (build fields specs viewport).ends,
      pair.1 ∈ (build fields specs viewport).ids ∧ pair.2 ∈ (build fields specs viewport).ids := by
    refine edges_join_iff.1 fun edge mem => ?_
    obtain ⟨source, target, _⟩ := exists_of_mem_edges_build mem
    exact ⟨source, target⟩
  exact ⟨laws ⟨_, rfl⟩ inChain, laws ⟨_, rfl⟩ inBuilt,
    laws ⟨_, rfl⟩ fun _ => mem_ids_of_mem_ends_reorder⟩

/-- A chain through a node of a fresh identifier, in an order that names it twice. -/
def revisited : Flow :=
  (chain [.bare "node-1f3a9c0b"] none).reorder
    ["start", "node-1f3a9c0b", "start", "node-1f3a9c0b", "end"]

/-- The edges that come again where an order names a node twice are told apart by their counts. -/
theorem edges_toldApart_revisited :
    NoneContinues [startId, endId, freshNodeId "node" "1F3A9C0B4d7e"] ∧
      NoneContinues revisited.ids ∧ ¬revisited.ends.Nodup ∧ Ends.ToldApart revisited.ends ∧
      (revisited.edges.map Edge.id).Nodup ∧
      revisited.edges.map Edge.id =
        (["e-start-node-1f3a9c0b", "e-node-1f3a9c0b-start", "e-start-node-1f3a9c0b-1",
          "e-node-1f3a9c0b-end"] : List Text) := by
  have laws := edges_toldApart_iff [] [] none (chain [.bare "node-1f3a9c0b"] none)
    ["start", "node-1f3a9c0b", "start", "node-1f3a9c0b", "end"]
  have fresh := laws.2.1 ["1F3A9C0B4d7e"] (by decide)
  have ofRevisited := laws.2.2 revisited (by simp [revisited])
  have continues : NoneContinues revisited.ids := by decide
  have distinct := ofRevisited.2 continues
  exact ⟨fresh, continues, by decide, ofRevisited.1.1 distinct, distinct, by decide⟩

/-- Fields of which two and the two others read the same, joined by a hyphen. -/
def hyphenatedFields : List Field := [.bare "a", .bare "b-c", .bare "a-b", .bare "c"]

/-- Two edges between different nodes can share an identifier: those of a chain, of what is built and of a
flow in another order do where two pairs of nodes read the same with a hyphen between them. -/
theorem exists_shared_edgeId :
    ¬(edgeIds ([("a", "b-c"), ("a-b", "c")] : List (Text × Text))).Nodup ∧
      (∀ field ∈ hyphenatedFields, ∃ found, Field.read found = .ok field) ∧
      ∀ made ∈ [chain hyphenatedFields none,
          build hyphenatedFields (chainSpecs ["start", "a", "b-c", "a-b", "c", "end"]) none,
          (chain hyphenatedFields none).reorder ["start", "a", "b-c", "a-b", "c", "end"]],
        made.ids.Nodup ∧ made.ends.Nodup ∧ ¬(made.edges.map Edge.id).Nodup := by
  let ids : List Text := ["start", "a", "b-c", "a-b", "c", "end"]
  have reached : reachedFields hyphenatedFields (chainSpecs ids) = hyphenatedFields := by
    rw [reachedFields, ends_chainSpecs]
    exact (congrArg (List.filterMap (Field.last? hyphenatedFields))
      (Ends.discovery_chain ["a", "b-c", "a-b", "c"] (by decide))).trans rfl
  have built : build hyphenatedFields (chainSpecs ids) none =
      ⟨column hyphenatedFields, Edge.ofSpecs (chainSpecs ids), none, []⟩ :=
    build_of_reached none reached (by decide) fun id mem => by
      rw [ends_chainSpecs]
      exact path_chain (show id ∈ ids from mem)
  refine ⟨by decide, Field.exists_read_bare ["a", "b-c", "a-b", "c"] (by decide), ?_⟩
  rw [built]
  decide

end Flow

end CardForm
