import CardForm.Proofs.Flow.Adding
import CardForm.Proofs.Flow.Discovery
import CardForm.Proofs.Flow.Merge
import CardForm.Proofs.Flow.Readable

/-!
# What adding a card does to the others

A new card is entered from the last card in stored order and leads to the end only, so to the breadth-first
order it is a leaf: wherever it comes, the other cards stay in their order (`Flow.Wired.discovery_addWithId`). So
the linear form of a flow whose copies are up to date stays what it was, and the field of the new card is
put in exactly where the last card could be reached without entering the end (`Flow.extends_add`). That
asks of the new identifier and of the statements that a field can bear their names
(`Flow.exists_add_refused`).
-/
namespace CardForm

namespace Flow

variable {flow next : Flow} {card : NewCard} {id : Text} {node : Node}

/-! ## The order of the cards -/

/-- The identifier of a new card is not that of a node from before. -/
theorem Wired.ne_of_addWithId (wired : flow.Wired) (adds : flow.addWithId card id = .ok next)
    {other : Text} (mem : other ∈ flow.ids) : other ≠ id := fun same =>
  (wired.exists_of_addWithId adds).1 (same ▸ mem)

/-- The edges that do not enter the end are those from before, and one from the last card to the new one. -/
theorem Wired.inner_ends_addWithId (wired : flow.Wired) (adds : flow.addWithId card id = .ok next) :
    Ends.inner next.ends = Ends.inner flow.ends ++ [(flow.lastCardId, id)] := by
  have notEnd : id ≠ endId := (wired.ne_of_addWithId adds wired.endId_mem_ids).symm
  have old : Ends.inner (Ends.inner flow.ends) = Ends.inner flow.ends :=
    List.filter_eq_self.2 fun e mem => (List.mem_filter.1 mem).2
  rw [wired.ends_addWithId adds]
  calc Ends.inner (Ends.inner flow.ends ++ [(flow.lastCardId, id), (id, endId)])
      = Ends.inner (Ends.inner flow.ends) ++ Ends.inner [(flow.lastCardId, id), (id, endId)] :=
        List.filter_append ..
    _ = Ends.inner flow.ends ++ [(flow.lastCardId, id)] := by
        rw [old]
        simp [Ends.inner, notEnd]

/-- No edge but those into the end leaves the new card. -/
theorem Wired.targets_addWithId (wired : flow.Wired) (adds : flow.addWithId card id = .ok next) :
    (Ends.inner next.ends).targets id = [] := by
  refine List.eq_nil_iff_forall_not_mem.2 fun target isTarget => ?_
  have edge := Ends.mem_targets.1 isTarget
  rw [wired.inner_ends_addWithId adds, List.mem_append] at edge
  rcases edge with old | new
  · have leaves := (edges_join_iff.1 wired.edge _ (List.mem_of_mem_filter old)).1
    exact wired.ne_of_addWithId adds leaves rfl
  · have isLast : id = flow.lastCardId := (Prod.mk.inj (List.mem_singleton.1 new)).1
    exact wired.ne_of_addWithId adds wired.lastCardId_mem.1 isLast.symm

/-- Without the edge into the new card the edges that do not enter the end are those from before. -/
theorem Wired.notInto_addWithId (wired : flow.Wired) (adds : flow.addWithId card id = .ok next) :
    (Ends.inner next.ends).notInto id = Ends.inner flow.ends := by
  have old : (Ends.inner flow.ends).notInto id = Ends.inner flow.ends :=
    List.filter_eq_self.2 fun e mem => bne_iff_ne.2 <|
      wired.ne_of_addWithId adds (edges_join_iff.1 wired.edge e (List.mem_of_mem_filter mem)).2
  rw [wired.inner_ends_addWithId adds]
  calc (Ends.inner flow.ends ++ [(flow.lastCardId, id)]).notInto id
      = (Ends.inner flow.ends).notInto id ++ Ends.notInto [(flow.lastCardId, id)] id :=
        List.filter_append ..
    _ = Ends.inner flow.ends := by
        rw [old]
        simp [Ends.notInto]

/-- The new card apart, the nodes between the start and the end come in the order from before. -/
theorem Wired.discovery_addWithId (wired : flow.Wired) (adds : flow.addWithId card id = .ok next) :
    (Ends.discovery next.ends).filter (· != id) = Ends.discovery flow.ends := by
  have notStart := wired.ne_of_addWithId adds wired.startId_mem_ids
  have others := (Ends.breadthFirst_discovery next.ends).without_leaf
    (wired.targets_addWithId adds) notStart
  rw [wired.notInto_addWithId adds, List.filter_cons_of_pos (by simp [notStart])] at others
  exact (Ends.discovery_eq others).symm

/-- The last card in stored order, if there is a card, can be reached from the start without entering the
end. -/
def ReachesLast (flow : Flow) : Prop :=
  ∀ last ∈ flow.content.getLast?, Ends.Path (Ends.inner flow.ends) startId last.id

/-- That is asked of the node behind which a card is added. -/
theorem reachesLast_iff :
    flow.ReachesLast ↔ Ends.Path (Ends.inner flow.ends) startId flow.lastCardId := by
  unfold ReachesLast lastCardId
  cases flow.content.getLast? with
  | none => exact iff_of_true (fun _ none => nomatch none) (.refl startId)
  | some last => simp

/-- The new card is between the start and the end where the last card can be reached. -/
theorem Wired.mem_discovery_addWithId_iff (wired : flow.Wired)
    (adds : flow.addWithId card id = .ok next) :
    id ∈ Ends.discovery next.ends ↔ flow.ReachesLast := by
  have notStart : id ≠ startId := (wired.ne_of_addWithId adds wired.startId_mem_ids).symm
  have notLast := wired.ne_of_addWithId adds wired.lastCardId_mem.1
  have toLast : Ends.Path (Ends.inner next.ends) startId flow.lastCardId ↔ flow.ReachesLast := by
    rw [reachesLast_iff, ← wired.notInto_addWithId adds,
      Ends.path_notInto_iff (wired.targets_addWithId adds) notLast]
  rw [Ends.mem_discovery_iff, and_iff_right notStart, ← toLast]
  constructor
  · intro path
    rcases path.cases_tail with isStart | ⟨source, toSource, edge⟩
    · exact absurd isStart notStart
    · rw [wired.inner_ends_addWithId adds, List.mem_append] at edge
      rcases edge with old | new
      · have enters := (edges_join_iff.1 wired.edge _ (List.mem_of_mem_filter old)).2
        exact absurd rfl (wired.ne_of_addWithId adds enters)
      · have isLast : source = flow.lastCardId := (Prod.mk.inj (List.mem_singleton.1 new)).1
        exact isLast ▸ toSource
  · intro path
    have edge : (flow.lastCardId, id) ∈ Ends.inner next.ends := by
      rw [wired.inner_ends_addWithId adds]
      exact List.mem_append_right _ (List.mem_singleton.2 rfl)
    exact path.snoc edge

/-! ## What is shown -/

/-- A new card shows a field that bears its identifier. -/
theorem exists_field?_newNode {y : Number} (isNew : flow.newNode card id y = .ok node) :
    ∃ shown, node.field? = .ok (some shown) ∧ shown.id = id := by
  obtain ⟨name, rfl | ⟨key, rfl⟩⟩ := newNode_cases isNew
  · exact ⟨_, Node.field?_statement_eq_ok_iff.2 (.inr ⟨rfl, name, rfl⟩), rfl⟩
  · exact ⟨_, rfl, rfl⟩

/-- In a flow whose copies are up to date the last node of an identifier is the new card, or the node from
before. -/
theorem Wired.exists_lastNode?_addWithId (wired : flow.Wired) (synced : flow.Synced)
    (adds : flow.addWithId card id = .ok next) :
    ∃ new field, next.lastNode? id = some new ∧ new.field? = .ok (some field) ∧ field.id = id ∧
      ∀ named, named ≠ id → next.lastNode? named = flow.lastNode? named := by
  obtain ⟨_, y, new, isNew, isNext⟩ := wired.exists_of_addWithId adds
  obtain ⟨field, isField, sameId⟩ := exists_field?_newNode isNew
  have newId : new.id = id := (id_and_isContent_of_newNode isNew).1
  have sameNodes : flow.nodes.map Node.normalized = flow.nodes :=
    (List.map_congr_left synced).trans (List.map_id _)
  have reversed : next.nodes.reverse = new :: flow.nodes.reverse := by
    rw [isNext, sameNodes, List.reverse_append]
    rfl
  refine ⟨new, field, ?_, isField, sameId, fun named notNew => ?_⟩
  · rw [lastNode?, reversed, List.find?_cons_of_pos (by simp [newId])]
  · rw [lastNode?, reversed, List.find?_cons_of_neg (by simp [newId, notNew.symm]), lastNode?]

/-- Where the other nodes stay and come in the same order, the others that are shown are the same. -/
theorem filter_shownNodes_eq
    (order : (Ends.discovery next.ends).filter (· != id) = Ends.discovery flow.ends)
    (old : ∀ named, named ≠ id → next.lastNode? named = flow.lastNode? named) :
    next.shownNodes.filter (fun node => node.id != id) = flow.shownNodes := by
  rw [shownNodes, shownNodes, ← order, List.filter_filterMap, List.filterMap_filter]
  refine List.filterMap_congr fun named _ => ?_
  have ids : ∀ node ∈ next.lastNode? named, node.id = named := fun node isLast =>
    id_of_lastNode? isLast
  by_cases isNew : named = id
  · subst isNew
    rw [if_neg (by simp), Option.filter_eq_none_iff.2]
    simpa using ids
  · rw [if_pos (bne_iff_ne.2 isNew), ← old named isNew]
    cases isLast : next.lastNode? named with
    | none => rfl
    | some node => simp [ids node isLast, isNew]

/-- Where one more node comes among those that are shown, its field comes among theirs. -/
theorem exists_linear_inserted {new : Node} {field : Field} {fields : List Field}
    {earlier later : List Text} (isLinear : flow.linear = .ok fields)
    (order : Ends.discovery flow.ends = earlier ++ later)
    (inserted : Ends.discovery next.ends = earlier ++ id :: later)
    (old : ∀ named ∈ earlier ++ later, next.lastNode? named = flow.lastNode? named)
    (isLast : next.lastNode? id = some new) (isField : new.field? = .ok (some field)) :
    ∃ before after, fields = before ++ after ∧ next.linear = .ok (before ++ field :: after) := by
  rw [List.forall_mem_append] at old
  rw [linear, shownNodes, order, List.filterMap_append] at isLinear
  obtain ⟨before, after, areBefore, areAfter, rfl⟩ := Node.fields_append_eq_ok_iff.1 isLinear
  have withNew : Node.fields (new :: later.filterMap flow.lastNode?) = .ok (field :: after) :=
    Node.fields_cons_eq_ok_iff.2 ⟨some field, after, isField, areAfter, rfl⟩
  refine ⟨before, after, rfl, ?_⟩
  rw [linear, shownNodes, inserted, List.filterMap_append, List.filterMap_cons_some isLast,
    List.filterMap_congr old.1, List.filterMap_congr old.2]
  exact Node.fields_append_eq_ok_iff.2 ⟨before, field :: after, areBefore, withNew, rfl⟩

/-- Where no node comes among those that are shown, the flow stands for the same fields. -/
theorem linear_eq_of_discovery (order : Ends.discovery next.ends = Ends.discovery flow.ends)
    (old : ∀ named ∈ Ends.discovery flow.ends, next.lastNode? named = flow.lastNode? named) :
    next.linear = flow.linear := by
  rw [linear, linear, shownNodes, shownNodes, order, List.filterMap_congr old]

/-- A flow has one more card than another one, which leaves the others as they were. -/
structure Extends (next flow : Flow) (id : Text) : Prop where
  /-- The other nodes between the start and the end come in the same order. -/
  order : (Ends.discovery next.ends).filter (· != id) = Ends.discovery flow.ends
  /-- The new one is among them where the last card could be reached. -/
  listed : id ∈ Ends.discovery next.ends ↔ flow.ReachesLast
  /-- The same other cards are shown. -/
  shown : next.shownNodes.filter (fun node => node.id != id) = flow.shownNodes
  /-- They show the same fields, among which is that of the new card where the last card could be
  reached. -/
  fields : ∃ new field before after, next.lastNode? id = some new ∧
    new.field? = .ok (some field) ∧ field.id = id ∧ flow.linear = .ok (before ++ after) ∧
    (flow.ReachesLast → next.linear = .ok (before ++ field :: after)) ∧
    (¬flow.ReachesLast → next.linear = .ok (before ++ after))

/-- What adding a card makes of a wired flow whose copies are up to date and that stands for fields. -/
theorem Wired.extends_addWithId (wired : flow.Wired) (synced : flow.Synced)
    (named : ¬flow.ShowsUnnamed) (adds : flow.addWithId card id = .ok next) :
    next.Extends flow id := by
  obtain ⟨new, field, isLast, isField, sameId, old⟩ := wired.exists_lastNode?_addWithId synced adds
  obtain ⟨fields, isLinear⟩ := exists_linear_of_named named
  have order := wired.discovery_addWithId adds
  have listed := wired.mem_discovery_addWithId_iff adds
  refine ⟨order, listed, filter_shownNodes_eq order old, ?_⟩
  by_cases reaches : flow.ReachesLast
  · obtain ⟨earlier, later, inserted⟩ := List.append_of_mem (listed.2 reaches)
    have distinct := Ends.nodup_discovery next.ends
    rw [inserted, List.nodup_middle, List.nodup_cons] at distinct
    have others : ∀ named ∈ earlier ++ later, named ≠ id := fun named mem isNew =>
      distinct.1 (isNew ▸ mem)
    have oldOrder : Ends.discovery flow.ends = earlier ++ later := by
      rw [← order, inserted, List.filter_append, List.filter_cons_of_neg (by simp),
        ← List.filter_append]
      exact List.filter_eq_self.2 fun named mem => bne_iff_ne.2 (others named mem)
    obtain ⟨before, after, rfl, isNext⟩ := exists_linear_inserted isLinear oldOrder inserted
      (fun named mem => old named (others named mem)) isLast isField
    exact ⟨new, field, before, after, isLast, isField, sameId, isLinear, fun _ => isNext,
      fun notReached => absurd reaches notReached⟩
  · have others : ∀ named ∈ Ends.discovery next.ends, named ≠ id := fun named mem isNew =>
      reaches (listed.1 (isNew ▸ mem))
    have sameOrder : Ends.discovery next.ends = Ends.discovery flow.ends := by
      rw [← order]
      exact (List.filter_eq_self.2 fun named mem => bne_iff_ne.2 (others named mem)).symm
    have isNext : next.linear = .ok fields := by
      rw [linear_eq_of_discovery sameOrder fun named mem => old named (others named (sameOrder ▸ mem))]
      exact isLinear
    refine ⟨new, field, fields, [], isLast, isField, sameId, ?_, fun reached => absurd reached reaches,
      fun _ => ?_⟩
    · rw [List.append_nil, isLinear]
    · rw [List.append_nil, isNext]

/-- To a flow that was loaded, whose copies are up to date and that shows no statement without a name, a
card of any kind can be added under each name that is not in use. It leaves the others as they were. -/
theorem extends_add {value : Json} (card : NewCard) (randomDigits : Text) (loads : load value = .ok flow)
    (synced : flow.Synced) (named : ¬flow.ShowsUnnamed) (name : Format.name.Valid id)
    (free : id ∉ flow.ids) :
    ∃ next, flow.add card id randomDigits = .ok next ∧ next.Extends flow id := by
  obtain ⟨next, adds⟩ := (exists_addWithId_iff free).2 ⟨name, fun _ => exists_linear_of_named named⟩
  refine ⟨next, (add_eq_addWithId name.2).trans adds, ?_⟩
  exact (sound_of_load loads).wired.extends_addWithId synced named adds

/-- Two ways through three questions, of which the first on one way is stored last. -/
def forked : Flow :=
  { chain [.bare "b", .bare "c", .bare "a"] none with
    edges := Edge.ofSpecs
      [⟨"start", "a", none, []⟩, ⟨"start", "b", none, []⟩, ⟨"b", "c", none, []⟩,
        ⟨"a", "end", none, []⟩, ⟨"c", "end", none, []⟩] }

/-- They are loaded. -/
theorem load_forked : load forked.toJson = .ok forked := by
  have valid := Field.valid_bare ["b", "c", "a"] (by decide)
  obtain ⟨proper, wired, _⟩ := sound_iff.1 (sound_chain valid none)
  have joins : ∀ edge ∈ forked.edges, edge.source ∈ forked.ids ∧ edge.target ∈ forked.ids := by decide
  have toFirst : (startId, ("a" : Text)) ∈ forked.ends := by decide
  have fromFirst : (("a" : Text), endId) ∈ forked.ends := by decide
  have sound : forked.Sound := sound_iff.2
    ⟨proper, wired.map (List.map_id _).symm (fun _ => rfl) (fun _ => rfl) joins,
      ((Ends.Path.refl startId).snoc toFirst).snoc fromFirst⟩
  have chained : format.Each .once (chain [.bare "b", .bare "c", .bare "a"] none) :=
    each_chain_bare ["b", "c", "a"]
  obtain ⟨extras, nodes, _, viewport⟩ := each_iff.1 chained
  have edges : ∀ edge ∈ forked.edges, Edge.format.Each .once edge := by
    refine each_ofSpecs fun spec mem => ?_
    have noData : spec.data = none := by
      revert spec
      decide
    rw [noData]
    exact fun _ none => nomatch none
  have once : format.Each .once forked := each_iff.2 ⟨extras, nodes, edges, viewport⟩
  have validForked : format.Valid forked := valid_iff.2 (valid_column valid)
  exact (load_toJson_eq_ok_iff once).2 ⟨sound, validForked, rfl⟩

/-- A statement that is added behind the question stored last is listed, and leaves both ways as they
were. -/
theorem extends_add_forked :
    ∃ next, forked.add .statement "d" [] = .ok next ∧ next.Extends forked "d" ∧
      ("d" : Text) ∈ Ends.discovery next.ends := by
  have synced : forked.Synced := synced_chain [.bare "b", .bare "c", .bare "a"] none
  have named : ¬forked.ShowsUnnamed := by
    rintro ⟨node, isShown, unnamed⟩
    have inColumn : node ∈ column [.bare "b", .bare "c", .bare "a"] := mem_of_mem_shownNodes isShown
    exact not_unnamed_of_mem_column (Field.valid_bare ["b", "c", "a"] (by decide)) inColumn unnamed
  obtain ⟨next, adds, isExtended⟩ := extends_add .statement [] load_forked synced named
    (⟨by decide, by decide⟩ : Format.name.Valid "d") (by decide)
  have toLast : (startId, forked.lastCardId) ∈ Ends.inner forked.ends := by decide
  have reaches : forked.ReachesLast := reachesLast_iff.2 ((Ends.Path.refl startId).snoc toLast)
  exact ⟨next, adds, isExtended, isExtended.listed.2 reaches⟩

/-- Nothing can be added under an identifier that is not empty, but no text that can be sent. -/
theorem exists_add_refused :
    ∃ flow id, load flow.toJson = .ok flow ∧ flow.Synced ∧
      (∀ card, Node.statement card ∉ flow.nodes) ∧ id ≠ [] ∧ id ∉ flow.ids ∧
      ¬∃ next, flow.add .statement id [] = .ok next := by
  let lone : Text := [⟨0xD800, by decide⟩]
  have noFields : ∀ field ∈ ([] : List Field), Field.format.Valid field := fun _ none => nomatch none
  have notEmpty : lone ≠ [] := List.cons_ne_nil _ _
  have free : lone ∉ (chain [] none).ids := by decide
  have loads : load (chain [] none).toJson = .ok (chain [] none) :=
    (load_toJson_eq_ok_iff (each_chain_bare [])).2 ⟨sound_chain noFields none, valid_chain noFields, rfl⟩
  have noStatement : ∀ card, Node.statement card ∉ (chain [] none).nodes := by
    intro card mem
    obtain same | ⟨_, none, _⟩ | ⟨_, same⟩ := mem_column mem
    · cases same
    · cases none
    · cases same
  refine ⟨_, lone, loads, synced_chain [] none, noStatement, notEmpty, free, ?_⟩
  rw [add_eq_addWithId notEmpty, exists_addWithId_iff free]
  rintro ⟨name, _⟩
  exact absurd name.1 (by decide)

end Flow

end CardForm
