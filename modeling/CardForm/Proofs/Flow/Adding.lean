import CardForm.Proofs.Flow.LaidOut
import CardForm.Proofs.Flow.Wired

/-!
# What adding a card does to the ways to the end

A new card is joined to the last card in stored order and to the end, and all edges that entered the
end are gone. So a way to the end is left to those nodes only from which the last card can be
reached without entering the end (`Ends.path_through_iff`): whether the start is among them decides
whether the end can still be reached (`Flow.reaches_end_add_iff`). It is not where the last card was
joined to nothing (`Flow.exists_add_disconnected`).
-/
namespace CardForm

/-! ## Ways past a new node -/

namespace Ends

/-- When a fresh node is put between `last` and the end, in place of the edges into the end, a way to
the end is left to the nodes from which `last` can be reached over the other edges. -/
theorem path_through_iff {ends : Ends} {last id a : Text} (fresh : ∀ e ∈ ends, e.2 ≠ id)
    (notNew : a ≠ id) (notEnd : a ≠ endId) :
    Ends.Path (inner ends ++ [(last, id), (id, endId)]) a endId ↔ Ends.Path (inner ends) a last := by
  constructor
  · intro path
    -- As long as the way is over inner edges, it is at an old node other than the end. It can only leave
    -- them at `last`, after which nothing is left to show.
    have along : ∀ b, Ends.Path (inner ends ++ [(last, id), (id, endId)]) a b →
        (b ≠ id ∧ b ≠ endId ∧ Ends.Path (inner ends) a b) ∨ Ends.Path (inner ends) a last := by
      intro b path
      induction path with
      | refl => exact .inl ⟨notNew, notEnd, Path.refl a⟩
      | @tail b c _ edge ih =>
        rcases ih with ⟨bOld, bNotEnd, toB⟩ | done
        · rcases List.mem_append.1 edge with old | new
          · obtain ⟨inEnds, notEntering⟩ := List.mem_filter.1 old
            exact .inl ⟨fresh _ inEnds, bne_iff_ne.1 notEntering, toB.snoc old⟩
          · have cases : b = last ∧ c = id ∨ b = id ∧ c = endId := by simpa using new
            rcases cases with ⟨rfl, _⟩ | ⟨isNew, _⟩
            · exact .inr toB
            · exact absurd isNew bOld
        · exact .inr done
    rcases along endId path with ⟨_, notEnd, _⟩ | done
    · exact absurd rfl notEnd
    · exact done
  · intro path
    have toLast := path.mono (List.subset_append_left (inner ends) [(last, id), (id, endId)])
    have toNew := toLast.snoc (List.mem_append_right _ List.mem_cons_self)
    exact toNew.snoc (List.mem_append_right _ (List.mem_cons_of_mem _ List.mem_cons_self))

/-- Where all edges into the end leave `last`, each way to the end goes through `last`. -/
theorem path_inner_of_path {ends : Ends} {last a : Text}
    (onlyLast : ∀ e ∈ ends, e.2 = endId → e.1 = last) (notEnd : a ≠ endId)
    (path : Ends.Path ends a endId) : Ends.Path (inner ends) a last := by
  have along : ∀ b, Ends.Path ends a b →
      (b ≠ endId ∧ Ends.Path (inner ends) a b) ∨ Ends.Path (inner ends) a last := by
    intro b path
    induction path with
    | refl => exact .inl ⟨notEnd, Path.refl a⟩
    | @tail b c _ edge ih =>
      rcases ih with ⟨_, toB⟩ | done
      · by_cases entersEnd : c = endId
        · have isLast : b = last := onlyLast (b, c) edge entersEnd
          exact .inr (isLast ▸ toB)
        · exact .inl ⟨entersEnd, toB.snoc (List.mem_filter.2 ⟨edge, bne_iff_ne.2 entersEnd⟩)⟩
      · exact .inr done
  rcases along endId path with ⟨notEnd, _⟩ | done
  · exact absurd rfl notEnd
  · exact done

end Ends

/-- A node with its copies up to date has the obstacle that it had. -/
theorem Node.obstacle_normalized (node : Node) (room : Nat) :
    node.normalized.obstacle room = node.obstacle room := by
  cases node <;> rfl

/-- A node in order is in order with its copies up to date. -/
theorem Node.Proper.normalized {node : Node} (proper : node.Proper) : node.normalized.Proper := by
  cases node with
  | question card =>
    refine ⟨proper.id, ?_⟩
    rintro other same
    cases same
    exact proper.field card rfl
  | _ => exact proper

namespace Flow

variable {flow next : Flow} {card : NewCard} {id randomDigits : Text}

/-! ## The new card -/

/-- There is a new card where a field can bear its identifier; for a question with a piping key, the flow
has to stand for a field list. -/
theorem exists_newNode_iff {y : Number} :
    (∃ node, flow.newNode card id y = .ok node) ↔ Format.name.Valid id ∧
      (card = .question → ∃ fields, flow.linear = .ok fields) := by
  constructor
  · rintro ⟨node, isNew⟩
    refine ⟨(newNode_cases isNew).1, ?_⟩
    rintro rfl
    obtain ⟨key, isKey, _⟩ := Failure.bind_eq_ok_iff.1 isNew
    obtain ⟨fields, isLinear, _⟩ := Failure.map_eq_ok_iff.1 isKey
    exact ⟨fields, isLinear⟩
  · rintro ⟨name, hasKey⟩
    have named : cardId id = .ok id := cardId_eq_ok_iff.2 ⟨name, rfl⟩
    cases card with
    | question =>
      obtain ⟨fields, isLinear⟩ := hasKey rfl
      have isKey : flow.newPipingKey = .ok (freePipingKey (fields.map Field.pipingToken)) :=
        Failure.map_eq_ok_iff.2 ⟨fields, isLinear, rfl⟩
      exact ⟨_, Failure.bind_eq_ok_iff.2 ⟨_, isKey, Failure.bind_eq_ok_iff.2 ⟨_, named, rfl⟩⟩⟩
    | statement => exact ⟨_, Failure.map_eq_ok_iff.2 ⟨_, named, rfl⟩⟩
    | unkeyed => exact ⟨_, Failure.map_eq_ok_iff.2 ⟨_, named, rfl⟩⟩

/-- A new card is in order. -/
theorem proper_newNode {y : Number} {node : Node} (isNew : flow.newNode card id y = .ok node) :
    node.Proper := by
  have known : FieldKind.radio ∈ FieldKind.known := by decide
  obtain ⟨⟨_, notEmpty⟩, rfl | ⟨key, rfl⟩⟩ := newNode_cases isNew
  · exact ⟨notEmpty, fun _ isQuestion => nomatch isQuestion⟩
  · refine ⟨notEmpty, ?_⟩
    rintro other same
    cases same
    exact ⟨notEmpty, known⟩

/-- A new card has no obstacle, for it holds no values of any content. -/
theorem obstacle_newNode {y : Number} {node : Node} (isNew : flow.newNode card id y = .ok node)
    (room : Nat) : node.obstacle room = none := by
  obtain ⟨_, rfl | ⟨key, rfl⟩⟩ := newNode_cases isNew
  · rfl
  · rfl

/-- An identifier that is not empty is the one that the new card bears. -/
theorem add_eq_addWithId (notEmpty : id ≠ []) :
    flow.add card id randomDigits = flow.addWithId card id := by
  rw [add, newId, List.isEmpty_eq_false_iff.2 notEmpty]
  rfl

/-- A card of an identifier that is not in use can be added where there is such a new card. -/
theorem exists_addWithId_iff (free : id ∉ flow.ids) :
    (∃ next, flow.addWithId card id = .ok next) ↔ Format.name.Valid id ∧
      (card = .question → ∃ fields, flow.linear = .ok fields) := by
  have notIn : ¬flow.has id = true := fun has => free (has_iff.1 has)
  unfold addWithId
  rw [if_neg notIn]
  simp only [Failure.map_eq_ok_iff]
  rw [← exists_newNode_iff]
  constructor
  · rintro ⟨_, node, isNew, _⟩
    exact ⟨node, isNew⟩
  · rintro ⟨node, isNew⟩
    exact ⟨_, node, isNew, rfl⟩

/-- A card can be added under a wanted identifier, or a fresh one in place of an empty one, where a field can
bear it, it is not in use, and, for a question with a piping key, the flow stands for fields. -/
theorem exists_add_iff {wanted : Text} :
    (∃ next, flow.add card wanted randomDigits = .ok next) ↔
      newId wanted randomDigits ∉ flow.ids ∧ Format.name.Valid (newId wanted randomDigits) ∧
        (card = .question → ∃ fields, flow.linear = .ok fields) := by
  by_cases free : newId wanted randomDigits ∈ flow.ids
  · refine iff_of_false ?_ fun able => able.1 free
    rintro ⟨next, adds⟩
    rw [add, addWithId, if_pos (has_iff.2 free)] at adds
    cases adds
  · rw [and_iff_right free]
    exact exists_addWithId_iff free

/-! ## The flow with the new card -/

/-- The edges of a wired flow with a new card. -/
theorem Wired.ends_addWithId (wired : flow.Wired) (adds : flow.addWithId card id = .ok next) :
    next.ends = Ends.inner flow.ends ++ [(flow.lastCardId, id), (id, endId)] := by
  obtain ⟨_, _, _, _, rfl⟩ := wired.exists_of_addWithId adds
  exact ends_edgesThrough flow.edges flow.lastCardId id

/-- The nodes of a wired flow in order are still so with a new card. -/
theorem Wired.proper_addWithId (wired : flow.Wired) (proper : ∀ node ∈ flow.nodes, node.Proper)
    (adds : flow.addWithId card id = .ok next) : ∀ node ∈ next.nodes, node.Proper := by
  obtain ⟨_, _, new, isNew, rfl⟩ := wired.exists_of_addWithId adds
  refine List.forall_mem_append.2 ⟨List.forall_mem_map.2 fun node mem => ?_, ?_⟩
  · exact (proper node mem).normalized
  · exact List.forall_mem_singleton.2 (proper_newNode isNew)

/-- A wired flow that can be written can be written with a new card. -/
theorem Wired.isWritable_addWithId (wired : flow.Wired) (writable : Writable.isWritable flow = true)
    (adds : flow.addWithId card id = .ok next) : Writable.isWritable next = true := by
  obtain ⟨nodes, edges, viewport, extras⟩ := isWritable_iff.1 writable
  obtain ⟨_, _, new, isNew, rfl⟩ := wired.exists_of_addWithId adds
  have newNodes : ∀ node ∈ flow.nodes.map Node.normalized ++ [new],
      node.obstacle Json.writableNesting = none := by
    refine List.forall_mem_append.2 ⟨List.forall_mem_map.2 fun node mem => ?_, ?_⟩
    · rw [Node.obstacle_normalized]
      exact nodes node mem
    · exact List.forall_mem_singleton.2 (obstacle_newNode isNew _)
  have newEdges : ∀ edge ∈ edgesThrough flow.edges flow.lastCardId id,
      edge.obstacle Json.writableNesting = none := by
    refine List.forall_mem_append.2 ⟨fun edge mem => edges edge (List.mem_of_mem_filter mem), ?_⟩
    rw [List.forall_mem_cons, List.forall_mem_singleton]
    refine ⟨rfl, ?_⟩
    unfold exitEdge
    split
    · rename_i edge isBefore
      exact edges edge (List.mem_of_find?_eq_some isBefore)
    · rfl
  exact isWritable_iff.2 ⟨newNodes, newEdges, viewport, extras⟩

/-- In a wired flow with a new card, those nodes have a way to the end that had one to the last card, over
edges that did not enter the end. -/
theorem Wired.path_addWithId_iff (wired : flow.Wired) (free : id ∉ flow.ids)
    (adds : flow.addWithId card id = .ok next) {a : Text} (mem : a ∈ flow.ids) (notEnd : a ≠ endId) :
    Ends.Path next.ends a endId ↔ Ends.Path (Ends.inner flow.ends) a flow.lastCardId := by
  have fresh : ∀ e ∈ flow.ends, e.2 ≠ id := fun e inEnds same =>
    free (same ▸ (edges_join_iff.1 wired.edge e inEnds).2)
  have notNew : a ≠ id := fun same => free (same ▸ mem)
  rw [wired.ends_addWithId adds]
  exact Ends.path_through_iff fresh notNew notEnd

/-- What the check finds in a sound flow with a new card: that the end cannot be reached, or nothing where
the last card could be reached from the start over edges that did not enter the end. -/
theorem Sound.exists_ownDefects_addWithId (sound : flow.Sound) (kept : format.Each .kept flow)
    (writable : Writable.isWritable flow = true) (free : id ∉ flow.ids)
    (adds : flow.addWithId card id = .ok next) :
    ∃ found ∈ [[], [Defect.disconnected]], next.ownDefects = .ok found ∧
      (found = [] ↔ Ends.Path (Ends.inner flow.ends) startId flow.lastCardId) := by
  have wired := sound.wired
  have nextKept : format.Each .kept next := each_addWithId kept adds
  obtain ⟨found, isFound, nothing, check⟩ := (wired.addWithId adds).exists_ownDefects
    (wired.proper_addWithId sound.node adds) nextKept
  rw [Writable.write_of_isWritable (wired.isWritable_addWithId writable adds)] at check
  refine ⟨found, isFound, check, nothing.trans ?_⟩
  exact wired.path_addWithId_iff free adds wired.startId_mem_ids (by decide)

/-- Adding a card of an identifier that is not in use, to a flow without defects, succeeds where a field
can bear the identifier and, for a question with a piping key, the flow stands for a field list. The
check then finds no defect where the last card can be reached from the start without entering the
end, and else that the end cannot be reached. A node other than the end has a way to the end after it
where it had such a way to the last card. So no way to the end is lost where all edges into the end
left the last card. -/
theorem reaches_end_add_iff (card : NewCard) (randomDigits : Text) (kept : format.Each .kept flow)
    (noDefect : flow.ownDefects = .ok []) (notEmpty : id ≠ []) (free : id ∉ flow.ids) :
    ((∃ next, flow.add card id randomDigits = .ok next) ↔ Format.name.Valid id ∧
      (card = .question → ∃ fields, flow.linear = .ok fields)) ∧
    ∀ next, flow.add card id randomDigits = .ok next →
      (next.ownDefects = .ok [] ∨ next.ownDefects = .ok [.disconnected]) ∧
      (next.ownDefects = .ok [] ↔ Ends.Path (Ends.inner flow.ends) startId flow.lastCardId) ∧
      (∀ a ∈ flow.ids, a ≠ endId →
        (Ends.Path next.ends a endId ↔ Ends.Path (Ends.inner flow.ends) a flow.lastCardId)) ∧
      ((∀ e ∈ flow.ends, e.2 = endId → e.1 = flow.lastCardId) →
        next.ownDefects = .ok [] ∧
          ∀ a ∈ flow.ids, Ends.Path flow.ends a endId → Ends.Path next.ends a endId) := by
  simp only [add_eq_addWithId notEmpty]
  obtain ⟨writable, sound⟩ := (ownDefects_eq_ok_nil_iff (each_iff.1 kept).2.1).1 noDefect
  refine ⟨exists_addWithId_iff free, fun next adds => ?_⟩
  have ways {a : Text} (mem : a ∈ flow.ids) (notEnd : a ≠ endId) :
      Ends.Path next.ends a endId ↔ Ends.Path (Ends.inner flow.ends) a flow.lastCardId :=
    sound.wired.path_addWithId_iff free adds mem notEnd
  obtain ⟨found, isFound, check, nothing⟩ :=
    sound.exists_ownDefects_addWithId kept writable free adds
  have noDefectIff : next.ownDefects = .ok [] ↔
      Ends.Path (Ends.inner flow.ends) startId flow.lastCardId := by
    rw [check, ← nothing, Except.ok.injEq]
  refine ⟨?_, noDefectIff, fun a mem notEnd => ways mem notEnd, fun onlyLast => ⟨?_, ?_⟩⟩
  · rw [check]
    simpa using isFound
  · exact noDefectIff.2 (Ends.path_inner_of_path onlyLast (by decide) sound.path)
  · intro a mem toEnd
    by_cases isEnd : a = endId
    · rw [isEnd]
    · exact (ways mem isEnd).2 (Ends.path_inner_of_path onlyLast isEnd toEnd)

/-! ## Cards in another order than they are stored -/

/-- A sound flow in another order is sound where that leads from the start to the end. -/
theorem sound_reorder {ids : List Text} (sound : flow.Sound)
    (path : Ends.Path (flow.reorder ids).ends startId endId) : (flow.reorder ids).Sound := by
  have proper : ∀ node ∈ (flow.reorder ids).nodes, node.Proper :=
    List.forall_mem_map.2 fun node mem => (sound.node node mem).normalized
  exact sound_iff.2 ⟨proper, sound.wired.reorder _, path⟩

/-- A chain through three questions. -/
def triple : Flow := chain [.bare "a", .bare "b", .bare "c"] none

/-- That chain has no defect. -/
theorem sound_triple : triple.Sound :=
  sound_chain (Field.valid_bare ["a", "b", "c"] (by decide)) none

/-- These questions, the one that is stored last put before the others. -/
def turned : Flow := triple.reorder [startId, "c", "a", "b", endId]

/-- The edges lead through them in that order. -/
theorem ends_turned : turned.ends =
    ([(startId, "c"), ("c", "a"), ("a", "b"), ("b", endId)] : List (Text × Text)) := by
  decide

/-- The end is reached in that order as well. -/
theorem sound_turned : turned.Sound := by
  have toThird : Ends.Path turned.ends startId "c" := (Ends.Path.refl startId).snoc (by decide)
  have toFirst : Ends.Path turned.ends startId "a" := toThird.snoc (by decide)
  have toSecond : Ends.Path turned.ends startId "b" := toFirst.snoc (by decide)
  have toEnd : Ends.Path turned.ends startId endId := toSecond.snoc (by decide)
  exact sound_reorder sound_triple toEnd

/-- No way leads from the second question to the first one. -/
theorem not_path_turned : ¬Ends.Path (Ends.inner turned.ends) "a" "c" := by
  have inner : Ends.inner turned.ends =
      ([(startId, "c"), ("c", "a"), ("a", "b")] : List (Text × Text)) := by
    rw [ends_turned]
    decide
  rw [inner]
  intro path
  obtain same | ⟨source, toSource, edge⟩ := path.cases_tail
  · exact absurd same (by decide)
  · have isStart : source = startId := by simpa [Text.ofString_inj] using edge
    rw [isStart] at toSource
    obtain same | ⟨_, _, edge⟩ := toSource.cases_tail
    · exact absurd same (by decide)
    · simp [Text.ofString_inj, startId] at edge

/-- A statement that is added behind a chain leaves no defect, and each card keeps its way to the end. So
it leaves none where the question that is stored last was put before the others; but then these lose
their way. -/
theorem reaches_end_add_triple :
    (∃ next, triple.add .statement "d" [] = .ok next ∧ next.ownDefects = .ok [] ∧
      ∀ id ∈ triple.ids, Ends.Path triple.ends id endId → Ends.Path next.ends id endId) ∧
    ∃ next, turned.add .statement "d" [] = .ok next ∧ next.ownDefects = .ok [] ∧
      Ends.Path next.ends "c" endId ∧ ¬Ends.Path next.ends "a" endId := by
  have isName : Format.name.Valid "d" := ⟨by decide, by decide⟩
  constructor
  · have kept : format.Each .kept triple := each_chain_bare ["a", "b", "c"]
    have noDefect : triple.ownDefects = .ok [] :=
      (ownDefects_eq_ok_nil_iff (each_iff.1 kept).2.1).2 ⟨by decide +kernel, sound_triple⟩
    have free : ("d" : Text) ∉ triple.ids := by decide
    have onlyLast : ∀ e ∈ triple.ends, e.2 = endId → e.1 = triple.lastCardId := by decide
    obtain ⟨adds, after⟩ :=
      reaches_end_add_iff .statement [] kept noDefect (List.cons_ne_nil _ _) free
    obtain ⟨next, added⟩ := adds.2 ⟨isName, fun isQuestion => nomatch isQuestion⟩
    obtain ⟨noneAfter, ways⟩ := (after next added).2.2.2 onlyLast
    exact ⟨next, added, noneAfter, ways⟩
  · have kept : format.Each .kept turned := each_reorder (each_chain_bare ["a", "b", "c"]) _
    have noDefect : turned.ownDefects = .ok [] :=
      (ownDefects_eq_ok_nil_iff (each_iff.1 kept).2.1).2 ⟨by decide +kernel, sound_turned⟩
    have free : ("d" : Text) ∉ turned.ids := by decide
    have lastCard : turned.lastCardId = ("c" : Text) := by decide
    have toLast : (startId, ("c" : Text)) ∈ Ends.inner turned.ends := by
      rw [ends_turned]
      decide
    obtain ⟨adds, after⟩ :=
      reaches_end_add_iff .statement [] kept noDefect (List.cons_ne_nil _ _) free
    obtain ⟨next, added⟩ := adds.2 ⟨isName, fun isQuestion => nomatch isQuestion⟩
    obtain ⟨_, noneAfter, ways, _⟩ := after next added
    rw [lastCard] at noneAfter ways
    exact ⟨next, added, noneAfter.2 ((Ends.Path.refl _).snoc toLast),
      (ways "c" (by decide) (by decide)).2 (Ends.Path.refl _),
      (ways "a" (by decide) (by decide)).not.2 not_path_turned⟩

/-- A chain through two questions that were put into an order that leaves the second one out. -/
def cutShort : Flow := (chain [.bare "a", .bare "b"] none).reorder [startId, "a", endId]

/-- The edges of the chain that was cut short. -/
theorem ends_cutShort : cutShort.ends = ([(startId, "a"), ("a", endId)] : List (Text × Text)) := by
  decide

/-- A question that is left out does no harm to the others. -/
theorem sound_cutShort : cutShort.Sound := by
  refine sound_reorder (sound_chain (Field.valid_bare ["a", "b"] (by decide)) none) ?_
  change Ends.Path cutShort.ends startId endId
  rw [ends_cutShort]
  exact ((Ends.Path.refl _).snoc List.mem_cons_self).snoc (List.mem_cons_of_mem _ List.mem_cons_self)

/-- The question that is left out cannot be reached. -/
theorem not_path_cutShort : ¬Ends.Path (Ends.inner cutShort.ends) startId "b" := by
  rw [ends_cutShort]
  intro path
  rcases path.cases_tail with same | ⟨source, _, edge⟩
  · exact absurd same (by decide)
  · have entered : ("b" : Text) = "a" := (Prod.mk.inj (List.mem_singleton.1 edge)).2
    exact absurd entered (by decide)

/-- After the cards of a flow were put into an order that leaves one out, a further card cuts off the
end. -/
theorem exists_add_disconnected :
    ∃ flow next : Flow, flow.ownDefects = .ok [] ∧ ("c" : Text) ∉ flow.ids ∧
      flow.add .statement "c" [] = .ok next ∧ next.ownDefects = .ok [.disconnected] := by
  have kept : format.Each .kept cutShort := each_reorder (each_chain_bare ["a", "b"]) _
  have writable : Writable.isWritable cutShort = true := by decide +kernel
  have free : ("c" : Text) ∉ cutShort.ids := by decide
  obtain ⟨next, adds⟩ : ∃ next, cutShort.addWithId .statement "c" = .ok next :=
    (exists_addWithId_iff free).2 ⟨⟨by decide, by decide⟩, fun isQuestion => nomatch isQuestion⟩
  obtain ⟨found, isFound, check, nothing⟩ :=
    sound_cutShort.exists_ownDefects_addWithId kept writable free adds
  have isDisconnected : found = [.disconnected] := by
    have something : found ≠ [] := fun none => not_path_cutShort (nothing.1 none)
    simpa [something] using isFound
  rw [isDisconnected] at check
  have added : cutShort.add .statement "c" [] = .ok next :=
    (add_eq_addWithId (List.cons_ne_nil _ _)).trans adds
  refine ⟨cutShort, next, ?_, free, added, check⟩
  exact (ownDefects_eq_ok_nil_iff (each_iff.1 kept).2.1).2 ⟨writable, sound_cutShort⟩

end Flow

end CardForm
