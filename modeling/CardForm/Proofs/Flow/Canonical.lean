import CardForm.Proofs.Flow.Session

/-!
# Canonical flows

In a flow that was laid out, each card bears the identifier of its field, and the editor's copies in a
question are those of its field (`Node.Canonical`). No step of an editing session loses this, laying
out anew from the flow's own field list included. So in each state of a run the flow stands for a
field list, with distinct identifiers (`Flow.canonical_after`).
-/
namespace CardForm

/-- The editor's copies in a question are up to date. -/
structure QuestionData.Synced (data : QuestionData) : Prop where
  /-- The copy of the identifier is that of the field. -/
  fieldId : data.fieldId = some data.field.id
  /-- The copy of the label is that of the field. -/
  label : data.label = some data.field.label
  /-- The copy of the kind names that of the field. -/
  fieldType : data.fieldType = some data.field.kind.name

namespace Node

variable {node : Node} {fields : List Field} {field : Field}

/-- A question bears the identifier of its field, and its copies are up to date. A statement bears the
identifier of the field that it becomes. -/
def Canonical : Node → Prop
  | question card => card.data.field.id = card.id ∧ card.data.Synced
  | statement card => card.data.fieldId = card.id
  | _ => True

/-! ## The writers of nodes -/

/-- A canonical node with its copies up to date is canonical. -/
theorem canonical_normalized (canonical : node.Canonical) : node.normalized.Canonical := by
  cases node with
  | question card => exact ⟨canonical.1, ⟨rfl, rfl, rfl⟩⟩
  | _ => exact canonical

/-- A canonical node that comes back is canonical. -/
theorem canonical_reread (canonical : node.Canonical) : (format.reread node).Canonical := by
  cases node with
  | start card => trivial
  | finish card => trivial
  | question card =>
    obtain ⟨sameId, synced⟩ := canonical
    exact ⟨sameId, ⟨synced.fieldId, synced.label, synced.fieldType⟩⟩
  | statement card => exact canonical

/-- A canonical node with newer content is canonical, whatever kind the content is of: the node takes
it from a field of its own identifier. -/
theorem canonical_merged (canonical : node.Canonical) : (node.merged fields).Canonical := by
  unfold merged
  split
  · rename_i card field isField
    obtain ⟨sameId, synced⟩ := canonical
    obtain ⟨key, isKey, isLast⟩ := Option.bind_eq_some_iff.1 isField
    have keyIsId : card.data.fieldId = some key := (Option.filter_eq_some_iff.1 isKey).1
    have fieldId : field.id = key := Field.id_of_last? isLast
    have ownId : card.data.field.id = key :=
      Option.some.inj (synced.fieldId.symm.trans keyIsId)
    exact ⟨fieldId.trans (ownId.symm.trans sameId), ⟨rfl, rfl, rfl⟩⟩
  · split
    · exact canonical
    · exact canonical
  · exact canonical

/-- The node laid out for a field is canonical. -/
theorem canonical_fieldNode (field : Field) (y : Number) : (Flow.fieldNode field y).Canonical := by
  unfold Flow.fieldNode
  split
  · exact rfl
  · exact ⟨rfl, ⟨rfl, rfl, rfl⟩⟩

/-- A new card is canonical. -/
theorem canonical_newNode {flow : Flow} {card : NewCard} {id : Text} {y : Number}
    (isNew : flow.newNode card id y = .ok node) : node.Canonical := by
  obtain ⟨_, rfl | ⟨key, rfl⟩⟩ := Flow.newNode_cases isNew
  · exact rfl
  · exact ⟨rfl, ⟨rfl, rfl, rfl⟩⟩

/-! ## The fields of canonical nodes -/

/-- No canonical node that can be read once it was written refuses its field. -/
theorem Canonical.exists_field? (canonical : node.Canonical) (valid : format.Valid node) :
    ∃ field, node.field? = .ok field := by
  cases node with
  | start card => exact ⟨none, rfl⟩
  | finish card => exact ⟨none, rfl⟩
  | question card => exact ⟨_, rfl⟩
  | statement card =>
    by_cases success : card.data.isSuccessCard = true
    · exact ⟨none, if_pos success⟩
    · have name : Format.name.Valid card.id := (Card.valid_content_iff.1 valid).1
      have sameId : card.data.fieldId = card.id := canonical
      have isShown : (statement card).field? = .ok (some card.data.shownField) :=
        field?_statement_eq_ok_iff.2 (.inr ⟨Bool.eq_false_iff.2 success, sameId ▸ name, rfl⟩)
      exact ⟨_, isShown⟩

/-- The field that is shown for a canonical node bears its identifier. -/
theorem Canonical.id_field? (canonical : node.Canonical) (isShown : node.field? = .ok (some field)) :
    field.id = node.id := by
  cases node with
  | start card => cases isShown
  | finish card => cases isShown
  | question card =>
    cases isShown
    exact canonical.1
  | statement card =>
    obtain ⟨_, none⟩ | ⟨_, _, isField⟩ := field?_statement_eq_ok_iff.1 isShown
    · cases none
    · cases isField
      exact canonical

/-- The copy of the kind in a canonical node names a known kind. -/
theorem Canonical.knowsKind (canonical : node.Canonical) (valid : format.Valid node) :
    node.KnowsKind := by
  cases node with
  | question card =>
    exact QuestionData.knowsKind_of_upToDate (Card.valid_content_iff.1 valid).2
      canonical.2.fieldType
  | _ => trivial

/-- The field that is shown for a canonical node can be read once it was written where the node can. -/
theorem Canonical.valid_field? (canonical : node.Canonical) (valid : format.Valid node)
    (isShown : node.field? = .ok (some field)) : Field.format.Valid field := by
  have known := (known_field?_iff valid isShown).2 (canonical.knowsKind valid)
  exact (valid_field?_iff valid isShown).2 (known field rfl)

/-- The fields that are shown for canonical nodes bear identifiers of these, in their order. -/
theorem sublist_ids_fields {nodes : List Node} (canonical : ∀ node ∈ nodes, node.Canonical)
    (areShown : Node.fields nodes = .ok fields) :
    (fields.map Field.id).Sublist (nodes.map Node.id) := by
  have bears : ∀ node ∈ nodes, ∀ field, node.field? = .ok (some field) →
      some node.id = some field.id := fun node mem field isShown =>
    congrArg some ((canonical node mem).id_field? isShown).symm
  have sublist := sublist_keys_fields bears areShown
  rwa [List.filterMap_eq_map'] at sublist

end Node

namespace Flow

variable {flow next : Flow} {step : Step} {node : Node} {fields : List Field}

/-- A flow is as it is laid out: steady, of canonical nodes, and without a declared key that is spelled
both ways. -/
structure Canonical (flow : Flow) : Prop where
  /-- It is steady. -/
  steady : flow.Steady
  /-- Its nodes are canonical. -/
  node : ∀ node ∈ flow.nodes, node.Canonical
  /-- No object in it spells a declared key both ways. -/
  once : format.Each .once flow

namespace Canonical

/-- A canonical flow stands for a field list with distinct identifiers, of fields that can be read once
they were written. -/
theorem exists_linear (canonical : flow.Canonical) :
    ∃ fields, flow.linear = .ok fields ∧ (fields.map Field.id).Nodup ∧
      ∀ field ∈ fields, Field.format.Valid field := by
  have nodesValid := valid_iff.1 canonical.steady.valid
  obtain ⟨fields, isLinear⟩ := Flow.exists_linear fun node mem =>
    (canonical.node node mem).exists_field? (nodesValid node mem)
  have shown : ∀ node ∈ flow.shownNodes, node.Canonical := fun node mem =>
    canonical.node node (mem_of_mem_shownNodes mem)
  refine ⟨fields, isLinear, ?_, fun field mem => ?_⟩
  · exact (flow.nodup_shownNodes).sublist (Node.sublist_ids_fields shown isLinear)
  · obtain ⟨node, inShown, isShown⟩ := Node.exists_of_mem_fields isLinear mem
    exact (shown node inShown).valid_field? (nodesValid node (mem_of_mem_shownNodes inShown)) isShown

/-- The fields of a canonical flow's own field list can be read once they were written. -/
theorem valid_linear (canonical : flow.Canonical) (isLinear : flow.linear = .ok fields) :
    ∀ field ∈ fields, Field.format.Valid field := by
  obtain ⟨own, isOwn, _, valid⟩ := canonical.exists_linear
  cases isOwn.symm.trans isLinear
  exact valid

end Canonical

/-- A node of canonical origin is canonical. -/
theorem Origin.canonical (origin : Origin flow step node)
    (old : ∀ node ∈ flow.nodes, node.Canonical) : node.Canonical := by
  cases origin with
  | kept mem => exact old _ mem
  | normalized mem => exact Node.canonical_normalized (old _ mem)
  | merged mem takes => exact Node.canonical_merged (old _ mem)
  | added isNew => exact Node.canonical_newNode isNew
  | start => trivial
  | finish y => trivial
  | laidOut takes y => exact Node.canonical_fieldNode _ y

/-- The fields that a step takes over from outside were read, and no object in them spells a declared
key both ways. -/
def Step.TakesRead : Step → Prop
  | .merge fields => ∀ field ∈ fields,
    (∃ found, Field.read found = .ok field) ∧ Field.format.Each .once field
  | _ => True

/-- The fields that a step takes over from outside meet a demand that fields meet that were read, or in
which no declared key is spelled both ways. -/
theorem Step.TakesRead.each {demand : Demand} (takesRead : step.TakesRead)
    (meets : ∀ {field}, (∃ found, Field.read found = .ok field) → Field.format.Each .once field →
      Field.format.Each demand field) : step.Each demand := by
  cases step with
  | merge fields => exact fun field mem => meets (takesRead field mem).1 (takesRead field mem).2
  | _ => trivial

/-- A canonical flow is still canonical after a step. -/
theorem Canonical.changed (canonical : flow.Canonical) (takesRead : step.TakesRead)
    (changes : flow.changed step = .ok next) : next.Canonical := by
  have fieldsValid : ∀ field, flow.Takes step field → Field.format.Valid field := by
    intro field takes
    cases step with
    | merge fields =>
      obtain ⟨found, isRead⟩ := (takesRead field takes).1
      exact Field.exact_format.valid_of_read isRead
    | mergeOwn =>
      obtain ⟨fields, isLinear, mem⟩ := takes
      exact canonical.valid_linear isLinear field mem
    | rebuild =>
      obtain ⟨fields, isLinear, mem⟩ := takes
      exact canonical.valid_linear isLinear field mem
    | _ => exact takes.elim
  have fieldsKept : step.Each .kept := takesRead.each fun isRead _ =>
    isRead.elim fun _ isRead => Field.exact_format.kept_of_read isRead
  have fieldsOnce : step.Each .once := takesRead.each fun _ once => once
  have once : format.Each .once next :=
    each_changed canonical.once fieldsOnce
      (fun reloads => each_reload ⟨id, id⟩ canonical.once reloads) changes
  refine ⟨canonical.steady.changed fieldsValid fieldsKept changes, ?_, once⟩
  -- Nodes that were written and read have no origin: they are what is read of the old ones.
  by_cases isReload : step = .reload
  · subst isReload
    obtain ⟨_, _, _, rfl⟩ := (reload_eq_ok_iff canonical.once).1 changes
    exact List.forall_mem_map.2 fun node mem => Node.canonical_reread (canonical.node node mem)
  · exact fun node mem => (origin_of_changed changes isReload node mem).canonical canonical.node

/-- A sound flow of a column is canonical where its fields can be read once they were written, and no
object in it spells a declared key both ways. -/
theorem canonical_of_column (sound : flow.Sound) (nodes : flow.nodes = column fields)
    (valid : ∀ field ∈ fields, Field.format.Valid field) (once : format.Each .once flow) :
    flow.Canonical := by
  have flowValid : format.Valid flow := by
    rw [valid_iff, nodes]
    exact valid_column valid
  have kept := exact_format.mono Demand.once_implies_kept once
  refine ⟨⟨sound.wired, flowValid, kept⟩, ?_, once⟩
  rw [nodes]
  intro node mem
  obtain rfl | ⟨field, _, y, rfl⟩ | ⟨y, rfl⟩ := mem_column mem
  · trivial
  · exact Node.canonical_fieldNode field y
  · trivial

/-- Both ways to lay out validated fields and edge specifications give a canonical flow, where no object in
the fields spells a declared key both ways. -/
theorem canonical_of_laidOut {specs : List EdgeSpec}
    (fieldsRead : ∀ field ∈ fields, ∃ found, Field.read found = .ok field)
    (fieldsOnce : ∀ field ∈ fields, Field.format.Each .once field)
    (specsRead : ∀ spec ∈ specs, ∃ found, EdgeSpec.read found = .ok spec) :
    (build fields specs none).Canonical ∧ (chain fields none).Canonical := by
  have valid := Field.valid_of_reads fieldsRead
  have specsOnce : ∀ spec ∈ specs, ∀ data ∈ spec.data, EdgeData.format.Each .once data := by
    intro spec mem data isData
    obtain ⟨found, isRead⟩ := specsRead spec mem
    have kept := (EdgeSpec.each_iff.1 (EdgeSpec.exact_format.kept_of_read isRead)).2
    exact EdgeData.once_of_kept (kept data isData)
  have noViewport : ∀ shown ∈ (none : Option Viewport), Viewport.format.Each .once shown :=
    fun _ none => nomatch none
  constructor
  · exact canonical_of_column (sound_build valid specs none) rfl
      (fun field mem => valid field (mem_of_mem_reachedFields (mem_firstsAfter mem).1))
      (each_build fieldsOnce specsOnce noViewport)
  · exact canonical_of_column (sound_chain valid none) rfl
      (fun field mem => valid field (mem_firstsAfter mem).1) (each_chain fieldsOnce noViewport)

/-- In each state of a run from a flow that was laid out from validated fields and edge specifications,
each card bears the identifier of its field, its copies are up to date, and its field is of a known
kind; the identifiers of the cards are distinct and not reserved; and the flow stands for a field
list with distinct identifiers. -/
theorem canonical_after {specs : List EdgeSpec} {steps : List Step}
    (fieldsRead : ∀ field ∈ fields, ∃ found, Field.read found = .ok field)
    (fieldsOnce : ∀ field ∈ fields, Field.format.Each .once field)
    (specsRead : ∀ spec ∈ specs, ∃ found, EdgeSpec.read found = .ok spec)
    (takesRead : ∀ step ∈ steps, step.TakesRead) :
    ∀ first ∈ [build fields specs none, chain fields none],
      (∀ node ∈ (first.after steps).content, node.Canonical ∧ node.Proper) ∧
      ((first.after steps).content.map Node.id).Nodup ∧
      (∀ node ∈ (first.after steps).content, node.id ≠ startId ∧ node.id ≠ endId) ∧
      ∃ shown, (first.after steps).linear = .ok shown ∧ (shown.map Field.id).Nodup := by
  obtain ⟨builtCanonical, chainCanonical⟩ := canonical_of_laidOut fieldsRead fieldsOnce specsRead
  have laidOut : ∀ first ∈ [build fields specs none, chain fields none], first.Canonical :=
    List.forall_mem_cons.2 ⟨builtCanonical, List.forall_mem_singleton.2 chainCanonical⟩
  intro first mem
  have canonical : (first.after steps).Canonical :=
    after_of_changed (fun canonical takesRead changes => canonical.changed takesRead changes)
      (laidOut first mem) takesRead
  have wired := canonical.steady.wired
  have proper := wired.proper_of_valid canonical.steady.valid
  obtain ⟨shown, isLinear, distinct, _⟩ := canonical.exists_linear
  refine ⟨?_, wired.nodup_content, ?_, shown, isLinear, distinct⟩
  · intro node inContent
    have inNodes := List.mem_of_mem_filter inContent
    exact ⟨canonical.node node inNodes, proper node inNodes⟩
  · intro node inContent
    obtain ⟨inNodes, isContent⟩ := List.mem_filter.1 inContent
    exact wired.id_ne_of_isContent inNodes isContent

/-- A question that becomes a statement, is laid out anew, written and read, leaves a flow that stands
for a field list with distinct identifiers. -/
theorem canonical_after_rebuilding :
    ∃ shown, ((build [.bare "q"] [⟨"q", "q", none, []⟩] none).after
        [.merge [{ Field.bare "q" with kind := .statement }], .mergeOwn, .rebuild,
          .add .question "q" [], .add .question "r" [], .reload]).linear = .ok shown ∧
      (shown.map Field.id).Nodup := by
  have bareRead : ∀ field ∈ [Field.bare "q"], ∃ found, Field.read found = .ok field :=
    List.forall_mem_singleton.2
      ⟨.obj [("id", .str "q"), ("type", .str "text"), ("label", .str "q")], rfl⟩
  have bareOnce : Field.format.Each .once (.bare "q") := Field.each_bare "q"
  obtain ⟨extras, options, media, logic⟩ := Field.each_iff.1 bareOnce
  have specRead : ∀ spec ∈ [EdgeSpec.mk "q" "q" none []], ∃ found, EdgeSpec.read found = .ok spec :=
    List.forall_mem_singleton.2 ⟨.obj [("source", .str "q"), ("target", .str "q")], rfl⟩
  have statementRead : ∃ found, Field.read found = .ok { Field.bare "q" with kind := .statement } :=
    ⟨.obj [("id", .str "q"), ("type", .str "statement"), ("label", .str "q")], rfl⟩
  have statementOnce : Field.format.Each .once { Field.bare "q" with kind := .statement } :=
    Field.each_iff.2 ⟨extras, options, media, logic⟩
  have takesRead : ∀ step ∈ [Step.merge [{ Field.bare "q" with kind := .statement }], .mergeOwn,
      .rebuild, .add .question "q" [], .add .question "r" [], .reload], step.TakesRead := by
    rw [List.forall_mem_cons]
    refine ⟨List.forall_mem_singleton.2 ⟨statementRead, statementOnce⟩, ?_⟩
    simp [Step.TakesRead]
  exact (canonical_after bareRead (List.forall_mem_singleton.2 bareOnce) specRead takesRead _
    List.mem_cons_self).2.2.2

end Flow

end CardForm
