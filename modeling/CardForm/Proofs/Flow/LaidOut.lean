import CardForm.Proofs.Flow.Layout
import CardForm.Proofs.Obstacle

/-!
# Laid out flows are loaded again

A flow that was laid out of fields and edge specifications that can be written has no defect, and is
loaded again after it was written (`Flow.loads_laidOut`). One thing stands in the way: an object that
spelled a declared key both ways, null in camel case, is written with the other spelling only, under
which its value need not fit (`Flow.exists_laidOut_refused`).
-/
namespace CardForm

variable {room : Nat}

/-! ## Laid out flows can be written -/

/-- A field has no obstacle where its parts have none. -/
theorem Field.obstacle_eq_none_iff {field : Field} :
    field.obstacle room = none ↔
      (∀ options ∈ field.options, ∀ option ∈ options, option.obstacle room = none) ∧
      (∀ media ∈ field.media, media.obstacle room = none) ∧
      (∀ logic ∈ field.logic, logic.obstacle room = none) ∧ field.extras.obstacle room = none := by
  simp only [obstacle, Obstacle.first?_eq_none_iff, List.forall_mem_cons, List.not_mem_nil,
    false_implies, implies_true, and_true, Obstacle.bind_eq_none_iff, List.findSome?_eq_none_iff]

/-- The payload of a question has no obstacle where its parts have none. -/
theorem QuestionData.obstacle_eq_none_iff {data : QuestionData} :
    data.obstacle room = none ↔ data.field.obstacle room = none ∧
      (∀ media ∈ data.media, media.obstacle room = none) ∧ data.extras.obstacle room = none := by
  simp only [obstacle, Obstacle.first?_eq_none_iff, List.forall_mem_cons, List.not_mem_nil,
    false_implies, implies_true, and_true, Obstacle.bind_eq_none_iff]

/-- The payload of a statement has no obstacle where its parts have none. -/
theorem StatementData.obstacle_eq_none_iff {data : StatementData} :
    data.obstacle room = none ↔
      (∀ media ∈ data.media, media.obstacle room = none) ∧ data.extras.obstacle room = none := by
  simp only [obstacle, Obstacle.first?_eq_none_iff, List.forall_mem_cons, List.not_mem_nil,
    false_implies, implies_true, and_true, Obstacle.bind_eq_none_iff]

/-- A card has no obstacle where its parts have none. -/
theorem Card.obstacle_eq_none_iff {α : Type} [Writable α] {card : Card α} :
    card.obstacle room = none ↔ card.position.obstacle room = none ∧
      Writable.obstacle card.data room = none ∧ card.extras.obstacle room = none := by
  simp only [obstacle, Obstacle.first?_eq_none_iff, List.forall_mem_cons, List.not_mem_nil,
    false_implies, implies_true, and_true]

/-- An edge has no obstacle where its parts have none. -/
theorem Edge.obstacle_eq_none_iff {edge : Edge} :
    edge.obstacle room = none ↔
      (∀ data ∈ edge.data, data.obstacle room = none) ∧ edge.extras.obstacle room = none := by
  simp only [obstacle, Obstacle.first?_eq_none_iff, List.forall_mem_cons, List.not_mem_nil,
    false_implies, implies_true, and_true, Obstacle.bind_eq_none_iff]

namespace Flow

variable {fields : List Field} {specs : List EdgeSpec}

/-- A flow has no obstacle where its parts have none. -/
theorem obstacle_eq_none_iff {flow : Flow} :
    flow.obstacle room = none ↔ (∀ node ∈ flow.nodes, node.obstacle room = none) ∧
      (∀ edge ∈ flow.edges, edge.obstacle room = none) ∧
      (∀ shown ∈ flow.viewport, shown.obstacle room = none) ∧
      flow.extras.obstacle room = none := by
  simp only [obstacle, Obstacle.first?_eq_none_iff, List.forall_mem_cons, List.not_mem_nil,
    false_implies, implies_true, and_true, Obstacle.bind_eq_none_iff, List.findSome?_eq_none_iff]

/-- A flow can be written where its parts have no obstacle. -/
theorem isWritable_iff {flow : Flow} :
    Writable.isWritable flow = true ↔
      (∀ node ∈ flow.nodes, node.obstacle Json.writableNesting = none) ∧
      (∀ edge ∈ flow.edges, edge.obstacle Json.writableNesting = none) ∧
      (∀ shown ∈ flow.viewport, shown.obstacle Json.writableNesting = none) ∧
      flow.extras.obstacle Json.writableNesting = none :=
  Writable.isWritable_iff.trans obstacle_eq_none_iff

/-- The node of a field has no obstacle where the field has none. -/
theorem obstacle_fieldNode {field : Field} (free : field.obstacle room = none) (y : Number) :
    (fieldNode field y).obstacle room = none := by
  obtain ⟨_, media, _⟩ := Field.obstacle_eq_none_iff.1 free
  unfold fieldNode
  split
  · exact Card.obstacle_eq_none_iff.2
      ⟨rfl, StatementData.obstacle_eq_none_iff.2 ⟨media, rfl⟩, rfl⟩
  · exact Card.obstacle_eq_none_iff.2
      ⟨rfl, QuestionData.obstacle_eq_none_iff.2 ⟨free, media, rfl⟩, rfl⟩

/-- A column has no obstacle where its fields have none. -/
theorem obstacle_of_mem_column (free : ∀ field ∈ fields, field.obstacle room = none) :
    ∀ node ∈ column fields, node.obstacle room = none := by
  intro node mem
  obtain rfl | ⟨field, inFields, y, rfl⟩ | ⟨y, rfl⟩ := mem_column mem
  · rfl
  · exact obstacle_fieldNode (free field inFields) y
  · rfl

/-- The flow that is built from fields and edge specifications that can be written can be written. -/
theorem isWritable_build (fieldsWritable : ∀ field ∈ fields, Writable.isWritable field = true)
    (specsWritable : ∀ spec ∈ specs, Writable.isWritable spec = true) :
    Writable.isWritable (build fields specs none) = true := by
  refine isWritable_iff.2 ⟨obstacle_of_mem_column fun field mem => Writable.isWritable_iff.1
    (fieldsWritable field (mem_of_mem_reachedFields (mem_firstsAfter mem).1)), fun edge mem => ?_,
    fun _ none => (nomatch none), rfl⟩
  obtain ⟨_, _, noExtras, payload⟩ := exists_of_mem_edges_build mem
  refine Edge.obstacle_eq_none_iff.2 ⟨fun data isData => ?_, noExtras ▸ rfl⟩
  obtain ⟨spec, inSpecs, same⟩ := payload data isData
  have specFree := Writable.isWritable_iff.1 (specsWritable spec inSpecs)
  exact Obstacle.bind_eq_none_iff.1 (Obstacle.first?_eq_none_iff.1 specFree _ List.mem_cons_self)
    data same

/-- An edge of a chain has no obstacle, for it carries nothing. -/
theorem obstacle_of_mem_chainSpecs {ids : List Text} {edge : Edge}
    (mem : edge ∈ Edge.ofSpecs (chainSpecs ids)) (room : Nat) : edge.obstacle room = none := by
  obtain ⟨spec, inChain, _, sameData, noExtras⟩ := exists_of_mem_ofSpecs mem
  obtain ⟨_, _, rfl⟩ := List.mem_map.1 inChain
  exact Edge.obstacle_eq_none_iff.2 ⟨sameData ▸ fun _ none => (nomatch none), noExtras ▸ rfl⟩

/-- The chain through fields that can be written can be written. -/
theorem isWritable_chain (fieldsWritable : ∀ field ∈ fields, Writable.isWritable field = true) :
    Writable.isWritable (chain fields none) = true :=
  isWritable_iff.2 ⟨obstacle_of_mem_column fun field mem =>
    Writable.isWritable_iff.1 (fieldsWritable field (mem_firstsAfter mem).1),
    fun _ mem => obstacle_of_mem_chainSpecs mem _, fun _ none => (nomatch none), rfl⟩

/-! ## Loading what was laid out -/

/-- A sound flow that can be written, and read once it was written, has no defect, and is loaded again
where no object spells a declared key both ways. -/
theorem loads_of_sound {flow : Flow} (sound : flow.Sound) (valid : format.Valid flow)
    (kept : format.Each .kept flow) (writable : Writable.isWritable flow = true) :
    flow.ownDefects = .ok [] ∧
      (format.Each .once flow → flow.reload = .ok (format.reread flow)) :=
  ⟨(ownDefects_eq_ok_nil_iff (each_iff.1 kept).2.1).2 ⟨writable, sound⟩,
    fun once => (reload_eq_ok_iff once).2 ⟨writable, sound, valid, rfl⟩⟩

/-- Both ways to lay out validated fields and edge specifications that can be written give a flow that
has no defect, and, where no object in the fields spells a declared key both ways, one that is loaded
again after it was written. -/
theorem loads_laidOut (fields : List Field) (specs : List EdgeSpec)
    (fieldsRead : ∀ field ∈ fields, ∃ found, Field.read found = .ok field)
    (specsRead : ∀ spec ∈ specs, ∃ found, EdgeSpec.read found = .ok spec)
    (fieldsWritable : ∀ field ∈ fields, Writable.isWritable field = true)
    (specsWritable : ∀ spec ∈ specs, Writable.isWritable spec = true) :
    ∀ flow ∈ [build fields specs none, chain fields none],
      flow.ownDefects = .ok [] ∧
      ((∀ field ∈ fields, Field.format.Each .once field) →
        flow.reload = .ok (format.reread flow)) := by
  have valid : ∀ field ∈ fields, Field.format.Valid field := fun field mem =>
    (fieldsRead field mem).elim fun _ isRead => Field.exact_format.valid_of_read isRead
  have fieldsKept : ∀ field ∈ fields, Field.format.Each .kept field := fun field mem =>
    (fieldsRead field mem).elim fun _ isRead => Field.exact_format.kept_of_read isRead
  have specsKept : ∀ spec ∈ specs, ∀ data ∈ spec.data, EdgeData.format.Each .kept data :=
    fun spec mem => (specsRead spec mem).elim fun _ isRead =>
      (EdgeSpec.each_iff.1 (EdgeSpec.exact_format.kept_of_read isRead)).2
  have specsOnce : ∀ spec ∈ specs, ∀ data ∈ spec.data, EdgeData.format.Each .once data :=
    fun spec mem data isData => EdgeData.once_of_kept (specsKept spec mem data isData)
  have noViewport (demand : Demand) :
      ∀ shown ∈ (none : Option Viewport), Viewport.format.Each demand shown :=
    fun _ none => nomatch none
  rw [List.forall_mem_cons, List.forall_mem_singleton]
  constructor
  · obtain ⟨noDefect, loads⟩ := loads_of_sound (sound_build valid specs none) (valid_build valid)
      (each_build fieldsKept specsKept (noViewport _))
      (isWritable_build fieldsWritable specsWritable)
    exact ⟨noDefect, fun once => loads (each_build once specsOnce (noViewport _))⟩
  · obtain ⟨noDefect, loads⟩ := loads_of_sound (sound_chain valid none) (valid_chain valid)
      (each_chain fieldsKept (noViewport _)) (isWritable_chain fieldsWritable)
    exact ⟨noDefect, fun once => loads (each_chain once (noViewport _))⟩

/-- A field that comes twice, and edge specifications that lead back and nowhere, are laid out as
flows that are loaded. -/
theorem loads_laidOut_repeated :
    ((build [.bare "q", .bare "q"] [⟨"q", "start", none, []⟩, ⟨"q", "ghost", none, []⟩]
        none).ownDefects = .ok [] ∧
      (chain [.bare "q", .bare "q"] none).ownDefects = .ok []) ∧
    (build [.bare "q", .bare "q"] [⟨"q", "start", none, []⟩, ⟨"q", "ghost", none, []⟩]
        none).reload = .ok (format.reread (build [.bare "q", .bare "q"]
          [⟨"q", "start", none, []⟩, ⟨"q", "ghost", none, []⟩] none)) ∧
      (chain [.bare "q", .bare "q"] none).reload =
        .ok (format.reread (chain [.bare "q", .bare "q"] none)) := by
  have fieldRead : ∃ found, Field.read found = .ok (.bare "q") :=
    ⟨.obj [("id", .str "q"), ("type", .str "text"), ("label", .str "q")], rfl⟩
  have specRead (target : Text) : ∃ found, EdgeSpec.read found = .ok ⟨"q", target, none, []⟩ :=
    ⟨.obj [("source", .str "q"), ("target", .str target)], rfl⟩
  have fieldOnce : Field.format.Each .once (.bare "q") :=
    Field.each_iff.2 ⟨Demand.once.extras_nil _, nofun, nofun, nofun⟩
  have fieldWritable : Writable.isWritable (Field.bare "q") = true := rfl
  have specWritable (target : Text) :
      Writable.isWritable (EdgeSpec.mk "q" target none []) = true := rfl
  have loads := loads_laidOut [.bare "q", .bare "q"]
    [⟨"q", "start", none, []⟩, ⟨"q", "ghost", none, []⟩] (by simp [fieldRead]) (by simp [specRead])
    (by simp [fieldWritable]) (by simp [specWritable])
  rw [List.forall_mem_cons, List.forall_mem_singleton] at loads
  obtain ⟨⟨buildDefects, buildLoads⟩, chainDefects, chainLoads⟩ := loads
  exact ⟨⟨buildDefects, chainDefects⟩, buildLoads (by simp [fieldOnce]),
    chainLoads (by simp [fieldOnce])⟩

/-- Not all validated fields are laid out as flows that are loaded again: not one whose rules are null
in camel case and no rules in the other spelling, though it can be written. -/
theorem exists_laidOut_refused :
    ∃ field, Field.read (.obj [("id", .str "q"), ("type", .str "text"), ("label", .str "L"),
        ("conditionalLogic", .null), ("conditional_logic", .num (.int 5))]) = .ok field ∧
      Writable.isWritable field = true ∧ ∀ flow, (chain [field] none).reload ≠ .ok flow := by
  refine ⟨⟨"q", ⟨"text"⟩, "L", none, none, none, none, none, none, none,
    [("conditional_logic", .num (.int 5))]⟩, rfl, rfl, fun flow reloads => ?_⟩
  rw [reload, Writable.write_of_isWritable (by rfl)] at reloads
  cases (load_eq_ok_iff.1 reloads).2

end Flow

end CardForm
