import CardForm.Proofs.Flow.LaidOut
import CardForm.Proofs.Flow.Wired

/-!
# Runs of an editing session

`Flow.Origin` says where a node comes from that a step leaves; so what a run keeps of all nodes is
shown for each origin once. A run from a loaded flow keeps it wired, its nodes readable, and the keys of
its extras as they are read (`Flow.Steady`). Hence the check finds at most one defect in it, that the
end cannot be reached (`Flow.defects_after`).
-/
namespace CardForm

/-! ## Nodes that can be read -/

/-- A payload with a newer field can be read once it was written where both can. -/
theorem QuestionData.valid_withField {data : QuestionData} {field : Field}
    (valid : format.Valid data) (fieldValid : Field.format.Valid field) :
    format.Valid (data.withField field) := by
  obtain ⟨ownField, ownMedia⟩ := valid_iff.1 valid
  obtain ⟨name, known, options, fieldMedia, logic⟩ := Field.valid_iff.1 fieldValid
  have media : ∀ media ∈ data.mediaFor field, Media.format.Valid media := fun media mem =>
    (mem_mediaFor mem).elim ((Field.valid_iff.1 ownField).2.2.2.1 media) (fieldMedia media)
  exact valid_iff.2 ⟨Field.valid_iff.2 ⟨name, known, options, media, logic⟩, ownMedia⟩

namespace Node

variable {node : Node}

/-- A node with its copies up to date can be read once it was written where it could before. -/
theorem valid_normalized (valid : format.Valid node) : format.Valid node.normalized := by
  cases node with
  | start card => exact valid
  | finish card => exact valid
  | statement card => exact valid
  | question card =>
    obtain ⟨name, data⟩ := Card.valid_content_iff.1 valid
    obtain ⟨field, media⟩ := QuestionData.valid_iff.1 data
    exact Card.valid_content_iff.2 ⟨name, QuestionData.valid_iff.2 ⟨field, media⟩⟩

/-- A node with newer content can be read once it was written where it and the content can. -/
theorem valid_merged {fields : List Field} (valid : format.Valid node)
    (fieldsValid : ∀ field ∈ fields, Field.format.Valid field) :
    format.Valid (node.merged fields) := by
  unfold merged
  split
  · rename_i card field isField
    obtain ⟨id, _, isLast⟩ := Option.bind_eq_some_iff.1 isField
    obtain ⟨name, data⟩ := Card.valid_content_iff.1 valid
    have fieldValid := fieldsValid field (Field.mem_of_last? isLast)
    exact valid_normalized
      (Card.valid_content_iff.2 ⟨name, QuestionData.valid_withField data fieldValid⟩)
  · split
    · obtain ⟨name, data⟩ := Card.valid_content_iff.1 valid
      have media := StatementData.valid_iff.1 data
      exact Card.valid_content_iff.2 ⟨name, StatementData.valid_iff.2 media⟩
    · exact valid
  · exact valid

end Node

namespace Flow

variable {flow next : Flow} {step : Step} {node : Node}

/-- A flow with newer content can be read once it was written where it and the content can. -/
theorem valid_merge {fields : List Field} (valid : format.Valid flow)
    (fieldsValid : ∀ field ∈ fields, Field.format.Valid field) :
    format.Valid (flow.merge fields) :=
  valid_iff.2 (List.forall_mem_map.2 fun node mem =>
    Node.valid_merged (valid_iff.1 valid node mem) fieldsValid)

/-- A new question can be read once it was written where a field can bear its identifier. -/
theorem valid_newQuestion {id : Text} (name : Format.name.Valid id) (pipingKey : Option Text)
    (y : Number) : Node.format.Valid (newQuestion id pipingKey y) := by
  have options : ∀ options ∈ (newField id pipingKey).options,
      FieldOption.format.array.Valid options := by
    rintro options isOptions option mem
    obtain ⟨_, rfl⟩ := exists_plain_of_mem_newField isOptions mem
    trivial
  have known : FieldKind.radio ∈ FieldKind.known := by decide
  have field : Field.format.Valid (newField id pipingKey) :=
    Field.valid_iff.2 ⟨name, known, options, fun _ none => (nomatch none),
      fun _ none => (nomatch none)⟩
  exact Card.valid_content_iff.2
    ⟨name, QuestionData.valid_iff.2 ⟨field, fun _ none => (nomatch none)⟩⟩

/-- A new card can be read once it was written. -/
theorem valid_newNode {card : NewCard} {id : Text} {y : Number}
    (isNew : flow.newNode card id y = .ok node) : Node.format.Valid node := by
  obtain ⟨name, rfl | ⟨key, rfl⟩⟩ := newNode_cases isNew
  · exact Card.valid_content_iff.2
      ⟨name, StatementData.valid_iff.2 fun _ none => (nomatch none)⟩
  · exact valid_newQuestion name key y

/-! ## Where nodes come from -/

/-- A step takes over a field: one of a field list, or one of the flow's own. -/
def Takes (flow : Flow) : Step → Field → Prop
  | .merge fields, field => field ∈ fields
  | .mergeOwn, field => ∃ fields, flow.linear = .ok fields ∧ field ∈ fields
  | .rebuild, field => ∃ fields, flow.linear = .ok fields ∧ field ∈ fields
  | _, _ => False

/-- What a node after a step was before it. -/
inductive Origin (flow : Flow) (step : Step) : Node → Prop where
  /-- A node of the flow. -/
  | kept {node : Node} (mem : node ∈ flow.nodes) : Origin flow step node
  /-- A node of the flow whose copies were not up to date. -/
  | normalized {node : Node} (mem : node ∈ flow.nodes) : Origin flow step node.normalized
  /-- A node of the flow with older content. -/
  | merged {node : Node} {fields : List Field} (mem : node ∈ flow.nodes)
    (takes : ∀ field ∈ fields, flow.Takes step field) : Origin flow step (node.merged fields)
  /-- Nothing: it is a new card. -/
  | added {card : NewCard} {id : Text} {y : Number} {node : Node}
    (isNew : flow.newNode card id y = .ok node) : Origin flow step node
  /-- Nothing: it is a new start. -/
  | start : Origin flow step startNode
  /-- Nothing: it is a new end. -/
  | finish (y : Number) : Origin flow step (endNode y)
  /-- A field. -/
  | laidOut {field : Field} (takes : flow.Takes step field) (y : Number) :
    Origin flow step (fieldNode field y)

/-- Each node that a step leaves has an origin, unless it was written and read. -/
theorem origin_of_changed (changes : flow.changed step = .ok next) (noReload : step ≠ .reload) :
    ∀ node ∈ next.nodes, Origin flow step node := by
  have normalized {nodes : List Node} (old : ∀ node ∈ nodes, node ∈ flow.nodes) :
      ∀ node ∈ nodes.map Node.normalized, Origin flow step node :=
    List.forall_mem_map.2 fun node mem => .normalized (old node mem)
  cases step with
  | add card wanted randomDigits =>
    change flow.addWithId card (newId wanted randomDigits) = .ok next at changes
    unfold addWithId at changes
    split at changes
    · cases changes
    · obtain ⟨new, isNew, rfl⟩ := Failure.map_eq_ok_iff.1 changes
      refine List.forall_mem_append.2 ⟨fun node mem => ?_, List.forall_mem_singleton.2 (.added isNew)⟩
      obtain ⟨old, inFlow, rfl⟩ | rfl | ⟨y, rfl⟩ := mem_nodesWithMarkers mem
      · exact .normalized inFlow
      · exact .start
      · exact .finish y
  | delete id =>
    cases changes
    unfold Flow.delete
    split
    · exact fun node mem => .kept mem
    · exact normalized fun node mem => List.mem_of_mem_filter mem
  | reorder ids =>
    cases changes
    exact normalized fun node mem => mem
  | merge fields =>
    cases changes
    exact List.forall_mem_map.2 fun node mem => .merged mem fun field inFields => inFields
  | mergeOwn =>
    obtain ⟨fields, isLinear, rfl⟩ := Failure.map_eq_ok_iff.1 changes
    have takes : ∀ field ∈ fields, flow.Takes .mergeOwn field := fun field inFields =>
      ⟨fields, isLinear, inFields⟩
    exact List.forall_mem_map.2 fun node mem => .merged mem takes
  | normalize =>
    cases changes
    exact normalized fun node mem => mem
  | reload => exact absurd rfl noReload
  | rebuild =>
    obtain ⟨fields, isLinear, rfl⟩ := Failure.map_eq_ok_iff.1 changes
    intro node mem
    obtain rfl | ⟨field, inCards, y, rfl⟩ | ⟨y, rfl⟩ := mem_column mem
    · exact .start
    · have inFields : field ∈ fields := mem_of_mem_reachedFields (mem_firstsAfter inCards).1
      have takes : flow.Takes .rebuild field := ⟨fields, isLinear, inFields⟩
      exact .laidOut takes y
    · exact .finish y

/-- A node can be read once it was written where the nodes and fields that it can come from can. -/
theorem Origin.valid (origin : Origin flow step node) (flowValid : format.Valid flow)
    (fieldsValid : ∀ field, flow.Takes step field → Field.format.Valid field) :
    Node.format.Valid node := by
  have old := valid_iff.1 flowValid
  cases origin with
  | kept mem => exact old _ mem
  | normalized mem => exact Node.valid_normalized (old _ mem)
  | merged mem takes =>
    exact Node.valid_merged (old _ mem) fun field inFields => fieldsValid field (takes field inFields)
  | added isNew => exact valid_newNode isNew
  | start => exact Card.valid_marker _
  | finish y => exact Card.valid_marker _
  | laidOut takes y => exact valid_fieldNode (fieldsValid _ takes) y

/-! ## What a step keeps -/

/-- What runs keep of a flow. -/
structure Steady (flow : Flow) : Prop where
  /-- It is wired. -/
  wired : flow.Wired
  /-- Its parts can be read once it was written. -/
  valid : format.Valid flow
  /-- The extras in it bear none of the declared keys in camel case. -/
  kept : format.Each .kept flow

/-- A flow that was loaded is steady. -/
theorem steady_of_load {value : Json} (loads : load value = .ok flow) : flow.Steady := by
  obtain ⟨_, isRead⟩ := load_eq_ok_iff.1 loads
  exact ⟨(sound_of_load loads).wired, exact_format.valid_of_read isRead,
    exact_format.kept_of_read isRead⟩

/-- A flow that was written and loaded again is steady. -/
theorem steady_of_reload (reloads : flow.reload = .ok next) : next.Steady := by
  obtain ⟨written, _, loads⟩ := Failure.bind_eq_ok_iff.1 reloads
  exact steady_of_load loads

/-- A wired flow stays wired after a step, if the fields that the step takes over can be read once they
were written. -/
theorem Wired.changed (wired : flow.Wired)
    (fieldsValid : ∀ field, flow.Takes step field → Field.format.Valid field)
    (changes : flow.changed step = .ok next) : next.Wired := by
  cases step with
  | add card wanted randomDigits => exact wired.addWithId changes
  | delete id =>
    cases changes
    exact wired.delete id
  | reorder ids =>
    cases changes
    exact wired.reorder ids
  | merge fields =>
    cases changes
    exact wired.merge fields
  | mergeOwn =>
    obtain ⟨fields, _, rfl⟩ := Failure.map_eq_ok_iff.1 changes
    exact wired.merge fields
  | normalize =>
    cases changes
    exact wired.normalized
  | reload => exact (steady_of_reload changes).wired
  | rebuild =>
    obtain ⟨fields, isLinear, rfl⟩ := Failure.map_eq_ok_iff.1 changes
    have valid : ∀ field ∈ fields, Field.format.Valid field := fun field mem =>
      fieldsValid field ⟨fields, isLinear, mem⟩
    exact (sound_build valid _ _).wired

/-- A steady flow stays steady after a step, if the fields that the step takes over can be read once
they were written, and bear extras as they are read. -/
theorem Steady.changed (steady : flow.Steady)
    (fieldsValid : ∀ field, flow.Takes step field → Field.format.Valid field)
    (fieldsKept : step.Each .kept) (changes : flow.changed step = .ok next) : next.Steady := by
  have reloaded : flow.reload = .ok next → format.Each .kept next := fun reloads =>
    (steady_of_reload reloads).kept
  refine ⟨steady.wired.changed fieldsValid changes, ?_,
    each_changed steady.kept fieldsKept reloaded changes⟩
  by_cases isReload : step = .reload
  · subst isReload
    exact (steady_of_reload changes).valid
  · exact valid_iff.2 fun node mem =>
      (origin_of_changed changes isReload node mem).valid steady.valid fieldsValid

/-! ## Runs -/

/-- What holds of a flow, and stays true after each allowed step, holds after a run of such steps. -/
theorem after_of_changed {holds : Flow → Prop} {allowed : Step → Prop}
    (keeps : ∀ {flow next step}, holds flow → allowed step → flow.changed step = .ok next →
      holds next) {steps : List Step} (first : holds flow) (all : ∀ step ∈ steps, allowed step) :
    holds (flow.after steps) := by
  induction steps generalizing flow with
  | nil => exact first
  | cons step rest ih =>
    rw [List.forall_mem_cons] at all
    have once : holds (flow.attempted step) := by
      unfold attempted
      split
      · exact keeps first all.1 ‹_›
      · exact first
    exact ih once all.2

/-- A step of an editor. It takes over the fields of a list that was read, but not the flow's own,
among which a kind may be any word. -/
def Step.Edits : Step → Prop
  | .merge fields => ∀ field ∈ fields, ∃ found, Field.read found = .ok field
  | .mergeOwn => False
  | .rebuild => False
  | _ => True

/-- A steady flow stays steady after a step of an editor. -/
theorem Steady.edited (steady : flow.Steady) (edits : step.Edits)
    (changes : flow.changed step = .ok next) : next.Steady := by
  refine steady.changed ?_ ?_ changes
  · intro field takes
    cases step with
    | merge fields =>
      obtain ⟨found, isRead⟩ := edits field takes
      exact Field.exact_format.valid_of_read isRead
    | mergeOwn => exact edits.elim
    | rebuild => exact edits.elim
    | _ => exact takes.elim
  · cases step with
    | merge fields =>
      intro field mem
      obtain ⟨found, isRead⟩ := edits field mem
      exact Field.exact_format.kept_of_read isRead
    | _ => trivial

/-- After any steps of an editor on a loaded flow, it is wired, its nodes are in order, and its parts
can be read once it was written. The check finds nothing, or one defect where the end cannot be
reached; it fails exactly as writing the flow does. -/
theorem defects_after {value : Json} {first : Flow} {steps : List Step}
    (loads : load value = .ok first) (edits : ∀ step ∈ steps, step.Edits) :
    (first.after steps).Wired ∧ (∀ node ∈ (first.after steps).nodes, node.Proper) ∧
      format.Valid (first.after steps) ∧
      ∃ found ∈ [[], [Defect.disconnected]],
        (found = [] ↔ Ends.Path (first.after steps).ends startId endId) ∧
        (first.after steps).ownDefects =
          (Writable.write (first.after steps)).map fun _ => found := by
  have steady : (first.after steps).Steady :=
    after_of_changed (fun steady edits changes => steady.edited edits changes)
      (steady_of_load loads) edits
  have proper := steady.wired.proper_of_valid steady.valid
  exact ⟨steady.wired, proper, steady.valid, steady.wired.exists_ownDefects proper steady.kept⟩

/-- A card that is added twice, newer content for it, and its deletion leave a loaded flow with at most
the one defect. -/
theorem defects_after_deletion :
    ∃ first, load (chain [.bare "q"] none).toJson = .ok first ∧
      (first.after [.add .question "r" [], .add .statement "r" [], .merge [.bare "r"],
        .delete "r"]).Wired ∧
      ∃ found ∈ [[], [Defect.disconnected]],
        (first.after [.add .question "r" [], .add .statement "r" [], .merge [.bare "r"],
          .delete "r"]).ownDefects =
            (Writable.write (first.after [.add .question "r" [], .add .statement "r" [],
              .merge [.bare "r"], .delete "r"])).map fun _ => found := by
  have valid := Field.valid_bare ["q"] (by decide)
  have loads : load (chain [.bare "q"] none).toJson =
      .ok (format.reread (chain [.bare "q"] none)) :=
    (load_toJson_eq_ok_iff (each_chain_bare ["q"])).2 ⟨sound_chain valid none, valid_chain valid, rfl⟩
  have merges : ∀ field ∈ [Field.bare "r"], ∃ found, Field.read found = .ok field :=
    List.forall_mem_singleton.2
      ⟨.obj [("id", .str "r"), ("type", .str "text"), ("label", .str "r")], rfl⟩
  have edits : ∀ step ∈ [Step.add .question "r" [], .add .statement "r" [], .merge [.bare "r"],
      .delete "r"], step.Edits := by
    simpa [Step.Edits] using merges
  obtain ⟨wired, _, _, found, isFound, _, check⟩ := defects_after loads edits
  exact ⟨_, loads, wired, found, isFound, check⟩

/-- A flow without cards, and with a note beside them. -/
def annotated (note : Json) : Flow where
  nodes := column []
  edges := Edge.ofSpecs (chainSpecs [startId, endId])
  extras := [("note", note)]

variable {note : Json}

/-- Such a flow is loaded, whatever the note is. -/
theorem load_annotated (note : Json) :
    load (annotated note).toJson = .ok (format.reread (annotated note)) := by
  have noFields : ∀ field ∈ ([] : List Field), Field.format.Valid field := fun _ none => nomatch none
  obtain ⟨proper, wired, path⟩ := sound_iff.1 (sound_chain noFields none)
  have sound : (annotated note).Sound := sound_iff.2 ⟨proper,
    wired.map (List.map_id _).symm (fun _ => rfl) (fun _ => rfl) wired.edge, path⟩
  have valid : format.Valid (annotated note) := valid_iff.2 (valid_column noFields)
  have unspelled : Demand.once.extras keys (annotated note).extras := by
    have notKey : ∀ key ∈ keys, ("note" : Text) ≠ key.camel ∧ ("note" : Text) ≠ key.plain := by decide
    refine ⟨List.forall_mem_singleton.2 (Text.isWellFormed_ofString "note"), ?_⟩
    intro key inKeys member mem
    rw [List.mem_singleton.1 mem]
    exact notKey key inKeys
  have once : format.Each .once (annotated note) :=
    each_iff.2 ⟨unspelled, (each_iff.1 (each_chain_bare [])).2⟩
  exact (load_toJson_eq_ok_iff once).2 ⟨sound, valid, rfl⟩

/-- The check of that flow fails where the note has an obstacle. -/
theorem ownDefects_annotated {found : Obstacle} (finite : note.isFinite = true)
    (notNull : note.isNull = false) (isFound : note.obstacle Json.writableNesting = some found) :
    (format.reread (annotated note)).ownDefects = .error (.ofObstacle found) := by
  have shown : Members.shown (annotated note).extras = (annotated note).extras := by
    simp [annotated, Members.shown, notNull, Json.portable_eq_self finite]
  have inExtras : (annotated note).extras.obstacle Json.writableNesting = some found := by
    simp only [annotated, Members.obstacle, List.findSome?_cons, isFound]
  have isObstacle : Writable.obstacle (format.reread (annotated note)) Json.writableNesting =
      some found := by
    change Obstacle.first? [none, none, none,
      (Members.shown (annotated note).extras).obstacle Json.writableNesting] = some found
    rw [shown, inExtras]
    rfl
  rw [ownDefects, Writable.write_of_obstacle isObstacle]
  rfl

/-- There are flows that are loaded and whose check fails: one with a value that is too deep, and one
with an ill-formed key inside a value. -/
theorem exists_load_unchecked :
    (∃ value first, load value = .ok first ∧ (first.after []).ownDefects = .error .tooDeep) ∧
      ∃ value first, load value = .ok first ∧
        (first.after []).ownDefects = .error (.notEncodable 0 [.ofNat 0xD800]) := by
  constructor
  · have finite : ((fun inner => Json.arr [inner])^[255] .null).isFinite = true :=
      Json.isFinite_iterate_arr 255 .null
    exact ⟨_, _, load_annotated _,
      ownDefects_annotated finite rfl (Json.obstacle_iterate_arr 255 .null)⟩
  · exact ⟨_, _, load_annotated (.obj [([.ofNat 0xD800], .int 1)]),
      @ownDefects_annotated _ (.notEncodable 0 [.ofNat 0xD800]) rfl rfl rfl⟩

end Flow

end CardForm
