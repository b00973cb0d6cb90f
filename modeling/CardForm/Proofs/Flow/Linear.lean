import CardForm.Flow.Linear
import CardForm.Proofs.Flow.Reach
import CardForm.Proofs.Reading
import CardForm.Proofs.Written.Flow
import Mathlib.Data.List.Nodup

/-!
# The linear form of a flow that was read back

Reading back what was written of a flow changes its extras only, so it commutes with taking the
linear form: the flow that comes back stands for the fields that come back (`Flow.linear_reread`),
and these are written as the fields before (`Field.listToJson_reread`). A flow stands for fields unless it
shows a statement that has no name for its own (`Flow.exists_linear_iff`).
-/
namespace CardForm

variable {demand : Demand}

/-- Fields that come back are written as they were before. -/
theorem Field.listToJson_reread {fields : List Field}
    (finite : ∀ field ∈ fields, Field.format.Each .finite field) :
    Field.listToJson (fields.map Field.format.reread) = Field.listToJson fields := by
  rw [Field.listToJson, Field.listToJson, List.map_map]
  exact congrArg Json.arr (List.map_congr_left fun field mem =>
    Field.exact_format.toJson_reread (finite field mem))

namespace QuestionData

variable {data : QuestionData}

/-- The field that is shown for a payload that comes back is the one that comes back. -/
theorem shownField_reread (data : QuestionData) :
    (format.reread data).shownField = Field.format.reread data.shownField := by
  obtain ⟨field, fieldId, label, fieldType, media, extras⟩ := data
  cases media <;> rfl

/-- What a demand asks of a payload, it asks of the field that is shown for it. -/
theorem each_shownField (each : format.Each demand data) :
    Field.format.Each demand data.shownField := by
  obtain ⟨_, fieldEach, cardMedia⟩ := each_iff.1 each
  obtain ⟨extras, options, fieldMedia, logic⟩ := Field.each_iff.1 fieldEach
  refine Field.each_iff.2 ⟨extras, options, fun media shown => ?_, logic⟩
  obtain own | ⟨_, other⟩ := Option.or_eq_some_iff.1 shown
  · exact cardMedia media own
  · exact fieldMedia media other

/-- The editor's copy of the kind, if there is one, names a known kind. -/
def KnowsKind (data : QuestionData) : Prop :=
  ∀ name ∈ data.fieldType, FieldKind.mk name ∈ FieldKind.known

/-- A copy of the kind that is up to date names a known kind. -/
theorem knowsKind_of_upToDate (valid : format.Valid data)
    (upToDate : data.fieldType = some data.field.kind.name) : data.KnowsKind := by
  obtain ⟨_, known, _⟩ := Field.valid_iff.1 (valid_iff.1 valid).1
  intro name isCopy
  rw [upToDate] at isCopy
  exact Option.some.inj isCopy ▸ known

/-- The field that is shown for a payload is of a known kind where the copy of the kind names one. -/
theorem kind_shownField_known_iff (valid : format.Valid data) :
    data.shownField.kind ∈ FieldKind.known ↔ data.KnowsKind := by
  obtain ⟨_, known, _⟩ := Field.valid_iff.1 (valid_iff.1 valid).1
  unfold shownField KnowsKind
  cases data.fieldType with
  | none => exact iff_of_true known fun _ none => nomatch none
  | some name => simp

/-- The field that is shown for a payload can be read once it was written where it is of a known
kind. -/
theorem valid_shownField_iff (valid : format.Valid data) :
    Field.format.Valid data.shownField ↔ data.shownField.kind ∈ FieldKind.known := by
  obtain ⟨name, _, options, _, logic⟩ := Field.valid_iff.1 (valid_iff.1 valid).1
  constructor
  · exact fun shownValid => (Field.valid_iff.1 shownValid).2.1
  · exact fun known => Field.valid_iff.2 ⟨name, known, options, fun media _ => media.valid, logic⟩

end QuestionData

namespace StatementData

variable {data : StatementData}

/-- What a demand asks of a payload, it asks of the field that is shown for it. -/
theorem each_shownField (each : format.Each demand data) :
    Field.format.Each demand data.shownField := by
  obtain ⟨_, media⟩ := each_iff.1 each
  exact Field.each_iff.2 ⟨demand.extras_nil _, fun _ none => (nomatch none), media,
    fun _ none => (nomatch none)⟩

end StatementData

namespace Node

variable {node : Node} {nodes : List Node} {fields : List Field}

/-- A node that comes back has the identifier that it had. -/
@[simp] theorem id_reread (node : Node) : (format.reread node).id = node.id := by
  cases node <;> rfl

/-- What is shown for a statement: nothing after the form was sent, and else its field, where a field can
bear its identifier. -/
theorem field?_statement_eq_ok_iff {card : Card StatementData} {field : Option Field} :
    (statement card).field? = .ok field ↔ card.data.isSuccessCard = true ∧ field = none ∨
      card.data.isSuccessCard = false ∧ Format.name.Valid card.data.fieldId ∧
        field = some card.data.shownField := by
  rw [field?]
  by_cases success : card.data.isSuccessCard = true
  · simp [success, eq_comm]
  · have named {id : Text} : ((Reading.nonEmptyText (.str card.data.fieldId)).under
        (.key "id")).orUnfit = .ok id ↔ card.data.fieldId = id ∧ Format.name.Valid id := by
      rw [Reading.orUnfit_eq_ok_iff, Reading.under_eq_ok_iff, Reading.nonEmptyText_eq_ok_iff,
        Json.str.injEq]
      rfl
    rw [if_neg success, Failure.map_eq_ok_iff]
    simp [named, success, eq_comm]

/-- The field that is shown for a node that comes back is the one that comes back. -/
theorem field?_reread {field : Option Field} (isShown : node.field? = .ok field) :
    (format.reread node).field? = .ok (field.map Field.format.reread) := by
  cases node with
  | start card =>
    cases isShown
    rfl
  | finish card =>
    cases isShown
    rfl
  | question card =>
    cases isShown
    exact congrArg (fun shown => Except.ok (some shown)) (QuestionData.shownField_reread card.data)
  | statement card =>
    refine field?_statement_eq_ok_iff.2 ?_
    obtain ⟨success, rfl⟩ | ⟨noSuccess, name, rfl⟩ := field?_statement_eq_ok_iff.1 isShown
    · exact .inl ⟨success, rfl⟩
    · exact .inr ⟨noSuccess, name, rfl⟩

/-- What a demand asks of a node, it asks of the field that is shown for it. -/
theorem each_field? {field : Field} (each : format.Each demand node)
    (isShown : node.field? = .ok (some field)) : Field.format.Each demand field := by
  cases node with
  | start card => cases isShown
  | finish card => cases isShown
  | question card =>
    cases isShown
    exact QuestionData.each_shownField (Card.each_content_iff.1 each).2.2
  | statement card =>
    obtain ⟨_, none⟩ | ⟨_, _, isField⟩ := field?_statement_eq_ok_iff.1 isShown
    · cases none
    · cases isField
      exact StatementData.each_shownField (Card.each_content_iff.1 each).2.2

/-- The field that is shown for a node can be read once it was written where it is of a known kind. -/
theorem valid_field?_iff {field : Field} (valid : format.Valid node)
    (isShown : node.field? = .ok (some field)) :
    Field.format.Valid field ↔ field.kind ∈ FieldKind.known := by
  cases node with
  | start card => cases isShown
  | finish card => cases isShown
  | question card =>
    cases isShown
    exact QuestionData.valid_shownField_iff (Card.valid_content_iff.1 valid).2
  | statement card =>
    have known : FieldKind.statement ∈ FieldKind.known := by decide
    obtain ⟨_, none⟩ | ⟨_, name, isField⟩ := field?_statement_eq_ok_iff.1 isShown
    · cases none
    · cases isField
      exact iff_of_true (Field.valid_iff.2 ⟨name, known, fun _ none => (nomatch none),
        fun media _ => media.valid, fun _ none => (nomatch none)⟩) known

/-- The editor's copy of the kind in a question, if there is one, names a known kind. -/
def KnowsKind : Node → Prop
  | question card => card.data.KnowsKind
  | _ => True

/-- What is shown for a node is of a known kind where the copy of the kind names one. -/
theorem known_field?_iff {field : Option Field} (valid : format.Valid node)
    (isShown : node.field? = .ok field) :
    (∀ shown ∈ field, shown.kind ∈ FieldKind.known) ↔ node.KnowsKind := by
  cases node with
  | start card =>
    cases isShown
    exact iff_of_true (fun _ none => nomatch none) trivial
  | finish card =>
    cases isShown
    exact iff_of_true (fun _ none => nomatch none) trivial
  | question card =>
    cases isShown
    have dataValid : QuestionData.format.Valid card.data := (Card.valid_content_iff.1 valid).2
    simp only [KnowsKind, Option.mem_some_iff, forall_eq',
      QuestionData.kind_shownField_known_iff dataValid]
  | statement card =>
    have known : FieldKind.statement ∈ FieldKind.known := by decide
    refine iff_of_true (fun shown isField => ?_) trivial
    obtain ⟨_, rfl⟩ | ⟨_, _, rfl⟩ := field?_statement_eq_ok_iff.1 isShown
    · cases isField
    · cases isField
      exact known

/-- The fields for some nodes are those for the first one, then those for the others. -/
theorem fields_cons_eq_ok_iff :
    Node.fields (node :: nodes) = .ok fields ↔
      ∃ first others, node.field? = .ok first ∧ Node.fields nodes = .ok others ∧
        fields = first.toList ++ others := by
  rw [Node.fields]
  simp only [Failure.bind_eq_ok_iff, pure, Except.pure, Except.ok.injEq, eq_comm (a := fields)]
  constructor
  · rintro ⟨first, isFirst, others, areOthers, same⟩
    exact ⟨first, others, isFirst, areOthers, same⟩
  · rintro ⟨first, others, isFirst, areOthers, same⟩
    exact ⟨first, isFirst, others, areOthers, same⟩

/-- The fields for some nodes and others behind them are those for the ones, then those for the others. -/
theorem fields_append_eq_ok_iff {others : List Node} :
    Node.fields (nodes ++ others) = .ok fields ↔
      ∃ before after, Node.fields nodes = .ok before ∧ Node.fields others = .ok after ∧
        fields = before ++ after := by
  induction nodes generalizing fields with
  | nil =>
    constructor
    · exact fun areShown => ⟨[], fields, rfl, areShown, rfl⟩
    · rintro ⟨before, after, none, areShown, rfl⟩
      cases none
      exact areShown
  | cons node rest ih =>
    rw [List.cons_append, fields_cons_eq_ok_iff]
    simp only [fields_cons_eq_ok_iff, ih]
    constructor
    · rintro ⟨first, _, isFirst, ⟨later, after, areLater, areAfter, rfl⟩, rfl⟩
      exact ⟨first.toList ++ later, after, ⟨first, later, isFirst, areLater, rfl⟩, areAfter,
        (List.append_assoc _ _ _).symm⟩
    · rintro ⟨_, after, ⟨first, later, isFirst, areLater, rfl⟩, areAfter, rfl⟩
      exact ⟨first, later ++ after, isFirst, ⟨later, after, areLater, areAfter, rfl⟩,
        List.append_assoc _ _ _⟩

/-- The fields for nodes that come back are those that come back. -/
theorem fields_reread (areShown : Node.fields nodes = .ok fields) :
    Node.fields (nodes.map format.reread) = .ok (fields.map Field.format.reread) := by
  induction nodes generalizing fields with
  | nil =>
    cases areShown
    rfl
  | cons node rest ih =>
    obtain ⟨first, others, isFirst, areOthers, rfl⟩ := fields_cons_eq_ok_iff.1 areShown
    refine fields_cons_eq_ok_iff.2 ⟨_, _, field?_reread isFirst, ih areOthers, ?_⟩
    cases first <;> simp

/-- Each field for some nodes is shown for one of them. -/
theorem exists_of_mem_fields (areShown : Node.fields nodes = .ok fields) {field : Field}
    (mem : field ∈ fields) : ∃ node ∈ nodes, node.field? = .ok (some field) := by
  induction nodes generalizing fields with
  | nil =>
    cases areShown
    cases mem
  | cons node rest ih =>
    obtain ⟨first, others, isFirst, areOthers, rfl⟩ := fields_cons_eq_ok_iff.1 areShown
    obtain inFirst | inOthers := List.mem_append.1 mem
    · rw [Option.mem_toList.1 inFirst] at isFirst
      exact ⟨node, List.mem_cons_self, isFirst⟩
    · obtain ⟨later, inRest, isShown⟩ := ih areOthers inOthers
      exact ⟨later, List.mem_cons_of_mem _ inRest, isShown⟩

/-- Where there are fields for some nodes, none of these refuses its own, and that is among them. -/
theorem exists_field?_of_mem (areShown : Node.fields nodes = .ok fields) (mem : node ∈ nodes) :
    ∃ field, node.field? = .ok field ∧ ∀ shown ∈ field, shown ∈ fields := by
  induction nodes generalizing fields with
  | nil => cases mem
  | cons head rest ih =>
    obtain ⟨first, others, isFirst, areOthers, rfl⟩ := fields_cons_eq_ok_iff.1 areShown
    rcases List.mem_cons.1 mem with rfl | inRest
    · exact ⟨first, isFirst, fun shown isShown =>
        List.mem_append_left _ (Option.mem_toList.2 isShown)⟩
    · obtain ⟨field, isField, inOthers⟩ := ih areOthers inRest
      exact ⟨field, isField, fun shown isShown => List.mem_append_right _ (inOthers shown isShown)⟩

/-- Where the field that is shown for a node bears the key of the node, the fields for some nodes bear
keys of these, in their order. -/
theorem sublist_keys_fields {key : Node → Option Text}
    (bears : ∀ node ∈ nodes, ∀ field, node.field? = .ok (some field) → key node = some field.id)
    (areShown : Node.fields nodes = .ok fields) :
    (fields.map Field.id).Sublist (nodes.filterMap key) := by
  induction nodes generalizing fields with
  | nil =>
    cases areShown
    exact List.Sublist.refl _
  | cons node rest ih =>
    rw [List.forall_mem_cons] at bears
    obtain ⟨first, others, isFirst, areOthers, rfl⟩ := fields_cons_eq_ok_iff.1 areShown
    have sublist := ih bears.2 areOthers
    cases first with
    | none => exact sublist.trans ((List.sublist_cons_self node rest).filterMap key)
    | some field =>
      rw [List.filterMap_cons_some (bears.1 field isFirst)]
      exact sublist.cons_cons field.id

/-- There are fields for some nodes where no node refuses its own. -/
theorem exists_fields (shown : ∀ node ∈ nodes, ∃ field, node.field? = .ok field) :
    ∃ fields, Node.fields nodes = .ok fields := by
  induction nodes with
  | nil => exact ⟨[], rfl⟩
  | cons node rest ih =>
    rw [List.forall_mem_cons] at shown
    obtain ⟨first, isFirst⟩ := shown.1
    obtain ⟨others, areOthers⟩ := ih shown.2
    exact ⟨_, fields_cons_eq_ok_iff.2 ⟨first, others, isFirst, areOthers, rfl⟩⟩

/-! ## Statements without a name -/

/-- A statement that the form shows, but whose identifier for its field cannot be that of a field. -/
def Unnamed : Node → Prop
  | statement card => card.data.isSuccessCard = false ∧ ¬Format.name.Valid card.data.fieldId
  | _ => False

/-- A node that is no statement without a name does not refuse its field. -/
theorem exists_field? (named : ¬node.Unnamed) : ∃ field, node.field? = .ok field := by
  cases node with
  | start card => exact ⟨_, rfl⟩
  | finish card => exact ⟨_, rfl⟩
  | question card => exact ⟨_, rfl⟩
  | statement card =>
    simp only [Unnamed, not_and, not_not] at named
    cases success : card.data.isSuccessCard with
    | true => exact ⟨none, field?_statement_eq_ok_iff.2 (.inl ⟨success, rfl⟩)⟩
    | false => exact ⟨_, field?_statement_eq_ok_iff.2 (.inr ⟨success, named success, rfl⟩)⟩

/-- A statement without a name refuses its field as one that cannot be read. -/
theorem exists_unfit_field? (unnamed : node.Unnamed) :
    ∃ faults, node.field? = .error (.unfit faults) := by
  cases node with
  | start card => exact unnamed.elim
  | finish card => exact unnamed.elim
  | question card => exact unnamed.elim
  | statement card =>
    obtain ⟨noSuccess, noName⟩ := unnamed
    rw [field?, noSuccess, if_neg Bool.noConfusion]
    cases reading : Reading.nonEmptyText (.str card.data.fieldId) with
    | ok id =>
      obtain ⟨same, name⟩ := Reading.nonEmptyText_eq_ok_iff.1 reading
      exact absurd (Json.str.inj same ▸ name) noName
    | faulty faults => exact ⟨_, rfl⟩

/-- There are fields for some nodes where none of these is a statement without a name. -/
theorem exists_fields_of_named (named : ∀ node ∈ nodes, ¬node.Unnamed) :
    ∃ fields, Node.fields nodes = .ok fields :=
  exists_fields fun node mem => exists_field? (named node mem)

/-- A statement without a name among some nodes stands in the way of their fields. -/
theorem exists_unfit_fields (unnamed : ∃ node ∈ nodes, node.Unnamed) :
    ∃ faults, Node.fields nodes = .error (.unfit faults) := by
  induction nodes with
  | nil => simp at unnamed
  | cons node rest ih =>
    simp only [List.mem_cons, exists_eq_or_imp] at unnamed
    by_cases here : node.Unnamed
    · obtain ⟨faults, isError⟩ := exists_unfit_field? here
      rw [Node.fields, isError]
      exact ⟨faults, rfl⟩
    · obtain ⟨field, isShown⟩ := exists_field? here
      obtain ⟨faults, isError⟩ := ih (unnamed.resolve_left here)
      rw [Node.fields, isShown, isError]
      exact ⟨faults, rfl⟩

end Node

namespace Flow

variable {flow : Flow} {fields : List Field}

/-- The last node of an identifier is a node of the flow. -/
theorem mem_of_lastNode? {id : Text} {node : Node} (isLast : flow.lastNode? id = some node) :
    node ∈ flow.nodes :=
  List.mem_reverse.1 (List.mem_of_find?_eq_some isLast)

/-- Each node of the linear form is a node of the flow. -/
theorem mem_of_mem_shownNodes {node : Node} (mem : node ∈ flow.shownNodes) : node ∈ flow.nodes := by
  obtain ⟨id, _, isLast⟩ := List.mem_filterMap.1 mem
  exact mem_of_lastNode? isLast

/-- The last node of an identifier bears it. -/
theorem id_of_lastNode? {id : Text} {node : Node} (isLast : flow.lastNode? id = some node) :
    node.id = id := by
  simpa using List.find?_some isLast

/-- Among nodes of distinct identifiers each one is the last of its own. -/
theorem lastNode?_of_mem {node : Node} (distinct : (flow.nodes.map Node.id).Nodup)
    (mem : node ∈ flow.nodes) : flow.lastNode? node.id = some node := by
  have isSome : (flow.lastNode? node.id).isSome = true :=
    List.find?_isSome.2 ⟨node, List.mem_reverse.2 mem, by simp⟩
  obtain ⟨found, isLast⟩ := Option.isSome_iff_exists.1 isSome
  rw [isLast, List.inj_on_of_nodup_map distinct (mem_of_lastNode? isLast) mem
    (id_of_lastNode? isLast)]

/-- The nodes of the linear form have distinct identifiers. -/
theorem nodup_shownNodes (flow : Flow) : (flow.shownNodes.map Node.id).Nodup := by
  rw [shownNodes, List.map_filterMap]
  refine List.Nodup.filterMap (fun first second id isFirst isSecond => ?_)
    (Ends.nodup_discovery flow.ends)
  obtain ⟨firstNode, firstFound, rfl⟩ := Option.map_eq_some_iff.1 isFirst
  obtain ⟨secondNode, secondFound, sameId⟩ := Option.map_eq_some_iff.1 isSecond
  rw [← id_of_lastNode? firstFound, ← id_of_lastNode? secondFound, sameId]

/-- A flow stands for fields where no node of it refuses its own. -/
theorem exists_linear (shown : ∀ node ∈ flow.nodes, ∃ field, node.field? = .ok field) :
    ∃ fields, flow.linear = .ok fields :=
  Node.exists_fields fun node mem => shown node (mem_of_mem_shownNodes mem)

/-- The form shows a statement without a name. -/
def ShowsUnnamed (flow : Flow) : Prop := ∃ node ∈ flow.shownNodes, node.Unnamed

/-- A flow stands for a field list unless it shows a statement without a name. -/
theorem exists_linear_of_named (named : ¬flow.ShowsUnnamed) : ∃ fields, flow.linear = .ok fields :=
  Node.exists_fields_of_named fun node mem unnamed => named ⟨node, mem, unnamed⟩

/-- A flow that shows a statement without a name stands for no field list. -/
theorem exists_unfit_linear (unnamed : flow.ShowsUnnamed) :
    ∃ faults, flow.linear = .error (.unfit faults) :=
  Node.exists_unfit_fields unnamed

/-- A flow stands for a field list exactly where it shows no statement without a name. -/
theorem exists_linear_iff : (∃ fields, flow.linear = .ok fields) ↔ ¬flow.ShowsUnnamed := by
  refine ⟨?_, exists_linear_of_named⟩
  rintro ⟨fields, isLinear⟩ unnamed
  obtain ⟨faults, isError⟩ := exists_unfit_linear unnamed
  cases isLinear.symm.trans isError

/-- What a demand asks of a flow, it asks of the fields that the flow stands for. -/
theorem each_linear (each : format.Each demand flow) (isLinear : flow.linear = .ok fields) :
    ∀ field ∈ fields, Field.format.Each demand field := by
  intro field mem
  obtain ⟨node, inShown, isShown⟩ := Node.exists_of_mem_fields isLinear mem
  exact Node.each_field? ((each_iff.1 each).2.1 node (mem_of_mem_shownNodes inShown)) isShown

/-- The fields that a tidy flow stands for are written as before when they come back. -/
theorem listToJson_reread_linear (tidy : format.Each .tidy flow) (isLinear : flow.linear = .ok fields) :
    Field.listToJson (fields.map Field.format.reread) = Field.listToJson fields :=
  Field.listToJson_reread fun field mem =>
    Field.exact_format.finite_of_tidy (each_linear tidy isLinear field mem)

/-- A field that a flow stands for can be read once it was written where it is of a known kind. -/
theorem valid_linear_iff (valid : format.Valid flow) (isLinear : flow.linear = .ok fields)
    {field : Field} (mem : field ∈ fields) :
    Field.format.Valid field ↔ field.kind ∈ FieldKind.known := by
  obtain ⟨node, inShown, isShown⟩ := Node.exists_of_mem_fields isLinear mem
  exact Node.valid_field?_iff (valid_iff.1 valid node (mem_of_mem_shownNodes inShown)) isShown

/-- The fields that a flow stands for are of known kinds where the copies of the kinds in the shown
cards name such. -/
theorem known_linear_iff (valid : format.Valid flow) (isLinear : flow.linear = .ok fields) :
    (∀ field ∈ fields, field.kind ∈ FieldKind.known) ↔ ∀ node ∈ flow.shownNodes, node.KnowsKind := by
  have nodeValid {node : Node} (inShown : node ∈ flow.shownNodes) : Node.format.Valid node :=
    valid_iff.1 valid node (mem_of_mem_shownNodes inShown)
  constructor
  · intro known node inShown
    obtain ⟨field, isShown, inFields⟩ := Node.exists_field?_of_mem isLinear inShown
    exact (Node.known_field?_iff (nodeValid inShown) isShown).1 fun shown isField =>
      known shown (inFields shown isField)
  · intro knows field mem
    obtain ⟨node, inShown, isShown⟩ := Node.exists_of_mem_fields isLinear mem
    exact (Node.known_field?_iff (nodeValid inShown) isShown).2 (knows node inShown) field rfl

/-- Where each node is replaced by one of its identifier, the last one of an identifier is too. -/
theorem lastNode?_of_map {next : Flow} {replace : Node → Node}
    (nodes : next.nodes = flow.nodes.map replace) (id : ∀ node, (replace node).id = node.id)
    (named : Text) : next.lastNode? named = (flow.lastNode? named).map replace := by
  rw [Flow.lastNode?, nodes, ← List.map_reverse, List.find?_map, Flow.lastNode?]
  congr 2
  funext node
  exact congrArg (· == named) (id node)

/-- Where each node is replaced by one of its identifier, and the edges join the same nodes, the nodes of
the linear form are replaced too. -/
theorem shownNodes_of_map {next : Flow} {replace : Node → Node}
    (nodes : next.nodes = flow.nodes.map replace) (id : ∀ node, (replace node).id = node.id)
    (ends : next.ends = flow.ends) : next.shownNodes = flow.shownNodes.map replace := by
  rw [shownNodes, shownNodes, ends, List.map_filterMap]
  exact List.filterMap_congr fun named _ => lastNode?_of_map nodes id named

/-- The nodes of the linear form of a flow that comes back are those that come back. -/
theorem shownNodes_reread (flow : Flow) :
    (format.reread flow).shownNodes = flow.shownNodes.map Node.format.reread := by
  have ends : (format.reread flow).ends = flow.ends := by
    change (flow.edges.map Edge.format.reread).map Edge.ends = flow.edges.map Edge.ends
    rw [List.map_map]
    rfl
  exact shownNodes_of_map rfl Node.id_reread ends

/-- A flow that comes back stands for the fields that come back. -/
theorem linear_reread (isLinear : flow.linear = .ok fields) :
    (format.reread flow).linear = .ok (fields.map Field.format.reread) := by
  rw [linear, shownNodes_reread]
  exact Node.fields_reread isLinear

end Flow

end CardForm
