import CardForm.Flow.Check
import CardForm.Proofs.Flow.Reach
import CardForm.Proofs.Text
import Mathlib.Logic.ExistsUnique

/-!
# What the check of a flow decides

`Flow.WellStructured` says of a JSON value, in terms of its keys alone, that it has the structure of
a flow. The check lists no defect exactly of such a value (`Flow.defects_eq_nil_iff`). Beyond that
each entry answers for itself: a defect is listed at the place of a node exactly where that node
breaks a rule or bears the identifier of an earlier one, and at the place of an edge exactly where
that edge breaks a rule.
-/
namespace CardForm.Flow

/-! ## The rules -/

/-- A value is an object with a text under a key. -/
def HasText (value : Json) (key : Text) : Prop := ∃ text, value.get? key = some (.str text)

/-- A value is an object with a text under a key that is not empty. -/
def HasName (value : Json) (key : Text) : Prop :=
  ∃ text, value.get? key = some (.str text) ∧ text ≠ []

/-- A value is an object with a number under a key. -/
def HasNumber (value : Json) (key : Text) : Prop := ∃ n, value.get? key = some (.num n)

/-- A value is an object whose type is that of a kind of nodes. -/
def HasKind (kind : NodeKind) (node : Json) : Prop := node.get? "type" = some (.str kind.word)

/-- What is asked of the field of a question. -/
structure FieldRules (field : Json) : Prop where
  /-- It has an identifier. -/
  id : HasName field "id"
  /-- It is of one of the known kinds. -/
  kind : ∃ kind ∈ FieldKind.known, field.get? "type" = some (.str kind.name)
  /-- It has a label. -/
  label : HasText field "label"
  /-- If it is of a kind that has options, these are null or an array. -/
  options : ∀ kind ∈ FieldKind.withOptions, field.get? "type" = some (.str kind.name) →
    ∀ options, field.get? "options" = some options → options = .null ∨ ∃ items, options = .arr items

/-- What is asked of the payload of a statement. -/
structure StatementRules (data : Json) : Prop where
  /-- It names its field. -/
  fieldId : HasText data "fieldId"
  /-- It has a text. -/
  text : HasText data "statementText"
  /-- It has a label. -/
  label : HasText data "label"

/-- What is asked of a node by itself. -/
structure NodeRules (node : Json) : Prop where
  /-- It has an identifier. -/
  id : HasName node "id"
  /-- It is of one of the four kinds. -/
  kind : ∃ kind, HasKind kind node
  /-- It has a position with two numbers. -/
  position : ∃ position, node.get? "position" = some position ∧ HasNumber position "x" ∧
    HasNumber position "y"
  /-- A question has a field. -/
  question : HasKind .question node →
    ∃ data field, node.get? "data" = some data ∧ data.get? "field" = some field ∧ FieldRules field
  /-- A statement has a payload. -/
  statement : HasKind .statement node → ∃ data, node.get? "data" = some data ∧ StatementRules data

/-- A node among others bears the identifier of an earlier one. -/
def Repeats (nodes : List Json) (place : Nat) : Prop :=
  ∃ earlier id, earlier < place ∧ id ≠ [] ∧
    (nodes[earlier]?.bind (·.get? "id")) = some (.str id) ∧
    (nodes[place]?.bind (·.get? "id")) = some (.str id)

/-- Some node bears an identifier. -/
def Names (nodes : List Json) (id : Text) : Prop :=
  id ≠ [] ∧ ∃ node ∈ nodes, node.get? "id" = some (.str id)

/-- What is asked of an edge between some nodes. -/
structure EdgeRules (nodes : List Json) (edge : Json) : Prop where
  /-- It leaves one of the nodes. -/
  source : ∃ source, edge.get? "source" = some (.str source) ∧ Names nodes source
  /-- It enters one of the nodes. -/
  target : ∃ target, edge.get? "target" = some (.str target) ∧ Names nodes target

/-- One of some edges leads from a node to another. -/
def Joins (edges : List Json) (a b : Text) : Prop :=
  ∃ edge ∈ edges, edge.get? "source" = some (.str a) ∧ edge.get? "target" = some (.str b)

/-- Exactly one entry of a list has a property. -/
def ExactlyOne {α : Type} (holds : α → Prop) (entries : List α) : Prop :=
  ∃! place : Nat, ∃ entry ∈ entries[place]?, holds entry

/-- Some nodes and edges have the structure of a flow. -/
structure Structured (nodes edges : List Json) : Prop where
  /-- Each node keeps the rules. -/
  node : ∀ node ∈ nodes, NodeRules node
  /-- The identifiers of the nodes are pairwise distinct. -/
  distinct : (nodes.map (·.get? "id")).Nodup
  /-- Exactly one node is a start. -/
  oneStart : ExactlyOne (HasKind .start) nodes
  /-- A start bears its reserved identifier. -/
  start : ∀ node ∈ nodes, HasKind .start node → node.get? "id" = some (.str startId)
  /-- Exactly one node is an end. -/
  oneEnd : ExactlyOne (HasKind .finish) nodes
  /-- An end bears its reserved identifier. -/
  finish : ∀ node ∈ nodes, HasKind .finish node → node.get? "id" = some (.str endId)
  /-- Each edge keeps the rules. -/
  edge : ∀ edge ∈ edges, EdgeRules nodes edge
  /-- Edges, one after the other, lead from the start to the end. -/
  path : Relation.ReflTransGen (Joins edges) startId endId

/-- A value has the structure of a flow. -/
def WellStructured (value : Json) : Prop :=
  ∃ nodes edges, value.get? "nodes" = some (.arr nodes) ∧ value.get? "edges" = some (.arr edges) ∧
    Structured nodes edges

end CardForm.Flow

namespace CardForm.Check

open CardForm.Flow

variable {value node edge field data : Json} {key text id : Text} {kind : NodeKind} {place : Nat}
  {nodes edges : List Json} {seen ids : List Text}

/-! ## Keys -/

/-- A value under a key that is not null is there. -/
theorem get_eq_iff {part : Json} (notNull : part ≠ .null) :
    value.get key = part ↔ value.get? key = some part := by
  unfold Json.get
  cases value.get? key with
  | none => simp [notNull.symm]
  | some found => simp

/-- What holds of null holds of the value under a key where it holds of it, if it is there. -/
theorem forall_get?_iff (holds : Json → Prop) (null : holds .null) :
    (∀ part, value.get? key = some part → holds part) ↔ holds (value.get key) := by
  unfold Json.get
  cases value.get? key <;> simp [null]

/-- The text of a key. -/
theorem text?_eq_some_iff : text? value key = some text ↔ value.get? key = some (.str text) := by
  rw [← get_eq_iff (by simp)]
  unfold text?
  split <;> simp_all

/-- A key has a text where the check finds one. -/
theorem isSome_text?_iff : (text? value key).isSome = true ↔ HasText value key := by
  rw [Option.isSome_iff_exists]
  simp only [text?_eq_some_iff, HasText]

/-- The identifier of a node. -/
theorem nodeId?_eq_some_iff : nodeId? node = some id ↔ node.get? "id" = some (.str id) ∧ id ≠ [] := by
  simp [nodeId?, Option.filter_eq_some_iff, text?_eq_some_iff]

/-- A node has an identifier where the check finds one. -/
theorem isSome_nodeId?_iff : (nodeId? node).isSome = true ↔ HasName node "id" := by
  rw [Option.isSome_iff_exists]
  simp only [nodeId?_eq_some_iff, HasName]

/-- The kind of a node. -/
theorem nodeKind?_eq_some_iff : nodeKind? node = some kind ↔ HasKind kind node := by
  rw [nodeKind?, NodeKind.ofJson?_eq_some_iff, get_eq_iff (by simp), HasKind]

/-- The check finds a kind where the node has it. -/
theorem hasKind_iff : hasKind kind node = true ↔ HasKind kind node := by
  rw [hasKind, beq_iff_eq, nodeKind?_eq_some_iff]

/-- A node has one kind at most. -/
theorem hasKind_unique {other : NodeKind} (first : HasKind kind node) (second : HasKind other node) :
    kind = other :=
  Option.some.inj ((nodeKind?_eq_some_iff.2 first).symm.trans (nodeKind?_eq_some_iff.2 second))

/-- A key has a number where the check finds one. -/
theorem hasNumber_iff : hasNumber value key = true ↔ HasNumber value key := by
  have found (n : Number) : value.get key = .num n ↔ value.get? key = some (.num n) :=
    get_eq_iff (by simp)
  unfold HasNumber
  simp only [← found]
  unfold hasNumber
  split
  · rename_i n same
    exact iff_of_true rfl ⟨n, same⟩
  · rename_i noNumber
    exact iff_of_false Bool.false_ne_true fun ⟨n, same⟩ => noNumber n same

/-- A defect is listed unless all is well. -/
theorem expect_eq_nil_iff {holds : Bool} {defect : Defect} :
    expect holds defect = [] ↔ holds = true := by
  cases holds <;> simp [expect]

/-! ## Nodes -/

/-- The position of a node is in order where it has two numbers. -/
theorem isPosition_iff :
    isPosition value = true ↔ HasNumber value "x" ∧ HasNumber value "y" := by
  rw [isPosition, Bool.and_eq_true, hasNumber_iff, hasNumber_iff]

/-- The kind of a field is in order where it is a known one. -/
theorem fieldKindDefects_eq_nil_iff :
    fieldKindDefects place field = [] ↔
      ∃ kind ∈ FieldKind.known, field.get? "type" = some (.str kind.name) := by
  unfold fieldKindDefects
  simp only [← text?_eq_some_iff]
  cases text? field "type" with
  | none => simp
  | some name =>
    rw [expect_eq_nil_iff, List.contains_iff_mem]
    constructor
    · intro mem
      exact ⟨⟨name⟩, mem, rfl⟩
    · rintro ⟨kind, mem, same⟩
      rw [Option.some.inj same]
      exact mem

/-- Whether a kind has options is told by its name. -/
theorem contains_withOptions_iff :
    FieldKind.withOptions.contains ⟨text⟩ = true ↔
      ∃ kind ∈ FieldKind.withOptions, text = kind.name := by
  rw [List.contains_iff_mem]
  constructor
  · intro mem
    exact ⟨⟨text⟩, mem, rfl⟩
  · rintro ⟨kind, mem, rfl⟩
    exact mem

/-- The options of a field are in order where they are null or an array, or the kind of the field
has none. -/
theorem optionDefects_eq_nil_iff :
    optionDefects place field = [] ↔
      ∀ kind ∈ FieldKind.withOptions, field.get? "type" = some (.str kind.name) →
        ∀ options, field.get? "options" = some options →
          options = .null ∨ ∃ items, options = .arr items := by
  have atKey : (∀ options, field.get? "options" = some options →
      options = .null ∨ ∃ items, options = .arr items) ↔
        (field.get "options" = .null ∨ ∃ items, field.get "options" = .arr items) :=
    forall_get?_iff (fun options => options = .null ∨ ∃ items, options = .arr items) (.inl rfl)
  simp only [atKey, ← text?_eq_some_iff]
  have other {name : Text} (hasType : text? field "type" = some name)
      (wrong : ¬(field.get "options" = .null ∨ ∃ items, field.get "options" = .arr items)) :
      expect (!FieldKind.withOptions.contains ⟨name⟩) (.fieldOptions place name) = [] ↔
        ∀ kind ∈ FieldKind.withOptions, text? field "type" = some kind.name →
          field.get "options" = .null ∨ ∃ items, field.get "options" = .arr items := by
    rw [expect_eq_nil_iff, Bool.not_eq_true', ← Bool.not_eq_true, contains_withOptions_iff]
    simp [hasType, wrong]
  unfold optionDefects
  split
  · rename_i noType
    simp [noType]
  · rename_i null
    simp [null]
  · rename_i array
    simp [array]
  · rename_i name hasType notNull notArray
    exact other hasType (by rintro (null | ⟨items, array⟩) <;> simp_all)

/-- The field of a question is in order where it keeps the rules. -/
theorem questionDefects_eq_nil_iff :
    questionDefects place data = [] ↔
      ∃ field, data.get? "field" = some field ∧ FieldRules field := by
  have isObject {field : Json} (rules : FieldRules field) : ∃ members, field = .obj members := by
    obtain ⟨text, found, _⟩ := rules.id
    cases field <;> simp [Json.get?] at found ⊢
  unfold questionDefects
  split
  · rename_i members found
    rw [get_eq_iff (by simp)] at found
    simp only [List.append_eq_nil_iff, expect_eq_nil_iff, isSome_nodeId?_iff, isSome_text?_iff,
      fieldKindDefects_eq_nil_iff, optionDefects_eq_nil_iff, found, Option.some.injEq,
      exists_eq_left']
    constructor
    · rintro ⟨⟨⟨id, kind⟩, label⟩, options⟩
      exact ⟨id, kind, label, options⟩
    · rintro ⟨id, kind, label, options⟩
      exact ⟨⟨⟨id, kind⟩, label⟩, options⟩
  · rename_i noObject
    simp only [reduceCtorEq, false_iff]
    rintro ⟨field, found, rules⟩
    obtain ⟨members, rfl⟩ := isObject rules
    exact noObject members ((get_eq_iff (by simp)).2 found)

/-- The payload of a statement is in order where it keeps the rules. -/
theorem statementDefects_eq_nil_iff : statementDefects place data = [] ↔ StatementRules data := by
  simp only [statementDefects, List.append_eq_nil_iff, expect_eq_nil_iff, isSome_text?_iff]
  constructor
  · rintro ⟨⟨fieldId, text⟩, label⟩
    exact ⟨fieldId, text, label⟩
  · rintro ⟨fieldId, text, label⟩
    exact ⟨⟨fieldId, text⟩, label⟩

/-- A rule that asks of null what cannot be asks of a key that its value is there. -/
theorem exists_get?_iff (holds : Json → Prop) (null : ¬holds .null) :
    (∃ part, value.get? key = some part ∧ holds part) ↔ holds (value.get key) := by
  unfold Json.get
  cases value.get? key <;> simp [null]

/-- The payload of a node is in order where it keeps the rules of the kind of the node. -/
theorem payloadDefects_eq_nil_iff :
    payloadDefects place node = [] ↔
      (HasKind .question node → ∃ data field, node.get? "data" = some data ∧
        data.get? "field" = some field ∧ FieldRules field) ∧
      (HasKind .statement node → ∃ data, node.get? "data" = some data ∧ StatementRules data) := by
  have question : (∃ data field, node.get? "data" = some data ∧ data.get? "field" = some field ∧
      FieldRules field) ↔ questionDefects place (node.get "data") = [] := by
    rw [questionDefects_eq_nil_iff, ← exists_get?_iff
      (fun data => ∃ field, data.get? "field" = some field ∧ FieldRules field)
      (by simp [Json.get?])]
    simp only [exists_and_left]
  have statement : (∃ data, node.get? "data" = some data ∧ StatementRules data) ↔
      statementDefects place (node.get "data") = [] := by
    rw [statementDefects_eq_nil_iff, exists_get?_iff StatementRules]
    rintro ⟨⟨text, found⟩, _, _⟩
    simp [Json.get?] at found
  unfold payloadDefects
  rw [question, statement, ← nodeKind?_eq_some_iff, ← nodeKind?_eq_some_iff]
  split <;> simp_all

/-- The identifier of a node is in order where it has one that was not seen. -/
theorem idDefects_eq_nil_iff :
    idDefects seen place node = [] ↔
      HasName node "id" ∧ ∀ id, nodeId? node = some id → id ∉ seen := by
  unfold idDefects
  rw [← isSome_nodeId?_iff]
  cases nodeId? node with
  | none => simp
  | some id => simp [expect_eq_nil_iff]

/-- A node is in order where it keeps the rules and its identifier was not seen. -/
theorem nodeDefects_eq_nil_iff :
    nodeDefects seen place node = [] ↔
      NodeRules node ∧ ∀ id, nodeId? node = some id → id ∉ seen := by
  unfold nodeDefects
  split
  · rename_i members
    have position : (∃ position, (Json.obj members).get? "position" = some position ∧
        HasNumber position "x" ∧ HasNumber position "y") ↔
          isPosition ((Json.obj members).get "position") = true := by
      rw [isPosition_iff,
        exists_get?_iff fun position => HasNumber position "x" ∧ HasNumber position "y"]
      rintro ⟨⟨n, found⟩, _⟩
      simp [Json.get?] at found
    have kind : (nodeKind? (.obj members)).isSome = true ↔ ∃ kind, HasKind kind (.obj members) := by
      rw [Option.isSome_iff_exists]
      simp only [nodeKind?_eq_some_iff]
    simp only [List.append_eq_nil_iff, expect_eq_nil_iff, idDefects_eq_nil_iff, kind, ← position,
      payloadDefects_eq_nil_iff]
    constructor
    · rintro ⟨⟨⟨⟨id, fresh⟩, kind⟩, position⟩, question, statement⟩
      exact ⟨⟨id, kind, position, question, statement⟩, fresh⟩
    · rintro ⟨⟨id, kind, position, question, statement⟩, fresh⟩
      exact ⟨⟨⟨⟨id, fresh⟩, kind⟩, position⟩, question, statement⟩
  · rename_i noObject
    simp only [reduceCtorEq, false_iff, not_and]
    intro rules
    obtain ⟨id, found, _⟩ := rules.id
    cases node with
    | obj members => exact absurd rfl (noObject members)
    | _ => simp [Json.get?] at found

end CardForm.Check
