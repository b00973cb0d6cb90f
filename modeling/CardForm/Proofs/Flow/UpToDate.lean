import CardForm.Proofs.Flow.Dependence
import CardForm.Proofs.Flow.Merge
import CardForm.Proofs.Flow.Readable
import CardForm.Proofs.Flow.Session

/-!
# What bringing the copies up to date changes

The form shows a question as one of the kind that the editor's copy names, and an edit takes that copy from
the field in the question. So what the form shows for a card can change with an edit that is about another
one, in its kind only, and it does exactly where the copy names another kind (`Node.KeepsKind`). The linear
form of a flow with its copies up to date is the one before, with the kinds of the fields in the questions
(`Flow.linear_normalized`), and adding, deleting and reordering change what is shown for the other cards in
no other way (`Flow.shown_after_iff`). There is a flow whose linear form they change
(`Flow.exists_edit_retyped`).
-/
namespace CardForm

namespace QuestionData

/-- The editor's copy of the kind, if there is one, names the kind of the field. -/
def KeepsKind (data : QuestionData) : Prop := ∀ name ∈ data.fieldType, name = data.field.kind.name

/-- The form shows the kind of the field where the copy keeps it. -/
theorem kind_shownField_iff (data : QuestionData) :
    data.shownField.kind = data.field.kind ↔ data.KeepsKind := by
  have kind (name : Text) : FieldKind.mk name = data.field.kind ↔ name = data.field.kind.name :=
    ⟨fun same => same ▸ rfl, fun same => same ▸ rfl⟩
  unfold shownField KeepsKind
  cases data.fieldType with
  | none => exact iff_of_true rfl fun _ none => nomatch none
  | some name => simp [kind]

end QuestionData

namespace Node

variable {node : Node} {nodes : List Node} {field : Field} {fields : List Field}

/-- The editor's copy of the kind in a question, if there is one, names the kind of the field. -/
def KeepsKind : Node → Prop
  | question card => card.data.KeepsKind
  | _ => True

/-- A field that is shown for a node, of the kind of the field in the node where this is a question. -/
def ofOwnKind (node : Node) (shown : Field) : Field :=
  match node with
  | question card => { shown with kind := card.data.field.kind }
  | _ => shown

/-- A question whose copies are up to date shows the kind of its field, and else what it showed before. -/
theorem field?_normalized (node : Node) :
    node.normalized.field? = node.field?.map (Option.map node.ofOwnKind) := by
  have same (outcome : Except Failure (Option Field)) :
      outcome.map (Option.map fun shown => shown) = outcome := by
    cases outcome with
    | error failure => rfl
    | ok shown => exact congrArg Except.ok Option.map_id_apply'
  cases node with
  | start card => rfl
  | finish card => rfl
  | question card => rfl
  | statement card => exact (same (statement card).field?).symm

/-- What is shown for a node is of the kind of the field in it exactly where the copy keeps that. -/
theorem ofOwnKind_eq_self_iff (isShown : node.field? = .ok (some field)) :
    node.ofOwnKind field = field ↔ node.KeepsKind := by
  cases node with
  | start card => cases isShown
  | finish card => cases isShown
  | statement card => exact iff_of_true rfl trivial
  | question card =>
    cases isShown
    rw [KeepsKind, ← QuestionData.kind_shownField_iff]
    constructor
    · exact fun same => (congrArg Field.kind same).symm
    · intro sameKind
      show { card.data.shownField with kind := card.data.field.kind } = card.data.shownField
      rw [← sameKind]

/-- A node that is not listed has no copy of a kind. -/
theorem keepsKind_of_not_isListed (notListed : ¬node.isListed = true) : node.KeepsKind := by
  cases node with
  | question card => exact absurd rfl notListed
  | _ => trivial

/-- The fields for some nodes with their copies up to date are those from before, each of the kind of the
field in its node; and where these fail, they fail alike. -/
theorem fields_map_normalized (nodes : List Node) :
    Node.fields (nodes.map normalized) =
      (Node.fields nodes).map (List.zipWith ofOwnKind (nodes.filter isListed)) := by
  induction nodes with
  | nil => rfl
  | cons node rest ih =>
    rw [List.map_cons, Node.fields, Node.fields, field?_normalized, ih]
    cases isShown : node.field? with
    | error failure => rfl
    | ok first =>
      have listed := isListed_eq_isSome isShown
      cases Node.fields rest with
      | error failure => rfl
      | ok others =>
        cases first with
        | none =>
          rw [List.filter_cons_of_neg (by simp [listed])]
          rfl
        | some field =>
          rw [List.filter_cons_of_pos listed]
          rfl

/-- Where some nodes show some fields, these are all of the kinds of the fields in the nodes exactly where
the copies keep the kinds. -/
theorem zipWith_ofOwnKind_eq_iff
    (shows : List.Forall₂ (fun node field => node.field? = .ok (some field)) nodes fields) :
    List.zipWith ofOwnKind nodes fields = fields ↔ ∀ node ∈ nodes, node.KeepsKind := by
  induction shows with
  | nil => exact iff_of_true rfl fun _ none => nomatch none
  | cons isShown _ ih =>
    rw [List.zipWith_cons_cons, List.cons.injEq, ofOwnKind_eq_self_iff isShown, ih,
      List.forall_mem_cons]

end Node

namespace Flow

variable {flow next : Flow} {node other : Node} {fields : List Field} {step : Step}

/-- The nodes of a flow with its copies up to date are shown in the same order. -/
theorem shownNodes_normalized (flow : Flow) :
    flow.normalized.shownNodes = flow.shownNodes.map Node.normalized :=
  shownNodes_of_map rfl Node.id_normalized rfl

/-- A flow with its copies up to date stands for the fields from before, each of the kind of the field in
its node, or fails as before. -/
theorem linear_normalized (flow : Flow) : flow.normalized.linear =
    flow.linear.map (List.zipWith Node.ofOwnKind (flow.shownNodes.filter Node.isListed)) := by
  rw [linear, shownNodes_normalized]
  exact Node.fields_map_normalized flow.shownNodes

/-- A flow stands for the same fields with its copies up to date exactly where each node that is shown
keeps its kind. -/
theorem linear_normalized_eq_iff (isLinear : flow.linear = .ok fields) :
    flow.normalized.linear = .ok fields ↔ ∀ node ∈ flow.shownNodes, node.KeepsKind := by
  have listed : (∀ node ∈ flow.shownNodes.filter Node.isListed, node.KeepsKind) ↔
      ∀ node ∈ flow.shownNodes, node.KeepsKind := by
    constructor
    · intro keeps node mem
      by_cases isListed : node.isListed = true
      · exact keeps node (List.mem_filter.2 ⟨mem, isListed⟩)
      · exact Node.keepsKind_of_not_isListed isListed
    · exact fun keeps node mem => keeps node (List.mem_filter.1 mem).1
  rw [linear_normalized, isLinear, Except.map, Except.ok.injEq,
    Node.zipWith_ofOwnKind_eq_iff (Node.forall₂_fields isLinear), listed]

/-! ## Edits -/

/-- The steps that bring all copies up to date, and else add a card, take one away or join the cards
anew. -/
def Step.BringsUpToDate : Step → Prop
  | .add _ _ _ => True
  | .delete id => id ≠ startId ∧ id ≠ endId
  | .reorder _ => True
  | .normalize => True
  | _ => False

/-- After such a step each node that was there before is the old one with its copies up to date. -/
theorem Wired.eq_normalized_of_changed (wired : flow.Wired) (brings : step.BringsUpToDate)
    (changes : flow.changed step = .ok next) (mem : node ∈ flow.nodes) (otherMem : other ∈ next.nodes)
    (same : other.id = node.id) : other = node.normalized := by
  have ofOld (inOld : other ∈ flow.nodes.map Node.normalized) : other = node.normalized := by
    obtain ⟨old, oldMem, rfl⟩ := List.mem_map.1 inOld
    rw [Node.id_normalized] at same
    rw [List.inj_on_of_nodup_map wired.distinct oldMem mem same]
  cases step with
  | add card wanted randomDigits =>
    obtain ⟨free, y, new, isNew, rfl⟩ := wired.exists_of_addWithId changes
    rcases List.mem_append.1 otherMem with inOld | isLast
    · exact ofOld inOld
    · have newId : other.id = newId wanted randomDigits := by
        rw [List.mem_singleton.1 isLast]
        exact (id_and_isContent_of_newNode isNew).1
      exact absurd (newId ▸ same ▸ List.mem_map_of_mem mem) free
  | delete id =>
    cases changes
    rw [Flow.delete, if_neg (not_or.2 brings)] at otherMem
    obtain ⟨old, kept, rfl⟩ := List.mem_map.1 otherMem
    exact ofOld (List.mem_map_of_mem (List.mem_of_mem_filter kept))
  | reorder order =>
    cases changes
    exact ofOld otherMem
  | normalize =>
    cases changes
    exact ofOld otherMem
  | _ => exact brings.elim

/-- A flow that was loaded stands for the same fields with its copies up to date, but for their kinds:
these are the ones of the fields in the questions that are shown, so the fields are the same exactly where
no copy of a kind differs. Adding, deleting and reordering change what is shown for a card that stays in
no other way; taking away the start or the end changes nothing. -/
theorem shown_after_iff {value : Json} (loads : load value = .ok flow) :
    flow.normalized.linear =
        flow.linear.map (List.zipWith Node.ofOwnKind (flow.shownNodes.filter Node.isListed)) ∧
      (∀ fields, flow.linear = .ok fields →
        (flow.normalized.linear = .ok fields ↔ ∀ node ∈ flow.shownNodes, node.KeepsKind)) ∧
      (∀ id, id = startId ∨ id = endId → flow.delete id = flow) ∧
      ∀ step next, step.BringsUpToDate → flow.changed step = .ok next →
        ∀ node ∈ flow.nodes, ∀ other ∈ next.nodes, other.id = node.id →
          other.field? = node.field?.map (Option.map node.ofOwnKind) ∧
            ∀ field, node.field? = .ok (some field) →
              (other.field? = .ok (some field) ↔ node.KeepsKind) := by
  refine ⟨linear_normalized flow, fun fields isLinear => linear_normalized_eq_iff isLinear, ?_, ?_⟩
  · intro id reserved
    rw [Flow.delete, if_pos reserved]
  · intro step next brings changes node mem other otherMem same
    have wired := (sound_of_load loads).wired
    rw [wired.eq_normalized_of_changed brings changes mem otherMem same, Node.field?_normalized]
    refine ⟨rfl, fun field isShown => ?_⟩
    rw [isShown, Except.map, Option.map_some, Except.ok.injEq, Option.some.injEq,
      Node.ofOwnKind_eq_self_iff isShown]

/-- The payload of a text question whose copy names the kind of long texts. -/
def lengthened : QuestionData where
  field := .bare "q"
  fieldId := some "q"
  label := some "q"
  fieldType := some "textarea"

/-- A chain through that question is loaded. -/
theorem load_lengthened :
    load (posedJson [("fieldId", .str "q"), ("label", .str "q"), ("fieldType", .str "textarea")]) =
      .ok (posed lengthened) :=
  load_eq_ok_iff.2 ⟨defects_posedJson _, rfl⟩

/-- That question with its copies up to date is shown as a text question. -/
theorem linear_lengthened (upToDate : Flow)
    (isNormalized : upToDate = posed { lengthened with fieldType := some "text" }) :
    upToDate.linear = .ok [.bare "q"] ∧ upToDate.linear ≠ .ok [lengthened.shownField] := by
  have isLinear : upToDate.linear = .ok [.bare "q"] := by
    rw [isNormalized]
    exact linear_posed { lengthened with fieldType := some "text" }
  have differs : ¬[Field.bare "q"] = [lengthened.shownField] := by
    intro same
    exact absurd (congrArg (List.map Field.kind) same) (by decide)
  exact ⟨isLinear, fun shown => differs (Except.ok.inj (isLinear.symm.trans shown))⟩

/-- A statement that is added behind that question makes it a text question. -/
theorem shown_after_lengthened :
    (¬∀ node ∈ (posed lengthened).shownNodes, node.KeepsKind) ∧
      ∃ next, (posed lengthened).changed (.add .statement "s" "") = .ok next ∧
        ∃ other ∈ next.nodes, other.id = "q" ∧ other.field? = .ok (some (.bare "q")) := by
  obtain ⟨_, unchanged, _, edits⟩ := shown_after_iff load_lengthened
  let old : Node := .question ⟨"q", inColumn (.int firstY), lengthened, []⟩
  have inOld : old ∈ (posed lengthened).nodes := .tail _ List.mem_cons_self
  constructor
  · rw [← unchanged _ (linear_posed lengthened)]
    exact (linear_lengthened _ rfl).2
  · refine ⟨_, rfl, old.normalized, .tail _ List.mem_cons_self, rfl, ?_⟩
    exact (edits (.add .statement "s" "") _ trivial rfl old inOld old.normalized
      (.tail _ List.mem_cons_self) rfl).1

/-- Bringing the copies up to date changes the linear form of a flow that was loaded, and so does deleting
a card that it does not have. -/
theorem exists_edit_retyped :
    ∃ value flow fields, load value = .ok flow ∧ flow.linear = .ok fields ∧
      flow.normalized.linear ≠ .ok fields ∧
      ("ghost" : Text) ∉ flow.ids ∧ (flow.delete "ghost").linear ≠ .ok fields :=
  ⟨_, posed lengthened, [lengthened.shownField], load_lengthened, linear_posed lengthened,
    (linear_lengthened _ rfl).2, by decide, (linear_lengthened _ rfl).2⟩

end Flow

end CardForm
