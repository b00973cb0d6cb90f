import CardForm.Proofs.Flow.Merge
import CardForm.Proofs.Template.Store

/-!
# Opening a form that was saved

Saving lists for each card the field that it holds; opening gives each card the content that the
stored list has last under the identifier that the card's copy names. The opened flow stands for as
many fields as are stored, and for the same ones exactly where each card shows the content that it is
given (`Record.opened_fields_iff`). That is so where no identifier is stored twice and the copies are up
to date. A copy that names the field of another card gives its card that field
(`Record.exists_opened_changed`).
-/
namespace CardForm

/-- A payload with the content of another field is shown as before where its text and its label are
the same. -/
theorem StatementData.toJson_shownField_withField_iff {data : StatementData} {entry : Field} :
    (data.withField entry).shownField.toJson = data.shownField.toJson ↔
      entry.label = data.text ∧ entry.placeholder.getD entry.label = data.label := by
  constructor
  · intro same
    have label : some (Json.str entry.label) = some (.str data.text) :=
      congrArg (·.get? "label") same
    have placeholder : some (Json.str (entry.placeholder.getD entry.label)) = some (.str data.label) :=
      congrArg (·.get? "placeholder") same
    exact ⟨Json.str.inj (Option.some.inj label), Json.str.inj (Option.some.inj placeholder)⟩
  · rintro ⟨label, placeholder⟩
    have unchanged : data.withField entry = data := by
      rw [withField, placeholder, label]
    rw [unchanged]

namespace Node

variable {node : Node} {fields : List Field} {entry : Field}

/-! ## What opening gives a card -/

/-- A node shows the content that it is given: a question the whole field, apart from the media that
the card has of its own, and a statement its text and its label. -/
def Fits (fields : List Field) : Node → Prop
  | question card => ∀ entry ∈ (question card).given? fields,
    Field.toJson { entry with media := card.data.media.or entry.media } =
      card.data.shownField.toJson
  | statement card => card.data.isSuccessCard = false →
    ∀ entry ∈ (statement card).given? fields, entry.isStatement = true →
      entry.label = card.data.text ∧ entry.placeholder.getD entry.label = card.data.label
  | _ => True

/-- A node that shows a field shows one after it was given its content, and the same one exactly where it
fits; a node that shows none still shows none. -/
def ShowsAgain (fields : List Field) (shown : Option Field) (node : Node) : Prop :=
  ∃ opened, (node.merged fields).field? = .ok opened ∧
    opened.toList.length = shown.toList.length ∧
    (opened.toList.map Field.toJson = shown.toList.map Field.toJson ↔ node.Fits fields)

/-- A node that is left alone shows what it did. -/
theorem showsAgain_of_merged_eq {shown : Option Field} (isShown : node.field? = .ok shown)
    (unchanged : node.merged fields = node) (fits : node.Fits fields) :
    node.ShowsAgain fields shown := by
  refine ⟨shown, ?_, rfl, iff_of_true rfl fits⟩
  rw [unchanged]
  exact isShown

/-- A question shows a field after it was given one. -/
theorem showsAgain_question {card : Card QuestionData}
    (isGiven : (question card).given? fields = some entry) :
    (question card).ShowsAgain fields (some card.data.shownField) := by
  refine ⟨_, field?_merged_question isGiven, rfl, ?_⟩
  rw [Option.toList_some, Option.toList_some, List.map_singleton, List.map_singleton,
    List.singleton_inj]
  constructor
  · intro same other mem
    cases isGiven.symm.trans mem
    exact same
  · exact fun fits => fits entry isGiven

/-- A statement shows a field after it was given one, where it showed one before. -/
theorem showsAgain_statement {card : Card StatementData} {shown : Option Field}
    (isShown : (statement card).field? = .ok shown)
    (isGiven : (statement card).given? fields = some entry) :
    (statement card).ShowsAgain fields shown := by
  have fitsIff : (statement card).Fits fields ↔ (card.data.isSuccessCard = false →
      entry.isStatement = true →
        entry.label = card.data.text ∧ entry.placeholder.getD entry.label = card.data.label) := by
    constructor
    · exact fun fits noSuccess isStatement => fits noSuccess entry isGiven isStatement
    · intro same noSuccess other mem isStatement
      cases isGiven.symm.trans mem
      exact same noSuccess isStatement
  unfold ShowsAgain
  rw [fitsIff, merged_statement isGiven]
  -- A field of another kind is not taken over, and a success card shows nothing: both stay as they are.
  by_cases isStatement : entry.isStatement = true
  · rw [if_pos isStatement]
    rcases field?_statement_eq_ok_iff.1 isShown with ⟨success, rfl⟩ | ⟨noSuccess, name, rfl⟩
    · refine ⟨none, field?_statement_eq_ok_iff.2 (.inl ⟨success, rfl⟩), rfl, ?_⟩
      exact iff_of_true rfl fun noSuccess => absurd success (Bool.not_eq_true _ ▸ noSuccess)
    · refine ⟨_, field?_statement_eq_ok_iff.2 (.inr ⟨noSuccess, name, rfl⟩), rfl, ?_⟩
      rw [Option.toList_some, Option.toList_some, List.map_singleton, List.map_singleton,
        List.singleton_inj, StatementData.toJson_shownField_withField_iff]
      simp only [noSuccess, isStatement, true_implies]
  · rw [if_neg isStatement]
    exact ⟨shown, isShown, rfl, iff_of_true rfl fun _ isIt => absurd isIt isStatement⟩

/-- What a node shows after it was given its content, if it showed something before. -/
theorem showsAgain_of_field? (fields : List Field) {shown : Option Field}
    (isShown : node.field? = .ok shown) : node.ShowsAgain fields shown := by
  cases node with
  | start card => exact showsAgain_of_merged_eq isShown rfl trivial
  | finish card => exact showsAgain_of_merged_eq isShown rfl trivial
  | question card =>
    cases isGiven : (question card).given? fields with
    | none =>
      exact showsAgain_of_merged_eq isShown (merged_of_given?_eq_none isGiven)
        fun entry mem => nomatch isGiven.symm.trans mem
    | some entry =>
      cases isShown
      exact showsAgain_question isGiven
  | statement card =>
    cases isGiven : (statement card).given? fields with
    | none =>
      exact showsAgain_of_merged_eq isShown (merged_of_given?_eq_none isGiven)
        fun _ entry mem => nomatch isGiven.symm.trans mem
    | some entry => exact showsAgain_statement isShown isGiven

/-- Some nodes show as many fields after they were given their content as before, and the same ones
where each of them fits. -/
theorem exists_fields_merged (fields : List Field) {nodes : List Node} {shown : List Field}
    (areShown : Node.fields nodes = .ok shown) :
    ∃ opened, Node.fields (nodes.map (Node.merged fields)) = .ok opened ∧
      opened.length = shown.length ∧
      (opened.map Field.toJson = shown.map Field.toJson ↔ ∀ node ∈ nodes, node.Fits fields) := by
  induction nodes generalizing shown with
  | nil =>
    cases areShown
    exact ⟨[], rfl, rfl, iff_of_true rfl fun _ mem => absurd mem List.not_mem_nil⟩
  | cons node rest ih =>
    obtain ⟨first, others, isFirst, areOthers, rfl⟩ := fields_cons_eq_ok_iff.1 areShown
    obtain ⟨openedFirst, isOpened, firstLength, firstIff⟩ := showsAgain_of_field? fields isFirst
    obtain ⟨openedOthers, areOpened, othersLength, othersIff⟩ := ih areOthers
    refine ⟨openedFirst.toList ++ openedOthers,
      fields_cons_eq_ok_iff.2 ⟨_, _, isOpened, areOpened, rfl⟩, ?_, ?_⟩
    · rw [List.length_append, List.length_append, firstLength, othersLength]
    · rw [List.forall_mem_cons, ← firstIff, ← othersIff, List.map_append, List.map_append]
      constructor
      · intro same
        exact List.append_inj same (by rw [List.length_map, List.length_map, firstLength])
      · rintro ⟨sameFirst, sameOthers⟩
        rw [sameFirst, sameOthers]

end Node

/-- A flow stands for as many fields after its nodes were given their content as before, and for the same
ones where each shown node fits. -/
theorem Flow.exists_linear_merge {flow : Flow} (fields : List Field) {shown : List Field}
    (isLinear : flow.linear = .ok shown) :
    ∃ opened, (flow.merge fields).linear = .ok opened ∧ opened.length = shown.length ∧
      (opened.map Field.toJson = shown.map Field.toJson ↔
        ∀ node ∈ flow.shownNodes, node.Fits fields) := by
  have shownNodes : (flow.merge fields).shownNodes = flow.shownNodes.map (Node.merged fields) :=
    shownNodes_of_map rfl (Node.id_merged fields) rfl
  rw [linear, shownNodes]
  exact Node.exists_fields_merged fields isLinear

/-! ## Cards that fit -/

/-- The copy of the identifier in a question, if it is there and not empty, is up to date. -/
def Node.Current : Node → Prop
  | .question card => ∀ id ∈ card.data.fieldId, id = [] ∨ id = card.data.field.id
  | _ => True

/-- A node whose copies are up to date names the field that it holds. -/
theorem Node.current_of_normalized {node : Node} (upToDate : node.normalized = node) :
    node.Current := by
  cases node with
  | question card =>
    intro id isCopy
    rw [(copies_of_normalized upToDate).1] at isCopy
    exact .inr (Option.some.inj isCopy).symm
  | _ => trivial

section Fitting

variable {entries shown : List Field} {entry field : Field}

/-- Among fields of distinct identifiers, written as others are, the one that bears the identifier of
another is written as that one. -/
theorem Field.toJson_eq_of_last? (distinct : (entries.map Field.id).Nodup)
    (same : entries.map Field.toJson = shown.map Field.toJson) (mem : field ∈ shown)
    (isLast : Field.last? entries field.id = some entry) : entry.toJson = field.toJson := by
  have written : field.toJson ∈ entries.map Field.toJson := same ▸ List.mem_map_of_mem mem
  obtain ⟨other, otherMem, sameJson⟩ := List.mem_map.1 written
  have otherId : some (Json.str other.id) = some (.str field.id) := congrArg (·.get? "id") sameJson
  have sameId : entry.id = field.id := Field.id_of_last? isLast
  have isEntry : other = entry :=
    List.inj_on_of_nodup_map distinct otherMem (Field.mem_of_last? isLast)
      ((Json.str.inj (Option.some.inj otherId)).trans sameId.symm)
  exact isEntry ▸ sameJson

/-- A field that is written as the one that a question shows is still so with the media of the question in
place of its own. -/
theorem QuestionData.toJson_shownField_of_eq {data : QuestionData}
    (entryKept : Field.format.Each .kept entry) (kept : Field.format.Each .kept data.shownField)
    (same : entry.toJson = data.shownField.toJson) :
    Field.toJson { entry with media := data.media.or entry.media } = data.shownField.toJson := by
  have sameMedia := Field.media_eq_of_toJson_eq entryKept kept same
  rw [← same]
  refine Field.toJson_withMedia ?_
  unfold QuestionData.shownField at sameMedia
  cases isMedia : data.media with
  | none => rfl
  | some own =>
    rw [isMedia] at sameMedia
    exact sameMedia.symm

/-- A statement that is written as the field of a payload has its text and its label. -/
theorem StatementData.eq_of_toJson_shownField_eq {data : StatementData}
    (entryKept : Field.format.Each .kept entry) (same : entry.toJson = data.shownField.toJson) :
    entry.label = data.text ∧ entry.placeholder.getD entry.label = data.label := by
  have label : some (Json.str entry.label) = some (.str data.text) :=
    congrArg (·.get? "label") same
  have written : entry.toJson.get? "placeholder" = entry.placeholder.map Json.str :=
    Field.describes.get?_toJson (List.mem_iff_getElem?.2 ⟨3, rfl⟩) entryKept
  have placeholder : entry.placeholder.map Json.str = some (.str data.label) := by
    rw [← written, same]
    rfl
  obtain ⟨text, isText, sameText⟩ := Option.map_eq_some_iff.1 placeholder
  rw [isText, ← Json.str.inj sameText]
  exact ⟨Json.str.inj (Option.some.inj label), rfl⟩

/-- A node with a current copy is given the field of a list that bears the identifier of the field that
it shows. -/
theorem Node.last?_of_given? {node : Node} (current : node.Current)
    (isShown : node.field? = .ok (some field)) (isGiven : node.given? entries = some entry) :
    Field.last? entries field.id = some entry := by
  obtain ⟨key, isKey, isLast⟩ := Option.bind_eq_some_iff.1 isGiven
  suffices keyIsId : key = field.id from keyIsId ▸ isLast
  cases node with
  | start card => cases isShown
  | finish card => cases isShown
  | question card =>
    cases isShown
    obtain ⟨isCopy, notEmpty⟩ := Option.filter_eq_some_iff.1 isKey
    -- An empty copy names no field, so a field that is given is named by a copy that is up to date.
    rcases current key isCopy with rfl | isId
    · cases notEmpty
    · exact isId
  | statement card =>
    obtain ⟨_, none⟩ | ⟨_, ⟨_, notEmpty⟩, isField⟩ := field?_statement_eq_ok_iff.1 isShown
    · cases none
    · cases isField
      have keys : (if card.data.fieldId.isEmpty then card.id else card.data.fieldId) = key :=
        Option.some.inj isKey
      rw [← keys, List.isEmpty_eq_false_iff.2 notEmpty]
      rfl

/-- Each node with a current copy fits a list of distinct identifiers that is written as the fields
that the nodes show. -/
theorem Node.fits_of_current {nodes : List Node} {node : Node}
    (areShown : Node.fields nodes = .ok shown)
    (same : entries.map Field.toJson = shown.map Field.toJson)
    (entriesKept : ∀ entry ∈ entries, Field.format.Each .kept entry)
    (shownKept : ∀ field ∈ shown, Field.format.Each .kept field)
    (distinct : (entries.map Field.id).Nodup) (mem : node ∈ nodes) (current : node.Current) :
    node.Fits entries := by
  obtain ⟨own, isShown, inShown⟩ := exists_field?_of_mem areShown mem
  have given {entry field : Field} (isGiven : node.given? entries = some entry)
      (isOwn : own = some field) :
      Field.format.Each .kept entry ∧ entry.toJson = field.toJson := by
    have isLast := last?_of_given? current (isOwn ▸ isShown) isGiven
    exact ⟨entriesKept entry (Field.mem_of_last? isLast),
      Field.toJson_eq_of_last? distinct same (inShown field isOwn) isLast⟩
  cases node with
  | start card => trivial
  | finish card => trivial
  | question card =>
    cases isShown
    intro entry isGiven
    obtain ⟨entryKept, sameJson⟩ := given isGiven rfl
    exact QuestionData.toJson_shownField_of_eq entryKept (shownKept _ (inShown _ rfl)) sameJson
  | statement card =>
    intro noSuccess entry isGiven _
    obtain ⟨success, _⟩ | ⟨_, _, isOwn⟩ := field?_statement_eq_ok_iff.1 isShown
    · exact absurd success (Bool.eq_false_iff.1 noSuccess)
    · obtain ⟨entryKept, sameJson⟩ := given isGiven isOwn
      exact StatementData.eq_of_toJson_shownField_eq entryKept sameJson

/-- Each shown card of a tidy flow fits a tidy list of distinct identifiers that is written as the one
that the flow stands for, where the copies in the shown cards are up to date. -/
theorem Flow.fits_of_current {again : Flow} (tidy : Flow.format.Each .tidy again)
    (entriesTidy : ∀ entry ∈ entries, Field.format.Each .tidy entry)
    (isLinear : again.linear = .ok shown) (same : entries.map Field.toJson = shown.map Field.toJson)
    (distinct : (entries.map Field.id).Nodup) (current : ∀ node ∈ again.shownNodes, node.Current) :
    ∀ node ∈ again.shownNodes, node.Fits entries := by
  have kept {field : Field} (tidyField : Field.format.Each .tidy field) :
      Field.format.Each .kept field := Field.exact_format.mono Demand.tidy_implies_kept tidyField
  intro node mem
  exact Node.fits_of_current isLinear same (fun entry entryMem => kept (entriesTidy entry entryMem))
    (fun field fieldMem => kept (Flow.each_linear tidy isLinear field fieldMem)) distinct mem
    (current node mem)

end Fitting

/-! ## Opening what was saved -/

namespace Record

variable {record next : Record} {step : Step} {stored : Json} {again : Flow}

/-- A step that saves a flow. -/
def Step.Saves : Step → Prop
  | .saveJson _ => True
  | .save _ => True
  | _ => False

/-- Opening a record whose stored copies agree gives a flow that stands for as many fields as are
stored, and for the same ones where each shown card of the stored flow fits. -/
theorem exists_opened_fields (agrees : record.Agrees stored again) :
    ∃ opened shown, record.flow = .ok opened ∧ opened.linear = .ok shown ∧
      shown.length = record.fields.length ∧
      (Field.listToJson shown = Field.listToJson record.fields ↔
        ∀ node ∈ again.shownNodes, node.Fits record.fields) := by
  obtain ⟨listed, isLinear, sameList⟩ := agrees.fields
  have same : record.fields.map Field.toJson = listed.map Field.toJson := Json.arr.inj sameList
  obtain ⟨shown, isShown, length, fits⟩ := again.exists_linear_merge record.fields isLinear
  have sameLength : record.fields.length = listed.length := by
    simpa using congrArg List.length same
  refine ⟨_, shown, flow_of_holds agrees.holds agrees.loads, isShown, length.trans sameLength.symm, ?_⟩
  rw [← fits, ← same, Field.listToJson, Field.listToJson, Json.arr.injEq]

/-- In a tidy record whose stored copies agree, each shown card fits where the fields have distinct
identifiers and the copies in the shown cards are up to date. -/
theorem fits_of_current (tidy : record.Tidy) (agrees : record.Agrees stored again)
    (distinct : (record.fields.map Field.id).Nodup)
    (current : ∀ node ∈ again.shownNodes, node.Current) :
    ∀ node ∈ again.shownNodes, node.Fits record.fields := by
  obtain ⟨listed, isLinear, sameList⟩ := agrees.fields
  have isRead : Flow.read stored = .ok again := (Flow.load_eq_ok_iff.1 agrees.loads).2
  exact Flow.fits_of_current (tidy.flow stored agrees.holds again isRead) tidy.fields isLinear
    (Json.arr.inj sameList) distinct current

/-- What is opened of a form after a tidy flow was saved stands for as many fields as were stored, and for
the same ones exactly where each shown card of the stored flow fits. So it does where the stored fields
have distinct identifiers and the copies in the shown cards are up to date. -/
theorem opened_fields_iff (tidy : step.Tidy) (saves : step.Saves)
    (changes : record.changed step = .ok next) :
    ∃ stored again opened shown, next.cardSettings.get? flowSetting = some stored ∧
      Flow.load stored = .ok again ∧ next.flow = .ok opened ∧ opened.linear = .ok shown ∧
      shown.length = next.fields.length ∧
      (Field.listToJson shown = Field.listToJson next.fields ↔
        ∀ node ∈ again.shownNodes, node.Fits next.fields) ∧
      ((next.fields.map Field.id).Nodup → (∀ node ∈ again.shownNodes, node.Current) →
        Field.listToJson shown = Field.listToJson next.fields) := by
  have saved : record.Saved next := by
    cases step with
    | saveJson value => exact saved_of_saveJson tidy changes
    | save flow => exact saved_of_save tidy changes
    | _ => exact saves.elim
  obtain ⟨stored, again, agrees⟩ := saved.agrees
  obtain ⟨opened, shown, opens, isLinear, length, fits⟩ := exists_opened_fields agrees
  refine ⟨stored, again, opened, shown, agrees.holds, agrees.loads, opens, isLinear, length, fits, ?_⟩
  intro distinct current
  exact fits.2 (fits_of_current saved.tidy agrees distinct current)

/-- What is opened after the chain through two questions was saved stands for the fields that were stored:
each card fits, as the copies in it are up to date. -/
theorem opened_fields_pair :
    ∃ (next : Record) (again opened : Flow) (shown : List Field),
      themed.changed (.save (Flow.chain pair (some frame))) = .ok next ∧
      next.flow = .ok opened ∧ opened.linear = .ok shown ∧ shown.length = 2 ∧
      Field.listToJson shown = Field.listToJson next.fields ∧
      next.cardSettings.get? flowSetting = some again.toJson ∧
      ∀ node ∈ again.shownNodes, node.Fits next.fields := by
  have changes : themed.changed (.save (Flow.chain pair (some frame))) =
      .ok (themed.withChain pair (some frame)) :=
    save_chain valid_pair tidy_pair tidy_frame (by decide +kernel)
  have tidy : (Step.save (Flow.chain pair (some frame))).Tidy := tidy_chain_pair
  obtain ⟨stored, again, opened, shown, holds, loads, opens, isShown, length, fits, fitting⟩ :=
    opened_fields_iff tidy trivial changes
  have isStored : stored = (Flow.chain pair (some frame)).toJson := by
    rw [withChain, get?_settingsWith, if_neg (by decide), if_pos rfl] at holds
    exact (Option.some.inj holds).symm
  have isAgain : again = Flow.chain pair (some frame) := by
    have reads := Flow.load_toJson_of_tidy tidy_chain_pair (Flow.sound_chain valid_pair _)
      (Flow.valid_chain valid_pair)
    exact Except.ok.inj ((isStored ▸ loads).symm.trans reads)
  have current : ∀ node ∈ again.shownNodes, node.Current := fun node mem =>
    Node.current_of_normalized (Flow.synced_chain _ _ node (isAgain ▸ Flow.mem_of_mem_shownNodes mem))
  have same := fitting (by decide) current
  refine ⟨_, again, opened, shown, changes, opens, isShown, length, same, ?_, fits.1 same⟩
  rw [isAgain, ← isStored]
  exact holds

end Record

/-! ## A copy that is out of date -/

namespace Node

variable {node : Node}

/-- The node with a copy that names a field. -/
def naming (id : Text) : Node → Node
  | question card => question { card with data := { card.data with fieldId := some id } }
  | node => node

/-- Whatever the copy names, the node is in order. -/
theorem Proper.naming (proper : node.Proper) (id : Text) : (node.naming id).Proper := by
  cases node with
  | question card =>
    refine ⟨proper.id, ?_⟩
    rintro other same
    cases same
    exact proper.field card rfl
  | _ => exact proper

/-- Whatever the copy names, the node can be read once it was written. -/
theorem valid_naming (valid : format.Valid node) (id : Text) : format.Valid (node.naming id) := by
  cases node with
  | question card =>
    obtain ⟨name, data⟩ := Card.valid_content_iff.1 valid
    obtain ⟨field, media⟩ := QuestionData.valid_iff.1 data
    exact Card.valid_content_iff.2 ⟨name, QuestionData.valid_iff.2 ⟨field, media⟩⟩
  | _ => exact valid

/-- A demand asks nothing of what the copy names. -/
theorem each_naming {demand : Demand} (each : format.Each demand node) (id : Text) :
    format.Each demand (node.naming id) := by
  cases node with
  | question card =>
    obtain ⟨extras, position, data⟩ := Card.each_content_iff.1 each
    obtain ⟨dataExtras, field, media⟩ := QuestionData.each_iff.1 data
    exact Card.each_content_iff.2
      ⟨extras, position, QuestionData.each_iff.2 ⟨dataExtras, field, media⟩⟩
  | _ => exact each

end Node

namespace Record

/-- A chain through two questions whose copies both name the field of the second one. -/
def crossed : Flow :=
  { Flow.chain [.bare "a", .bare "b"] none with
    nodes := (Flow.chain [.bare "a", .bare "b"] none).nodes.map (Node.naming "b") }

/-- A flow of questions with a copy that is out of date is loaded. -/
theorem load_crossed : Flow.load crossed.toJson = .ok crossed := by
  have valid := Field.valid_bare ["a", "b"] (by decide)
  obtain ⟨proper, wired, path⟩ := Flow.sound_iff.1 (Flow.sound_chain valid none)
  have crossedWired : crossed.Wired :=
    wired.map rfl (fun node => by cases node <;> rfl) (fun node => by cases node <;> rfl) wired.edge
  have crossedSound : crossed.Sound := Flow.sound_iff.2
    ⟨List.forall_mem_map.2 fun node mem => (proper node mem).naming _, crossedWired, path⟩
  have crossedValid : Flow.format.Valid crossed := Flow.valid_iff.2 <| List.forall_mem_map.2
    fun node mem => Node.valid_naming (Flow.valid_iff.1 (Flow.valid_chain valid) node mem) _
  obtain ⟨extras, nodes, rest⟩ :=
    Flow.each_iff.1 (Flow.each_chain_bare ["a", "b"] : Flow.format.Each .once _)
  have once : Flow.format.Each .once crossed := Flow.each_iff.2
    ⟨extras, List.forall_mem_map.2 fun node mem => Node.each_naming (nodes node mem) _, rest⟩
  exact (Flow.load_toJson_eq_ok_iff once).2 ⟨crossedSound, crossedValid, rfl⟩

/-- The questions of that chain are shown one after the other. -/
theorem discovery_crossed : Ends.discovery crossed.ends = (["a", "b"] : List Text) :=
  Ends.discovery_chain ["a", "b"] (by decide)

/-- The record in which that chain is stored. -/
def storesCrossed : Record where
  fields := [.bare "a", .bare "b"]
  cardSettings := settingsWith [] crossed.toJson none

/-- The chain is saved with the fields of both questions. -/
theorem saveJson_crossed : ({} : Record).saveJson crossed.toJson = .ok storesCrossed := by
  have isLinear : crossed.linear = .ok [.bare "a", .bare "b"] := by
    rw [Flow.linear, Flow.shownNodes, discovery_crossed]
    rfl
  exact Failure.bind_eq_ok_iff.2 ⟨crossed, load_crossed, Failure.bind_eq_ok_iff.2 ⟨_, isLinear,
    Failure.bind_eq_ok_iff.2 ⟨_, Writable.write_of_isWritable rfl, rfl⟩⟩⟩

/-- What is opened of it has the content of the second field in both questions. -/
theorem flow_storesCrossed :
    storesCrossed.flow = .ok (crossed.merge [.bare "a", .bare "b"]) := by
  change (Flow.load crossed.toJson).map (fun flow => flow.merge storesCrossed.fields) = _
  rw [load_crossed]
  rfl

/-- A form that was saved is opened with the field of one card in place of that of another. -/
theorem exists_opened_changed :
    ∃ record next : Record, ∃ value opened shown, record.saveJson value = .ok next ∧
      next.flow = .ok opened ∧ opened.linear = .ok shown ∧
      Field.listToJson shown ≠ Field.listToJson next.fields := by
  have isShown : (crossed.merge [.bare "a", .bare "b"]).linear = .ok [.bare "b", .bare "b"] := by
    have sameEnds : (crossed.merge [.bare "a", .bare "b"]).ends = crossed.ends := rfl
    rw [Flow.linear, Flow.shownNodes, sameEnds, discovery_crossed]
    rfl
  refine ⟨{}, storesCrossed, _, _, _, saveJson_crossed, flow_storesCrossed, isShown, fun same => ?_⟩
  have sameFirst : (Field.bare "b").toJson = (Field.bare "a").toJson :=
    (List.cons.inj (Json.arr.inj same)).1
  have sameId : some (Json.str "b") = some (.str "a") := congrArg (·.get? "id") sameFirst
  exact absurd (Json.str.inj (Option.some.inj sameId)) (by decide)

end Record

end CardForm
