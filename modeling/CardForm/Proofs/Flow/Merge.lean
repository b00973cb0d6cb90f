import CardForm.Proofs.Flow.Wired
import Mathlib.Data.List.Perm.Subperm

/-!
# Content that comes back

Merging gives each card the last field of a list that bears the identifier which the card names
(`Node.given?`). Where the copies in the questions are up to date and no two cards name one
identifier, the field list of a flow gives each card what it shows, so merging that list changes
nothing (`Flow.merge_linear`). A list whose content was changed elsewhere is what the flow stands for
afterwards, but for one part: a card with media of its own shows these, and media that the list has in
their place are lost (`Flow.linear_merge_edited`, `Flow.exists_edit_lost`).
-/
namespace CardForm

variable {fields entries : List Field} {field entry shown : Field}

/-! ## Fields with other media -/

namespace Field

/-- A field with other media is written as before where the media are. -/
theorem toJson_withMedia {media : Option Media}
    (same : media.map Media.toJson = field.media.map Media.toJson) :
    toJson { field with media := media } = field.toJson := by
  rw [toJson, toJson, same]

/-- A field has the media, in their written form, of one that is written alike. -/
theorem media_eq_of_toJson_eq (entryKept : format.Each .kept entry) (kept : format.Each .kept field)
    (same : entry.toJson = field.toJson) :
    entry.media.map Media.toJson = field.media.map Media.toJson := by
  have media {any : Field} (kept : format.Each .kept any) :
      any.toJson.get? "media" = any.media.map Media.toJson :=
    describes.get?_toJson (List.mem_iff_getElem?.2 ⟨6, rfl⟩) kept
  rw [← media entryKept, ← media kept, same]

/-- A text field with a label and with an icon in a place. -/
def pictured (label : Text) (place : Placement) : Field :=
  { bare "q" with label := label, media := some { kind := .icon, placement := place } }

/-- A text field with an icon can be read once it was written. -/
theorem valid_pictured (label : Text) (place : Placement) :
    format.Valid (pictured label place) := by
  have bare := valid_iff.1 (valid_bare ["q"] (by decide) (.bare "q") List.mem_cons_self)
  exact valid_iff.2 ⟨bare.1, bare.2.1, bare.2.2.1, fun media _ => media.valid, bare.2.2.2.2⟩

/-- A demand asks nothing of a text field with an icon. -/
theorem each_pictured {demand : Demand} (label : Text) (place : Placement) :
    format.Each demand (pictured label place) := by
  have bare : format.Each demand (bare "q") := each_bare "q"
  obtain ⟨extras, options, _, logic⟩ := each_iff.1 bare
  exact each_iff.2 ⟨extras, options, fun _ same =>
    Option.some.inj same ▸ Media.each_iff.2 (demand.extras_nil _), logic⟩

end Field

namespace QuestionData

variable {data : QuestionData}

/-- The field that a payload shows brings back the media of its own field. -/
theorem mediaFor_shownField (data : QuestionData) :
    data.mediaFor data.shownField = data.field.media := by
  unfold mediaFor shownField
  cases data.media with
  | none => rfl
  | some own => simp

/-- A payload with the field that it shows is as it was, where its copy of the kind is up to date. -/
theorem withField_shownField (upToDate : data.fieldType = some data.field.kind.name) :
    data.withField data.shownField = data := by
  have kind : data.shownField.kind = data.field.kind := by
    rw [shownField, upToDate]
    rfl
  have field : { data.shownField with media := data.mediaFor data.shownField } = data.field := by
    rw [mediaFor_shownField]
    change { data.field with kind := data.shownField.kind } = data.field
    rw [kind]
  rw [withField, field]

end QuestionData

/-! ## What a list gives a card -/

namespace Node

variable {node : Node}

/-- The field of a list that a node is given: the last one of the identifier that the node names. -/
def given? (fields : List Field) (node : Node) : Option Field :=
  node.contentKey?.bind (Field.last? fields)

/-- A node that is given no field stays as it is. -/
theorem merged_of_given?_eq_none (isNone : node.given? fields = none) : node.merged fields = node := by
  unfold given? at isNone
  unfold merged
  rw [isNone]
  cases node <;> rfl

/-- A question takes over the field that it is given, and then its copies are up to date. -/
theorem merged_question {card : Card QuestionData}
    (isGiven : (question card).given? fields = some entry) :
    (question card).merged fields =
      normalized (question { card with data := card.data.withField entry }) := by
  unfold given? at isGiven
  unfold merged
  rw [isGiven]

/-- A question shows the field that it is given, with media of its own. -/
theorem field?_merged_question {card : Card QuestionData}
    (isGiven : (question card).given? fields = some entry) :
    ((question card).merged fields).field? =
      .ok (some { entry with media := card.data.media.or entry.media }) := by
  have media : card.data.media.or (card.data.mediaFor entry) = card.data.media.or entry.media := by
    unfold QuestionData.mediaFor
    cases card.data.media with
    | none => rfl
    | some own => rfl
  rw [merged_question isGiven, ← media]
  rfl

/-- A statement takes the text and the label of a statement that it is given. -/
theorem merged_statement {card : Card StatementData}
    (isGiven : (statement card).given? fields = some entry) :
    (statement card).merged fields =
      if entry.isStatement then statement { card with data := card.data.withField entry }
      else statement card := by
  unfold given? at isGiven
  unfold merged
  rw [isGiven]

/-- A node that shows no field shows none whatever it is given. -/
theorem field?_merged_of_none (fields : List Field) (isNone : node.field? = .ok none) :
    (node.merged fields).field? = .ok none := by
  cases isGiven : node.given? fields with
  | none => rwa [merged_of_given?_eq_none isGiven]
  | some entry =>
    cases node with
    | start card => exact isNone
    | finish card => exact isNone
    | question card => cases isNone
    | statement card =>
      rw [merged_statement isGiven]
      split
      · obtain ⟨success, _⟩ | ⟨_, _, none⟩ := field?_statement_eq_ok_iff.1 isNone
        · exact field?_statement_eq_ok_iff.2 (.inl ⟨success, rfl⟩)
        · cases none
      · exact isNone

/-- The copies in a question that bringing them up to date does not change are those of its field. -/
theorem copies_of_normalized {card : Card QuestionData}
    (upToDate : (question card).normalized = question card) :
    card.data.fieldId = some card.data.field.id ∧ card.data.label = some card.data.field.label ∧
      card.data.fieldType = some card.data.field.kind.name := by
  have copies := congrArg Card.data (question.inj upToDate)
  exact ⟨(congrArg QuestionData.fieldId copies).symm, (congrArg QuestionData.label copies).symm,
    (congrArg QuestionData.fieldType copies).symm⟩

/-- A node with its copies up to date that is given the field it shows stays as it is. -/
theorem merged_of_given?_field? (upToDate : node.normalized = node)
    (isShown : node.field? = .ok (some entry)) (isGiven : node.given? fields = some entry) :
    node.merged fields = node := by
  cases node with
  | start card => rfl
  | finish card => rfl
  | question card =>
    cases isShown
    rw [merged_question isGiven,
      QuestionData.withField_shownField (copies_of_normalized upToDate).2.2]
    exact upToDate
  | statement card =>
    obtain ⟨_, none⟩ | ⟨_, _, isField⟩ := field?_statement_eq_ok_iff.1 isShown
    · cases none
    · cases isField
      rw [merged_statement isGiven]
      rfl

/-- A node that shows a field takes its content from the identifier of that field, where its copies are
up to date. -/
theorem contentKey?_of_field? (valid : format.Valid node) (upToDate : node.normalized = node)
    (isShown : node.field? = .ok (some field)) : node.contentKey? = some field.id := by
  cases node with
  | start card => cases isShown
  | finish card => cases isShown
  | question card =>
    cases isShown
    have copy := (copies_of_normalized upToDate).1
    have name : Format.name.Valid card.data.field.id :=
      (Field.valid_iff.1 (QuestionData.valid_iff.1 (Card.valid_content_iff.1 valid).2).1).1
    have notEmpty : card.data.field.id.isEmpty = false := List.isEmpty_eq_false_iff.2 name.2
    rw [contentKey?, copy]
    exact Option.filter_eq_some_iff.2 ⟨rfl, congrArg not notEmpty⟩
  | statement card =>
    obtain ⟨_, none⟩ | ⟨_, name, isField⟩ := field?_statement_eq_ok_iff.1 isShown
    · cases none
    · cases isField
      rw [contentKey?, List.isEmpty_eq_false_iff.2 name.2]
      rfl

/-- Where each of some nodes is replaced by one that shows, if anything, what became of the field that
stands in the same place of another list, the nodes show that list. -/
theorem fields_map_of_zip {nodes : List Node} {replace : Node → Node} {become : Field → Field}
    (nothing : ∀ node ∈ nodes, node.field? = .ok none → (replace node).field? = .ok none)
    (something : ∀ node ∈ nodes, ∀ pair ∈ fields.zip entries, node.field? = .ok (some pair.1) →
      (replace node).field? = .ok (some (become pair.2)))
    (areShown : Node.fields nodes = .ok fields) (length : fields.length = entries.length) :
    Node.fields (nodes.map replace) = .ok (entries.map become) := by
  induction nodes generalizing fields entries with
  | nil =>
    cases areShown
    rw [List.length_eq_zero_iff.1 length.symm]
    rfl
  | cons node rest ih =>
    rw [List.forall_mem_cons] at nothing something
    obtain ⟨first, others, isFirst, areOthers, rfl⟩ := fields_cons_eq_ok_iff.1 areShown
    cases first with
    | none =>
      exact fields_cons_eq_ok_iff.2
        ⟨none, _, nothing.1 isFirst, ih nothing.2 something.2 areOthers length, rfl⟩
    | some shown =>
      obtain ⟨entry, later, rfl⟩ := List.exists_cons_of_length_eq_add_one length.symm
      have laterShown : Node.fields (rest.map replace) = .ok (later.map become) :=
        ih nothing.2 (fun node mem pair inZip => something.2 node mem pair (.tail _ inZip)) areOthers
          (Nat.succ.inj length)
      exact fields_cons_eq_ok_iff.2
        ⟨_, _, something.1 (shown, entry) List.mem_cons_self isFirst, laterShown, rfl⟩

/-- What a node shows has media of its own. -/
def media? : Node → Option Media
  | question card => card.data.media
  | statement card => card.data.media
  | _ => none

/-- What a demand asks of a node, it asks of its media. -/
theorem each_media? {demand : Demand} (each : format.Each demand node) :
    ∀ media ∈ node.media?, Media.format.Each demand media := by
  cases node with
  | start card => exact fun _ none => nomatch none
  | finish card => exact fun _ none => nomatch none
  | question card => exact (QuestionData.each_iff.1 (Card.each_content_iff.1 each).2.2).2.2
  | statement card => exact (StatementData.each_iff.1 (Card.each_content_iff.1 each).2.2).2

/-- How the field that a card shows may be changed elsewhere: that of a question into any validated
field of its identifier, that of a statement in its label and its placeholder. -/
def Allows (node : Node) (shown entry : Field) : Prop :=
  match node with
  | question _ => entry.id = shown.id ∧ ∃ found, Field.read found = .ok entry
  | statement _ =>
    ∃ label placeholder, entry = { shown with label := label, placeholder := some placeholder }
  | _ => False

/-- A field that was changed keeps its identifier. -/
theorem Allows.id_eq (allows : node.Allows shown entry) : entry.id = shown.id := by
  cases node with
  | start card => exact allows.elim
  | finish card => exact allows.elim
  | question card => exact allows.1
  | statement card =>
    obtain ⟨_, _, rfl⟩ := allows
    rfl

/-- The extras in a field that was changed bear none of the declared keys in camel case. -/
theorem Allows.kept (allows : node.Allows shown entry) (kept : Field.format.Each .kept shown) :
    Field.format.Each .kept entry := by
  cases node with
  | start card => exact allows.elim
  | finish card => exact allows.elim
  | question card =>
    obtain ⟨_, found, isRead⟩ := allows
    exact Field.exact_format.kept_of_read isRead
  | statement card =>
    obtain ⟨extras, options, media, logic⟩ := Field.each_iff.1 kept
    obtain ⟨_, _, rfl⟩ := allows
    exact Field.each_iff.2 ⟨extras, options, media, logic⟩

/-- A card that is given the changed field shows it, with media of its own. -/
theorem field?_merged_of_allows (isShown : node.field? = .ok (some shown))
    (allows : node.Allows shown entry) (isGiven : node.given? entries = some entry) :
    (node.merged entries).field? =
      .ok (some { entry with media := node.media?.or entry.media }) := by
  cases node with
  | start card => exact allows.elim
  | finish card => exact allows.elim
  | question card => exact field?_merged_question isGiven
  | statement card =>
    obtain ⟨_, none⟩ | ⟨noSuccess, name, isField⟩ := field?_statement_eq_ok_iff.1 isShown
    · cases none
    · cases isField
      obtain ⟨label, placeholder, rfl⟩ := allows
      have media : (statement card).media?.or card.data.shownField.media = card.data.media :=
        Option.or_self
      rw [merged_statement isGiven, media]
      exact field?_statement_eq_ok_iff.2 (.inr ⟨noSuccess, name, rfl⟩)

end Node

namespace Flow

variable {flow : Flow} {node other : Node} {key : Text}

/-! ## Flows whose cards name distinct identifiers -/

/-- The copies in all questions are up to date. -/
def Synced (flow : Flow) : Prop := ∀ node ∈ flow.nodes, node.normalized = node

/-- The identifiers from which the cards take their content, in stored order. -/
def contentKeys (flow : Flow) : List Text := flow.nodes.filterMap Node.contentKey?

/-- The copies in a chain are up to date. -/
theorem synced_chain (fields : List Field) (viewport : Option Viewport) :
    (chain fields viewport).Synced := by
  intro node mem
  obtain rfl | ⟨field, _, y, rfl⟩ | ⟨y, rfl⟩ := mem_column mem
  · rfl
  · unfold fieldNode
    split <;> rfl
  · rfl

/-- One card at most takes its content from an identifier. -/
theorem eq_of_contentKey? (distinct : flow.contentKeys.Nodup) (mem : node ∈ flow.nodes)
    (otherMem : other ∈ flow.nodes) (isKey : node.contentKey? = some key)
    (otherKey : other.contentKey? = some key) : node = other := by
  have apart := List.pairwise_filterMap.1 distinct
  by_contra differ
  have symmetric : Std.Symm fun node other : Node => ∀ key, node.contentKey? = some key →
      ∀ otherKey, other.contentKey? = some otherKey → key ≠ otherKey :=
    ⟨fun _ _ apart key isKey otherKey isOther => (apart otherKey isOther key isKey).symm⟩
  exact apart.forall mem otherMem differ key isKey key otherKey rfl

/-- The fields that such a flow stands for have distinct identifiers. -/
theorem nodup_ids_linear (valid : format.Valid flow) (synced : flow.Synced)
    (distinct : flow.contentKeys.Nodup) (isLinear : flow.linear = .ok fields) :
    (fields.map Field.id).Nodup := by
  have nodesValid := valid_iff.1 valid
  have bears : ∀ node ∈ flow.shownNodes, ∀ field, node.field? = .ok (some field) →
      node.contentKey? = some field.id := fun node mem field isShown =>
    have inNodes := mem_of_mem_shownNodes mem
    Node.contentKey?_of_field? (nodesValid node inNodes) (synced node inNodes) isShown
  -- The shown nodes are some of all nodes, each once, though in another order.
  obtain ⟨nodes, perm, sublist⟩ : List.Subperm flow.shownNodes flow.nodes :=
    flow.nodup_shownNodes.of_map.subperm fun _ mem => mem_of_mem_shownNodes mem
  have keys : (flow.shownNodes.filterMap Node.contentKey?).Nodup :=
    (perm.filterMap _).nodup_iff.1 (distinct.sublist (sublist.filterMap _))
  exact keys.sublist (Node.sublist_keys_fields bears isLinear)

/-- What the field list of such a flow gives a card is what the card shows, so the card is among the
shown ones. -/
theorem shown_of_given? (valid : format.Valid flow) (synced : flow.Synced)
    (distinct : flow.contentKeys.Nodup) (isLinear : flow.linear = .ok fields)
    (mem : node ∈ flow.nodes) (isGiven : node.given? fields = some entry) :
    node ∈ flow.shownNodes ∧ node.field? = .ok (some entry) := by
  obtain ⟨key, isKey, isLast⟩ := Option.bind_eq_some_iff.1 isGiven
  have sameId : entry.id = key := Field.id_of_last? isLast
  obtain ⟨other, inShown, isShown⟩ := Node.exists_of_mem_fields isLinear (Field.mem_of_last? isLast)
  have otherMem := mem_of_mem_shownNodes inShown
  have otherKey : other.contentKey? = some key := sameId ▸
    Node.contentKey?_of_field? (valid_iff.1 valid other otherMem) (synced other otherMem) isShown
  rw [eq_of_contentKey? distinct mem otherMem isKey otherKey]
  exact ⟨inShown, isShown⟩

/-- A card that shows a field is given it by the field list of such a flow. -/
theorem given?_of_shown (valid : format.Valid flow) (synced : flow.Synced)
    (distinct : flow.contentKeys.Nodup) (isLinear : flow.linear = .ok fields)
    (inShown : node ∈ flow.shownNodes) (isShown : node.field? = .ok (some entry)) :
    node.given? fields = some entry := by
  have inNodes := mem_of_mem_shownNodes inShown
  have isKey := Node.contentKey?_of_field? (valid_iff.1 valid node inNodes) (synced node inNodes) isShown
  obtain ⟨field, isField, inFields⟩ := Node.exists_field?_of_mem isLinear inShown
  cases isShown.symm.trans isField
  exact Option.bind_eq_some_iff.2 ⟨_, isKey,
    Field.last?_of_mem (nodup_ids_linear valid synced distinct isLinear) (inFields entry rfl)⟩

/-- Merging a loaded flow with its own field list changes nothing, where the copies in the questions
are up to date and the cards take their content from distinct identifiers. -/
theorem merge_linear {value : Json} (loads : load value = .ok flow) (synced : flow.Synced)
    (distinct : flow.contentKeys.Nodup) (isLinear : flow.linear = .ok fields) :
    flow.merge fields = flow := by
  have valid := valid_of_load loads
  have unchanged : ∀ node ∈ flow.nodes, node.merged fields = node := by
    intro node mem
    cases isGiven : node.given? fields with
    | none => exact Node.merged_of_given?_eq_none isGiven
    | some entry =>
      exact Node.merged_of_given?_field? (synced node mem)
        (shown_of_given? valid synced distinct isLinear mem isGiven).2 isGiven
  have nodes : flow.nodes.map (Node.merged fields) = flow.nodes :=
    (List.map_congr_left unchanged).trans (List.map_id' _)
  rw [merge, nodes]

/-- A chain through a card with media of its own beside those of its field. -/
def illustrated : Flow := chain [.pictured "q" .above] none

/-- A demand asks nothing of that chain. -/
theorem each_illustrated {demand : Demand} : format.Each demand illustrated :=
  each_chain (List.forall_mem_singleton.2 (Field.each_pictured _ _)) fun _ none => nomatch none

/-- That chain is loaded. -/
theorem load_illustrated : load illustrated.toJson = .ok illustrated := by
  have valid : ∀ field ∈ [Field.pictured "q" .above], Field.format.Valid field :=
    List.forall_mem_singleton.2 (Field.valid_pictured "q" .above)
  exact (load_toJson_eq_ok_iff each_illustrated).2 ⟨sound_chain valid none, valid_chain valid, rfl⟩

/-- The card of that chain is shown first. -/
theorem discovery_illustrated : Ends.discovery illustrated.ends = (["q"] : List Text) :=
  Ends.discovery_chain ["q"] (by decide)

/-- A flow like that chain shows the node that it has for the card. -/
theorem linear_like_illustrated (ends : flow.ends = illustrated.ends)
    (isLast : flow.lastNode? "q" = some node) (isShown : node.field? = .ok (some field)) :
    flow.linear = .ok [field] := by
  rw [linear, shownNodes, ends, discovery_illustrated, List.filterMap_cons_some isLast]
  exact Node.fields_cons_eq_ok_iff.2 ⟨_, [], isShown, rfl, rfl⟩

/-- That chain stands for the field of its card. -/
theorem linear_illustrated : illustrated.linear = .ok [.pictured "q" .above] :=
  linear_like_illustrated rfl rfl rfl

/-- A card with media of its own beside those of its field is not changed by its own field list. -/
theorem merge_linear_illustrated :
    ∃ fields, illustrated.linear = .ok fields ∧ illustrated.merge fields = illustrated :=
  ⟨_, linear_illustrated, merge_linear load_illustrated (synced_chain _ none) (by decide)
    linear_illustrated⟩

/-! ## Content that was changed elsewhere -/

/-- The media of the card that takes its content from an identifier. -/
def cardMedia? (flow : Flow) (id : Text) : Option Media :=
  (flow.nodes.find? fun node => node.contentKey? == some id).bind Node.media?

/-- The field with the media of the card that takes its content from it, where the card has any. -/
def withCardMedia (flow : Flow) (entry : Field) : Field :=
  { entry with media := (flow.cardMedia? entry.id).or entry.media }

/-- A field of the linear form was changed as the card that shows it allows. -/
def Edits (flow : Flow) (shown entry : Field) : Prop :=
  ∃ node ∈ flow.shownNodes, node.field? = .ok (some shown) ∧ node.Allows shown entry

/-- A field that was changed keeps its identifier. -/
theorem Edits.id_eq (edits : flow.Edits shown entry) : entry.id = shown.id := by
  obtain ⟨_, _, _, allows⟩ := edits
  exact allows.id_eq

/-- The extras in a field that was changed bear none of the declared keys in camel case. -/
theorem Edits.kept (edits : flow.Edits shown entry) (kept : format.Each .kept flow) :
    Field.format.Each .kept entry := by
  obtain ⟨node, inShown, isShown, allows⟩ := edits
  have nodeKept := (each_iff.1 kept).2.1 node (mem_of_mem_shownNodes inShown)
  exact allows.kept (Node.each_field? nodeKept isShown)

/-- The media of the card that takes its content from an identifier are those of any card that does. -/
theorem cardMedia?_of_contentKey? (distinct : flow.contentKeys.Nodup) (mem : node ∈ flow.nodes)
    (isKey : node.contentKey? = some key) : flow.cardMedia? key = node.media? := by
  obtain ⟨found, isFound⟩ :
      ∃ found, flow.nodes.find? (fun node => node.contentKey? == some key) = some found :=
    Option.isSome_iff_exists.1 (List.find?_isSome.2 ⟨node, mem, by simp [isKey]⟩)
  have foundKey : found.contentKey? = some key := by simpa using List.find?_some isFound
  have same : found = node :=
    eq_of_contentKey? distinct (List.mem_of_find?_eq_some isFound) mem foundKey isKey
  rw [cardMedia?, isFound, ← same]
  rfl

/-- A card that shows a field gives it back as it was changed, with media of its own. -/
theorem field?_merged_of_edits (valid : format.Valid flow) (synced : flow.Synced)
    (distinct : flow.contentKeys.Nodup) (entriesDistinct : (entries.map Field.id).Nodup)
    (inShown : node ∈ flow.shownNodes) (isShown : node.field? = .ok (some shown))
    (mem : entry ∈ entries) (edits : flow.Edits shown entry) :
    (node.merged entries).field? = .ok (some (flow.withCardMedia entry)) := by
  have keyOf {node : Node} (inShown : node ∈ flow.shownNodes)
      (isShown : node.field? = .ok (some shown)) : node.contentKey? = some entry.id := by
    have inNodes := mem_of_mem_shownNodes inShown
    rw [edits.id_eq]
    exact Node.contentKey?_of_field? (valid_iff.1 valid node inNodes) (synced node inNodes) isShown
  obtain ⟨other, otherShown, isOther, allows⟩ := edits
  have same : other = node := eq_of_contentKey? distinct (mem_of_mem_shownNodes otherShown)
    (mem_of_mem_shownNodes inShown) (keyOf otherShown isOther) (keyOf inShown isShown)
  have isGiven : node.given? entries = some entry :=
    Option.bind_eq_some_iff.2 ⟨_, keyOf inShown isShown, Field.last?_of_mem entriesDistinct mem⟩
  rw [withCardMedia, cardMedia?_of_contentKey? distinct (mem_of_mem_shownNodes inShown)
    (keyOf inShown isShown)]
  exact Node.field?_merged_of_allows isShown (same ▸ allows) isGiven

/-- A flow that is given its field list as it was changed elsewhere stands for that list, but for the
media that cards have of their own. -/
theorem linear_merge_of_edits (valid : format.Valid flow) (synced : flow.Synced)
    (distinct : flow.contentKeys.Nodup) (isLinear : flow.linear = .ok fields)
    (edited : List.Forall₂ flow.Edits fields entries) :
    (flow.merge entries).linear = .ok (entries.map flow.withCardMedia) := by
  have sameIds : fields.map Field.id = entries.map Field.id := List.forall₂_eq_eq_eq ▸
    List.forall₂_map_left_iff.2 (List.forall₂_map_right_iff.2
      (edited.imp fun _ _ edits => edits.id_eq.symm))
  have entriesDistinct : (entries.map Field.id).Nodup :=
    sameIds ▸ nodup_ids_linear valid synced distinct isLinear
  have nodes : (flow.merge entries).shownNodes = flow.shownNodes.map (Node.merged entries) :=
    shownNodes_of_map rfl (Node.id_merged entries) rfl
  rw [linear, nodes]
  refine Node.fields_map_of_zip (fun node _ => Node.field?_merged_of_none entries) ?_ isLinear
    edited.length_eq
  rintro node inShown ⟨shown, entry⟩ inZip isShown
  exact field?_merged_of_edits valid synced distinct entriesDistinct inShown isShown
    (List.of_mem_zip inZip).2 (List.forall₂_zip edited inZip)

/-- A field that was changed, if the card that shows it has media of its own, is not written as it was
given unless it was given these. -/
theorem toJson_withCardMedia_iff (cardsKept : ∀ node ∈ flow.nodes, Node.format.Each .kept node)
    (kept : Field.format.Each .kept entry) : (flow.withCardMedia entry).toJson = entry.toJson ↔
      ∀ own ∈ flow.cardMedia? entry.id, entry.media.map Media.toJson = some own.toJson := by
  cases ofCard : flow.cardMedia? entry.id with
  | none => simp [withCardMedia, ofCard]
  | some own =>
    have isShown : flow.withCardMedia entry = { entry with media := some own } := by
      rw [withCardMedia, ofCard]
      rfl
    obtain ⟨node, isFound, isOwn⟩ := Option.bind_eq_some_iff.1 ofCard
    have ownKept : Media.format.Each .kept own :=
      Node.each_media? (cardsKept node (List.mem_of_find?_eq_some isFound)) own isOwn
    have shownKept : Field.format.Each .kept { entry with media := some own } := by
      obtain ⟨extras, options, _, logic⟩ := Field.each_iff.1 kept
      exact Field.each_iff.2 ⟨extras, options, fun media same => Option.some.inj same ▸ ownKept, logic⟩
    rw [isShown]
    constructor
    · rintro same _ ⟨⟩
      exact (Field.media_eq_of_toJson_eq shownKept kept same).symm
    · intro same
      exact Field.toJson_withMedia (same own rfl).symm

/-- The field of the card of that chain may get another label and other media. -/
theorem edits_illustrated (label : Text) (place : Placement) :
    List.Forall₂ illustrated.Edits [.pictured "q" .above] [.pictured label place] := by
  have isRead : Field.read (Field.pictured label place).toJson = .ok (.pictured label place) :=
    (Field.exact_format.read_toJson (Field.each_pictured label place)).2
      ⟨Field.valid_pictured label place, rfl⟩
  have inShown : illustrated.shownNodes = [fieldNode (.pictured "q" .above) (.int firstY)] := by
    rw [shownNodes, discovery_illustrated]
    rfl
  have allows : (fieldNode (.pictured "q" .above) (.int firstY)).Allows (.pictured "q" .above)
      (.pictured label place) := ⟨rfl, _, isRead⟩
  exact .cons ⟨_, inShown ▸ List.mem_cons_self, rfl, allows⟩ .nil

/-- Where the copies in the questions of a loaded flow are up to date and the cards take their content
from distinct identifiers, and its field list was changed elsewhere, the flow that is given that list
stands for it, but that each card with media of its own shows these. So the list comes back exactly
where it has the media of such cards. -/
theorem linear_merge_edited {value : Json} (loads : load value = .ok flow) (synced : flow.Synced)
    (distinct : flow.contentKeys.Nodup) (isLinear : flow.linear = .ok fields)
    (edited : List.Forall₂ flow.Edits fields entries) :
    (flow.merge entries).linear = .ok (entries.map flow.withCardMedia) ∧
      (Field.listToJson (entries.map flow.withCardMedia) = Field.listToJson entries ↔
        ∀ entry ∈ entries, ∀ own ∈ flow.cardMedia? entry.id,
          entry.media.map Media.toJson = some own.toJson) := by
  obtain ⟨_, isRead⟩ := load_eq_ok_iff.1 loads
  have kept : format.Each .kept flow := exact_format.kept_of_read isRead
  have entryKept : ∀ entry ∈ entries, Field.format.Each .kept entry :=
    ((List.forall₂_and_left entries fields).1
      (List.Forall₂.flip (edited.imp fun _ _ edits => ⟨edits.kept kept, edits⟩))).1
  have valid := exact_format.valid_of_read isRead
  refine ⟨linear_merge_of_edits valid synced distinct isLinear edited, ?_⟩
  rw [Field.listToJson, Field.listToJson, List.map_map, Json.arr.injEq, List.map_inj_left]
  exact forall₂_congr fun entry mem =>
    toJson_withCardMedia_iff (each_iff.1 kept).2.1 (entryKept entry mem)

/-- A new label of the field of that card comes back. -/
theorem linear_merge_edited_illustrated :
    (illustrated.merge [.pictured "r" .above]).linear = .ok [.pictured "r" .above] :=
  (linear_merge_edited load_illustrated (synced_chain _ none) (by decide) linear_illustrated
    (edits_illustrated "r" .above)).1

/-- A field list that was changed elsewhere, namely in the media of a field whose card has its own,
does not come back. -/
theorem exists_edit_lost :
    ∃ value flow fields entries shown, load value = .ok flow ∧ flow.Synced ∧
      flow.contentKeys.Nodup ∧ flow.linear = .ok fields ∧ List.Forall₂ flow.Edits fields entries ∧
      (flow.merge entries).linear = .ok shown ∧ Field.listToJson shown ≠ Field.listToJson entries := by
  have lost : (illustrated.merge [.pictured "q" .below]).linear = .ok [.pictured "q" .above] :=
    linear_like_illustrated rfl rfl rfl
  refine ⟨_, illustrated, _, [.pictured "q" .below], _, load_illustrated, synced_chain _ none,
    by decide, linear_illustrated, edits_illustrated "q" .below, lost, ?_⟩
  intro same
  have sameField : (Field.pictured "q" .above).toJson = (Field.pictured "q" .below).toJson :=
    (List.cons.inj (Json.arr.inj same)).1
  have sameMedia := Field.media_eq_of_toJson_eq (Field.each_pictured "q" .above)
    (Field.each_pictured "q" .below) sameField
  have samePlace : some (Json.str "above") = some (.str "below") :=
    congrArg (fun media => media.bind (·.get? "position")) sameMedia
  exact absurd (Json.str.inj (Option.some.inj samePlace)) (by decide)

end Flow

end CardForm
