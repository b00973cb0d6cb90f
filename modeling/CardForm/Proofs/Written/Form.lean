import CardForm.Form.Field
import CardForm.Proofs.Written.Record

/-!
# Formats of fields

The formats of a field and of all that it is made of: media, options and conditional rules. Each
type of records has a shape that describes it, and so an exact format.
-/
namespace CardForm

/-! ## Media -/

namespace MediaKind

/-- The format of kinds of media. -/
def format : Format MediaKind := .word [image, video, gif, icon] word

/-- Kinds of media are read as they are written. -/
theorem exact_format : format.Exact :=
  Format.word_exact (fun a b => by cases a <;> cases b <;> decide) (by decide)

end MediaKind

namespace Placement

/-- The format of placements. -/
def format : Format Placement := .word [above, below, background, left, right] word

/-- Placements are read as they are written. -/
theorem exact_format : format.Exact :=
  Format.word_exact (fun a b => by cases a <;> cases b <;> decide) (by decide)

end Placement

namespace VideoHost

/-- The format of video hosts. -/
abbrev format : Format VideoHost := .word [youtube, vimeo, upload] word

/-- Video hosts are read as they are written. -/
theorem exact_format : format.Exact :=
  Format.word_exact (fun a b => by cases a <;> cases b <;> decide) (by decide)

end VideoHost

namespace Media

/-- The shape of media. -/
def shape : Shape Media where
  name := "CardMedia"
  ofMembers := ofMembers
  toJson := toJson
  reread media := { media with extras := Members.shown media.extras }
  extras := extras
  parts :=
    [⟨.same "type", .required MediaKind.format, kind⟩, ⟨.same "url", .optional .text, url⟩,
      ⟨⟨"altText", "alt_text"⟩, .optional .text, altText⟩,
      ⟨.same "position", .required Placement.format, placement⟩,
      ⟨⟨"videoType", "video_type"⟩, .optional VideoHost.format, videoHost⟩,
      ⟨⟨"videoId", "video_id"⟩, .optional .text, videoId⟩]

/-- The format of media. -/
def format : Format Media := shape.format

/-- The shape of media describes how they are read and written. -/
theorem describes : shape.Describes where
  exact :=
    ⟨Slot.required_exact MediaKind.exact_format, Slot.optional_exact Format.text_exact,
      Slot.optional_exact Format.text_exact, Slot.required_exact Placement.exact_format,
      Slot.optional_exact VideoHost.exact_format, Slot.optional_exact Format.text_exact, trivial⟩
  apart := by simp [shape, Shape.keys, Key.Apart, Key.same, Text.ofString_inj]
  wellFormed := by simp [shape, Shape.keys, Key.same]
  reads := by
    rintro members ⟨⟩
    simp only [shape, ofMembers, Reading.seq_eq_ok_iff, Reading.map_eq_ok_iff, Reading.ok.injEq,
      mk.injEq, ↓existsAndEq, true_and, exists_and_left, and_assoc]
    rfl
  writes _ := rfl
  again := by
    rintro ⟨⟩ ⟨⟩
    simp only [shape, mk.injEq, Part.All, Part.Again, Slot.reread_optional_simple]
    rfl

/-- The format of media is exact. -/
theorem exact_format : format.Exact := describes.exact_format

/-- All media can be read once they were written. -/
theorem valid (media : Media) : format.Valid media := by
  have kind : MediaKind.format.Valid media.kind := by
    change media.kind ∈ [_, _, _, _]
    cases media.kind <;> decide
  have placement : Placement.format.Valid media.placement := by
    change media.placement ∈ [_, _, _, _, _]
    cases media.placement <;> decide
  have videoHost : ∀ host ∈ media.videoHost, VideoHost.format.Valid host := by
    rintro host -
    change host ∈ [_, _, _]
    cases host <;> decide
  have all : Part.All (fun part => part.Valid media) True shape.parts :=
    ⟨kind, fun _ _ => trivial, fun _ _ => trivial, placement, videoHost, fun _ _ => trivial, trivial⟩
  exact (Part.all_iff.1 all).1

/-- What a demand asks of media. -/
theorem each_iff {demand : Demand} {media : Media} :
    format.Each demand media ↔ demand.extras keys media.extras := by
  refine and_iff_left ?_
  simp [shape, Part.Each, Slot.required, Slot.optional, Format.simple, MediaKind.format,
    Placement.format]

end Media

/-! ## Options -/

namespace PicturedOption

/-- The shape of options with an image. -/
def shape : Shape PicturedOption where
  name := "FieldOption"
  ofMembers := ofMembers
  toJson := toJson
  reread option := { option with extras := Members.shown option.extras }
  extras := extras
  parts :=
    [⟨.same "value", .required .text, value⟩,
      ⟨⟨"imageUrl", "image_url"⟩, .optional .text, imageUrl⟩,
      ⟨⟨"altText", "alt_text"⟩, .optional .text, altText⟩]

/-- The format of options with an image. -/
def format : Format PicturedOption := shape.format

/-- The shape of options with an image describes how they are read and written. -/
theorem describes : shape.Describes where
  exact :=
    ⟨Slot.required_exact Format.text_exact, Slot.optional_exact Format.text_exact,
      Slot.optional_exact Format.text_exact, trivial⟩
  apart := by simp [shape, Shape.keys, Key.Apart, Key.same, Text.ofString_inj]
  wellFormed := by simp [shape, Shape.keys, Key.same]
  reads := by
    rintro members ⟨⟩
    simp only [shape, ofMembers, Reading.seq_eq_ok_iff, Reading.map_eq_ok_iff, Reading.ok.injEq,
      mk.injEq, ↓existsAndEq, true_and, exists_and_left, and_assoc]
    rfl
  writes _ := rfl
  again := by
    rintro ⟨⟩ ⟨⟩
    simp only [shape, mk.injEq, Part.All, Part.Again, Slot.reread_optional_simple]
    rfl

/-- The format of options with an image is exact. -/
theorem exact_format : format.Exact := describes.exact_format

end PicturedOption

namespace FieldOption

/-- The content of an option, with or without an image. -/
def Content : Bool → Type
  | true => PicturedOption
  | false => Text

/-- The formats of the content of options. -/
def formats : ∀ isPictured, Format (Content isPictured)
  | true => PicturedOption.format
  | false => .text

/-- An option is its content. -/
def split : FieldOption ≃ (isPictured : Bool) × Content isPictured where
  toFun
    | plain value => ⟨false, value⟩
    | pictured option => ⟨true, option⟩
  invFun
    | ⟨false, value⟩ => plain value
    | ⟨true, option⟩ => pictured option
  left_inv option := by cases option <;> rfl
  right_inv := by rintro ⟨_ | _, content⟩ <;> rfl

/-- An option is read from a text or from an object. -/
theorem read_eq_ok_iff {found : Json} {result : FieldOption} :
    read found = .ok result ↔
      (∃ s, found = .str s ∧ result = plain s) ∨
        ∃ option, PicturedOption.read found = .ok option ∧ result = pictured option := by
  unfold read
  split
  · have noObject (s : Text) (option : PicturedOption) : PicturedOption.read (.str s) ≠ .ok option :=
      Reading.fault_ne_ok
    simp [noObject, eq_comm]
  · rename_i notText
    have noText (s : Text) : found ≠ .str s := notText s
    simp only [noText, false_and, exists_false, false_or]
    cases PicturedOption.read found <;> simp [Reading.under, eq_comm]

/-- The format of options. -/
def format : Format FieldOption := .choice formats split read toJson

/-- The format of options is exact. -/
theorem exact_format : format.Exact := by
  refine Format.choice_exact (fun isPictured => ?_)
    (fun found isPictured => isPictured = false ↔ ∃ s, found = .str s) ?_ ?_ ?_ ?_
  · cases isPictured
    · exact Format.text_exact
    · exact PicturedOption.exact_format
  · intro found first second isFirst isSecond
    rw [Bool.eq_iff_iff, ← Bool.not_eq_false, ← Bool.not_eq_false, isFirst, isSecond]
  · rintro (_ | _) content
    · exact iff_of_true rfl ⟨content, rfl⟩
    · exact iff_of_false Bool.noConfusion fun ⟨s, same⟩ => Json.noConfusion same
  · rintro (value | option) <;> rfl
  · intro found option
    rw [read_eq_ok_iff]
    cases option with
    | plain value =>
      change _ ↔ (false = false ↔ _) ∧ Reading.text found = .ok value
      rw [Reading.text_eq_ok_iff]
      constructor
      · rintro (⟨s, rfl, same⟩ | ⟨_, _, ⟨⟩⟩)
        cases same
        exact ⟨iff_of_true rfl ⟨value, rfl⟩, rfl⟩
      · rintro ⟨_, rfl⟩
        exact .inl ⟨value, rfl, rfl⟩
    | pictured option =>
      change _ ↔ (true = false ↔ _) ∧ PicturedOption.read found = .ok option
      constructor
      · rintro (⟨_, _, ⟨⟩⟩ | ⟨_, isRead, ⟨⟩⟩)
        refine ⟨iff_of_false Bool.noConfusion ?_, isRead⟩
        rintro ⟨s, rfl⟩
        cases isRead
      · rintro ⟨_, isRead⟩
        exact .inr ⟨option, isRead, rfl⟩

end FieldOption

/-! ## Conditional rules -/

namespace Comparison

/-- The format of comparisons. -/
def format : Format Comparison :=
  .word [equals, notEquals, contains, notContains, greaterThan, lessThan, isEmpty, isNotEmpty,
    startsWith, endsWith] word

/-- Comparisons are read as they are written. -/
theorem exact_format : format.Exact :=
  Format.word_exact (fun a b => by cases a <;> cases b <;> decide) (by decide)

end Comparison

namespace Junction

/-- The format of junctions. -/
def format : Format Junction := .word [all, any] word

/-- Junctions are read as they are written. -/
theorem exact_format : format.Exact :=
  Format.word_exact (fun a b => by cases a <;> cases b <;> decide) (by decide)

end Junction

namespace Comparand

/-- The format of comparands. -/
def format : Format Comparand := .simple read toJson fun _ => True

/-- Comparands are read as they are written. -/
theorem exact_format : format.Exact := by
  refine Format.simple_exact (fun value => by cases value <;> exact Json.noConfusion) ?_
    fun _ => trivial
  intro value result
  cases value with
  | texts values =>
    have reads (parts : List Text) :
        Reading.array Reading.text (.arr (values.map .str)) = .ok parts ↔ parts = values := by
      have exact := Format.array_exact Format.text_exact
      refine (exact.read_toJson fun _ _ => trivial).trans ?_
      simp [Format.array, Format.text, Format.simple]
    have isRead := (reads values).2 rfl
    simp [toJson, read, isRead, eq_comm]
  | _ => simp [toJson, read, eq_comm]

end Comparand

namespace Condition

/-- The shape of conditions. -/
def shape : Shape Condition where
  name := "Condition"
  ofMembers := ofMembers
  toJson := toJson
  reread condition := { condition with extras := Members.shown condition.extras }
  extras := extras
  parts :=
    [⟨⟨"fieldId", "field_id"⟩, .required .text, fieldId⟩,
      ⟨.same "operator", .required Comparison.format, comparison⟩,
      ⟨.same "value", .required Comparand.format, comparand⟩]

/-- The format of conditions. -/
def format : Format Condition := shape.format

/-- The shape of conditions describes how they are read and written. -/
theorem describes : shape.Describes where
  exact :=
    ⟨Slot.required_exact Format.text_exact, Slot.required_exact Comparison.exact_format,
      Slot.required_exact Comparand.exact_format, trivial⟩
  apart := by simp [shape, Shape.keys, Key.Apart, Key.same, Text.ofString_inj]
  wellFormed := by simp [shape, Shape.keys, Key.same]
  reads := by
    rintro members ⟨⟩
    simp only [shape, ofMembers, Reading.seq_eq_ok_iff, Reading.map_eq_ok_iff, Reading.ok.injEq,
      mk.injEq, ↓existsAndEq, true_and, exists_and_left, and_assoc]
    rfl
  writes _ := rfl
  again := by
    rintro ⟨⟩ ⟨⟩
    exact Iff.of_eq (mk.injEq ..)

/-- The format of conditions is exact. -/
theorem exact_format : format.Exact := describes.exact_format

end Condition

namespace ConditionGroup

/-- The shape of groups of conditions. -/
def shape : Shape ConditionGroup where
  name := "ConditionGroup"
  ofMembers := ofMembers
  toJson := toJson
  reread group :=
    { group with
      conditions := group.conditions.map Condition.format.reread
      extras := Members.shown group.extras }
  extras := extras
  parts :=
    [⟨.same "operator", .required Junction.format, junction⟩,
      ⟨.same "conditions", .required Condition.format.array, conditions⟩]

/-- The format of groups of conditions. -/
def format : Format ConditionGroup := shape.format

/-- The shape of groups of conditions describes how they are read and written. -/
theorem describes : shape.Describes where
  exact :=
    ⟨Slot.required_exact Junction.exact_format,
      Slot.required_exact (Format.array_exact Condition.exact_format), trivial⟩
  apart := by simp [shape, Shape.keys, Key.Apart, Key.same, Text.ofString_inj]
  wellFormed := by simp [shape, Shape.keys, Key.same]
  reads := by
    rintro members ⟨⟩
    simp only [shape, ofMembers, Reading.seq_eq_ok_iff, Reading.map_eq_ok_iff, Reading.ok.injEq,
      mk.injEq, ↓existsAndEq, true_and, exists_and_left, and_assoc]
    rfl
  writes _ := rfl
  again := by
    rintro ⟨⟩ ⟨⟩
    exact Iff.of_eq (mk.injEq ..)

/-- The format of groups of conditions is exact. -/
theorem exact_format : format.Exact := describes.exact_format

end ConditionGroup

namespace Jump

/-- The shape of jumps. -/
def shape : Shape Jump where
  name := "JumpRule"
  ofMembers := ofMembers
  toJson := toJson
  reread jump :=
    { jump with
      conditions := ConditionGroup.format.reread jump.conditions
      extras := Members.shown jump.extras }
  extras := extras
  parts :=
    [⟨.same "conditions", .required ConditionGroup.format, conditions⟩,
      ⟨⟨"targetFieldId", "target_field_id"⟩, .required .text, target⟩]

/-- The format of jumps. -/
def format : Format Jump := shape.format

/-- The shape of jumps describes how they are read and written. -/
theorem describes : shape.Describes where
  exact :=
    ⟨Slot.required_exact ConditionGroup.exact_format, Slot.required_exact Format.text_exact,
      trivial⟩
  apart := by simp [shape, Shape.keys, Key.Apart, Key.same, Text.ofString_inj]
  wellFormed := by simp [shape, Shape.keys, Key.same]
  reads := by
    rintro members ⟨⟩
    simp only [shape, ofMembers, Reading.seq_eq_ok_iff, Reading.map_eq_ok_iff, Reading.ok.injEq,
      mk.injEq, ↓existsAndEq, true_and, exists_and_left, and_assoc]
    rfl
  writes _ := rfl
  again := by
    rintro ⟨⟩ ⟨⟩
    exact Iff.of_eq (mk.injEq ..)

/-- The format of jumps is exact. -/
theorem exact_format : format.Exact := describes.exact_format

end Jump

namespace Relabelling

/-- The shape of relabellings. -/
def shape : Shape Relabelling where
  name := "DynamicLabel"
  ofMembers := ofMembers
  toJson := toJson
  reread relabelling :=
    { relabelling with
      conditions := ConditionGroup.format.reread relabelling.conditions
      extras := Members.shown relabelling.extras }
  extras := extras
  parts :=
    [⟨.same "conditions", .required ConditionGroup.format, conditions⟩,
      ⟨.same "label", .required .text, label⟩]

/-- The format of relabellings. -/
def format : Format Relabelling := shape.format

/-- The shape of relabellings describes how they are read and written. -/
theorem describes : shape.Describes where
  exact :=
    ⟨Slot.required_exact ConditionGroup.exact_format, Slot.required_exact Format.text_exact,
      trivial⟩
  apart := by simp [shape, Shape.keys, Key.Apart, Key.same, Text.ofString_inj]
  wellFormed := by simp [shape, Shape.keys, Key.same]
  reads := by
    rintro members ⟨⟩
    simp only [shape, ofMembers, Reading.seq_eq_ok_iff, Reading.map_eq_ok_iff, Reading.ok.injEq,
      mk.injEq, ↓existsAndEq, true_and, exists_and_left, and_assoc]
    rfl
  writes _ := rfl
  again := by
    rintro ⟨⟩ ⟨⟩
    exact Iff.of_eq (mk.injEq ..)

/-- The format of relabellings is exact. -/
theorem exact_format : format.Exact := describes.exact_format

end Relabelling

namespace Logic

/-- The shape of conditional rules. -/
def shape : Shape Logic where
  name := "ConditionalLogic"
  ofMembers := ofMembers
  toJson := toJson
  reread logic :=
    { showIf := logic.showIf.map ConditionGroup.format.reread
      hideIf := logic.hideIf.map ConditionGroup.format.reread
      jumps := logic.jumps.map (List.map Jump.format.reread)
      labels := logic.labels.map (List.map Relabelling.format.reread)
      extras := Members.shown logic.extras }
  extras := extras
  parts :=
    [⟨⟨"showIf", "show_if"⟩, .optional ConditionGroup.format, showIf⟩,
      ⟨⟨"hideIf", "hide_if"⟩, .optional ConditionGroup.format, hideIf⟩,
      ⟨⟨"jumpTo", "jump_to"⟩, .optional Jump.format.array, jumps⟩,
      ⟨⟨"dynamicLabel", "dynamic_label"⟩, .optional Relabelling.format.array, labels⟩]

/-- The format of conditional rules. -/
def format : Format Logic := shape.format

/-- The shape of conditional rules describes how they are read and written. -/
theorem describes : shape.Describes where
  exact :=
    ⟨Slot.optional_exact ConditionGroup.exact_format,
      Slot.optional_exact ConditionGroup.exact_format,
      Slot.optional_exact (Format.array_exact Jump.exact_format),
      Slot.optional_exact (Format.array_exact Relabelling.exact_format), trivial⟩
  apart := by simp [shape, Shape.keys, Key.Apart, Text.ofString_inj]
  wellFormed := by simp [shape, Shape.keys]
  reads := by
    rintro members ⟨⟩
    simp only [shape, ofMembers, Reading.seq_eq_ok_iff, Reading.map_eq_ok_iff, Reading.ok.injEq,
      mk.injEq, ↓existsAndEq, true_and, exists_and_left, and_assoc]
    rfl
  writes _ := rfl
  again := by
    rintro ⟨⟩ ⟨⟩
    exact Iff.of_eq (mk.injEq ..)

/-- The format of conditional rules is exact. -/
theorem exact_format : format.Exact := describes.exact_format

end Logic

/-! ## Fields -/

namespace FieldKind

/-- The format of the known kinds of fields. -/
def format : Format FieldKind := .word known name

/-- Known kinds of fields are read as they are written. -/
theorem exact_format : format.Exact :=
  Format.word_exact (fun _ _ same => congrArg mk same) (by decide)

end FieldKind

namespace Field

/-- The shape of fields. -/
def shape : Shape Field where
  name := "FormField"
  ofMembers := ofMembers
  toJson := toJson
  reread field :=
    { field with
      options := field.options.map (List.map FieldOption.format.reread)
      media := field.media.map Media.format.reread
      logic := field.logic.map Logic.format.reread
      extras := Members.shown field.extras }
  extras := extras
  parts :=
    [⟨.same "id", .required .name, id⟩, ⟨.same "type", .required FieldKind.format, kind⟩,
      ⟨.same "label", .required .text, label⟩,
      ⟨.same "placeholder", .optional .text, placeholder⟩,
      ⟨.same "options", .optional FieldOption.format.array, options⟩,
      ⟨.same "required", .optional .boolean, required⟩,
      ⟨.same "media", .optional Media.format, media⟩,
      ⟨⟨"conditionalLogic", "conditional_logic"⟩, .optional Logic.format, logic⟩,
      ⟨⟨"enablePiping", "enable_piping"⟩, .optional .boolean, enablePiping⟩,
      ⟨⟨"pipingKey", "piping_key"⟩, .optional .text, pipingKey⟩]

/-- The format of fields. -/
def format : Format Field := shape.format

/-- The shape of fields describes how they are read and written. -/
theorem describes : shape.Describes where
  exact :=
    ⟨Slot.required_exact Format.name_exact, Slot.required_exact FieldKind.exact_format,
      Slot.required_exact Format.text_exact, Slot.optional_exact Format.text_exact,
      Slot.optional_exact (Format.array_exact FieldOption.exact_format),
      Slot.optional_exact Format.boolean_exact, Slot.optional_exact Media.exact_format,
      Slot.optional_exact Logic.exact_format, Slot.optional_exact Format.boolean_exact,
      Slot.optional_exact Format.text_exact, trivial⟩
  apart := by simp [shape, Shape.keys, Key.Apart, Key.same, Text.ofString_inj]
  wellFormed := by simp [shape, Shape.keys, Key.same]
  reads := by
    rintro members ⟨⟩
    simp only [shape, ofMembers, Reading.seq_eq_ok_iff, Reading.map_eq_ok_iff, Reading.ok.injEq,
      mk.injEq, ↓existsAndEq, true_and, exists_and_left, and_assoc]
    rfl
  writes _ := rfl
  again := by
    rintro ⟨⟩ ⟨⟩
    simp only [shape, mk.injEq, Part.All, Part.Again, Slot.reread_optional_simple]
    rfl

/-- The format of fields is exact. -/
theorem exact_format : format.Exact := describes.exact_format

variable {field : Field} {demand : Demand}

/-- A field can be read once it was written where it has a name, is of a known kind, and its parts
can be read. -/
theorem valid_iff :
    format.Valid field ↔ Format.name.Valid field.id ∧ field.kind ∈ FieldKind.known ∧
      (∀ options ∈ field.options, FieldOption.format.array.Valid options) ∧
      (∀ media ∈ field.media, Media.format.Valid media) ∧
      ∀ logic ∈ field.logic, Logic.format.Valid logic := by
  change (∀ part ∈ shape.parts, part.Valid field) ↔ _
  simp [shape, Part.Valid, Slot.required, Slot.optional, Format.simple, FieldKind.format]

/-- What a demand asks of a field. -/
theorem each_iff :
    format.Each demand field ↔ demand.extras keys field.extras ∧
      (∀ options ∈ field.options, FieldOption.format.array.Each demand options) ∧
      (∀ media ∈ field.media, Media.format.Each demand media) ∧
      ∀ logic ∈ field.logic, Logic.format.Each demand logic := by
  refine and_congr_right fun _ => ?_
  simp [shape, Part.Each, Slot.required, Slot.optional, Format.simple, FieldKind.format]

end Field

end CardForm
