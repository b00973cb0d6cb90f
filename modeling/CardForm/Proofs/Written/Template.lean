import CardForm.Proofs.Written.Flow
import CardForm.Template.Record

/-!
# Formats of envelopes and records

The formats of an envelope and of a record. Their settings are objects of any content. An envelope is
read only if it carries a flow or a field, and what comes back of it does so too.
-/
namespace CardForm

/-! ## Envelopes -/

namespace Envelope

/-- The shape of envelopes, whatever they carry. -/
def shape : Shape Envelope where
  name := "CardFormTemplateJson"
  ofMembers := partsOfMembers none
  toJson := toJson
  reread envelope :=
    { envelope with
      flow := envelope.flow.map Flow.format.reread
      fields := envelope.fields.map (List.map Field.format.reread)
      edges := envelope.edges.map (List.map EdgeSpec.format.reread)
      cardSettings := envelope.cardSettings.map Members.portable
      styling := envelope.styling.map Members.portable
      profileEstimation := envelope.profileEstimation.map Members.portable
      extras := Members.shown envelope.extras }
  extras := extras
  parts :=
    [⟨.same "version", .defaulted .integer 1, version⟩, ⟨.same "title", .optional .text, title⟩,
      ⟨.same "subtitle", .optional .text, subtitle⟩, ⟨submitTextKey, .optional .text, submitText⟩,
      ⟨successTextKey, .optional .text, successText⟩, ⟨flowKey, .optional Flow.format, flow⟩,
      ⟨fieldsKey, .optional Field.format.array, fields⟩,
      ⟨edgesKey, .optional EdgeSpec.format.array, edges⟩,
      ⟨cardSettingsKey, .optional .mapping, cardSettings⟩,
      ⟨.same "styling", .optional .mapping, styling⟩,
      ⟨profileEstimationKey, .optional .mapping, profileEstimation⟩]

/-- The format of envelopes, which carry a flow or a field. -/
def format : Format Envelope :=
  { shape.format with
    read := read
    Valid := fun envelope => shape.format.Valid envelope ∧ envelope.hasFlow = true }

/-- The shape of envelopes describes how they are read and written, whatever they carry. -/
theorem describes : shape.Describes where
  exact :=
    ⟨Slot.defaulted_exact Format.integer_exact trivial fun _ => trivial,
      Slot.optional_exact Format.text_exact, Slot.optional_exact Format.text_exact,
      Slot.optional_exact Format.text_exact, Slot.optional_exact Format.text_exact,
      Slot.optional_exact Flow.exact_format,
      Slot.optional_exact (Format.array_exact Field.exact_format),
      Slot.optional_exact (Format.array_exact EdgeSpec.exact_format),
      Slot.optional_exact Format.mapping_exact, Slot.optional_exact Format.mapping_exact,
      Slot.optional_exact Format.mapping_exact, trivial⟩
  apart := by
    simp [shape, Shape.keys, Key.Apart, Key.same, Text.ofString_inj, submitTextKey, successTextKey,
      flowKey, fieldsKey, edgesKey, cardSettingsKey, profileEstimationKey]
  wellFormed := by
    simp [shape, Shape.keys, Key.same, submitTextKey, successTextKey, flowKey, fieldsKey, edgesKey,
      cardSettingsKey, profileEstimationKey]
  reads := by
    rintro members ⟨⟩
    simp only [shape, partsOfMembers, Reading.seq_eq_ok_iff, Reading.map_eq_ok_iff, Reading.ok.injEq,
      mk.injEq, ↓existsAndEq, true_and, exists_and_left, and_assoc]
    rfl
  writes _ := rfl
  again := by
    rintro ⟨⟩ ⟨⟩
    simp only [shape, mk.injEq, Part.All, Part.Again, Slot.reread_optional_simple]
    rfl

variable {members : Members} {envelope : Envelope} {demand : Demand}

/-- An envelope is read where its parts are, and a flow or a field is among them. -/
theorem ofMembers_eq_ok_iff {given : Option Flow} :
    ofMembers given members = .ok envelope ↔
      partsOfMembers given members = .ok envelope ∧ envelope.hasFlow = true := by
  rw [ofMembers, Reading.andThen_eq_ok_iff]
  constructor
  · rintro ⟨found, isRead, guarded⟩
    split at guarded
    · rename_i hasFlow
      cases guarded
      exact ⟨isRead, hasFlow⟩
    · cases guarded
  · rintro ⟨isRead, hasFlow⟩
    exact ⟨envelope, isRead, if_pos hasFlow⟩

/-- The format of envelopes is exact. -/
theorem exact_format : format.Exact := by
  refine describes.exact_format.guarded ?_ fun envelope => ?_
  · intro found envelope
    change Reading.record "CardFormTemplateJson" (ofMembers none) found = .ok envelope ↔
      Reading.record "CardFormTemplateJson" (partsOfMembers none) found = .ok envelope ∧ _
    simp only [Reading.record_eq_ok_iff, ofMembers_eq_ok_iff]
    constructor
    · rintro ⟨members, isObject, wellFormed, isRead, hasFlow⟩
      exact ⟨⟨members, isObject, wellFormed, isRead⟩, hasFlow⟩
    · rintro ⟨⟨members, isObject, wellFormed, isRead⟩, hasFlow⟩
      exact ⟨members, isObject, wellFormed, isRead, hasFlow⟩
  · change hasFlow (shape.reread envelope) = true ↔ hasFlow envelope = true
    cases flow : envelope.flow <;> cases fields : envelope.fields <;>
      simp [hasFlow, shape, flow, fields]

/-- An envelope can be read once it was written where its flow and its fields can, and it has a flow or a
field. -/
theorem valid_iff :
    format.Valid envelope ↔ (∀ flow ∈ envelope.flow, Flow.format.Valid flow) ∧
      (∀ fields ∈ envelope.fields, ∀ field ∈ fields, Field.format.Valid field) ∧
      envelope.hasFlow = true := by
  change (∀ part ∈ shape.parts, part.Valid envelope) ∧ _ ↔ _
  simp [shape, Part.Valid, Slot.defaulted, Slot.optional, Format.simple, Format.array,
    Format.mapping, EdgeSpec.valid, and_assoc]

/-- What a demand asks of an envelope. -/
theorem each_iff :
    format.Each demand envelope ↔ demand.extras keys envelope.extras ∧
      (∀ flow ∈ envelope.flow, Flow.format.Each demand flow) ∧
      (∀ fields ∈ envelope.fields, ∀ field ∈ fields, Field.format.Each demand field) ∧
      (∀ specs ∈ envelope.edges, ∀ spec ∈ specs, EdgeSpec.format.Each demand spec) ∧
      (∀ settings ∈ envelope.cardSettings, ∀ member ∈ settings, demand.value member.2) ∧
      (∀ styling ∈ envelope.styling, ∀ member ∈ styling, demand.value member.2) ∧
      ∀ scoring ∈ envelope.profileEstimation, ∀ member ∈ scoring, demand.value member.2 := by
  refine and_congr_right fun _ => ?_
  simp [shape, Part.Each, Slot.defaulted, Slot.optional, Format.simple, Format.array, Format.mapping]

end Envelope

/-! ## Records -/

namespace Record

open Envelope (fieldsKey submitTextKey successTextKey cardSettingsKey profileEstimationKey)

/-- The shape of records. -/
def shape : Shape Record where
  name := "FormTemplateRecord"
  ofMembers := ofMembers
  toJson := toJson
  reread record :=
    { record with
      fields := record.fields.map Field.format.reread
      cardSettings := record.cardSettings.portable
      styling := record.styling.map Members.portable
      profileEstimation := record.profileEstimation.map Members.portable
      extras := Members.shown record.extras }
  extras := extras
  parts :=
    let standard : Record := {}
    [⟨fieldsKey, .defaulted Field.format.array standard.fields, fields⟩,
      ⟨.same "title", .defaulted .text standard.title, title⟩,
      ⟨.same "subtitle", .optional .text, subtitle⟩,
      ⟨submitTextKey, .defaulted .text standard.submitText, submitText⟩,
      ⟨successTextKey, .defaulted .text standard.successText, successText⟩,
      ⟨cardSettingsKey, .defaulted .mapping standard.cardSettings, cardSettings⟩,
      ⟨.same "styling", .optional .mapping, styling⟩,
      ⟨profileEstimationKey, .optional .mapping, profileEstimation⟩]

/-- The format of records. -/
def format : Format Record := shape.format

/-- The shape of records describes how they are read and written. -/
theorem describes : shape.Describes where
  exact :=
    ⟨Slot.defaulted_exact (Format.array_exact Field.exact_format)
        (fun _ mem => absurd mem List.not_mem_nil) fun _ _ mem => absurd mem List.not_mem_nil,
      Slot.defaulted_exact Format.text_exact trivial fun _ => trivial,
      Slot.optional_exact Format.text_exact,
      Slot.defaulted_exact Format.text_exact trivial fun _ => trivial,
      Slot.defaulted_exact Format.text_exact trivial fun _ => trivial,
      Slot.defaulted_exact Format.mapping_exact trivial fun _ _ mem => absurd mem List.not_mem_nil,
      Slot.optional_exact Format.mapping_exact, Slot.optional_exact Format.mapping_exact, trivial⟩
  apart := by
    simp [shape, Shape.keys, Key.Apart, Key.same, Text.ofString_inj, fieldsKey, submitTextKey,
      successTextKey, cardSettingsKey, profileEstimationKey]
  wellFormed := by
    simp [shape, Shape.keys, Key.same, fieldsKey, submitTextKey, successTextKey, cardSettingsKey,
      profileEstimationKey]
  reads := by
    rintro members ⟨⟩
    simp only [shape, ofMembers, Reading.seq_eq_ok_iff, Reading.map_eq_ok_iff, Reading.ok.injEq,
      mk.injEq, ↓existsAndEq, true_and, exists_and_left, and_assoc]
    rfl
  writes _ := rfl
  again := by
    rintro ⟨⟩ ⟨⟩
    simp only [shape, mk.injEq, Part.All, Part.Again, Slot.reread_optional_simple]
    rfl

/-- The format of records is exact. -/
theorem exact_format : format.Exact := describes.exact_format

variable {record : Record} {demand : Demand}

/-- A record can be read once it was written where its fields can. -/
theorem valid_iff : format.Valid record ↔ ∀ field ∈ record.fields, Field.format.Valid field := by
  change (∀ part ∈ shape.parts, part.Valid record) ↔ _
  simp [shape, Part.Valid, Slot.defaulted, Slot.optional, Format.simple, Format.array, Format.mapping]

/-- What a demand asks of a record. -/
theorem each_iff :
    format.Each demand record ↔ demand.extras keys record.extras ∧
      (∀ field ∈ record.fields, Field.format.Each demand field) ∧
      (∀ member ∈ record.cardSettings, demand.value member.2) ∧
      (∀ styling ∈ record.styling, ∀ member ∈ styling, demand.value member.2) ∧
      ∀ scoring ∈ record.profileEstimation, ∀ member ∈ scoring, demand.value member.2 := by
  refine and_congr_right fun _ => ?_
  simp [shape, Part.Each, Slot.defaulted, Slot.optional, Format.simple, Format.array, Format.mapping]

end Record

end CardForm
