import CardForm.Proofs.Written.Format

/-!
# Formats of records

A record is read from an object part by part, each from its declared key, and the members left over
are its extras. A `Slot` says how a part is read from what is found under its key, if anything, what
is written of it, and what comes back. A `Shape` lists the parts of a type of records, each with its
key and its slot. Where the shape describes how the records are read and written
(`Shape.Describes`), the format of the records is exact (`Shape.Describes.exact_format`).
-/
namespace CardForm

/-- How the values under a declared key are read and written. -/
structure Slot (α : Type) where
  /-- Read the value of a declared key. -/
  read : Members → Key → Reading α
  /-- What is written under the key. -/
  written : α → Option Json
  /-- What is read of a value that was written. -/
  reread : α → α
  /-- Whether a value can be read once it was written. -/
  Valid : α → Prop
  /-- What a demand asks of all parts of a value. -/
  Each : Demand → α → Prop
  /-- The objects among the parts of what is read, each with the declared keys of its type. -/
  Objects : Members → Key → Set (List Key × Members)
  /-- Whether the unknown members of these objects, apart from those that are null, stand in what is
  written, each in the place of its object. -/
  Carries : Members → Key → Option Json → Prop

namespace Slot

variable {α : Type} {format : Format α}

/-- The objects among the parts of the value of a declared key. -/
def objectsUnder (format : Format α) (members : Members) (key : Key) : Set (List Key × Members) :=
  {object | ∃ found, key.find? members = some found ∧ object ∈ format.Objects found.2}

/-- No object among the parts of the value of a declared key spells a declared key both ways. -/
def SpellsOnce (slot : Slot α) (members : Members) (key : Key) : Prop :=
  ∀ object ∈ slot.Objects members key, Members.SpelledOnce object.1 object.2

/-- There are no objects among the parts of values without extras. -/
theorem spelledOnce_simple {read : Json → Reading α} {toJson : α → Json} {valid : α → Prop}
    {members : Members} {key : Key} : ∀ object ∈ objectsUnder (.simple read toJson valid) members key,
      Members.SpelledOnce object.1 object.2 := by
  rintro object ⟨_, _, ⟨⟩⟩

/-- The laws of a slot; they are those of a format. -/
structure Exact (slot : Slot α) : Prop where
  /-- Exactly the valid values are read where they were written. -/
  read_written : ∀ {members key value result}, slot.Each .once value →
    key.find? members = (slot.written value).map (fun found => (key.camel, found)) →
      (slot.read members key = .ok result ↔ slot.Valid value ∧ result = slot.reread value)
  /-- What is read is written as it was written before. -/
  written_reread : ∀ {value}, slot.Each .finite value →
    slot.written (slot.reread value) = slot.written value
  /-- A value that is read is valid. -/
  valid_of_read : ∀ {members key value}, slot.read members key = .ok value → slot.Valid value
  /-- A valid value is still valid after it was written and read. -/
  valid_reread : ∀ {value}, slot.Valid value → slot.Valid (slot.reread value)
  /-- The extras in a value that is read bear none of the declared keys in camel case. -/
  kept_of_read : ∀ {members key value}, slot.read members key = .ok value → slot.Each .kept value
  /-- What is read where all numbers are finite has finite numbers. -/
  finite_of_read : ∀ {members key value}, Json.haveFinite members = true →
    slot.read members key = .ok value → slot.Each .finite value
  /-- What a demand asks of a value, it asks of what is read of it. -/
  each_reread : ∀ {demand value}, slot.Each demand value → slot.Each demand (slot.reread value)
  /-- What a stronger demand asks, a weaker one does. -/
  mono : ∀ {strong weak : Demand} {value}, strong.Implies weak → slot.Each strong value →
    slot.Each weak value
  /-- What each of two demands asks, both ask at once. -/
  each_both : ∀ {first second : Demand} {value}, slot.Each first value → slot.Each second value →
    slot.Each (first.both second) value
  /-- The extras in a value spell no declared key where no object that it is read from spells one both
  ways. -/
  once_of_read : ∀ {members key value}, slot.read members key = .ok value →
    slot.SpellsOnce members key → slot.Each .once value
  /-- The unknown members that are not null are written. -/
  carries_of_read : ∀ {members key value}, slot.read members key = .ok value →
    slot.Carries members key (slot.written value)

/-- A value that must be there. -/
def required (format : Format α) : Slot α where
  read members key := members.required key format.read
  written value := some (format.toJson value)
  reread := format.reread
  Valid := format.Valid
  Each := format.Each
  Objects := objectsUnder format
  Carries members key written := ∀ found, key.find? members = some found →
    ∃ part, written = some part ∧ format.Carries found.2 part

/-- A value that must be there is in an exact slot where its format is exact. -/
theorem required_exact (exact : format.Exact) : (required format).Exact where
  read_written once isFound := by
    simp only [required, Members.required_eq_ok_iff, isFound, Option.map_some, Option.some.injEq,
      exists_eq_left']
    exact exact.read_toJson once
  written_reread finite := congrArg some (exact.toJson_reread finite)
  valid_of_read isRead := by
    obtain ⟨_, _, isRead⟩ := Members.required_eq_ok_iff.1 isRead
    exact exact.valid_of_read isRead
  valid_reread := exact.valid_reread
  kept_of_read isRead := by
    obtain ⟨_, _, isRead⟩ := Members.required_eq_ok_iff.1 isRead
    exact exact.kept_of_read isRead
  finite_of_read finite isRead := by
    obtain ⟨_, isFound, isRead⟩ := Members.required_eq_ok_iff.1 isRead
    exact exact.finite_of_read (Key.isFinite_of_find? finite isFound) isRead
  each_reread := exact.each_reread
  mono := exact.mono
  each_both := exact.each_both
  once_of_read isRead once := by
    obtain ⟨found, isFound, isRead⟩ := Members.required_eq_ok_iff.1 isRead
    exact exact.once_of_read isRead fun object mem => once object ⟨found, isFound, mem⟩
  carries_of_read isRead := by
    obtain ⟨_, isFound, isRead⟩ := Members.required_eq_ok_iff.1 isRead
    intro found same
    cases isFound.symm.trans same
    exact ⟨_, rfl, exact.carries_of_read isRead⟩

/-- A value with a standard one in its place where it is not there. -/
def defaulted (format : Format α) (standard : α) : Slot α where
  read members key := members.defaulted key standard format.read
  written value := some (format.toJson value)
  reread := format.reread
  Valid := format.Valid
  Each := format.Each
  Objects := objectsUnder format
  Carries members key written := ∀ found, key.find? members = some found →
    ∃ part, written = some part ∧ format.Carries found.2 part

/-- A value with a valid standard one is in an exact slot where its format is exact. -/
theorem defaulted_exact {standard : α} (exact : format.Exact) (valid : format.Valid standard)
    (each : ∀ demand, format.Each demand standard) : (defaulted format standard).Exact where
  read_written once isFound := by
    simp only [defaulted, Members.defaulted_eq_ok_iff, isFound, Option.map_some, Option.some.injEq,
      exists_eq_left', reduceCtorEq, false_and, false_or]
    exact exact.read_toJson once
  written_reread finite := congrArg some (exact.toJson_reread finite)
  valid_of_read isRead := by
    obtain ⟨_, rfl⟩ | ⟨_, _, isRead⟩ := Members.defaulted_eq_ok_iff.1 isRead
    · exact valid
    · exact exact.valid_of_read isRead
  valid_reread := exact.valid_reread
  kept_of_read isRead := by
    obtain ⟨_, rfl⟩ | ⟨_, _, isRead⟩ := Members.defaulted_eq_ok_iff.1 isRead
    · exact each .kept
    · exact exact.kept_of_read isRead
  finite_of_read finite isRead := by
    obtain ⟨_, rfl⟩ | ⟨_, isFound, isRead⟩ := Members.defaulted_eq_ok_iff.1 isRead
    · exact each .finite
    · exact exact.finite_of_read (Key.isFinite_of_find? finite isFound) isRead
  each_reread := exact.each_reread
  mono := exact.mono
  each_both := exact.each_both
  once_of_read isRead once := by
    obtain ⟨_, rfl⟩ | ⟨found, isFound, isRead⟩ := Members.defaulted_eq_ok_iff.1 isRead
    · exact each .once
    · exact exact.once_of_read isRead fun object mem => once object ⟨found, isFound, mem⟩
  carries_of_read isRead := by
    intro found same
    obtain ⟨none, _⟩ | ⟨_, isFound, isRead⟩ := Members.defaulted_eq_ok_iff.1 isRead
    · cases none.symm.trans same
    · cases isFound.symm.trans same
      exact ⟨_, rfl, exact.carries_of_read isRead⟩

/-- A value that may be absent or null. -/
def optional (format : Format α) : Slot (Option α) where
  read members key := members.optional key format.read
  written value := value.map format.toJson
  reread := Option.map format.reread
  Valid value := ∀ part ∈ value, format.Valid part
  Each demand value := ∀ part ∈ value, format.Each demand part
  Objects := objectsUnder format
  Carries members key written := ∀ found, key.find? members = some found → found.2 ≠ .null →
    ∃ part, written = some part ∧ format.Carries found.2 part

/-- A value without extras that may be absent comes back as it was. -/
theorem reread_optional_simple {read : Json → Reading α} {toJson : α → Json} {valid : α → Prop}
    {value : Option α} : (optional (.simple read toJson valid)).reread value = value :=
  Option.map_id'

/-- A value that may be absent is in an exact slot where its format is exact. -/
theorem optional_exact (exact : format.Exact) : (optional format).Exact where
  read_written {members key value result} once isFound := by
    change members.optional key format.read = .ok result ↔ _
    rw [Members.optional_eq_ok_iff, isFound]
    cases value with
    | none => simp [optional]
    | some value =>
      have notNull := exact.toJson_ne_null value
      have reads {part : α} : format.read (format.toJson value) = .ok part ↔
          format.Valid value ∧ part = format.reread value := exact.read_toJson (once value rfl)
      simp only [optional, Option.map_some, Option.some.injEq, Option.mem_def, forall_eq',
        exists_eq_left', notNull, false_and, false_or, ne_eq, not_false_eq_true, true_and,
        reduceCtorEq]
      constructor
      · rintro ⟨part, isRead, rfl⟩
        obtain ⟨valid, rfl⟩ := reads.1 isRead
        exact ⟨valid, rfl⟩
      · rintro ⟨valid, rfl⟩
        exact ⟨_, reads.2 ⟨valid, rfl⟩, rfl⟩
  written_reread {value} finite := by
    cases value with
    | none => rfl
    | some value => exact congrArg some (exact.toJson_reread (finite value rfl))
  valid_of_read isRead part mem := by
    obtain ⟨_, _, _, isRead⟩ := Members.exists_of_optional_eq_ok isRead mem
    exact exact.valid_of_read isRead
  valid_reread {value} valid part mem := by
    obtain ⟨before, rfl, rfl⟩ := Option.map_eq_some_iff.1 mem
    exact exact.valid_reread (valid before rfl)
  kept_of_read isRead part mem := by
    obtain ⟨_, _, _, isRead⟩ := Members.exists_of_optional_eq_ok isRead mem
    exact exact.kept_of_read isRead
  finite_of_read finite isRead part mem := by
    obtain ⟨_, isFound, _, isRead⟩ := Members.exists_of_optional_eq_ok isRead mem
    exact exact.finite_of_read (Key.isFinite_of_find? finite isFound) isRead
  each_reread {demand value} each part mem := by
    obtain ⟨before, rfl, rfl⟩ := Option.map_eq_some_iff.1 mem
    exact exact.each_reread (each before rfl)
  mono implies each part mem := exact.mono implies (each part mem)
  each_both one two part mem := exact.each_both (one part mem) (two part mem)
  once_of_read isRead once part mem := by
    obtain ⟨found, isFound, _, isRead⟩ := Members.exists_of_optional_eq_ok isRead mem
    exact exact.once_of_read isRead fun object inPart => once object ⟨found, isFound, inPart⟩
  carries_of_read isRead := by
    intro found same notNull
    obtain ⟨none, _⟩ | ⟨_, isFound, ⟨isNull, _⟩ | ⟨_, part, partRead, rfl⟩⟩ :=
      Members.optional_eq_ok_iff.1 isRead
    · cases none.symm.trans same
    · cases isFound.symm.trans same
      exact absurd isNull notNull
    · cases isFound.symm.trans same
      exact ⟨_, rfl, exact.carries_of_read partRead⟩

/-- A value of any content, null where it is not there. -/
def anything : Slot Json where
  read members key := members.defaulted key .null .ok
  written value := if value.isNull then none else some value.portable
  reread := Json.portable
  Valid _ := True
  Each demand value := demand.value value
  Objects _ _ := ∅
  Carries members key written := ∀ found, key.find? members = some found → found.2 ≠ .null →
    written = some found.2.portable

/-- A value of any content is in an exact slot. -/
theorem anything_exact : anything.Exact where
  read_written {members key value result} _ isFound := by
    simp only [anything, Members.defaulted_eq_ok_iff, isFound, true_and]
    by_cases null : value.isNull = true
    · have isNull : value = .null := by cases value <;> first | rfl | cases null
      simp [isNull, Json.isNull, Json.portable]
    · simpa [null] using eq_comm
  written_reread {value} finite := by
    simp only [anything, Json.isNull_portable finite, Json.portable_portable]
  valid_of_read _ := trivial
  valid_reread _ := trivial
  kept_of_read _ := trivial
  finite_of_read finite isRead := by
    obtain ⟨_, rfl⟩ | ⟨_, isFound, isRead⟩ := Members.defaulted_eq_ok_iff.1 isRead
    · exact Demand.finite.value_null
    · cases isRead
      exact Key.isFinite_of_find? finite isFound
  each_reread {demand value} each := demand.value_portable each
  mono implies each := implies.value each
  each_both one two := ⟨one, two⟩
  once_of_read _ _ := trivial
  carries_of_read isRead := by
    intro found same notNull
    obtain ⟨none, _⟩ | ⟨_, isFound, isRead⟩ := Members.defaulted_eq_ok_iff.1 isRead
    · cases none.symm.trans same
    · cases isFound.symm.trans same
      cases isRead
      exact if_neg (Json.isNull_iff.not.2 notNull)

end Slot

/-- A part of the records of a type. -/
structure Part (α : Type) where
  /-- What the part is. -/
  {Content : Type}
  /-- Its declared key. -/
  key : Key
  /-- How it is read and written. -/
  slot : Slot Content
  /-- The part of a record. -/
  get : α → Content

namespace Part

variable {α : Type} (part : Part α)

/-- The part of a record is read from some members. -/
def Reads (members : Members) (value : α) : Prop :=
  part.slot.read members part.key = .ok (part.get value)

/-- What is written of the part of a record. -/
def written (value : α) : Option Json := part.slot.written (part.get value)

/-- The part of a record is what comes back of the part of another. -/
def Again (value result : α) : Prop := part.get result = part.slot.reread (part.get value)

/-- The part of a record can be read once it was written. -/
def Valid (value : α) : Prop := part.slot.Valid (part.get value)

/-- What a demand asks of the part of a record. -/
def Each (demand : Demand) (value : α) : Prop := part.slot.Each demand (part.get value)

/-- Something holds of all parts, and last something more. -/
def All (holds : Part α → Prop) (last : Prop) : List (Part α) → Prop
  | [] => last
  | part :: rest => holds part ∧ All holds last rest

/-- What holds of all parts holds of each of them. -/
theorem all_iff {holds : Part α → Prop} {last : Prop} {parts : List (Part α)} :
    All holds last parts ↔ (∀ part ∈ parts, holds part) ∧ last := by
  induction parts with
  | nil => simp [All]
  | cons part rest ih => rw [All, ih, List.forall_mem_cons, and_assoc]

end Part

/-- The shape of the records of a type. -/
structure Shape (α : Type) where
  /-- The name of the type in messages. -/
  name : Text
  /-- Read a record from the members of an object. -/
  ofMembers : Members → Reading α
  /-- A record as JSON. -/
  toJson : α → Json
  /-- What is read of a record that was written. -/
  reread : α → α
  /-- The extras of a record. -/
  extras : α → Members
  /-- The parts of a record. -/
  parts : List (Part α)

namespace Shape

variable {α : Type}

/-- The declared keys. -/
def keys (shape : Shape α) : List Key := shape.parts.map Part.key

/-- The declared keys with what is written of a record. -/
def entries (shape : Shape α) (value : α) : Entries :=
  shape.parts.map fun part => (part.key, part.written value)

/-- A key that spells no declared one. -/
def Unknown (shape : Shape α) (name : Text) : Prop :=
  ∀ key ∈ shape.keys, name ≠ key.camel ∧ name ≠ key.plain

/-- The format of the records. -/
def format (shape : Shape α) : Format α where
  read := .record shape.name shape.ofMembers
  toJson := shape.toJson
  reread := shape.reread
  Valid value := ∀ part ∈ shape.parts, part.Valid value
  Each demand value :=
    demand.extras shape.keys (shape.extras value) ∧ ∀ part ∈ shape.parts, part.Each demand value
  Objects found :=
    {object | ∃ members, found = .obj members ∧ (object = (shape.keys, members) ∨
      ∃ part ∈ shape.parts, object ∈ part.slot.Objects members part.key)}
  Carries found written := ∀ members : Members, found = .obj members →
    (∀ name value, members.get? name = some value → shape.Unknown name → value ≠ .null →
      written.get? name = some value.portable) ∧
    ∀ part ∈ shape.parts, part.slot.Carries members part.key (written.get? part.key.camel)

/-- No object spells a declared key both ways where its record does not, and none of the objects among
the parts of the record. -/
theorem spellsOnce_obj_iff {shape : Shape α} {members : Members} :
    shape.format.SpellsOnce (.obj members) ↔ Members.SpelledOnce shape.keys members ∧
      Part.All (fun part => part.slot.SpellsOnce members part.key) True shape.parts := by
  rw [Part.all_iff, and_true]
  constructor
  · intro once
    exact ⟨once _ ⟨members, rfl, .inl rfl⟩, fun part mem object inPart =>
      once object ⟨members, rfl, .inr ⟨part, mem, inPart⟩⟩⟩
  · rintro ⟨own, parts⟩ object ⟨_, ⟨⟩, rfl | ⟨part, mem, inPart⟩⟩
    · exact own
    · exact parts part mem object inPart

/-- A shape describes how the records of a type are read and written. -/
structure Describes (shape : Shape α) : Prop where
  /-- The slots are exact. -/
  exact : Part.All (fun part => part.slot.Exact) True shape.parts
  /-- The declared keys share no spelling. -/
  apart : shape.keys.Pairwise Key.Apart
  /-- The declared keys are well-formed. -/
  wellFormed : ∀ key ∈ shape.keys, key.camel.isWellFormed = true
  /-- A record is read part by part. -/
  reads : ∀ members value, shape.ofMembers members = .ok value ↔
    Part.All (fun part => part.Reads members value)
      (members.extras shape.keys = shape.extras value) shape.parts
  /-- A record is written part by part. -/
  writes : ∀ value, shape.toJson value =
    .obj (Members.declared (shape.entries value) ++ Members.shown (shape.extras value))
  /-- A record comes back part by part. -/
  again : ∀ value result, result = shape.reread value ↔
    Part.All (fun part => part.Again value result)
      (shape.extras result = Members.shown (shape.extras value)) shape.parts

/-- The declared keys of a record that is written. -/
theorem map_fst_entries (shape : Shape α) (value : α) :
    (shape.entries value).map Prod.fst = shape.keys := by
  simp only [entries, keys, List.map_map]
  rfl

namespace Describes

variable {shape : Shape α}

/-- The keys in a written record are well-formed where those of its extras are. -/
theorem wellFormed_written (describes : shape.Describes) {value : α}
    (wellFormed : ∀ member ∈ shape.extras value, member.1.isWellFormed = true) :
    ∀ member ∈ Members.declared (shape.entries value) ++ Members.shown (shape.extras value),
      member.1.isWellFormed = true := by
  rintro ⟨name, found⟩ mem
  obtain inDeclared | inShown := List.mem_append.1 mem
  · obtain ⟨key, inEntries, rfl⟩ := Members.mem_declared_iff.1 inDeclared
    apply describes.wellFormed
    rw [← shape.map_fst_entries value]
    exact List.mem_map_of_mem inEntries
  · obtain ⟨before, inExtras, _⟩ := Members.mem_shown_iff.1 inShown
    exact wellFormed (name, before) inExtras

/-- Each slot is exact. -/
theorem exact_slot (describes : shape.Describes) {part : Part α} (mem : part ∈ shape.parts) :
    part.slot.Exact :=
  (Part.all_iff.1 describes.exact).1 part mem

/-- Each part of what comes back is what comes back of the part. -/
theorem again_reread (describes : shape.Describes) (value : α) :
    (∀ part ∈ shape.parts, part.Again value (shape.reread value)) ∧
      shape.extras (shape.reread value) = Members.shown (shape.extras value) :=
  Part.all_iff.1 ((describes.again value _).1 rfl)

/-- Each part of a record that is read is read, and what is left are its extras. -/
theorem reads_of_read (describes : shape.Describes) {found : Json} {value : α}
    (isRead : shape.format.read found = .ok value) :
    ∃ members : Members, found = .obj members ∧
      (∀ member ∈ members, member.1.isWellFormed = true) ∧
      (∀ part ∈ shape.parts, part.Reads members value) ∧
        members.extras shape.keys = shape.extras value := by
  obtain ⟨members, rfl, wellFormed, isRead⟩ := Reading.record_eq_ok_iff.1 isRead
  exact ⟨members, rfl, wellFormed, Part.all_iff.1 ((describes.reads members value).1 isRead)⟩

/-- The extras in a record that is read bear none of the declared keys in camel case. -/
theorem kept_of_read (describes : shape.Describes) {found : Json} {value : α}
    (isRead : shape.format.read found = .ok value) : shape.format.Each .kept value := by
  obtain ⟨members, _, wellFormed, reads, extras⟩ := describes.reads_of_read isRead
  refine ⟨?_, fun part mem => (describes.exact_slot mem).kept_of_read (reads part mem)⟩
  rw [← extras]
  exact fun member mem => ⟨wellFormed member (List.mem_of_mem_filter mem),
    fun key inKeys => Members.ne_camel_of_mem_extras inKeys mem⟩

/-- A declared key of a written record has what is written of its part. -/
theorem get?_toJson (describes : shape.Describes) {part : Part α} (mem : part ∈ shape.parts)
    {value : α} (kept : shape.format.Each .kept value) :
    (shape.toJson value).get? part.key.camel = part.written value := by
  have apart : ((shape.entries value).map Prod.fst).Pairwise Key.Apart := by
    rw [shape.map_fst_entries]
    exact describes.apart
  have noExtra : (Members.shown (shape.extras value)).get? part.key.camel = none := by
    refine Members.get?_eq_none ?_
    rintro ⟨name, found⟩ inShown
    obtain ⟨before, inExtras, _⟩ := Members.mem_shown_iff.1 inShown
    exact (kept.1 _ inExtras).2 part.key (List.mem_map_of_mem mem)
  rw [describes.writes]
  change Members.get? _ part.key.camel = _
  rw [Members.get?_append, Members.get?_declared apart
    (List.mem_map_of_mem mem : (part.key, part.written value) ∈ shape.entries value), noExtra,
    Option.or_none]

/-- An unknown key of a written record has what is shown of the extras. -/
theorem get?_toJson_unknown (describes : shape.Describes) {name : Text} (unknown : shape.Unknown name)
    (value : α) :
    (shape.toJson value).get? name = (Members.shown (shape.extras value)).get? name := by
  have notDeclared : (Members.declared (shape.entries value)).get? name = none := by
    refine Members.get?_eq_none fun member mem => ?_
    obtain ⟨key, inEntries, same⟩ := Members.mem_declared_iff.1 mem
    have inKeys : key ∈ shape.keys := by
      rw [← shape.map_fst_entries value]
      exact List.mem_map_of_mem inEntries
    rw [← same]
    exact (unknown key inKeys).1.symm
  rw [describes.writes]
  change Members.get? _ name = _
  rw [Members.get?_append, notDeclared, Option.none_or]

/-- Records are written alike where what is written of each part is the same, and what is shown of their
extras. -/
theorem toJson_eq_iff (describes : shape.Describes) {value other : α}
    (kept : shape.format.Each .kept value) (otherKept : shape.format.Each .kept other) :
    shape.toJson value = shape.toJson other ↔
      (∀ part ∈ shape.parts, part.written value = part.written other) ∧
        Members.shown (shape.extras value) = Members.shown (shape.extras other) := by
  have entries (parts : ∀ part ∈ shape.parts, part.written value = part.written other) :
      shape.entries value = shape.entries other :=
    List.map_congr_left fun part mem => congrArg (part.key, ·) (parts part mem)
  constructor
  · intro same
    have parts : ∀ part ∈ shape.parts, part.written value = part.written other := by
      intro part mem
      rw [← describes.get?_toJson mem kept, ← describes.get?_toJson mem otherKept, same]
    rw [describes.writes, describes.writes, entries parts, Json.obj.injEq] at same
    exact ⟨parts, List.append_cancel_left same⟩
  · rintro ⟨parts, extras⟩
    rw [describes.writes, describes.writes, entries parts, extras]

/-- The extras of a record that was read spell no declared key exactly where its object spells none
of them both ways. -/
theorem once_extras_iff (describes : shape.Describes) {members : Members} {value : α}
    (isRead : shape.format.read (.obj members) = .ok value) :
    Demand.once.extras shape.keys (shape.extras value) ↔
      Members.SpelledOnce shape.keys members := by
  obtain ⟨_, isObject, wellFormed, _, extras⟩ := describes.reads_of_read isRead
  cases isObject
  rw [← extras]
  constructor
  · rintro ⟨_, unspelled⟩ key inKeys twoWays both
    obtain ⟨member, inExtras, isPlain⟩ :=
      (Members.plain_mem_extras_iff describes.apart inKeys twoWays).2 both
    exact (unspelled key inKeys member inExtras).2 isPlain
  · intro oneWay
    refine ⟨fun member mem => wellFormed member (List.mem_of_mem_filter mem), ?_⟩
    intro key inKeys member mem
    have notCamel := Members.ne_camel_of_mem_extras inKeys mem
    refine ⟨notCamel, fun isPlain => ?_⟩
    by_cases twoWays : key.camel = key.plain
    · exact notCamel (isPlain.trans twoWays.symm)
    · exact oneWay key inKeys twoWays
        ((Members.plain_mem_extras_iff describes.apart inKeys twoWays).1 ⟨member, mem, isPlain⟩)

/-- The format of records that a shape describes is exact. -/
theorem exact_format (describes : shape.Describes) : shape.format.Exact where
  toJson_ne_null value := by
    change shape.toJson value ≠ .null
    rw [describes.writes]
    exact Json.noConfusion
  read_toJson {value result} once := by
    obtain ⟨⟨wellFormed, unspelled⟩, each⟩ := once
    have apart : ((shape.entries value).map Prod.fst).Pairwise Key.Apart := by
      rw [shape.map_fst_entries]
      exact describes.apart
    rw [← shape.map_fst_entries value] at unspelled
    have reads : ∀ part ∈ shape.parts, (part.Reads (Members.declared (shape.entries value) ++
        Members.shown (shape.extras value)) result ↔
          part.Valid value ∧ part.Again value result) := fun part mem =>
      (describes.exact_slot mem).read_written (each part mem) (Members.find?_written apart unspelled
        (List.mem_map_of_mem mem : (part.key, part.written value) ∈ shape.entries value))
    change Reading.record shape.name shape.ofMembers (shape.toJson value) = .ok result ↔
      (∀ part ∈ shape.parts, part.Valid value) ∧ result = shape.reread value
    rw [describes.writes, Reading.record_eq_ok_iff]
    simp only [Json.obj.injEq, exists_eq_left', describes.reads, describes.again, Part.all_iff]
    rw [← shape.map_fst_entries value, Members.extras_written apart unspelled,
      eq_comm (a := shape.extras result)]
    constructor
    · rintro ⟨_, all, extras⟩
      exact ⟨fun part mem => ((reads part mem).1 (all part mem)).1,
        fun part mem => ((reads part mem).1 (all part mem)).2, extras⟩
    · rintro ⟨valid, again, extras⟩
      exact ⟨describes.wellFormed_written wellFormed,
        fun part mem => (reads part mem).2 ⟨valid part mem, again part mem⟩, extras⟩
  toJson_reread {value} finite := by
    obtain ⟨again, extras⟩ := describes.again_reread value
    have same : shape.entries (shape.reread value) = shape.entries value := by
      refine List.map_congr_left fun part mem => ?_
      rw [Part.written, again part mem, (describes.exact_slot mem).written_reread (finite.2 part mem)]
      rfl
    change shape.toJson (shape.reread value) = shape.toJson value
    rw [describes.writes, describes.writes, same, extras, Members.shown_shown finite.1]
  valid_of_read isRead part mem := by
    obtain ⟨members, _, _, reads, _⟩ := describes.reads_of_read isRead
    exact (describes.exact_slot mem).valid_of_read (reads part mem)
  valid_reread {value} valid part mem := by
    change part.slot.Valid (part.get (shape.reread value))
    rw [(describes.again_reread value).1 part mem]
    exact (describes.exact_slot mem).valid_reread (valid part mem)
  kept_of_read := describes.kept_of_read
  finite_of_read {found value} finite isRead := by
    obtain ⟨members, rfl, _, reads, extras⟩ := describes.reads_of_read isRead
    have finiteMembers : Json.haveFinite members = true := finite
    refine ⟨?_, fun part mem =>
      (describes.exact_slot mem).finite_of_read finiteMembers (reads part mem)⟩
    rw [← extras]
    exact Json.haveFinite_iff.2 fun member inExtras =>
      Json.haveFinite_iff.1 finiteMembers member (List.mem_of_mem_filter inExtras)
  each_reread {demand value} each := by
    obtain ⟨again, extras⟩ := describes.again_reread value
    refine ⟨?_, fun part mem => ?_⟩
    · change demand.extras shape.keys (shape.extras (shape.reread value))
      rw [extras]
      exact demand.extras_shown each.1
    · change part.slot.Each demand (part.get (shape.reread value))
      rw [again part mem]
      exact (describes.exact_slot mem).each_reread (each.2 part mem)
  mono implies each := ⟨implies.extras each.1,
    fun part mem => (describes.exact_slot mem).mono implies (each.2 part mem)⟩
  each_both one two := ⟨⟨one.1, two.1⟩,
    fun part mem => (describes.exact_slot mem).each_both (one.2 part mem) (two.2 part mem)⟩
  once_of_read isRead once := by
    obtain ⟨members, rfl, _, reads, _⟩ := describes.reads_of_read isRead
    obtain ⟨own, parts⟩ := spellsOnce_obj_iff.1 once
    exact ⟨(describes.once_extras_iff isRead).2 own, fun part mem =>
      (describes.exact_slot mem).once_of_read (reads part mem) ((Part.all_iff.1 parts).1 part mem)⟩
  carries_of_read {found value} isRead := by
    have kept := describes.kept_of_read isRead
    obtain ⟨members, rfl, _, reads, extras⟩ := describes.reads_of_read isRead
    rintro _ ⟨⟩
    refine ⟨fun name found isFound unknown notNull => ?_, fun part mem => ?_⟩
    · change (shape.toJson value).get? name = _
      rw [describes.get?_toJson_unknown unknown, ← extras]
      exact Members.get?_shown ((Members.get?_extras unknown).trans isFound) notNull
    · change part.slot.Carries members part.key ((shape.toJson value).get? part.key.camel)
      rw [describes.get?_toJson mem kept]
      exact (describes.exact_slot mem).carries_of_read (reads part mem)

end Describes

end Shape

end CardForm
