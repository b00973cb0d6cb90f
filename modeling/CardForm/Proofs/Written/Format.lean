import CardForm.Proofs.Reading
import CardForm.Proofs.Written.Members
import Mathlib.Logic.Equiv.Defs
import Mathlib.Logic.Function.Basic
import Mathlib.Data.Set.Defs

/-!
# Formats of values

A format reads the values of a type from JSON and writes them as JSON. Reading what was written does
not give back the value as it was: of its extras those that are null are gone, and the others are in
the form that standard JSON can carry. `Format.reread` says what comes back. A format is exact
(`Format.Exact`) where exactly its valid values can be read from what was written of them, provided
that no object in them spells a declared key both ways; where each value that is read is valid; and
where a value whose numbers are finite is written again as it was. What is asked of the extras, on
the way, is a `Demand`.
-/
namespace CardForm

/-- What is asked of the values of any content among the parts of a value. It can be met by having
none, and it is still met when these values were written. -/
structure Demand where
  /-- What is asked of the extras of a record with some declared keys. -/
  extras : List Key → Members → Prop
  /-- What is asked of a single value. -/
  value : Json → Prop
  /-- Without extras nothing is asked of them. -/
  extras_nil : ∀ keys, extras keys []
  /-- The extras that are shown meet it too. -/
  extras_shown : ∀ {keys members}, extras keys members → extras keys (Members.shown members)
  /-- Nothing is asked of null. -/
  value_null : value .null
  /-- The portable form of a value meets it too. -/
  value_portable : ∀ {found}, value found → value found.portable

namespace Demand

/-- The keys of all extras are well-formed, and none is a declared key in camel case. This is met by
all that was read. -/
def kept : Demand where
  extras keys members := ∀ member ∈ members,
    member.1.isWellFormed = true ∧ ∀ key ∈ keys, member.1 ≠ key.camel
  value _ := True
  extras_nil _ _ mem := absurd mem List.not_mem_nil
  extras_shown := by
    rintro keys members all ⟨key, value⟩ mem
    obtain ⟨found, inMembers, _⟩ := Members.mem_shown_iff.1 mem
    exact all (key, found) inMembers
  value_null := trivial
  value_portable _ := trivial

/-- The keys of all extras are well-formed, and none spells a declared key. Of what was read it is
met exactly where no object spells a declared key both ways (`Shape.Describes.once_extras_iff`). -/
def once : Demand where
  extras keys members :=
    (∀ member ∈ members, member.1.isWellFormed = true) ∧ Members.Unspelled keys members
  value _ := True
  extras_nil _ :=
    ⟨fun _ mem => absurd mem List.not_mem_nil, fun _ _ _ mem => absurd mem List.not_mem_nil⟩
  extras_shown := by
    rintro keys members ⟨wellFormed, unspelled⟩
    refine ⟨?_, unspelled.shown⟩
    rintro ⟨key, value⟩ mem
    obtain ⟨found, inMembers, _⟩ := Members.mem_shown_iff.1 mem
    exact wellFormed (key, found) inMembers
  value_null := trivial
  value_portable _ := trivial

/-- All numbers in values of any content are finite. -/
def finite : Demand where
  extras _ members := Json.haveFinite members = true
  value found := found.isFinite = true
  extras_nil _ := rfl
  extras_shown _ := Members.haveFinite_shown _
  value_null := rfl
  value_portable _ := Json.isFinite_portable _

/-- Two demands at once. -/
def both (first second : Demand) : Demand where
  extras keys members := first.extras keys members ∧ second.extras keys members
  value found := first.value found ∧ second.value found
  extras_nil keys := ⟨first.extras_nil keys, second.extras_nil keys⟩
  extras_shown := fun ⟨one, two⟩ => ⟨first.extras_shown one, second.extras_shown two⟩
  value_null := ⟨first.value_null, second.value_null⟩
  value_portable := fun ⟨one, two⟩ => ⟨first.value_portable one, second.value_portable two⟩

/-- No object spells a declared key both ways, and all numbers are finite. -/
def tidy : Demand := both once finite

/-- One demand asks all that another asks. -/
structure Implies (strong weak : Demand) : Prop where
  /-- It does so of extras. -/
  extras : ∀ {keys members}, strong.extras keys members → weak.extras keys members
  /-- It does so of single values. -/
  value : ∀ {found}, strong.value found → weak.value found

/-- Extras that spell no declared key are extras as they are read. -/
theorem once_implies_kept : once.Implies kept where
  extras := fun ⟨wellFormed, unspelled⟩ member mem =>
    ⟨wellFormed member mem, fun key inKeys => (unspelled key inKeys member mem).1⟩
  value := id

/-- What is tidy spells no declared key both ways. -/
theorem tidy_implies_once : tidy.Implies once := ⟨And.left, And.left⟩

/-- What is tidy has finite numbers. -/
theorem tidy_implies_finite : tidy.Implies finite := ⟨And.right, And.right⟩

/-- Tidy extras are extras as they are read. -/
theorem tidy_implies_kept : tidy.Implies kept :=
  ⟨once_implies_kept.extras ∘ tidy_implies_once.extras,
    once_implies_kept.value ∘ tidy_implies_once.value⟩

end Demand

/-- How the values of a type are read and written. -/
structure Format (α : Type) where
  /-- Read a value. -/
  read : Json → Reading α
  /-- A value as JSON. -/
  toJson : α → Json
  /-- What is read of a value that was written. -/
  reread : α → α
  /-- Whether a value can be read once it was written. -/
  Valid : α → Prop
  /-- What a demand asks of all parts of a value. -/
  Each : Demand → α → Prop
  /-- The objects among the parts of what is read, each with the declared keys of its type. -/
  Objects : Json → Set (List Key × Members)
  /-- Whether the unknown members of these objects, apart from those that are null, stand in what is
  written, each in the place of its object. -/
  Carries : Json → Json → Prop

namespace Format

variable {α β : Type}

/-- No object among the parts of what is read spells a declared key both ways. -/
def SpellsOnce (format : Format α) (found : Json) : Prop :=
  ∀ object ∈ format.Objects found, Members.SpelledOnce object.1 object.2

/-- The laws of a format. -/
structure Exact (format : Format α) : Prop where
  /-- No value is written as null. -/
  toJson_ne_null : ∀ value, format.toJson value ≠ .null
  /-- Exactly the valid values are read once they were written. -/
  read_toJson : ∀ {value result}, format.Each .once value →
    (format.read (format.toJson value) = .ok result ↔
      format.Valid value ∧ result = format.reread value)
  /-- What is read is written as it was written before. -/
  toJson_reread : ∀ {value}, format.Each .finite value →
    format.toJson (format.reread value) = format.toJson value
  /-- A value that is read is valid. -/
  valid_of_read : ∀ {found value}, format.read found = .ok value → format.Valid value
  /-- A valid value is still valid after it was written and read. -/
  valid_reread : ∀ {value}, format.Valid value → format.Valid (format.reread value)
  /-- The extras in a value that is read bear none of the declared keys in camel case. -/
  kept_of_read : ∀ {found value}, format.read found = .ok value → format.Each .kept value
  /-- What is read where all numbers are finite has finite numbers. -/
  finite_of_read : ∀ {found value}, found.isFinite = true → format.read found = .ok value →
    format.Each .finite value
  /-- What a demand asks of a value, it asks of what is read of it. -/
  each_reread : ∀ {demand value}, format.Each demand value →
    format.Each demand (format.reread value)
  /-- What a stronger demand asks, a weaker one does. -/
  mono : ∀ {strong weak : Demand} {value}, strong.Implies weak → format.Each strong value →
    format.Each weak value
  /-- What each of two demands asks, both ask at once. -/
  each_both : ∀ {first second : Demand} {value}, format.Each first value → format.Each second value →
    format.Each (first.both second) value
  /-- The extras in a value spell no declared key where no object that it is read from spells one both
  ways. -/
  once_of_read : ∀ {found value}, format.read found = .ok value → format.SpellsOnce found →
    format.Each .once value
  /-- The unknown members that are not null are written. -/
  carries_of_read : ∀ {found value}, format.read found = .ok value →
    format.Carries found (format.toJson value)

namespace Exact

variable {format : Format α} {value : α}

/-- The extras in a tidy value spell no declared key. -/
theorem once_of_tidy (exact : format.Exact) (tidy : format.Each .tidy value) :
    format.Each .once value := exact.mono Demand.tidy_implies_once tidy

/-- The numbers in a tidy value are finite. -/
theorem finite_of_tidy (exact : format.Exact) (tidy : format.Each .tidy value) :
    format.Each .finite value := exact.mono Demand.tidy_implies_finite tidy

/-- The extras in a tidy value bear none of the declared keys in camel case. -/
theorem kept_of_tidy (exact : format.Exact) (tidy : format.Each .tidy value) :
    format.Each .kept value := exact.mono Demand.tidy_implies_kept tidy

/-- What comes back of a tidy value is written as it was. -/
theorem toJson_reread_of_tidy (exact : format.Exact) (tidy : format.Each .tidy value) :
    format.toJson (format.reread value) = format.toJson value :=
  exact.toJson_reread (exact.finite_of_tidy tidy)

/-- A tidy value that is valid is read where it was written. -/
theorem read_toJson_of_tidy (exact : format.Exact) (tidy : format.Each .tidy value)
    (valid : format.Valid value) : format.read (format.toJson value) = .ok (format.reread value) :=
  (exact.read_toJson (exact.once_of_tidy tidy)).2 ⟨valid, rfl⟩

end Exact

/-- What is read of a part that may be missing is written as it was. -/
theorem Exact.map_toJson_reread {format : Format α} (exact : format.Exact) {part : Option α}
    (finite : ∀ value ∈ part, format.Each .finite value) :
    (part.map format.reread).map format.toJson = part.map format.toJson := by
  rw [Option.map_map]
  exact Option.map_congr fun value isPart => exact.toJson_reread (finite value isPart)

/-! ## Values without extras -/

/-- The format of a type of values without extras, of which some are valid. -/
def simple (read : Json → Reading α) (toJson : α → Json) (valid : α → Prop) : Format α where
  read := read
  toJson := toJson
  reread := id
  Valid := valid
  Each _ _ := True
  Objects _ := ∅
  Carries _ _ := True

/-- The format of values without extras is exact where it reads what it writes. -/
theorem simple_exact {read : Json → Reading α} {toJson : α → Json} {valid : α → Prop}
    (notNull : ∀ value, toJson value ≠ .null)
    (reads : ∀ {value result}, read (toJson value) = .ok result ↔ valid value ∧ result = value)
    (sound : ∀ {found value}, read found = .ok value → valid value) :
    (simple read toJson valid).Exact where
  toJson_ne_null := notNull
  read_toJson _ := reads
  toJson_reread _ := rfl
  valid_of_read := sound
  valid_reread := id
  kept_of_read _ := trivial
  finite_of_read _ _ := trivial
  each_reread _ := trivial
  mono _ _ := trivial
  each_both _ _ := trivial
  once_of_read _ _ := trivial
  carries_of_read _ := trivial

/-- Texts. -/
abbrev text : Format Text := simple .text .str fun _ => True

/-- Texts are read as they are written. -/
theorem text_exact : text.Exact :=
  simple_exact (by simp) (by simp [Reading.text, eq_comm]) fun _ => trivial

/-- Texts that are well-formed and not empty. -/
abbrev name : Format Text :=
  simple .nonEmptyText .str fun value => value.isWellFormed = true ∧ value ≠ []

/-- Names are read as they are written. -/
theorem name_exact : name.Exact := by
  refine simple_exact (by simp) ?_ fun isRead => (Reading.nonEmptyText_eq_ok_iff.1 isRead).2
  intro value result
  rw [Reading.nonEmptyText_eq_ok_iff, Json.str.injEq]
  constructor
  · rintro ⟨rfl, valid⟩
    exact ⟨valid, rfl⟩
  · rintro ⟨valid, rfl⟩
    exact ⟨rfl, valid⟩

/-- Truth values. -/
abbrev boolean : Format Bool := simple .boolean .bool fun _ => True

/-- Truth values are read as they are written. -/
theorem boolean_exact : boolean.Exact :=
  simple_exact (by simp) (by simp [Reading.boolean, eq_comm]) fun _ => trivial

/-- Numbers. -/
abbrev number : Format Number := simple .number .num fun _ => True

/-- Numbers are read as they are written. -/
theorem number_exact : number.Exact :=
  simple_exact (by simp) (by simp [Reading.number, eq_comm]) fun _ => trivial

/-- Integers. -/
abbrev integer : Format Int := simple .integer .int fun _ => True

/-- Integers are read as they are written. -/
theorem integer_exact : integer.Exact :=
  simple_exact (by simp [Json.int]) (by simp [Json.int, Reading.integer, eq_comm]) fun _ => trivial

/-- Some kinds by their words. -/
abbrev word (kinds : List α) (word : α → Text) : Format α :=
  simple (.oneOf (kinds.map fun kind => (word kind, kind))) (fun kind => .str (word kind))
    fun kind => kind ∈ kinds

/-- A kind is found by its word. -/
theorem lookup_map_word {kinds : List α} {word : α → Text} (distinct : Function.Injective word)
    {found : Text} {kind : α} :
    (kinds.map fun kind => (word kind, kind)).lookup found = some kind ↔
      kind ∈ kinds ∧ found = word kind := by
  induction kinds with
  | nil => simp
  | cons first rest ih =>
    rw [List.map_cons, List.lookup_cons]
    by_cases same : found = word first
    · simp only [same, BEq.rfl, Option.some.injEq, List.mem_cons]
      constructor
      · rintro rfl
        exact ⟨.inl rfl, rfl⟩
      · rintro ⟨_, sameWord⟩
        exact distinct sameWord
    · rw [beq_eq_false_iff_ne.2 same]
      simp only [ih, List.mem_cons]
      constructor
      · rintro ⟨mem, sameWord⟩
        exact ⟨.inr mem, sameWord⟩
      · rintro ⟨rfl | mem, sameWord⟩
        · exact absurd sameWord same
        · exact ⟨mem, sameWord⟩

/-- Kinds with distinct and well-formed words are read as they are written. -/
theorem word_exact {kinds : List α} {word : α → Text} (distinct : Function.Injective word)
    (wellFormed : ∀ kind ∈ kinds, (word kind).isWellFormed = true) :
    (Format.word kinds word).Exact := by
  refine simple_exact (by simp) ?_ ?_
  · intro kind result
    simp only [Reading.oneOf_eq_ok_iff, lookup_map_word distinct, Json.str.injEq, exists_eq_left']
    constructor
    · rintro ⟨_, mem, same⟩
      obtain rfl := distinct same
      exact ⟨mem, rfl⟩
    · rintro ⟨mem, rfl⟩
      exact ⟨wellFormed _ mem, mem, rfl⟩
  · intro found kind isRead
    obtain ⟨s, _, _, isFound⟩ := Reading.oneOf_eq_ok_iff.1 isRead
    exact ((lookup_map_word distinct).1 isFound).1

/-! ## Objects of any content -/

/-- Objects of any content. -/
def mapping : Format Members where
  read := .mapping
  toJson members := .obj members.portable
  reread := Members.portable
  Valid _ := True
  Each demand members := ∀ member ∈ members, demand.value member.2
  Objects _ := ∅
  Carries found written := ∀ members : Members, found = .obj members →
    written = .obj members.portable

/-- Objects of any content are read as they are written. -/
theorem mapping_exact : mapping.Exact where
  toJson_ne_null _ := Json.noConfusion
  read_toJson {members result} _ := by
    change Reading.ok members.portable = .ok result ↔ True ∧ result = members.portable
    rw [Reading.ok.injEq, true_and, eq_comm]
  toJson_reread {members} _ := congrArg Json.obj members.portable_portable
  valid_of_read _ := trivial
  valid_reread _ := trivial
  kept_of_read _ _ _ := trivial
  finite_of_read {found members} finite isRead := by
    obtain ⟨_, rfl, same⟩ := Reading.object_eq_ok_iff.1 isRead
    cases same
    exact Json.haveFinite_iff.1 finite
  each_reread {demand members} each member mem := by
    obtain ⟨before, inMembers, rfl⟩ := Members.exists_of_mem_portable mem
    exact demand.value_portable (each before inMembers)
  mono implies each member mem := implies.value (each member mem)
  each_both one two member mem := ⟨one member mem, two member mem⟩
  once_of_read _ _ _ _ := trivial
  carries_of_read {found members} isRead := by
    obtain ⟨_, rfl, same⟩ := Reading.object_eq_ok_iff.1 isRead
    cases same
    rintro _ ⟨⟩
    rfl

/-! ## Arrays -/

/-- Arrays of values. -/
def array (format : Format α) : Format (List α) where
  read := .array format.read
  toJson values := .arr (values.map format.toJson)
  reread := List.map format.reread
  Valid values := ∀ value ∈ values, format.Valid value
  Each demand values := ∀ value ∈ values, format.Each demand value
  Objects found :=
    {object | ∃ items, found = .arr items ∧ ∃ item ∈ items, object ∈ format.Objects item}
  Carries found written := ∀ items, found = .arr items →
    ∃ parts, written = .arr parts ∧ List.Forall₂ format.Carries items parts

/-- Each value of an array was read from one of its items. -/
theorem exists_of_mem_array {read : Json → Reading α} {found : Json} {values : List α} {value : α}
    (isRead : Reading.array read found = .ok values) (mem : value ∈ values) :
    ∃ items item, found = .arr items ∧ item ∈ items ∧ read item = .ok value := by
  obtain ⟨items, rfl, all⟩ := Reading.array_eq_ok_iff.1 isRead
  refine ⟨items, ?_⟩
  clear isRead
  induction all with
  | nil => cases mem
  | cons first _ ih =>
    obtain rfl | mem := List.mem_cons.1 mem
    · exact ⟨_, rfl, List.mem_cons_self, first⟩
    · obtain ⟨item, _, inRest, itemRead⟩ := ih mem
      exact ⟨item, rfl, List.mem_cons_of_mem _ inRest, itemRead⟩

/-- Arrays in an exact format are in an exact format. -/
theorem array_exact {format : Format α} (exact : format.Exact) : format.array.Exact where
  toJson_ne_null _ := Json.noConfusion
  read_toJson {values result} once := by
    simp only [array, Reading.array_eq_ok_iff, Json.arr.injEq, exists_eq_left',
      List.forall₂_map_left_iff]
    induction values generalizing result with
    | nil => simp
    | cons value rest ih =>
      have first {part : α} : format.read (format.toJson value) = .ok part ↔
          format.Valid value ∧ part = format.reread value :=
        exact.read_toJson (once value List.mem_cons_self)
      have others {parts : List α} : List.Forall₂
          (fun value part => format.read (format.toJson value) = .ok part) rest parts ↔
            (∀ value ∈ rest, format.Valid value) ∧ parts = rest.map format.reread :=
        ih fun value mem => once value (List.mem_cons_of_mem _ mem)
      rw [List.forall₂_cons_left_iff]
      simp only [first, others, List.forall_mem_cons, List.map_cons]
      constructor
      · rintro ⟨_, _, ⟨valid, rfl⟩, ⟨restValid, rfl⟩, rfl⟩
        exact ⟨⟨valid, restValid⟩, rfl⟩
      · rintro ⟨⟨valid, restValid⟩, rfl⟩
        exact ⟨_, _, ⟨valid, rfl⟩, ⟨restValid, rfl⟩, rfl⟩
  toJson_reread finite := by
    simp only [array, List.map_map, Json.arr.injEq]
    exact List.map_congr_left fun value mem => exact.toJson_reread (finite value mem)
  valid_of_read isRead value mem := by
    obtain ⟨_, _, _, _, itemRead⟩ := exists_of_mem_array isRead mem
    exact exact.valid_of_read itemRead
  valid_reread valid value mem := by
    obtain ⟨before, inValues, rfl⟩ := List.mem_map.1 mem
    exact exact.valid_reread (valid before inValues)
  kept_of_read isRead value mem := by
    obtain ⟨_, _, _, _, itemRead⟩ := exists_of_mem_array isRead mem
    exact exact.kept_of_read itemRead
  finite_of_read finite isRead value mem := by
    obtain ⟨items, item, rfl, inItems, itemRead⟩ := exists_of_mem_array isRead mem
    exact exact.finite_of_read (Json.areFinite_iff.1 finite item inItems) itemRead
  each_reread each value mem := by
    obtain ⟨before, inValues, rfl⟩ := List.mem_map.1 mem
    exact exact.each_reread (each before inValues)
  mono implies each value mem := exact.mono implies (each value mem)
  each_both one two value mem := exact.each_both (one value mem) (two value mem)
  once_of_read isRead once value mem := by
    obtain ⟨items, item, rfl, inItems, itemRead⟩ := exists_of_mem_array isRead mem
    exact exact.once_of_read itemRead fun object inItem =>
      once object ⟨items, rfl, item, inItems, inItem⟩
  carries_of_read {found values} isRead := by
    obtain ⟨items, rfl, all⟩ := Reading.array_eq_ok_iff.1 isRead
    rintro _ ⟨⟩
    exact ⟨values.map format.toJson, rfl,
      List.forall₂_map_right_iff.2 (all.imp fun _ _ => exact.carries_of_read)⟩

/-! ## Choices -/

/-- Values of several kinds, each with the content of its kind. -/
def choice {Kind : Type} {Content : Kind → Type} (formats : ∀ kind, Format (Content kind))
    (split : β ≃ (kind : Kind) × Content kind) (read : Json → Reading β) (toJson : β → Json) :
    Format β where
  read := read
  toJson := toJson
  reread value := split.symm ⟨(split value).1, (formats _).reread (split value).2⟩
  Valid value := (formats _).Valid (split value).2
  Each demand value := (formats _).Each demand (split value).2
  Objects found :=
    {object | ∃ value, read found = .ok value ∧ object ∈ (formats (split value).1).Objects found}
  Carries found written := ∀ value, read found = .ok value →
    (formats (split value).1).Carries found written

/-- A choice is exact where the formats of all kinds are exact, and a value is written and read in
the format of the kind that its JSON form shows. -/
theorem choice_exact {Kind : Type} {Content : Kind → Type}
    {formats : ∀ kind, Format (Content kind)} {split : β ≃ (kind : Kind) × Content kind}
    {read : Json → Reading β} {toJson : β → Json} (exact : ∀ kind, (formats kind).Exact)
    (shows : Json → Kind → Prop)
    (unique : ∀ {found first second}, shows found first → shows found second → first = second)
    (shown : ∀ kind content, shows ((formats kind).toJson content) kind)
    (writes : ∀ value, toJson value = (formats _).toJson (split value).2)
    (reads : ∀ {found value}, read found = .ok value ↔
      shows found (split value).1 ∧ (formats _).read found = .ok (split value).2) :
    (choice formats split read toJson).Exact where
  toJson_ne_null value := by
    change toJson value ≠ .null
    rw [writes]
    exact (exact _).toJson_ne_null _
  read_toJson {value result} once := by
    change read (toJson value) = .ok result ↔
      (formats _).Valid (split value).2 ∧ result = split.symm ⟨_, (formats _).reread (split value).2⟩
    rw [reads, writes, Equiv.eq_symm_apply]
    have once : (formats _).Each .once (split value).2 := once
    generalize split value = parts at once ⊢
    generalize split result = others
    obtain ⟨kind, content⟩ := parts
    obtain ⟨other, otherContent⟩ := others
    constructor
    · rintro ⟨showsOther, isRead⟩
      obtain rfl := unique (shown kind content) showsOther
      obtain ⟨valid, rfl⟩ := ((exact kind).read_toJson once).1 isRead
      exact ⟨valid, rfl⟩
    · rintro ⟨valid, same⟩
      cases same
      exact ⟨shown kind content, ((exact kind).read_toJson once).2 ⟨valid, rfl⟩⟩
  toJson_reread {value} finite := by
    change toJson (split.symm ⟨_, (formats _).reread (split value).2⟩) = toJson value
    rw [writes, writes, Equiv.apply_symm_apply]
    exact (exact _).toJson_reread finite
  valid_of_read isRead := (exact _).valid_of_read (reads.1 isRead).2
  valid_reread {value} valid := by
    change (formats _).Valid (split (split.symm ⟨_, (formats _).reread (split value).2⟩)).2
    rw [Equiv.apply_symm_apply]
    exact (exact _).valid_reread valid
  kept_of_read isRead := (exact _).kept_of_read (reads.1 isRead).2
  finite_of_read finite isRead := (exact _).finite_of_read finite (reads.1 isRead).2
  each_reread {demand value} each := by
    change (formats _).Each demand (split (split.symm ⟨_, (formats _).reread (split value).2⟩)).2
    rw [Equiv.apply_symm_apply]
    exact (exact _).each_reread each
  mono := (exact _).mono
  each_both := (exact _).each_both
  once_of_read {_ value} isRead once :=
    (exact _).once_of_read (reads.1 isRead).2 fun object mem => once object ⟨value, isRead, mem⟩
  carries_of_read {found value} isRead := by
    intro other otherRead
    obtain rfl := Reading.ok.inj (isRead.symm.trans otherRead)
    change (formats _).Carries found (toJson value)
    rw [writes]
    exact (exact _).carries_of_read (reads.1 isRead).2

/-! ## Other ways to read -/

/-- One JSON value may be read in place of another. -/
structure StandsFor (format : Format α) (other found : Json) : Prop where
  /-- Its numbers are finite where those of the other are. -/
  finite : found.isFinite = true → other.isFinite = true
  /-- No object in it spells a declared key both ways where none in the other does. -/
  once : format.SpellsOnce found → format.SpellsOnce other
  /-- It has the unknown members of the other. -/
  carries : ∀ {written}, format.Carries other written → format.Carries found written

/-- A format that reads in another way is exact where both ways agree on what was written, and the
other way reads what the first one reads of a value that may be read instead. -/
theorem Exact.reading {format : Format α} (exact : format.Exact) {read : Json → Reading α}
    (agrees : ∀ value, read (format.toJson value) = format.read (format.toJson value))
    (sound : ∀ {found value}, read found = .ok value →
      ∃ other, format.read other = .ok value ∧ format.StandsFor other found) :
    { format with read := read }.Exact where
  toJson_ne_null := exact.toJson_ne_null
  read_toJson {value result} once := by
    change read (format.toJson value) = .ok result ↔ _
    rw [agrees value]
    exact exact.read_toJson once
  toJson_reread := exact.toJson_reread
  valid_of_read isRead := (sound isRead).elim fun _ h => exact.valid_of_read h.1
  valid_reread := exact.valid_reread
  kept_of_read isRead := (sound isRead).elim fun _ h => exact.kept_of_read h.1
  finite_of_read finite isRead :=
    (sound isRead).elim fun _ h => exact.finite_of_read (h.2.finite finite) h.1
  each_reread := exact.each_reread
  mono := exact.mono
  each_both := exact.each_both
  once_of_read isRead once :=
    (sound isRead).elim fun _ h => exact.once_of_read h.1 (h.2.once once)
  carries_of_read isRead :=
    (sound isRead).elim fun _ h => h.2.carries (exact.carries_of_read h.1)

/-- A format that reads some of the values only is exact where those that come back of the values that it
reads are among them. -/
theorem Exact.guarded {format : Format α} (exact : format.Exact) {read : Json → Reading α}
    {guard : α → Prop}
    (reads : ∀ {found value}, read found = .ok value ↔ format.read found = .ok value ∧ guard value)
    (again : ∀ value, guard (format.reread value) ↔ guard value) :
    { format with read := read, Valid := fun value => format.Valid value ∧ guard value }.Exact where
  toJson_ne_null := exact.toJson_ne_null
  read_toJson {value result} once := by
    change read (format.toJson value) = .ok result ↔
      (format.Valid value ∧ guard value) ∧ result = format.reread value
    rw [reads, exact.read_toJson once, and_right_comm]
    refine and_congr_left ?_
    rintro rfl
    rw [again]
  toJson_reread := exact.toJson_reread
  valid_of_read isRead := ⟨exact.valid_of_read (reads.1 isRead).1, (reads.1 isRead).2⟩
  valid_reread valid := ⟨exact.valid_reread valid.1, (again _).2 valid.2⟩
  kept_of_read isRead := exact.kept_of_read (reads.1 isRead).1
  finite_of_read finite isRead := exact.finite_of_read finite (reads.1 isRead).1
  each_reread := exact.each_reread
  mono := exact.mono
  each_both := exact.each_both
  once_of_read isRead once := exact.once_of_read (reads.1 isRead).1 once
  carries_of_read isRead := exact.carries_of_read (reads.1 isRead).1

end Format

end CardForm
