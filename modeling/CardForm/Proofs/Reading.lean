import CardForm.Failure
import CardForm.Reading.Object
import Mathlib.Data.List.Forall2

/-!
# When readings succeed

Each way to read a value, with what it takes to succeed: the items of an array are read where each
of them is, a declared key where its value is, and an object by its members where its keys are
well-formed. The same for operations that fail.
-/
namespace CardForm

namespace Reading

variable {α β : Type} {found : Json}

/-- A fault is no success. -/
@[simp] theorem fault_ne_ok {cause : Cause} {value : α} : (fault cause found : Reading α) ≠ ok value :=
  fun impossible => by cases impossible

/-- A function is applied where there is a value. -/
theorem map_eq_ok_iff {f : α → β} {reading : Reading α} {result : β} :
    f <$> reading = ok result ↔ ∃ value, reading = ok value ∧ f value = result := by
  cases reading with
  | ok value => simp
  | faulty faults => exact iff_of_false (by rintro ⟨⟩) (by rintro ⟨_, ⟨⟩, _⟩)

/-- A step further out makes no difference to success. -/
@[simp] theorem under_eq_ok_iff {step : Step} {reading : Reading α} {value : α} :
    reading.under step = ok value ↔ reading = ok value := by
  cases reading <;> simp [under]

/-- A reading goes on where there is a value. -/
theorem andThen_eq_ok_iff {reading : Reading α} {next : α → Reading β} {result : β} :
    reading.andThen next = ok result ↔ ∃ value, reading = ok value ∧ next value = ok result := by
  cases reading <;> simp [andThen]

/-- An operation that fails for what cannot be read succeeds where it is read. -/
theorem orUnfit_eq_ok_iff {reading : Reading α} {value : α} :
    reading.orUnfit = .ok value ↔ reading = ok value := by
  cases reading <;> simp [orUnfit]

/-- An operation that refuses what cannot be read succeeds where it is read. -/
theorem orRefused_eq_ok_iff {reading : Reading α} {value : α} :
    reading.orRefused = .ok value ↔ reading = ok value := by
  cases reading <;> simp [orRefused]

/-- A text is read as well-formed where it is. -/
theorem wellFormed_eq_ok_iff {read : Text → Reading α} {s : Text} {value : α} :
    wellFormed read s = ok value ↔ s.isWellFormed = true ∧ read s = ok value := by
  unfold wellFormed
  split <;> rename_i h <;> simp [h]

/-- A text is what is read of it. -/
theorem text_eq_ok_iff {s : Text} : text found = ok s ↔ found = .str s := by
  cases found <;> simp [text]

/-- A text is read as a name where it is well-formed and not empty. -/
theorem nonEmptyText_eq_ok_iff {s : Text} :
    nonEmptyText found = ok s ↔ found = .str s ∧ s.isWellFormed = true ∧ s ≠ [] := by
  cases found with
  | str t =>
    rw [nonEmptyText, wellFormed_eq_ok_iff]
    split <;> rename_i empty <;> simp only [List.isEmpty_iff] at empty
    · simp only [fault_ne_ok, and_false, Json.str.injEq, false_iff, not_and, ne_eq]
      rintro rfl _
      exact absurd empty
    · simp only [ok.injEq, Json.str.injEq]
      constructor
      · rintro ⟨wellFormed, rfl⟩
        exact ⟨rfl, wellFormed, empty⟩
      · rintro ⟨rfl, wellFormed, _⟩
        exact ⟨wellFormed, rfl⟩
  | _ => simp [nonEmptyText]

/-- A text is read as one of some words where it is well-formed and looked up. -/
theorem oneOf_eq_ok_iff {words : List (Text × α)} {value : α} :
    oneOf words found = ok value ↔
      ∃ s, found = .str s ∧ s.isWellFormed = true ∧ words.lookup s = some value := by
  cases found with
  | str s =>
    rw [oneOf, wellFormed_eq_ok_iff, ofWord]
    cases h : words.lookup s <;> simp [h]
  | _ => simp [oneOf]

/-- Items are read where each of them is. -/
theorem itemsFrom_eq_ok_iff {read : Json → Reading α} {items : List Json} {place : Nat}
    {values : List α} :
    itemsFrom read place items = ok values ↔
      List.Forall₂ (fun item value => read item = ok value) items values := by
  induction items generalizing place values with
  | nil => simp [itemsFrom, eq_comm]
  | cons item rest ih =>
    rw [itemsFrom, seq_eq_ok_iff, List.forall₂_cons_left_iff]
    simp only [map_eq_ok_iff, under_eq_ok_iff, ih]
    constructor
    · rintro ⟨_, others, ⟨value, isRead, rfl⟩, inRest, rfl⟩
      exact ⟨value, others, isRead, inRest, rfl⟩
    · rintro ⟨value, others, isRead, inRest, rfl⟩
      exact ⟨_, others, ⟨value, isRead, rfl⟩, inRest, rfl⟩

/-- An array is read where each of its items is. -/
theorem array_eq_ok_iff {read : Json → Reading α} {values : List α} :
    array read found = ok values ↔
      ∃ items, found = .arr items ∧
        List.Forall₂ (fun item value => read item = ok value) items values := by
  cases found with
  | arr items => simp [array, itemsFrom_eq_ok_iff]
  | _ => simp [array]

/-- An object is read by its members. -/
theorem object_eq_ok_iff {role : ObjectRole} {read : Members → Reading α} {value : α} :
    object role read found = ok value ↔ ∃ members, found = .obj members ∧ read members = ok value := by
  cases found <;> simp [object]

end Reading

namespace Failure

variable {α β : Type} {outcome : Except Failure α} {result : β}

/-- Two operations one after the other succeed where the first one does, and with its value the
second one. -/
theorem bind_eq_ok_iff {next : α → Except Failure β} :
    outcome >>= next = .ok result ↔ ∃ value, outcome = .ok value ∧ next value = .ok result := by
  cases outcome <;> simp [bind, Except.bind]

/-- A function is applied where the operation succeeds. -/
theorem map_eq_ok_iff {f : α → β} :
    outcome.map f = .ok result ↔ ∃ value, outcome = .ok value ∧ f value = result := by
  cases outcome <;> simp [Except.map]

end Failure

/-- A declared key with a single spelling is found under it. -/
@[simp] theorem Key.find?_same (name : Text) (members : Members) :
    (Key.same name).find? members = (members.get? name).map fun value => (name, value) := by
  unfold find? same
  cases members.get? name <;> simp

namespace Members

variable {α : Type} {members : Members} {key : Key} {read : Json → Reading α}

/-- A declared key that must be there is read where it is there and its value is read. -/
theorem required_eq_ok_iff {value : α} :
    members.required key read = .ok value ↔
      ∃ found, key.find? members = some found ∧ read found.2 = .ok value := by
  unfold required
  cases key.find? members with
  | none => simp
  | some found => simp

/-- A declared key with a single spelling that must be there is read from its value. -/
theorem required_same_eq_ok_iff {name : Text} {value : α} :
    members.required (.same name) read = .ok value ↔
      ∃ found, members.get? name = some found ∧ read found = .ok value := by
  simp [required_eq_ok_iff]

/-- A declared key with a value of its own is read where its value is, or where it is not there. -/
theorem defaulted_eq_ok_iff {standard value : α} :
    members.defaulted key standard read = .ok value ↔
      (key.find? members = none ∧ value = standard) ∨
        ∃ found, key.find? members = some found ∧ read found.2 = .ok value := by
  unfold defaulted
  cases key.find? members with
  | none => simp [eq_comm]
  | some found => simp

/-- A declared key with a single spelling and a value of its own is read from its value where it is
there. -/
theorem defaulted_same_of_get? {name : Text} {standard value : α} {found : Json}
    (isFound : members.get? name = some found) :
    members.defaulted (.same name) standard read = .ok value ↔ read found = .ok value := by
  simp [defaulted_eq_ok_iff, isFound]

/-- A declared key that may be absent or null is read as nothing there, and else its value is. -/
theorem optional_eq_ok_iff {value : Option α} :
    members.optional key read = .ok value ↔
      (key.find? members = none ∧ value = none) ∨ ∃ found, key.find? members = some found ∧
        ((found.2 = .null ∧ value = none) ∨
          (found.2 ≠ .null ∧ ∃ part, read found.2 = .ok part ∧ value = some part)) := by
  rw [optional, defaulted_eq_ok_iff]
  have orNull (found : Json) : Reading.orNull read found = .ok value ↔
      (found = .null ∧ value = none) ∨
        (found ≠ .null ∧ ∃ part, read found = .ok part ∧ value = some part) := by
    unfold Reading.orNull
    cases found <;> simp [Json.isNull, Reading.map_eq_ok_iff, eq_comm]
  simp only [orNull]

/-- What is read of a declared key that may be absent is read of its value. -/
theorem exists_of_optional_eq_ok {value : Option α} {part : α}
    (isRead : members.optional key read = .ok value) (mem : part ∈ value) :
    ∃ found, key.find? members = some found ∧ found.2 ≠ .null ∧ read found.2 = .ok part := by
  obtain ⟨_, rfl⟩ | ⟨found, isFound, ⟨_, rfl⟩ | ⟨notNull, content, contentRead, rfl⟩⟩ :=
    optional_eq_ok_iff.1 isRead <;> cases mem
  exact ⟨found, isFound, notNull, contentRead⟩

/-- Members are read where their keys are well-formed. -/
theorem wellKeyed_eq_ok_iff {reading : Reading α} {value : α} :
    members.wellKeyed reading = .ok value ↔
      (∀ member ∈ members, member.1.isWellFormed = true) ∧ reading = .ok value := by
  unfold wellKeyed
  split
  · rename_i member isFound
    refine iff_of_false Reading.fault_ne_ok fun ⟨all, _⟩ => ?_
    have illFormed := List.find?_some isFound
    rw [all member (List.mem_of_find?_eq_some isFound)] at illFormed
    cases illFormed
  · rename_i none
    rw [List.find?_eq_none] at none
    simp only [Bool.not_eq_true', Bool.not_eq_false] at none
    exact (and_iff_right none).symm

end Members

/-- A record is read by the members of an object with well-formed keys. -/
theorem Reading.record_eq_ok_iff {α : Type} {name : Text} {read : Members → Reading α} {found : Json}
    {value : α} :
    Reading.record name read found = .ok value ↔
      ∃ members, found = .obj members ∧
        (∀ member ∈ members, member.1.isWellFormed = true) ∧ read members = .ok value := by
  simp only [record, object_eq_ok_iff, Members.wellKeyed_eq_ok_iff]

end CardForm
