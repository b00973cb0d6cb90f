import CardForm.Json.Writable
import CardForm.Proofs.Written.Portable
import Mathlib.Logic.Function.Iterate

/-!
# What stands in the way of writing

Nothing does where nothing stands in the way of any part. For a value of any content this means that
it is not too deep and that the keys in it are well-formed (`Json.obstacle_eq_none_iff`). A change that
brings no obstacle into a part brings none into the whole.
-/
namespace CardForm

/-! ## Parts without an obstacle -/

namespace Obstacle

variable {found : List (Option Obstacle)} {key : Text}

/-- There is no first obstacle where there is none. -/
theorem first?_eq_none_iff : first? found = none ↔ ∀ part ∈ found, part = none :=
  List.findSome?_eq_none_iff

/-- A key is no obstacle exactly if it is well-formed. -/
theorem ofKey?_eq_none_iff : ofKey? key = none ↔ key.isWellFormed = true := by
  simp [ofKey?, Encoding.unencodable?, Text.isWellFormed]

/-- A part that may be missing has no obstacle where it has none if it is there. -/
theorem bind_eq_none_iff {α : Type} {obstacle : α → Option Obstacle} {part : Option α} :
    part.bind obstacle = none ↔ ∀ found ∈ part, obstacle found = none :=
  Option.bind_eq_none_iff

end Obstacle

/-- Members have no obstacle where their values have none. -/
theorem Members.obstacle_eq_none_iff {members : Members} {room : Nat} :
    members.obstacle room = none ↔ ∀ member ∈ members, member.2.obstacle room = none :=
  List.findSome?_eq_none_iff

/-- Nothing stands in the way of writing a value exactly if it has no obstacle. -/
theorem Writable.isWritable_iff {α : Type} [Writable α] {value : α} :
    isWritable value = true ↔ obstacle value Json.writableNesting = none :=
  Option.isNone_iff_eq_none

/-- Several values can be written where each of them can. -/
theorem Writable.isWritable_list_iff {α : Type} [Writable α] {values : List α} :
    isWritable values = true ↔ ∀ value ∈ values, isWritable value = true := by
  simp only [isWritable_iff]
  exact List.findSome?_eq_none_iff

/-! ## Values of any content -/

namespace Json

variable {value : Json} {items : List Json} {members : Members} {bound room : Nat}

/-- Items are within a bound where each of them is. -/
theorem nestingOfItems_le_iff :
    nestingOfItems items ≤ bound ↔ ∀ item ∈ items, item.nesting ≤ bound := by
  induction items with
  | nil => simp [nestingOfItems]
  | cons item rest ih => rw [nestingOfItems, Nat.max_le, ih, List.forall_mem_cons]

/-- Members are within a bound where the value of each of them is. -/
theorem nestingOfMembers_le_iff :
    nestingOfMembers members ≤ bound ↔ ∀ member ∈ members, member.2.nesting ≤ bound := by
  induction members with
  | nil => simp [nestingOfMembers]
  | cons member rest ih => rw [nestingOfMembers, Nat.max_le, ih, List.forall_mem_cons]

/-- The keys in a value are well-formed. -/
inductive WellKeyed : Json → Prop where
  /-- Null has no keys. -/
  | null : WellKeyed .null
  /-- A truth value has none. -/
  | bool (b : Bool) : WellKeyed (.bool b)
  /-- A number has none. -/
  | num (n : Number) : WellKeyed (.num n)
  /-- A text has none. -/
  | str (s : Text) : WellKeyed (.str s)
  /-- An array has the keys in its items. -/
  | arr {items : List Json} (each : ∀ item ∈ items, WellKeyed item) : WellKeyed (.arr items)
  /-- An object has its own keys and those in its values. -/
  | obj {members : Members} (wellFormed : ∀ member ∈ members, member.1.isWellFormed = true)
      (each : ∀ member ∈ members, WellKeyed member.2) : WellKeyed (.obj members)

/-- The keys in an array are those in its items. -/
theorem wellKeyed_arr_iff : WellKeyed (.arr items) ↔ ∀ item ∈ items, WellKeyed item :=
  ⟨fun | .arr each => each, .arr⟩

/-- The keys in an object are its own and those in its values. -/
theorem wellKeyed_obj_iff : WellKeyed (.obj members) ↔
    ∀ member ∈ members, member.1.isWellFormed = true ∧ WellKeyed member.2 :=
  ⟨fun | .obj wellFormed each => fun member mem => ⟨wellFormed member mem, each member mem⟩,
    fun all => .obj (fun member mem => (all member mem).1) fun member mem => (all member mem).2⟩

/-- Items have no obstacle where each of them has none. -/
theorem obstacleOfItems_eq_none_iff :
    obstacleOfItems items room = none ↔ ∀ item ∈ items, item.obstacle room = none := by
  induction items with
  | nil => simp [obstacleOfItems]
  | cons item rest ih => rw [obstacleOfItems, Option.or_eq_none_iff, ih, List.forall_mem_cons]

/-- The members of an object have no obstacle where no key and no value is one. -/
theorem obstacleOfMembers_eq_none_iff : obstacleOfMembers members room = none ↔
    ∀ member ∈ members, member.1.isWellFormed = true ∧ member.2.obstacle room = none := by
  induction members with
  | nil => simp [obstacleOfMembers]
  | cons member rest ih =>
    rw [obstacleOfMembers, Option.or_eq_none_iff, Option.or_eq_none_iff, ih,
      Obstacle.ofKey?_eq_none_iff, List.forall_mem_cons, and_assoc]

/-- A value has no obstacle exactly if it is not too deep and the keys in it are well-formed. -/
theorem obstacle_eq_none_iff : value.obstacle room = none ↔ value.nesting ≤ room ∧ value.WellKeyed := by
  induction value using induct generalizing room with
  | null => cases room <;> simp [obstacle, nesting, WellKeyed.null]
  | bool b => cases room <;> simp [obstacle, nesting, WellKeyed.bool]
  | num n => cases room <;> simp [obstacle, nesting, WellKeyed.num]
  | str s => cases room <;> simp [obstacle, nesting, WellKeyed.str]
  | arr items ih =>
    cases room with
    | zero => simp [obstacle, nesting]
    | succ room =>
      rw [obstacle, obstacleOfItems_eq_none_iff, nesting, Nat.add_le_add_iff_right,
        nestingOfItems_le_iff, wellKeyed_arr_iff, ← forall₂_and]
      exact forall₂_congr fun item mem => ih item mem
  | obj members ih =>
    cases room with
    | zero => simp [obstacle, nesting]
    | succ room =>
      rw [obstacle, obstacleOfMembers_eq_none_iff, nesting, Nat.add_le_add_iff_right,
        nestingOfMembers_le_iff, wellKeyed_obj_iff, ← forall₂_and]
      refine forall₂_congr fun member mem => ?_
      rw [ih member mem, and_left_comm]

end Json

/-! ## Changes that bring no obstacle -/

/-- There is no obstacle after a change where there was none before it. -/
def Obstacle.Kept (before after : Option Obstacle) : Prop := before = none → after = none

section Change

variable {α : Type} {obstacle : α → Option Obstacle} {change : α → α}

/-- A change that brings no obstacle into any part brings none into the whole. -/
theorem Obstacle.Kept.first? {before after : List (Option Obstacle)}
    (each : List.Forall₂ Kept before after) : Kept (first? before) (first? after) := by
  rw [Kept, first?_eq_none_iff, first?_eq_none_iff]
  intro free
  induction each with
  | nil => exact fun _ mem => absurd mem List.not_mem_nil
  | cons first _ ih =>
    rw [List.forall_mem_cons] at free ⊢
    exact ⟨first free.1, ih free.2⟩

/-- A change that brings no obstacle into a part brings none where the part may be missing. -/
theorem Obstacle.Kept.bind_map (each : ∀ part, Kept (obstacle part) (obstacle (change part)))
    (part : Option α) : Kept (part.bind obstacle) ((part.map change).bind obstacle) := by
  cases part with
  | none => exact id
  | some part => exact each part

/-- A change that brings no obstacle into a part brings none into several of them. -/
theorem Obstacle.Kept.findSome?_map (each : ∀ part, Kept (obstacle part) (obstacle (change part)))
    (parts : List α) : Kept (parts.findSome? obstacle) ((parts.map change).findSome? obstacle) := by
  rw [Kept, List.findSome?_eq_none_iff, List.findSome?_eq_none_iff, List.forall_mem_map]
  exact fun free part mem => each part (free part mem)

end Change

/-! ## Arrays around a value -/

namespace Json

/-- A value in as many arrays as there is room for levels is too deep. -/
theorem obstacle_iterate_arr (room : Nat) (value : Json) :
    ((fun inner => arr [inner])^[room] value).obstacle room = some .tooDeep := by
  induction room with
  | zero => cases value <;> rfl
  | succ room ih =>
    rw [Function.iterate_succ_apply', obstacle, obstacleOfItems, ih, Option.some_or]

/-- Arrays around a value leave its numbers finite. -/
theorem isFinite_iterate_arr (depth : Nat) (value : Json) :
    ((fun inner => arr [inner])^[depth] value).isFinite = value.isFinite := by
  induction depth with
  | zero => rfl
  | succ depth ih =>
    rw [Function.iterate_succ_apply', isFinite, areFinite, areFinite, ih, Bool.and_true]

end Json

end CardForm
