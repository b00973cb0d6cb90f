import CardForm.Reading.Object
import Mathlib.Data.List.Nodup

/-!
# What standard JSON can carry

The portable form of a value is its own portable form, and only the number that is not finite turns
into null in it. So among members whose numbers are finite, those that are shown are shown again as
they are (`Members.shown_shown`). An object of any content is its own portable form where moreover its
keys are well-formed and none comes twice (`Members.portable_eq_self`).
-/
namespace CardForm

/-! ## Members set one after the other -/

namespace Members

variable {members others : Members} {key : Text} {value : Json} {member : Text × Json}

/-- A key that was set, or one that was there. -/
theorem mem_put (mem : member ∈ members.put key value) :
    member = (key, value) ∨ member ∈ members := by
  induction members with
  | nil => exact .inl (List.mem_singleton.1 mem)
  | cons first rest ih =>
    obtain ⟨k, v⟩ := first
    rw [put] at mem
    split at mem
    · exact (List.mem_cons.1 mem).imp_right (List.mem_cons_of_mem _)
    · obtain rfl | mem := List.mem_cons.1 mem
      · exact .inr List.mem_cons_self
      · exact (ih mem).imp_right (List.mem_cons_of_mem _)

/-- Setting a key that is there keeps the keys. -/
theorem keys_put_of_mem (mem : key ∈ members.map Prod.fst) :
    (members.put key value).map Prod.fst = members.map Prod.fst := by
  induction members with
  | nil => cases mem
  | cons first rest ih =>
    obtain ⟨k, v⟩ := first
    rw [put]
    split
    · rename_i same
      rw [List.map_cons, List.map_cons, same]
    · rename_i differ
      have inRest := (List.mem_cons.1 mem).resolve_left (Ne.symm differ)
      rw [List.map_cons, List.map_cons, ih inRest]

/-- Setting a key that is not there adds a member. -/
theorem put_of_notMem (notMem : key ∉ members.map Prod.fst) :
    members.put key value = members ++ [(key, value)] := by
  induction members with
  | nil => rfl
  | cons first rest ih =>
    obtain ⟨k, v⟩ := first
    rw [List.map_cons, List.mem_cons, not_or] at notMem
    rw [put, if_neg (Ne.symm notMem.1), ih notMem.2, List.cons_append]

/-- Setting a key leaves distinct keys distinct. -/
theorem nodup_keys_put (distinct : (members.map Prod.fst).Nodup) :
    ((members.put key value).map Prod.fst).Nodup := by
  by_cases mem : key ∈ members.map Prod.fst
  · rwa [keys_put_of_mem mem]
  · rw [put_of_notMem mem, List.map_append]
    exact distinct.append (List.nodup_singleton _) (List.disjoint_singleton.2 mem)

/-- Each of some members that are overlaid with others is among the ones or the others. -/
theorem mem_overlay (mem : member ∈ members.overlay others) : member ∈ members ∨ member ∈ others := by
  induction others generalizing members with
  | nil => exact .inl mem
  | cons first rest ih =>
    obtain inPut | inRest := ih mem
    · obtain rfl | inMembers := mem_put inPut
      · exact .inr List.mem_cons_self
      · exact .inl inMembers
    · exact .inr (List.mem_cons_of_mem _ inRest)

/-- Overlaying members leaves distinct keys distinct. -/
theorem nodup_keys_overlay (distinct : (members.map Prod.fst).Nodup) :
    ((members.overlay others).map Prod.fst).Nodup := by
  induction others generalizing members with
  | nil => exact distinct
  | cons first rest ih => exact ih (nodup_keys_put distinct)

/-- Members with distinct keys are overlaid by adding them. -/
theorem overlay_eq_append (distinct : ((members ++ others).map Prod.fst).Nodup) :
    members.overlay others = members ++ others := by
  induction others generalizing members with
  | nil => exact (List.append_nil members).symm
  | cons first rest ih =>
    have notMem : first.1 ∉ members.map Prod.fst := by
      rw [List.map_append, List.map_cons, List.nodup_append] at distinct
      exact fun mem => distinct.2.2 _ mem _ List.mem_cons_self rfl
    change (members.put first.1 first.2).overlay rest = _
    rw [put_of_notMem notMem, ih (by rwa [List.append_assoc]), List.append_assoc]
    rfl

end Members

/-! ## Portable forms -/

namespace Json

/-- Induction over a value: what holds of the items of an array holds of the array, and what holds of
the values in an object holds of the object. -/
@[elab_as_elim]
theorem induct {motive : Json → Prop} (null : motive .null) (bool : ∀ b, motive (.bool b))
    (num : ∀ n, motive (.num n)) (str : ∀ s, motive (.str s))
    (arr : ∀ items, (∀ item ∈ items, motive item) → motive (.arr items))
    (obj : ∀ members : Members, (∀ member ∈ members, motive member.2) → motive (.obj members))
    (value : Json) : motive value := by
  cases value with
  | null => exact null
  | bool b => exact bool b
  | num n => exact num n
  | str s => exact str s
  | arr items => exact arr items fun item _ => induct null bool num str arr obj item
  | obj members => exact obj members fun member _ => induct null bool num str arr obj member.2
termination_by value
decreasing_by
  · decreasing_tactic
  · have smaller := List.sizeOf_lt_of_mem ‹member ∈ members›
    rw [Json.obj.sizeOf_spec]
    have part : sizeOf member = 1 + sizeOf member.1 + sizeOf member.2 := Prod.mk.sizeOf_spec ..
    omega

/-- The portable form of items is that of each item. -/
theorem portableItems_eq_map (items : List Json) : portableItems items = items.map portable := by
  induction items with
  | nil => rfl
  | cons first rest ih => rw [portableItems, ih, List.map_cons]

/-- The portable form of members is that of each. -/
theorem portableMembers_eq_map (members : Members) :
    portableMembers members = members.map fun member => (member.1, member.2.portable) := by
  induction members with
  | nil => rfl
  | cons first rest ih => rw [portableMembers, ih, List.map_cons]

variable {value : Json} {items : List Json} {members : Members}

/-- Members have finite numbers where each of them has. -/
theorem haveFinite_iff : haveFinite members = true ↔ ∀ member ∈ members, member.2.isFinite = true := by
  induction members with
  | nil => simp [haveFinite]
  | cons member rest ih =>
    rw [haveFinite, Bool.and_eq_true, ih, List.forall_mem_cons]

/-- Items have finite numbers where each of them has. -/
theorem areFinite_iff : areFinite items = true ↔ ∀ item ∈ items, item.isFinite = true := by
  induction items with
  | nil => simp [areFinite]
  | cons item rest ih =>
    rw [areFinite, Bool.and_eq_true, ih, List.forall_mem_cons]

/-- The numbers in the portable form of a value are finite. -/
@[simp] theorem isFinite_portable (value : Json) : value.portable.isFinite = true := by
  induction value using induct with
  | null | bool | str => rfl
  | num n =>
    by_cases finite : n.isFinite = true
    · simp [portable, isFinite, finite]
    · simp [portable, isFinite, finite]
  | arr items ih =>
    rw [portable, portableItems_eq_map]
    exact areFinite_iff.2 (List.forall_mem_map.2 ih)
  | obj members ih =>
    rw [portable, portableMembers_eq_map]
    exact haveFinite_iff.2 (List.forall_mem_map.2 ih)

/-- A value with finite numbers is its own portable form. -/
theorem portable_eq_self (finite : value.isFinite = true) : value.portable = value := by
  induction value using induct with
  | null | bool | str => rfl
  | num n => exact if_pos finite
  | arr items ih =>
    rw [portable, portableItems_eq_map]
    refine congrArg arr ((List.map_congr_left fun item mem => ?_).trans items.map_id)
    exact ih item mem (areFinite_iff.1 finite item mem)
  | obj members ih =>
    rw [portable, portableMembers_eq_map]
    refine congrArg obj ((List.map_congr_left fun member mem => ?_).trans members.map_id)
    exact Prod.ext rfl (ih member mem (haveFinite_iff.1 finite member mem))

/-- The portable form of a value is its own portable form. -/
@[simp] theorem portable_portable (value : Json) : value.portable.portable = value.portable :=
  portable_eq_self (isFinite_portable value)

/-- Null is the only value that is null. -/
theorem isNull_iff : value.isNull = true ↔ value = .null := by
  cases value <;> simp [isNull]

/-- Where the numbers are finite, no other value than null has null as its portable form. -/
theorem isNull_portable (finite : value.isFinite = true) : value.portable.isNull = value.isNull := by
  rw [portable_eq_self finite]

end Json

/-! ## Objects of any content -/

namespace Members

variable {members : Members} {member : Text × Json}

/-- The keys of an object are well-formed, and none comes twice. -/
structure WellKeyed (members : Members) : Prop where
  /-- None comes twice. -/
  distinct : (members.map Prod.fst).Nodup
  /-- Each is well-formed. -/
  wellFormed : ∀ member ∈ members, member.1.isWellFormed = true

/-- A member of the portable form of an object has the portable form of a value, under a legible
key. -/
theorem exists_of_mem_portable (mem : member ∈ members.portable) :
    ∃ before ∈ members, (before.1.legible, before.2.portable) = member :=
  List.mem_map.1 ((mem_overlay mem).resolve_left List.not_mem_nil)

/-- The keys of the portable form of an object are well-formed and distinct. -/
theorem wellKeyed_portable (members : Members) : members.portable.WellKeyed where
  distinct := nodup_keys_overlay List.nodup_nil
  wellFormed member mem := by
    obtain ⟨before, _, rfl⟩ := exists_of_mem_portable mem
    exact Text.isWellFormed_legible before.1

/-- The numbers in the portable form of an object are finite. -/
theorem haveFinite_portable (members : Members) : Json.haveFinite members.portable = true := by
  refine Json.haveFinite_iff.2 fun member mem => ?_
  obtain ⟨before, _, rfl⟩ := exists_of_mem_portable mem
  exact Json.isFinite_portable before.2

/-- An object with finite numbers and well-formed, distinct keys is its own portable form. -/
theorem portable_eq_self (keyed : members.WellKeyed) (finite : Json.haveFinite members = true) :
    members.portable = members := by
  have same : members.legible = members :=
    (List.map_congr_left fun member mem => Prod.ext
      (Text.legible_of_isWellFormed (keyed.wellFormed member mem))
      (Json.portable_eq_self (Json.haveFinite_iff.1 finite member mem))).trans members.map_id
  rw [portable, same]
  exact overlay_eq_append keyed.distinct

/-- The portable form of an object is its own portable form. -/
@[simp] theorem portable_portable (members : Members) :
    members.portable.portable = members.portable :=
  portable_eq_self (wellKeyed_portable members) (haveFinite_portable members)

end Members

namespace Members

variable {members : Members} {key : Text} {value : Json}

/-- A shown member is the portable form of one that is not null. -/
theorem mem_shown_iff :
    (key, value) ∈ shown members ↔
      ∃ found, (key, found) ∈ members ∧ found.isNull = false ∧ value = found.portable := by
  simp only [shown, List.mem_map, List.mem_filter, Bool.not_eq_true', Prod.mk.injEq]
  constructor
  · rintro ⟨⟨_, found⟩, ⟨mem, notNull⟩, rfl, rfl⟩
    exact ⟨found, mem, notNull, rfl⟩
  · rintro ⟨found, mem, notNull, rfl⟩
    exact ⟨(key, found), ⟨mem, notNull⟩, rfl, rfl⟩

/-- The numbers in shown members are finite. -/
theorem haveFinite_shown (members : Members) : Json.haveFinite (shown members) = true := by
  rw [Json.haveFinite_iff]
  rintro ⟨key, value⟩ mem
  obtain ⟨found, _, _, rfl⟩ := mem_shown_iff.1 mem
  exact Json.isFinite_portable found

/-- Where the numbers are finite, what is shown is shown again as it is. -/
theorem shown_shown (finite : Json.haveFinite members = true) :
    shown (shown members) = shown members := by
  induction members with
  | nil => rfl
  | cons member rest ih =>
    obtain ⟨key, value⟩ := member
    rw [Json.haveFinite, Bool.and_eq_true] at finite
    by_cases null : value.isNull = true
    · simpa [shown, null] using ih finite.2
    · have kept : value.portable.isNull = false := by
        rw [Json.isNull_portable finite.1, Bool.eq_false_iff]
        exact null
      simpa [shown, null, kept] using ih finite.2

end Members

/-! ## Setting again what is there -/

namespace Members

variable {members others : Members} {key other name : Text} {value found : Json}

/-- Setting a key to the value that it has changes nothing. -/
theorem put_eq_self (isFound : members.get? key = some value) : members.put key value = members := by
  induction members with
  | nil => cases isFound
  | cons first rest ih =>
    obtain ⟨k, v⟩ := first
    rw [get?_cons] at isFound
    rw [put]
    split
    · rename_i same
      rw [if_pos same] at isFound
      rw [same, Option.some.inj isFound]
    · rename_i differ
      rw [if_neg differ] at isFound
      rw [ih isFound]

/-- Of two values set under one key the later one counts. -/
theorem put_put : (members.put key found).put key value = members.put key value := by
  induction members with
  | nil => simp [put]
  | cons first rest ih =>
    obtain ⟨k, v⟩ := first
    by_cases same : k = key
    · simp [put, same]
    · simp [put, same, ih]

/-- A key that is there is set before or after another one. -/
theorem put_put_comm (has : members.has key = true) (differ : key ≠ other) :
    (members.put key value).put other found = (members.put other found).put key value := by
  induction members with
  | nil => cases has
  | cons first rest ih =>
    obtain ⟨k, v⟩ := first
    by_cases isKey : k = key
    · simp [put, isKey, differ]
    · rw [Members.has, get?_cons, if_neg isKey] at has
      by_cases isOther : k = other
      · simp [put, isOther, Ne.symm differ]
      · simp [put, isKey, isOther, ih has]

/-- Setting a key that is there makes no difference before others are overlaid that leave it with the
same value. -/
theorem overlay_put (has : members.has key = true)
    (isFound : (members.overlay others).get? key = some value) :
    (members.put key value).overlay others = members.overlay others := by
  induction others generalizing members with
  | nil => exact put_eq_self isFound
  | cons first rest ih =>
    obtain ⟨k, v⟩ := first
    change ((members.put key value).put k v).overlay rest = (members.put k v).overlay rest
    by_cases same : k = key
    · rw [same, put_put]
    · rw [put_put_comm has (Ne.symm same)]
      refine ih ?_ isFound
      rwa [Members.has, get?_put, if_neg same]

/-- Setting a key to the value that it has in the portable form of an object does not change that
form. -/
theorem portable_put (isLegible : key.legible = key) (portable : value.portable = value)
    (isFound : members.portable.get? key = some value) :
    (members.put key value).portable = members.portable := by
  suffices form : ∀ before : Members,
      (before.overlay members.legible).get? key = some value →
      before.overlay (members.put key value).legible =
        before.overlay members.legible from form [] isFound
  clear isFound
  induction members with
  | nil =>
    intro before isFound
    change before.put key.legible value.portable = before
    rw [isLegible, portable]
    exact put_eq_self isFound
  | cons first rest ih =>
    intro before isFound
    obtain ⟨k, v⟩ := first
    rw [put]
    split
    · rename_i same
      subst same
      change ((before.put k.legible v.portable).overlay (legible rest)).get? k =
        some value at isFound
      change (before.put k.legible value.portable).overlay (legible rest) =
        (before.put k.legible v.portable).overlay (legible rest)
      rw [isLegible] at isFound ⊢
      rw [portable, ← overlay_put (by simp [Members.has]) isFound, put_put]
    · exact ih _ isFound

/-- Among distinct keys each one is looked up as its member has it. -/
theorem get?_of_mem (distinct : (members.map Prod.fst).Nodup) (mem : (key, value) ∈ members) :
    members.get? key = some value := by
  induction members with
  | nil => cases mem
  | cons first rest ih =>
    rw [List.map_cons, List.nodup_cons] at distinct
    obtain rfl | inRest := List.mem_cons.1 mem
    · exact (get?_cons ..).trans (if_pos rfl)
    · have differ : first.1 ≠ key := fun same =>
        distinct.1 (same ▸ List.mem_map_of_mem (f := Prod.fst) inRest)
      exact ((get?_cons ..).trans (if_neg differ)).trans (ih distinct.2 inRest)

/-- A key that is not among the others is left alone where they are overlaid. -/
theorem get?_overlay_of_absent (absent : ∀ member ∈ others, member.1 ≠ key) :
    (members.overlay others).get? key = members.get? key := by
  induction others generalizing members with
  | nil => rfl
  | cons first rest ih =>
    rw [List.forall_mem_cons] at absent
    refine (ih absent.2).trans ?_
    rw [get?_put, if_neg absent.1]

/-- Overlaying an object with values that it has in its portable form does not change that form. -/
theorem portable_overlay (each : ∀ member ∈ others, member.1.legible = member.1 ∧
      member.2.portable = member.2 ∧ members.portable.get? member.1 = some member.2) :
    (members.overlay others).portable = members.portable := by
  induction others generalizing members with
  | nil => rfl
  | cons first rest ih =>
    rw [List.forall_mem_cons] at each
    obtain ⟨⟨legible, portable, isFound⟩, others⟩ := each
    have same := portable_put legible portable isFound
    change ((members.put first.1 first.2).overlay rest).portable = members.portable
    rw [ih (by rwa [same]), same]

/-- Erasing a key leaves the other keys in the portable form of an object alone. -/
theorem get?_portable_erase (differ : name.legible ≠ key) :
    (members.erase name).portable.get? key = members.portable.get? key := by
  suffices form : ∀ before after : Members, before.get? key = after.get? key →
      (before.overlay (members.erase name).legible).get? key =
        (after.overlay members.legible).get? key from form [] [] rfl
  induction members with
  | nil => exact fun _ _ same => same
  | cons first rest ih =>
    intro before after same
    obtain ⟨k, v⟩ := first
    change _ = ((after.put k.legible v.portable).overlay (legible rest)).get? key
    rw [erase, List.filter_cons, ← erase]
    split
    · refine ih _ _ ?_
      rw [get?_put, get?_put, same]
    · rename_i erased
      obtain rfl : k = name := by simpa using erased
      refine ih _ _ ?_
      rw [get?_put, if_neg differ, same]

end Members

end CardForm
