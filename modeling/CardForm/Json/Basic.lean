import CardForm.Number.Basic
import CardForm.Text.Basic

/-!
# JSON values

A value is null, a truth value, a number, a text, an array or an object. An object is a list of
members in the order in which its keys first came; a key that comes again replaces the value it
had (`Members.put`), so looking a key up takes the first member that bears it. `portable` is the
part of a value that standard JSON can carry, `isSendable` tells whether it can also be encoded as
it is, and `alike` compares two values by what they mean: numbers by value, objects without regard
to order.
-/
namespace CardForm

/-- A JSON value. Its numbers may also be infinite or undefined. -/
inductive Json where
  /-- The null value. -/
  | null
  /-- A truth value. -/
  | bool (value : Bool)
  /-- A number. -/
  | num (value : Number)
  /-- A text. -/
  | str (value : Text)
  /-- An array. -/
  | arr (items : List Json)
  /-- An object. -/
  | obj (members : List (Text × Json))
deriving Inhabited

/-- The members of an object, in order. -/
abbrev Members := List (Text × Json)

namespace Members

/-- The value of a key. -/
def get? (members : Members) (key : Text) : Option Json := members.lookup key

/-- Whether a key occurs. -/
def has (members : Members) (key : Text) : Bool := (members.get? key).isSome

/-- The members with a key set to a value, in the place of the key or at the end. -/
def put : Members → Text → Json → Members
  | [], key, value => [(key, value)]
  | (k, v) :: rest, key, value =>
    if k = key then (key, value) :: rest else (k, v) :: put rest key value

/-- The members without a key. -/
def erase (members : Members) (key : Text) : Members := members.filter fun m => m.1 ≠ key

/-- The members overlaid with others, key by key. -/
def overlay (members others : Members) : Members :=
  others.foldl (fun acc m => acc.put m.1 m.2) members

/-- The empty object has no keys. -/
@[simp] theorem get?_nil (key : Text) : get? [] key = none := rfl

/-- A key is looked up member by member. -/
theorem get?_cons (k : Text) (v : Json) (rest : Members) (key : Text) :
    get? ((k, v) :: rest) key = if k = key then some v else get? rest key := by
  simp only [get?, List.lookup_cons]
  by_cases h : k = key
  · simp [h]
  · have differ : (key == k) = false := by simpa using Ne.symm h
    simp [h, differ]

/-- Setting a key gives the key that value and leaves the other keys alone. -/
theorem get?_put (members : Members) (key : Text) (value : Json) (other : Text) :
    (members.put key value).get? other =
      if key = other then some value else members.get? other := by
  induction members with
  | nil => simp [put, get?_cons]
  | cons m rest ih =>
    obtain ⟨k, v⟩ := m
    by_cases hk : k = key
    · rw [put, if_pos hk, get?_cons, get?_cons, hk]
      by_cases h : key = other <;> simp only [h, if_true, if_false]
    · rw [put, if_neg hk, get?_cons, get?_cons, ih]
      by_cases h : k = other
      · rw [if_pos h, if_pos h, if_neg fun e => hk (h.trans e.symm)]
      · rw [if_neg h, if_neg h]

/-- Setting a key gives the key that value. -/
@[simp] theorem get?_put_self (members : Members) (key : Text) (value : Json) :
    (members.put key value).get? key = some value := by
  simp [get?_put]

/-- Erasing a key leaves the other keys alone. -/
theorem get?_erase (members : Members) (key other : Text) :
    (members.erase key).get? other = if key = other then none else members.get? other := by
  induction members with
  | nil => simp [erase]
  | cons m rest ih =>
    obtain ⟨k, v⟩ := m
    rw [erase, List.filter_cons]
    by_cases hk : k = key
    · rw [if_neg (by simpa using hk), ← erase, ih, get?_cons, hk]
      by_cases h : key = other <;> simp only [h, if_true, if_false]
    · rw [if_pos (by simpa using hk), ← erase, get?_cons, get?_cons, ih]
      by_cases h : k = other
      · rw [if_pos h, if_pos h, if_neg fun e => hk (h.trans e.symm)]
      · rw [if_neg h, if_neg h]

/-- An erased key is gone. -/
@[simp] theorem get?_erase_self (members : Members) (key : Text) :
    (members.erase key).get? key = none := by
  simp [get?_erase]

end Members

namespace Json

/-- The value of a key, where the value is an object with that key. -/
def get? : Json → Text → Option Json
  | obj members, key => members.lookup key
  | _, _ => none

/-- The value of a key, null where there is none. -/
def get (value : Json) (key : Text) : Json := (value.get? key).getD null

/-- Whether the value is null. -/
def isNull : Json → Bool
  | null => true
  | _ => false

/-- A JSON integer. -/
def int (n : Int) : Json := num (.int n)

mutual

/-- The value as standard JSON can carry it: a number that is not finite becomes null. -/
def portable : Json → Json
  | num n => if n.isFinite then num n else null
  | arr items => arr (portableItems items)
  | obj members => obj (portableMembers members)
  | value => value

/-- `portable` on each item. -/
def portableItems : List Json → List Json
  | [] => []
  | item :: rest => portable item :: portableItems rest

/-- `portable` on the value of each member. -/
def portableMembers : List (Text × Json) → List (Text × Json)
  | [] => []
  | (key, value) :: rest => (key, portable value) :: portableMembers rest

end

mutual

/-- Whether every number in the value is finite. -/
def isFinite : Json → Bool
  | num n => n.isFinite
  | arr items => areFinite items
  | obj members => haveFinite members
  | _ => true

/-- `isFinite` of each item. -/
def areFinite : List Json → Bool
  | [] => true
  | item :: rest => isFinite item && areFinite rest

/-- `isFinite` of the value of each member. -/
def haveFinite : List (Text × Json) → Bool
  | [] => true
  | (_, value) :: rest => isFinite value && haveFinite rest

end

mutual

/-- Whether every text in the value is well-formed. -/
def isWellFormed : Json → Bool
  | str text => text.isWellFormed
  | arr items => areWellFormed items
  | obj members => haveWellFormed members
  | _ => true

/-- `isWellFormed` of each item. -/
def areWellFormed : List Json → Bool
  | [] => true
  | item :: rest => isWellFormed item && areWellFormed rest

/-- Whether the key and the value of each member are well-formed. -/
def haveWellFormed : List (Text × Json) → Bool
  | [] => true
  | (key, value) :: rest => key.isWellFormed && isWellFormed value && haveWellFormed rest

end

/-- Whether the value can be sent as standard JSON in an encoding. -/
def isSendable (value : Json) : Bool := value.isFinite && value.isWellFormed

/-- The number that a truth value or a number stands for in a comparison by value. -/
def asNumber? : Json → Option Number
  | bool b => some (if b then 1 else 0)
  | num n => some n
  | _ => none

mutual

/-- Equality by meaning: numbers by value, where a truth value counts as one or zero, and objects
by the values of their keys. -/
def alike : Json → Json → Bool
  | null, null => true
  | bool a, other => other.asNumber?.any (Number.sameValue (if a then 1 else 0))
  | num m, other => other.asNumber?.any m.sameValue
  | str a, str b => a == b
  | arr as, arr bs => alikeItems as bs
  | obj as, obj bs => as.length == bs.length && alikeMembers [] as bs
  | _, _ => false

/-- `alike` item by item, in equal number. -/
def alikeItems : List Json → List Json → Bool
  | [], [] => true
  | a :: as, b :: bs => alike a b && alikeItems as bs
  | _, _ => false

/-- Whether each member has an `alike` value under the same key in the other object. Of the members
with one key the first one counts, so a key that was seen before is passed over. -/
def alikeMembers (seen : List Text) : List (Text × Json) → List (Text × Json) → Bool
  | [], _ => true
  | (key, a) :: rest, others =>
    (seen.contains key ||
      match others.lookup key with
      | some b => alike a b
      | none => false) && alikeMembers (key :: seen) rest others

end

mutual

/-- A value is alike itself. -/
@[simp] theorem alike_self : ∀ value : Json, value.alike value = true
  | .null => rfl
  | .bool b => by cases b <;> simp [alike, asNumber?]
  | .num n => by simp [alike, asNumber?]
  | .str s => by simp [alike]
  | .arr items => alikeItems_self items
  | .obj members => by
    have each := alikeMembers_self [] [] members fun _ mem => absurd mem List.not_mem_nil
    simpa [alike] using each

/-- Items are alike themselves. -/
theorem alikeItems_self : ∀ items : List Json, alikeItems items items = true
  | [] => rfl
  | item :: rest => by simp only [alikeItems, alike_self item, alikeItems_self rest, Bool.and_self]

/-- Members are alike themselves, after others whose keys were seen. -/
theorem alikeMembers_self (seen : List Text) (before : List (Text × Json)) :
    ∀ members : List (Text × Json), (∀ member ∈ before, member.1 ∈ seen) →
      alikeMembers seen members (before ++ members) = true
  | [], _ => rfl
  | (key, value) :: rest, areSeen => by
    have others := alikeMembers_self (key :: seen) (before ++ [(key, value)]) rest <| by
      intro member mem
      obtain inBefore | isThis := List.mem_append.1 mem
      · exact List.mem_cons_of_mem _ (areSeen member inBefore)
      · rw [List.mem_singleton.1 isThis]
        exact List.mem_cons_self
    rw [List.append_assoc, List.singleton_append] at others
    rw [alikeMembers, others, Bool.and_true, Bool.or_eq_true, List.contains_iff_mem]
    by_cases isSeen : key ∈ seen
    · exact .inl isSeen
    · have absent : before.lookup key = none := by
        rw [List.lookup_eq_none_iff]
        intro member mem
        rw [bne_iff_ne]
        rintro rfl
        exact isSeen (areSeen member mem)
      have found : (before ++ (key, value) :: rest).lookup key = some value := by
        rw [List.lookup_append, absent, Option.none_or, List.lookup_cons_self]
      rw [found]
      exact .inr (alike_self value)

end

end Json

/-- The members with legible keys and portable values. -/
def Members.legible (members : Members) : Members :=
  members.map fun member => (member.1.legible, member.2.portable)

/-- An object as standard JSON can carry it where it is written key by key: legible, where a key that
was ill-formed may come again. -/
def Members.portable (members : Members) : Members := overlay [] members.legible

/-- Whether two lists of members, as objects, are alike. -/
def Members.alike (members others : Members) : Bool :=
  (Json.obj members).alike (Json.obj others)

end CardForm
