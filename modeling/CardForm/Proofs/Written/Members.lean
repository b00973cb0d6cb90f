import CardForm.Proofs.Written.Portable
import Mathlib.Data.List.Pairwise

/-!
# Looking up what was written

An object is written as its declared keys that have a value, in camel case, and its extras. Where
the declared keys share no spelling and the extras have none of theirs, each declared key is found
under its camel case with the value that was written (`Key.find?_written`), and the members that no
declared key takes are the extras that are shown (`Members.extras_written`).
-/
namespace CardForm

/-- Declared keys with the values that are written for them. -/
abbrev Entries := List (Key × Option Json)

namespace Key

variable {key : Key} {members : Members} {spelling : Text} {value : Json}

/-- Two declared keys share no spelling. -/
def Apart (a b : Key) : Prop :=
  a.camel ≠ b.camel ∧ a.camel ≠ b.plain ∧ a.plain ≠ b.camel ∧ a.plain ≠ b.plain

instance (a b : Key) : Decidable (Apart a b) := by
  unfold Apart
  infer_instance

instance : Std.Symm Apart := ⟨fun _ _ apart =>
  ⟨apart.1.symm, apart.2.2.1.symm, apart.2.1.symm, apart.2.2.2.symm⟩⟩

/-- A declared key is found under one of its spellings. -/
theorem spelling_of_find? (found : key.find? members = some (spelling, value)) :
    spelling = key.camel ∨ spelling = key.plain := by
  unfold find? at found
  split at found
  · cases found
    exact .inl rfl
  · obtain ⟨_, _, same⟩ := Option.map_eq_some_iff.1 found
    cases same
    exact .inr rfl

/-- A declared key is found under its camel case where that occurs. -/
theorem find?_of_camel (found : members.get? key.camel = some value) :
    key.find? members = some (key.camel, value) := by
  rw [find?, found]

/-- A declared key takes the members under one of its spellings at most. -/
theorem spelling_of_claims (claims : key.claims members spelling = true) :
    spelling = key.camel ∨ spelling = key.plain := by
  unfold Key.claims at claims
  cases isFound : key.find? members with
  | none => simp [isFound] at claims
  | some found =>
    rw [isFound, Option.any_some, beq_iff_eq] at claims
    rw [← claims]
    exact spelling_of_find? isFound

/-- A declared key takes what is under its camel case. -/
theorem claims_camel (has : (members.get? key.camel).isSome = true) :
    key.claims members key.camel = true := by
  obtain ⟨value, found⟩ := Option.isSome_iff_exists.1 has
  simp [claims, find?_of_camel found]

/-- What is found under a declared key has finite numbers where the members have. -/
theorem isFinite_of_find? {found : Text × Json} (finite : Json.haveFinite members = true)
    (isFound : key.find? members = some found) : found.2.isFinite = true := by
  have each {name : Text} {value : Json} (atName : members.get? name = some value) :
      value.isFinite = true := by
    obtain ⟨before, after, rfl, _⟩ := List.lookup_eq_some_iff.1 atName
    exact Json.haveFinite_iff.1 finite (name, value) (by simp)
  unfold find? at isFound
  split at isFound
  · rename_i atCamel
    cases isFound
    exact each atCamel
  · obtain ⟨value, atPlain, rfl⟩ := Option.map_eq_some_iff.1 isFound
    exact each atPlain

end Key

namespace Members

variable {members extras : Members} {key : Key} {name : Text} {value : Option Json}
  {entries : Entries}

/-- A member has its key. -/
theorem isSome_get?_of_mem {member : Text × Json} (mem : member ∈ members) :
    (members.get? member.1).isSome = true := by
  rw [get?, List.lookup_isSome_iff]
  exact ⟨member, mem, BEq.rfl⟩

/-- A key that no member has is not there. -/
theorem get?_eq_none (absent : ∀ member ∈ members, member.1 ≠ name) : members.get? name = none := by
  rw [get?, List.lookup_eq_none_iff]
  intro member mem
  rw [bne_iff_ne]
  exact (absent member mem).symm

/-- A key is looked up in some members before others. -/
theorem get?_append (members others : Members) (name : Text) :
    (members ++ others).get? name = (members.get? name).or (others.get? name) :=
  List.lookup_append

/-- A key is looked up among the members that are kept where all that bear it are. -/
theorem get?_filter {keep : Text × Json → Bool} (keeps : ∀ value, keep (name, value) = true) :
    get? (members.filter keep) name = members.get? name := by
  induction members with
  | nil => rfl
  | cons member rest ih =>
    obtain ⟨k, v⟩ := member
    rw [List.filter_cons]
    split
    · rw [get?_cons, get?_cons, ih]
    · rename_i dropped
      have differ : k ≠ name := by
        rintro rfl
        exact dropped (keeps v)
      rw [get?_cons, if_neg differ, ih]

/-- A key whose value is not null is shown with the portable form of the value. -/
theorem get?_shown {found : Json} (isFound : members.get? name = some found) (notNull : found ≠ .null) :
    (shown members).get? name = some found.portable := by
  induction members with
  | nil => cases isFound
  | cons member rest ih =>
    obtain ⟨k, v⟩ := member
    rw [get?_cons] at isFound
    split at isFound
    · rename_i same
      cases isFound
      have first : shown ((k, found) :: rest) = (k, found.portable) :: shown rest := by
        simp [shown, Bool.eq_false_iff.2 (Json.isNull_iff.not.2 notNull)]
      rw [first, get?_cons, if_pos same]
    · rename_i differ
      by_cases null : v.isNull = true
      · have first : shown ((k, v) :: rest) = shown rest := by simp [shown, null]
        rw [first, ih isFound]
      · have first : shown ((k, v) :: rest) = (k, v.portable) :: shown rest := by
          simp [shown, null]
        rw [first, get?_cons, if_neg differ, ih isFound]

/-- What is written of some declared keys. -/
def declared (entries : Entries) : Members := present (entries.map fun e => (e.1.camel, e.2))

/-- A written member bears the camel case of a declared key with a value. -/
theorem mem_declared_iff {member : Text × Json} :
    member ∈ declared entries ↔ ∃ key, (key, some member.2) ∈ entries ∧ key.camel = member.1 := by
  simp only [declared, present, List.mem_filterMap, List.mem_map]
  constructor
  · rintro ⟨_, ⟨⟨key, value⟩, mem, rfl⟩, same⟩
    obtain ⟨found, rfl, rfl⟩ := Option.map_eq_some_iff.1 same
    exact ⟨key, mem, rfl⟩
  · rintro ⟨key, mem, same⟩
    refine ⟨_, ⟨_, mem, rfl⟩, ?_⟩
    rw [same]
    rfl

/-- A declared key is written with its value. -/
theorem get?_declared (apart : (entries.map Prod.fst).Pairwise Key.Apart)
    (mem : (key, value) ∈ entries) : (declared entries).get? key.camel = value := by
  induction entries with
  | nil => cases mem
  | cons entry rest ih =>
    obtain ⟨first, written⟩ := entry
    rw [List.map_cons, List.pairwise_cons] at apart
    obtain same | inRest := List.mem_cons.1 mem
    · cases same
      have absent : (declared rest).get? key.camel = none := by
        refine get?_eq_none fun member inRest => ?_
        obtain ⟨other, otherMem, same⟩ := mem_declared_iff.1 inRest
        rw [← same]
        exact (apart.1 other (List.mem_map_of_mem otherMem)).1.symm
      cases value with
      | none => exact absent
      | some found =>
        change get? ((key.camel, found) :: declared rest) key.camel = some found
        rw [get?_cons, if_pos rfl]
    · have differ : first.camel ≠ key.camel := (apart.1 key (List.mem_map_of_mem inRest)).1
      cases written with
      | none => exact ih apart.2 inRest
      | some found =>
        change get? ((first.camel, found) :: declared rest) key.camel = value
        rw [get?_cons, if_neg differ]
        exact ih apart.2 inRest

/-- No member has a spelling of one of the declared keys. -/
def Unspelled (keys : List Key) (members : Members) : Prop :=
  ∀ key ∈ keys, ∀ member ∈ members, member.1 ≠ key.camel ∧ member.1 ≠ key.plain

/-- The members that are shown have no spelling that no member had. -/
theorem Unspelled.shown {keys : List Key} (unspelled : Unspelled keys extras) :
    Unspelled keys (shown extras) := by
  rintro key mem ⟨name, value⟩ inShown
  obtain ⟨found, inExtras, _⟩ := mem_shown_iff.1 inShown
  exact unspelled key mem (name, found) inExtras

/-- A declared key that is written is found in camel case. -/
theorem find?_written (apart : (entries.map Prod.fst).Pairwise Key.Apart)
    (unspelled : Unspelled (entries.map Prod.fst) extras) (mem : (key, value) ∈ entries) :
    key.find? (declared entries ++ shown extras) = value.map fun found => (key.camel, found) := by
  have noExtra := unspelled.shown key (List.mem_map_of_mem mem)
  have camel : (declared entries ++ shown extras).get? key.camel = value := by
    rw [get?_append, get?_declared apart mem, get?_eq_none fun member inExtras =>
      (noExtra member inExtras).1, Option.or_none]
  cases value with
  | some found => exact Key.find?_of_camel camel
  | none =>
    have plain : (declared entries ++ shown extras).get? key.plain = none := by
      refine get?_eq_none fun member inWritten => ?_
      obtain inDeclared | inExtras := List.mem_append.1 inWritten
      · obtain ⟨other, otherMem, same⟩ := mem_declared_iff.1 inDeclared
        rw [← same]
        by_cases differ : other = key
        · -- The key itself was written without a value.
          have written := get?_declared apart otherMem
          rw [differ, get?_declared apart mem] at written
          cases written
        · exact (apart.forall (List.mem_map_of_mem otherMem) (List.mem_map_of_mem mem) differ).2.1
      · exact (noExtra member inExtras).2
    rw [Key.find?, camel, plain]
    rfl

/-- The members of a written object that no declared key takes are the extras that are shown. -/
theorem extras_written (apart : (entries.map Prod.fst).Pairwise Key.Apart)
    (unspelled : Unspelled (entries.map Prod.fst) extras) :
    (declared entries ++ shown extras).extras (entries.map Prod.fst) = shown extras := by
  have taken : (declared entries).filter (fun m => !(entries.map Prod.fst).any fun key =>
      key.claims (declared entries ++ shown extras) m.1) = [] := by
    rw [List.filter_eq_nil_iff]
    intro member mem
    obtain ⟨key, inEntries, same⟩ := mem_declared_iff.1 mem
    have claims : key.claims (declared entries ++ shown extras) member.1 = true := by
      rw [Key.claims, find?_written apart unspelled inEntries]
      simp [same]
    rw [Bool.not_eq_true', Bool.not_eq_false, List.any_eq_true]
    exact ⟨key, List.mem_map_of_mem inEntries, claims⟩
  have left : (shown extras).filter (fun m => !(entries.map Prod.fst).any fun key =>
      key.claims (declared entries ++ shown extras) m.1) = shown extras := by
    rw [List.filter_eq_self]
    intro member mem
    rw [Bool.not_eq_true', List.any_eq_false]
    intro key inEntries claims
    have differ := unspelled.shown key inEntries member mem
    exact (Key.spelling_of_claims claims).elim differ.1 differ.2
  rw [Members.extras, List.filter_append, taken, left, List.nil_append]

/-- The extras of an object that was read do not bear the camel case of a declared key. -/
theorem ne_camel_of_mem_extras {keys : List Key} (mem : key ∈ keys) {member : Text × Json}
    (inExtras : member ∈ members.extras keys) : member.1 ≠ key.camel := by
  obtain ⟨inMembers, left⟩ := List.mem_filter.1 inExtras
  rw [Bool.not_eq_true', List.any_eq_false] at left
  intro same
  apply left key mem
  rw [same]
  exact Key.claims_camel (same ▸ isSome_get?_of_mem inMembers)

/-- A key that spells no declared one is looked up among the extras. -/
theorem get?_extras {keys : List Key} (unknown : ∀ key ∈ keys, name ≠ key.camel ∧ name ≠ key.plain) :
    (members.extras keys).get? name = members.get? name := by
  refine get?_filter fun value => ?_
  rw [Bool.not_eq_true', List.any_eq_false]
  intro key mem claims
  exact (Key.spelling_of_claims claims).elim (unknown key mem).1 (unknown key mem).2

/-- The members spell none of some declared keys both ways. -/
def SpelledOnce (keys : List Key) (members : Members) : Prop :=
  ∀ key ∈ keys, key.camel ≠ key.plain →
    ¬(members.has key.camel = true ∧ members.has key.plain = true)

instance (keys : List Key) (members : Members) : Decidable (SpelledOnce keys members) :=
  inferInstanceAs (Decidable (∀ key ∈ keys, _))

/-- Declared keys with a single spelling are not spelled both ways. -/
theorem spelledOnce_of_single {keys : List Key} (single : ∀ key ∈ keys, key.camel = key.plain) :
    SpelledOnce keys members :=
  fun key mem differ => absurd (single key mem) differ

/-- The extras of an object bear the other spelling of a declared key only where the object spells
that key both ways. -/
theorem plain_mem_extras_iff {keys : List Key} (apart : keys.Pairwise Key.Apart)
    (mem : key ∈ keys) (twoWays : key.camel ≠ key.plain) :
    (∃ member ∈ members.extras keys, member.1 = key.plain) ↔
      members.has key.camel = true ∧ members.has key.plain = true := by
  constructor
  · rintro ⟨member, inExtras, same⟩
    obtain ⟨inMembers, left⟩ := List.mem_filter.1 inExtras
    have plain : members.has key.plain = true := same ▸ isSome_get?_of_mem inMembers
    refine ⟨?_, plain⟩
    rw [Bool.not_eq_true', List.any_eq_false] at left
    by_cases camel : members.has key.camel = true
    · exact camel
    · obtain ⟨value, found⟩ := Option.isSome_iff_exists.1 plain
      rw [has, Bool.not_eq_true, Option.isSome_eq_false_iff, Option.isNone_iff_eq_none] at camel
      exact absurd (by simp [Key.claims, Key.find?, camel, found, same]) (left key mem)
  · rintro ⟨camel, plain⟩
    obtain ⟨value, found⟩ := Option.isSome_iff_exists.1 plain
    obtain ⟨member, inMembers, same⟩ := List.lookup_isSome_iff.1 plain
    rw [beq_iff_eq] at same
    refine ⟨member, List.mem_filter.2 ⟨inMembers, ?_⟩, same.symm⟩
    rw [Bool.not_eq_true', List.any_eq_false, ← same]
    intro other otherMem claims
    by_cases differ : other = key
    · obtain ⟨value, foundCamel⟩ := Option.isSome_iff_exists.1 camel
      rw [differ, Key.claims, Key.find?_of_camel foundCamel, Option.any_some, beq_iff_eq] at claims
      exact twoWays claims
    · have apart := apart.forall otherMem mem differ
      exact (Key.spelling_of_claims claims).elim apart.2.1.symm apart.2.2.2.symm

end Members

/-! ## Erasing a key -/

section Erasing

variable {members : Members} {key other : Key} {keys : List Key} {name : Text} {value : Json}

/-- Erasing a key that is not there changes nothing. -/
theorem Members.erase_eq_self (absent : members.get? name = none) : members.erase name = members := by
  refine List.filter_eq_self.2 fun member mem => decide_eq_true ?_
  rintro rfl
  exact absurd (isSome_get?_of_mem mem) (by simp [absent])

/-- A declared key that shares no spelling with another one is found as before where that was
erased. -/
theorem Key.find?_erase (apart : other.Apart key) :
    other.find? (members.erase key.camel) = other.find? members := by
  rw [find?, Members.get?_erase, Members.get?_erase, if_neg apart.1.symm, if_neg apart.2.2.1.symm,
    find?]

/-- A declared key without its other spelling is not found where it was erased. -/
theorem Key.find?_erase_self (noPlain : members.get? key.plain = none) :
    key.find? (members.erase key.camel) = none := by
  rw [find?, Members.get?_erase_self, Members.get?_erase, noPlain, ite_self]
  rfl

/-- Erasing a declared key that is there, and not in its other spelling, leaves the extras. -/
theorem Members.extras_erase (apart : keys.Pairwise Key.Apart) (mem : key ∈ keys)
    (found : key.find? members = some (key.camel, value)) (noPlain : members.get? key.plain = none) :
    (members.erase key.camel).extras keys = members.extras keys := by
  rw [extras, extras, erase, List.filter_filter, ← erase]
  refine List.filter_congr fun member _ => ?_
  by_cases same : member.1 = key.camel
  · have claims : key.claims members member.1 = true := by simp [Key.claims, found, same]
    have claimed : (keys.any fun key => key.claims members member.1) = true :=
      List.any_eq_true.2 ⟨key, mem, claims⟩
    rw [claimed, decide_eq_false (not_not.2 same), Bool.and_false, Bool.not_true]
  · have claims (other : Key) (inKeys : other ∈ keys) :
        other.claims (members.erase key.camel) member.1 = other.claims members member.1 := by
      by_cases isKey : other = key
      · simp [isKey, Key.claims, found, Key.find?_erase_self noPlain, Ne.symm same]
      · rw [Key.claims, Key.claims, Key.find?_erase (apart.forall inKeys mem isKey)]
    have claimed : (keys.any fun other => other.claims (members.erase key.camel) member.1) =
        keys.any fun key => key.claims members member.1 := by
      rw [Bool.eq_iff_iff, List.any_eq_true, List.any_eq_true]
      exact exists_congr fun other => and_congr_right fun inKeys => by rw [claims other inKeys]
    rw [claimed, decide_eq_true same, Bool.and_true]

end Erasing

end CardForm
