import CardForm.Proofs.Template.Embedded
import CardForm.Proofs.Written.Portable

/-!
# The keys that are looked for

A text is searched at its braces only if it has a key of an envelope in quotes. That loses nothing where the
text has no backslash: without escapes every key of an object that is read stands in the text as it is, and
what looks like an envelope has one of the keys. Only an integer of too many digits, which ends a search
with a failure, would be met by a search that does not look for the keys first.
-/
namespace CardForm

variable {text source key front : Text} {value : Json}

/-! ## Keys as they stand in a text -/

namespace Json

variable {spells : Text → Json → Prop} {m : Text × Json} {depth limit : Nat} {members : Members}

/-- Without escapes a text is what stands between its quotes. -/
theorem Quoted.eq_of_plain (quoted : Quoted source text) (noEscape : ('\\' : CodePoint) ∉ source) :
    source = text := by
  induction quoted with
  | nil => rfl
  | plain _ _ _ _ ih =>
    rw [ih fun mem => noEscape (List.mem_cons_of_mem _ mem)]
  | short | unit | pair => exact absurd List.mem_cons_self noEscape

/-- What stands between two characters is a part of the text with them. -/
theorem infix_enclosed (opening closing : CodePoint) (inside : Text) :
    inside <:+: enclosed opening closing inside :=
  ⟨[opening], [closing], rfl⟩

/-- Without escapes the key of a member stands in its text in quotes. -/
theorem SpellsMember.key_infix (spelled : SpellsMember spells source m)
    (noEscape : ('\\' : CodePoint) ∉ source) : enclosed '"' '"' m.1 <:+: source := by
  cases spelled with
  | @intro key inside colon text item quoted =>
    have isKey : enclosed '"' '"' inside <:+: enclosed '"' '"' inside ++ (colon ++ text) :=
      (List.prefix_append _ _).isInfix
    have noEscapeInside : ('\\' : CodePoint) ∉ inside :=
      fun mem => noEscape (((infix_enclosed '"' '"' inside).trans isKey).subset mem)
    rwa [quoted.eq_of_plain noEscapeInside] at isKey ⊢

/-- Each of the things in a list stands in its text. -/
theorem Listed.exists_infix {α : Type} {spells : Text → α → Prop} {items : List α} {item : α}
    (listed : Listed spells source items) (mem : item ∈ items) :
    ∃ part, part <:+: source ∧ spells part item := by
  induction listed with
  | last spelled =>
    obtain rfl := List.mem_singleton.1 mem
    exact ⟨_, (List.prefix_append _ _).isInfix, spelled⟩
  | @more first comma others _ _ spelled _ _ ih =>
    obtain rfl | mem := List.mem_cons.1 mem
    · exact ⟨_, (List.prefix_append _ _).isInfix, spelled⟩
    · obtain ⟨part, isPart, spelled⟩ := ih mem
      have isEnd : others <:+ first ++ (comma ++ others) :=
        (List.suffix_append _ _).trans (List.suffix_append _ _)
      exact ⟨part, isPart.trans isEnd.isInfix, spelled⟩

/-- An object is a container. -/
theorem not_scalar_obj : ¬Scalar limit source (.obj members) := by
  rintro (mem | _ | _)
  simp [words] at mem

/-- Without escapes every key of an object stands in its text in quotes. -/
theorem Spells.key_infix (spelled : Spells limit depth source (.obj members))
    (noEscape : ('\\' : CodePoint) ∉ source) (mem : m ∈ members) :
    enclosed '"' '"' m.1 <:+: source := by
  obtain ⟨_, -, container⟩ := spelled.container not_scalar_obj
  cases container with
  | object inBraces =>
    have isListed := (Members.mem_overlay mem).resolve_left List.not_mem_nil
    cases inBraces with
    | none => exact absurd isListed List.not_mem_nil
    | @some before inside _ _ listed =>
      obtain ⟨part, isPart, spelled⟩ := listed.exists_infix isListed
      have isEnd : inside <:+: before ++ inside := (List.suffix_append _ _).isInfix
      have isIn := isPart.trans (isEnd.trans (infix_enclosed '\x7b' '\x7d' _))
      exact (spelled.key_infix fun mem => noEscape (isIn.subset mem)).trans isIn

/-- A value other than null that is found at a key is that of a member. -/
theorem exists_mem_of_get (notNull : value.get key ≠ .null) :
    ∃ members item, value = .obj members ∧ (key, item) ∈ members := by
  cases value with
  | obj members =>
    cases found : members.lookup key with
    | none => exact absurd (by rw [get, get?, found]; rfl) notNull
    | some item =>
      obtain ⟨before, after, rfl, -⟩ := List.lookup_eq_some_iff.1 found
      exact ⟨_, item, rfl, List.mem_append_right _ List.mem_cons_self⟩
  | _ => exact absurd rfl notNull

end Json

namespace Envelope

/-! ## What looks like an envelope -/

/-- What looks like an envelope is an object with one of the keys that are looked for. -/
theorem exists_key_of_looksRight (looks : looksRight value = true) :
    ∃ members m, value = .obj members ∧ m ∈ members ∧ Json.enclosed '"' '"' m.1 ∈ markers := by
  have notNull : value.get flowKey.camel ≠ .null ∨ value.get fieldsKey.camel ≠ .null := by
    by_contra! isNull
    rw [looksRight, isNull.1, isNull.2] at looks
    exact nomatch looks
  obtain notNull | notNull := notNull <;>
    obtain ⟨members, item, rfl, mem⟩ := Json.exists_mem_of_get notNull
  · exact ⟨members, _, rfl, mem, List.mem_cons_self⟩
  · exact ⟨members, _, rfl, mem, List.mem_cons_of_mem _ List.mem_cons_self⟩

/-- A candidate is an end of the text that is searched. -/
theorem suffix_of_mem_bracedTexts (mem : front ∈ bracedTexts text) : front <:+ text := by
  induction text with
  | nil => exact absurd mem List.not_mem_nil
  | cons c text ih =>
    rw [bracedTexts] at mem
    split at mem
    · obtain rfl | mem := List.mem_cons.1 mem
      · exact List.suffix_rfl
      · exact (ih mem).trans (List.suffix_cons _ _)
    · exact (ih mem).trans (List.suffix_cons _ _)

/-- A text without backslashes that begins with what looks like an envelope has one of the keys that are
looked for. -/
theorem hasMarker_of_frontValue (noBackslash : ('\\' : CodePoint) ∉ front)
    (isRead : frontValue front = .ok value) (looks : looksRight value = true) : hasMarker front = true := by
  obtain ⟨members, m, rfl, mem, isMarker⟩ := exists_key_of_looksRight looks
  obtain ⟨⟨_, rest⟩, isFront, rfl⟩ := Json.Refusal.map_eq_ok_iff.1 isRead
  obtain ⟨source, rfl, spelled⟩ := Json.exists_spelled_of_readFront isFront
  have isPart : source <:+: source ++ rest := (List.prefix_append _ _).isInfix
  have isKey := spelled.key_infix (fun mem => noBackslash (isPart.subset mem)) mem
  exact hasMarker_of_part isPart (hasMarker_iff.2 ⟨_, isMarker, isKey⟩)

/-! ## The search without looking for keys -/

/-- The first envelope in a text, whose keys are not looked for: what the fenced blocks of the text hold is
tried first, and then what begins at each of its braces. -/
def extractUnmarked? (text : Text) : Except Failure (Option Envelope) :=
  match firstAmong Json.read (fencedTexts text) with
  | .ok none => searched text
  | found => found

/-- At one of the braces of a text the reader comes to an integer of too many digits. -/
def MeetsLongInteger (text : Text) : Prop :=
  ∃ front ∈ bracedTexts text, ∃ count, frontValue front = .error (.tooManyDigits count)

/-- The reader comes to no integer of too many digits in a text without one. -/
theorem MeetsLongInteger.hasLongInteger (meets : MeetsLongInteger text) : Json.HasLongInteger text := by
  obtain ⟨front, mem, count, refused⟩ := meets
  have isRefused := Json.Refusal.map_eq_error_iff.1 (Json.Refusal.map_eq_error_iff.1 refused)
  exact (Json.reports_value _ isRefused).mono (suffix_of_mem_bracedTexts mem).isInfix

/-- In a text that is not longer than an integer may be there is no integer of too many digits. -/
theorem not_hasLongInteger_of_short (short : text.length ≤ Numeral.digitLimit) :
    ¬Json.HasLongInteger text := by
  rintro ⟨whole, -, long, isPart⟩
  exact absurd isPart.length_le (by omega)

/-- Nothing that begins at a brace of a text is an envelope, where the text has no backslash and no key of
an envelope. -/
theorem passedOver_of_unmarked (noBackslash : ('\\' : CodePoint) ∉ text)
    (short : ¬MeetsLongInteger text) (unmarked : hasMarker text = false)
    (mem : front ∈ bracedTexts text) : PassedOver (frontValue front) := by
  have isPart := (suffix_of_mem_bracedTexts mem).isInfix
  cases isRead : frontValue front with
  | error refusal =>
    refine .inl ⟨refusal, rfl, fun count isLong => short ⟨front, mem, count, ?_⟩⟩
    rw [isRead, isLong]
  | ok value =>
    refine .inr ⟨value, rfl, .notEnvelope, .inl rfl, ?_⟩
    have looksWrong : ¬looksRight value = true := by
      intro looks
      have marked := hasMarker_of_frontValue (fun mem => noBackslash (isPart.subset mem)) isRead looks
      exact Bool.false_ne_true (unmarked.symm.trans (hasMarker_of_part isPart marked))
    rw [load.eq_def]
    split
    · rw [if_neg looksWrong]
    · rfl

/-- Nothing is found at the braces of such a text. -/
theorem searched_of_unmarked (noBackslash : ('\\' : CodePoint) ∉ text) (short : ¬MeetsLongInteger text)
    (unmarked : hasMarker text = false) : searched text = .ok none := by
  rw [searched, firstAmong_eq_none_iff, List.forall_mem_map]
  exact fun front => passedOver_of_unmarked noBackslash short unmarked

/-- Looking for the keys first loses nothing in a text without backslashes in which the reader comes to no
integer of too many digits, as it does in no text without one (`MeetsLongInteger.hasLongInteger`). -/
theorem extract?_eq_unmarked (noBackslash : ('\\' : CodePoint) ∉ text)
    (short : ¬MeetsLongInteger text) : extract? text = extractUnmarked? text := by
  have same : (if hasMarker text then searched text else .ok none) = searched text := by
    cases marked : hasMarker text with
    | true => rfl
    | false => exact (searched_of_unmarked noBackslash short marked).symm
  rw [extract?, same]
  rfl

/-- Nothing is looked for in a text with what is not quite an envelope and a brace that is not closed. -/
theorem extract?_eq_unmarked_misspelt :
    hasMarker "Take \x7b\"scheme\":[1]\x7d or \x7bschema" = false ∧
      extract? "Take \x7b\"scheme\":[1]\x7d or \x7bschema" =
        extractUnmarked? "Take \x7b\"scheme\":[1]\x7d or \x7bschema" :=
  ⟨by decide, extract?_eq_unmarked (by decide) fun meets =>
    not_hasLongInteger_of_short (by decide) meets.hasLongInteger⟩

end Envelope

end CardForm
