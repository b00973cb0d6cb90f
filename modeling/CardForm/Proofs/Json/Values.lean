import CardForm.Proofs.Json.Numbers

/-!
# Reading values

The reader of values and the grammar are two accounts of one relation (`reads_value`): what spells a value
is read as it, whatever stands behind it as long as that does not go on with a number, and what is read
spelled its value. The readers of containers are taken apart with any reader of values in place of the inner
one, so that the depth comes in only at the end.
-/
namespace CardForm.Json

open Text (Stops stops_nil stops_cons_iff)

variable {rest cs source base : Text} {c : CodePoint} {item : Json} {depth : Nat} {α : Type}

/-! ## Words and other values that are no containers -/

/-- A value that does not begin with a bracket is no container. -/
theorem value_cons (notArray : c ≠ '[') (notObject : c ≠ '\x7b') :
    value depth (c :: cs) = scalar c cs := by
  rw [value.eq_def]
  simp only [notArray, if_false, notObject]

/-- A word is taken for its value. -/
theorem exists_word?_append {word : Text} (mem : (word, item) ∈ words) (isText : cs = word ++ rest) :
    ∃ h, word? cs = some (item, ⟨rest, h⟩) := by
  subst isText
  have shorter : rest.length < (word ++ rest).length := by
    have notEmpty : ∀ m ∈ words, 0 < m.1.length := by decide
    simpa using notEmpty _ mem
  simp only [words, List.mem_cons, Prod.mk.injEq, List.not_mem_nil, or_false] at mem
  obtain ⟨rfl, rfl⟩ | ⟨rfl, rfl⟩ | ⟨rfl, rfl⟩ | ⟨rfl, rfl⟩ | ⟨rfl, rfl⟩ | ⟨rfl, rfl⟩ := mem <;>
    exact ⟨shorter, rfl⟩

/-- What is taken is a word of the value. -/
theorem exists_word_of_word? {within : rest.length < cs.length}
    (taken : word? cs = some (item, ⟨rest, within⟩)) :
    ∃ word, cs = word ++ rest ∧ (word, item) ∈ words := by
  obtain ⟨⟨word, value⟩, mem, found⟩ := List.exists_of_findSome?_eq_some taken
  dsimp only at found
  split at found
  · rename_i isAfter
    split at found
    · cases found
      exact ⟨word, eq_append_of_after? isAfter, mem⟩
    · cases found
  · cases found

/-- No word begins with a digit, or with a sign and a digit. -/
theorem word?_eq_none {negative : Bool} (isDigit : c.isDigit = true) (cs : Text) :
    word? (minus negative ++ c :: cs) = none := by
  have ne (d : Char) (notDigit : (CodePoint.ofChar d).isDigit = false) : ¬CodePoint.ofChar d = c :=
    (ne_of_isDigit isDigit notDigit).symm
  cases negative <;>
    simp [word?, words, minus, after?, Text.ofString, Text.ofChars, CodePoint.ofChar_inj, ne 'n' rfl,
      ne 't' rfl, ne 'f' rfl, ne 'N' rfl, ne 'I' rfl, ne '-' rfl]

/-- Whether a value that is no container may begin with a character. -/
def opensScalar (c : CodePoint) : Bool :=
  !isJsonBlank c && c != ']' && c != '[' && c != '\x7b'

/-- A character that may begin such a value is neither a blank nor a bracket. -/
theorem ne_of_opensScalar (opens : opensScalar c = true) :
    isJsonBlank c = false ∧ c ≠ ']' ∧ c ≠ '[' ∧ c ≠ '\x7b' := by
  simpa [opensScalar, and_assoc] using opens

/-- A value that is no container begins with neither a blank nor a bracket. -/
theorem Scalar.exists_cons {limit : Nat} (spelled : Scalar limit source item) :
    ∃ c tail, source = c :: tail ∧ opensScalar c = true := by
  cases spelled with
  | word mem =>
    have opens : ∀ m ∈ words, ∃ c ∈ m.1.head?, opensScalar c = true := by decide
    obtain ⟨c, isHead, isOpening⟩ := opens _ mem
    obtain ⟨tail, isWord⟩ := List.head?_eq_some_iff.1 isHead
    exact ⟨c, tail, isWord, isOpening⟩
  | text => exact ⟨_, _, rfl, rfl⟩
  | @number negative digits n number =>
    cases negative with
    | true => exact ⟨_, _, rfl, rfl⟩
    | false =>
      obtain ⟨c, tail, rfl, isDigit⟩ := number.exists_cons
      refine ⟨c, tail, rfl, ?_⟩
      simp only [opensScalar, isJsonBlank, Bool.and_eq_true, Bool.not_eq_true', Bool.or_eq_false_iff,
        beq_eq_false_iff_ne, bne_iff_ne]
      and_intros <;> exact ne_of_isDigit isDigit rfl

/-- A value that is no container is taken. -/
theorem exists_scalar_append (spelled : Scalar Numeral.digitLimit source item)
    (stops : Stops continuesNumber rest) (isText : c :: cs = source ++ rest) :
    ∃ h, scalar c cs = .ok (item, ⟨rest, h⟩) := by
  cases spelled with
  | word mem =>
    have notQuote : c ≠ '"' := by
      have begins : ∀ m ∈ words, ∃ c ∈ m.1.head?, c ≠ '"' := by decide
      obtain ⟨d, isHead, notQuote⟩ := begins _ mem
      obtain ⟨_, rfl⟩ := List.head?_eq_some_iff.1 isHead
      rwa [(List.cons.inj isText).1]
    obtain ⟨shorter, taken⟩ := exists_word?_append mem isText
    exact ⟨shorter, by simp only [scalar, notQuote, if_false, taken]⟩
  | text quoted =>
    simp only [enclosed, List.cons_append, List.append_assoc, List.nil_append, List.cons.injEq] at isText
    obtain ⟨rfl, rfl⟩ := isText
    obtain ⟨shorter, taken⟩ := exists_textAfter_append _ [] quoted (length_lt_cons '"' _)
    refine ⟨shorter, ?_⟩
    rw [scalar, if_pos rfl, taken]
    rfl
  | @number negative _ n number =>
    obtain ⟨d, tail, rfl, isDigit⟩ := number.exists_cons
    have noWord : word? (c :: cs) = none := by
      rw [isText, List.append_assoc]
      exact word?_eq_none isDigit (tail ++ rest)
    have notQuote : c ≠ '"' := by
      cases negative <;> rw [(List.cons.inj isText).1]
      · exact ne_of_isDigit isDigit rfl
      · decide
    obtain ⟨shorter, taken⟩ := exists_number_append number stops (isText.trans (List.append_assoc _ _ _))
    exact ⟨shorter, by simp only [scalar, notQuote, if_false, noWord, taken]; rfl⟩

/-- What is taken is no container. -/
theorem exists_spelled_of_scalar {within : rest.length < (c :: cs).length}
    (taken : scalar c cs = .ok (item, ⟨rest, within⟩)) :
    ∃ source, c :: cs = source ++ rest ∧ Scalar Numeral.digitLimit source item := by
  unfold scalar at taken
  split at taken
  · rename_i isQuote
    obtain ⟨⟨_, _⟩, taken, isResult⟩ := Refusal.map_eq_ok_iff.1 taken
    cases isResult
    obtain ⟨source, _, rfl, quoted, rfl⟩ := exists_quoted_of_textAfter taken
    exact ⟨_, by simp [enclosed, isQuote], .text quoted⟩
  · split at taken
    · rename_i isWord
      cases taken
      obtain ⟨word, isText, mem⟩ := exists_word_of_word? isWord
      exact ⟨word, isText, .word mem⟩
    · obtain ⟨⟨_, _⟩, taken, isResult⟩ := Refusal.map_eq_ok_iff.1 taken
      cases isResult
      obtain ⟨negative, source, isText, spelled⟩ := exists_unsigned_of_number taken
      exact ⟨_, by rw [isText, List.append_assoc], .number spelled⟩

/-! ## Containers -/

/-- A reader of values and a grammar of values are two accounts of one relation. -/
structure Reads (reader : ValueReader) (spells : Text → Json → Prop) : Prop where
  /-- What spells a value begins with neither a blank nor the end of an array. -/
  begins : ∀ {source item}, spells source item →
    ∃ c tail, source = c :: tail ∧ isJsonBlank c = false ∧ c ≠ ']'
  /-- What spells a value is read as it. -/
  complete : ∀ {source item cs rest}, spells source item → Stops continuesNumber rest →
    cs = source ++ rest → ∃ h, reader cs = .ok (item, ⟨rest, h⟩)
  /-- What is read as a value spelled it. -/
  sound : ∀ {cs item rest within}, reader cs = .ok (item, ⟨rest, within⟩) →
    ∃ source, cs = source ++ rest ∧ spells source item

variable {reader : ValueReader} {spells : Text → Json → Prop} {before : Text}

/-- A value that is no container begins so. -/
theorem Scalar.begins {limit : Nat} (spelled : Scalar limit source item) :
    ∃ c tail, source = c :: tail ∧ isJsonBlank c = false ∧ c ≠ ']' := by
  obtain ⟨c, tail, isSource, opens⟩ := spelled.exists_cons
  have notOpening := ne_of_opensScalar opens
  exact ⟨c, tail, isSource, notOpening.1, notOpening.2.1⟩

/-- Things between two characters begin and end with these. -/
theorem Enclosed.exists_eq_enclosed {opening closing : CodePoint} {spells : Text → α → Prop}
    {items : List α} (spelled : Enclosed opening closing spells source items) :
    ∃ inside, source = enclosed opening closing inside := by
  cases spelled with
  | none | some => exact ⟨_, rfl⟩

/-- A container begins with its opening character. -/
theorem Container.begins (spelled : Container spells source item) :
    ∃ c tail, source = c :: tail ∧ isJsonBlank c = false ∧ c ≠ ']' := by
  cases spelled with
  | array spelled | object spelled =>
    obtain ⟨inside, rfl⟩ := spelled.exists_eq_enclosed
    exact ⟨_, _, rfl, rfl, by decide⟩

/-- Blanks do not go on with a number. -/
theorem stops_blanks (blanks : Blanks before) (stops : Stops continuesNumber rest) :
    Stops continuesNumber (before ++ rest) := by
  cases before with
  | nil => exact stops
  | cons c before =>
    have isBlank := blanks c List.mem_cons_self
    simp only [isJsonBlank, Bool.or_eq_true, beq_iff_eq] at isBlank
    refine stops_cons_iff.2 ?_
    obtain ((rfl | rfl) | rfl) | rfl := isBlank <;> rfl

/-- Blanks before a character that is none are skipped. -/
theorem exists_skipBlanks_cons (blanks : Blanks before) (notBlank : isJsonBlank c = false) (rest : Text) :
    ∃ h, skipBlanks (before ++ c :: rest) = ⟨c :: rest, h⟩ :=
  exists_skipBlanks_append blanks (stops_cons_iff.2 notBlank)

namespace Spaced

variable {between : Text}

/-- A character with blanks around it does not go on with a number unless it does itself. -/
theorem stops (spaced : Spaced c between) (notMore : continuesNumber c = false) (rest : Text) :
    Stops continuesNumber (between ++ rest) := by
  cases spaced with
  | intro isBefore _ =>
    rw [List.append_assoc]
    exact stops_blanks isBefore (stops_cons_iff.2 notMore)

/-- The blanks around a character are skipped, those before it and those after it. -/
theorem exists_skipBlanks (spaced : Spaced c between) (notBlank : isJsonBlank c = false)
    (stops : Stops isJsonBlank rest) : ∃ after h h', skipBlanks (between ++ rest) = ⟨c :: after, h⟩ ∧
      skipBlanks after = ⟨rest, h'⟩ := by
  cases spaced with
  | @intro before after isBefore isAfter =>
    rw [List.append_assoc]
    obtain ⟨less, skipped⟩ := exists_skipBlanks_cons isBefore notBlank (after ++ rest)
    obtain ⟨more, next⟩ := exists_skipBlanks_append isAfter stops
    exact ⟨after ++ rest, less, more, skipped, next⟩

end Spaced

/-- What is skipped on both sides of a character are the blanks around it. -/
theorem exists_spaced {after : Text} {h : (c :: after).length ≤ cs.length} {h' : rest.length ≤ after.length}
    (skipped : skipBlanks cs = ⟨c :: after, h⟩) (next : skipBlanks after = ⟨rest, h'⟩) :
    ∃ between, cs = between ++ rest ∧ Spaced c between := by
  obtain ⟨before, isBefore, rfl⟩ := exists_blanks_of_skipBlanks skipped
  obtain ⟨behind, isBehind, rfl⟩ := exists_blanks_of_skipBlanks next
  exact ⟨before ++ c :: behind, by simp, .intro isBefore isBehind⟩

/-- A list begins as its first thing begins. -/
theorem Listed.exists_cons {spells : Text → α → Prop} {items : List α} {begin : CodePoint → Prop}
    (listed : Listed spells source items)
    (begins : ∀ {source item}, spells source item → ∃ c tail, source = c :: tail ∧ begin c) :
    ∃ c tail, source = c :: tail ∧ begin c := by
  cases listed with
  | last spelled | more spelled =>
    obtain ⟨c, tail, rfl, isBegin⟩ := begins spelled
    exact ⟨c, _, List.cons_append, isBegin⟩

/-- Items up to the end of an array are taken. -/
theorem exists_itemsAfter_append (reads : Reads reader spells) {items : List Json} (acc : List Json)
    (listed : Listed spells source items) (isText : cs = source ++ (']' : CodePoint) :: rest)
    (h : cs.length < base.length) :
    ∃ h', itemsAfter reader base acc cs h = .ok (.arr (acc.reverse ++ items), ⟨rest, h'⟩) := by
  induction listed generalizing acc cs with
  | last spelled blanks =>
    rw [List.append_assoc] at isText
    obtain ⟨shorter, taken⟩ := reads.complete spelled (stops_blanks blanks (stops_cons_iff.2 rfl)) isText
    obtain ⟨less, skipped⟩ := exists_skipBlanks_cons (c := ']') blanks rfl rest
    refine ⟨by simp only [List.length_cons] at less; omega, ?_⟩
    rw [itemsAfter]
    simp only [taken, skipped, if_true, List.reverse_cons]
  | @more _ _ others item _ spelled isComma listed ih =>
    have stops : Stops isJsonBlank (others ++ (']' : CodePoint) :: rest) := by
      obtain ⟨_, _, rfl, notBlank, -⟩ := listed.exists_cons reads.begins
      exact stops_cons_iff.2 notBlank
    simp only [List.append_assoc] at isText
    obtain ⟨shorter, taken⟩ := reads.complete spelled (isComma.stops rfl _) isText
    obtain ⟨_, less, more, skipped, next⟩ := isComma.exists_skipBlanks rfl stops
    obtain ⟨within, last⟩ := ih (item :: acc) rfl (by simp only [List.length_cons] at less; omega)
    refine ⟨within, ?_⟩
    rw [itemsAfter]
    simp only [taken, skipped, next, last, if_true]
    rw [if_neg (by decide), List.reverse_cons, List.append_assoc, List.singleton_append]

/-- What is taken are items up to the end of an array. -/
theorem exists_listed_of_itemsAfter (reads : Reads reader spells) {acc : List Json}
    {h : cs.length < base.length} {within : rest.length < base.length}
    (taken : itemsAfter reader base acc cs h = .ok (item, ⟨rest, within⟩)) :
    ∃ source items, cs = source ++ (']' : CodePoint) :: rest ∧ Listed spells source items ∧
      item = .arr (acc.reverse ++ items) := by
  fun_induction itemsAfter reader base acc cs h with
  | case1 => cases taken
  | case2 => cases taken
  | case3 acc cs _ item _ _ isFirst _ _ skipped =>
    obtain ⟨source, rfl, spelled⟩ := reads.sound isFirst
    obtain ⟨after, blanks, rfl⟩ := exists_blanks_of_skipBlanks skipped
    cases taken
    exact ⟨source ++ after, [item], by simp, .last spelled blanks, by simp⟩
  | case4 acc cs _ item _ _ isFirst _ _ _ next _ skipped _ _ ih =>
    obtain ⟨others, items, rfl, listed, rfl⟩ := ih taken
    obtain ⟨source, rfl, spelled⟩ := reads.sound isFirst
    obtain ⟨comma, rfl, isComma⟩ := exists_spaced skipped next
    exact ⟨source ++ (comma ++ others), item :: items, by simp, .more spelled isComma listed, by simp⟩
  | case5 => cases taken

/-- An array is taken, after its opening bracket. -/
theorem exists_arrayAfter_append (reads : Reads reader spells) {items : List Json}
    (spelled : Enclosed '[' ']' spells source items) (isText : ('[' : CodePoint) :: cs = source ++ rest)
    (h : cs.length < base.length) :
    ∃ h', arrayAfter reader base cs h = .ok (.arr items, ⟨rest, h'⟩) := by
  cases spelled with
  | @none blanks isBlanks =>
    obtain rfl : cs = blanks ++ (']' : CodePoint) :: rest := by simpa [enclosed] using isText
    obtain ⟨less, skipped⟩ := exists_skipBlanks_cons (c := ']') isBlanks rfl rest
    refine ⟨by simp only [List.length_cons] at less; omega, ?_⟩
    simp only [arrayAfter, skipped, if_true]
  | @some before source _ isBefore listed =>
    obtain rfl : cs = before ++ (source ++ (']' : CodePoint) :: rest) := by
      simpa [enclosed] using isText
    obtain ⟨c, tail, rfl, notBlank, notEnd⟩ := listed.exists_cons reads.begins
    obtain ⟨less, skipped⟩ := exists_skipBlanks_cons isBefore notBlank (tail ++ (']' : CodePoint) :: rest)
    obtain ⟨within, taken⟩ := exists_itemsAfter_append reads [] listed rfl (Nat.lt_of_le_of_lt less h)
    refine ⟨within, ?_⟩
    simp only [List.cons_append] at taken
    simp only [arrayAfter, List.cons_append, skipped, notEnd, if_false, taken, List.reverse_nil,
      List.nil_append]

/-- What is taken is an array, after its opening bracket. -/
theorem exists_enclosed_of_arrayAfter (reads : Reads reader spells) {h : cs.length < base.length}
    {within : rest.length < base.length}
    (taken : arrayAfter reader base cs h = .ok (item, ⟨rest, within⟩)) :
    ∃ source items, ('[' : CodePoint) :: cs = source ++ rest ∧ Enclosed '[' ']' spells source items ∧
      item = .arr items := by
  unfold arrayAfter at taken
  split at taken
  · obtain ⟨_, _, isText, -, -⟩ := exists_listed_of_itemsAfter reads taken
    simp at isText
  · rename_i skipped
    obtain ⟨before, isBefore, rfl⟩ := exists_blanks_of_skipBlanks skipped
    split at taken
    · rename_i isEnd
      cases taken
      exact ⟨_, [], by simp [enclosed, isEnd], .none isBefore, rfl⟩
    · obtain ⟨source, items, isText, listed, rfl⟩ := exists_listed_of_itemsAfter reads taken
      exact ⟨_, items, by simp [enclosed, isText], .some isBefore listed, rfl⟩

/-! ## Objects -/

/-- A member begins with a quote. -/
theorem SpellsMember.exists_cons {m : Text × Json} (spelled : SpellsMember spells source m) :
    ∃ c tail, source = c :: tail ∧ c = '"' := by
  cases spelled with
  | intro => exact ⟨_, _, rfl, rfl⟩

/-- The value of a member is taken, with the colon before it. -/
theorem exists_valueAfterColon_append (reads : Reads reader spells) {colon : Text}
    (isColon : Spaced ':' colon) (spelled : spells source item) (stops : Stops continuesNumber rest)
    (isText : cs = colon ++ (source ++ rest)) :
    ∃ h, valueAfterColon reader cs = .ok (item, ⟨rest, h⟩) := by
  subst isText
  have noBlank : Stops isJsonBlank (source ++ rest) := by
    obtain ⟨_, _, rfl, notBlank, -⟩ := reads.begins spelled
    exact stops_cons_iff.2 notBlank
  obtain ⟨after, less, _, skipped, next⟩ := isColon.exists_skipBlanks rfl noBlank
  obtain ⟨shorter, taken⟩ := reads.complete spelled stops (congrArg Subtype.val next)
  have noMore := (skipBlanks after).2
  refine ⟨by simp only [List.length_cons] at less; omega, ?_⟩
  unfold valueAfterColon
  simp only [skipped, taken, if_true]

/-- What is taken is a value, with the colon before it. -/
theorem exists_spelled_of_valueAfterColon (reads : Reads reader spells) {within : rest.length < cs.length}
    (taken : valueAfterColon reader cs = .ok (item, ⟨rest, within⟩)) :
    ∃ colon source, cs = colon ++ (source ++ rest) ∧ Spaced ':' colon ∧ spells source item := by
  unfold valueAfterColon at taken
  split at taken
  · cases taken
  rename_i skipped
  split at taken
  · rename_i isColon
    split at taken
    rename_i next
    split at taken
    · cases taken
    · rename_i isValue
      cases taken
      obtain ⟨source, rfl, spelled⟩ := reads.sound isValue
      obtain ⟨colon, rfl, spaced⟩ := exists_spaced skipped next
      exact ⟨colon, source, rfl, isColon ▸ spaced, spelled⟩
  · cases taken

/-- A member is taken. -/
theorem exists_member_append (reads : Reads reader spells) {m : Text × Json}
    (spelled : SpellsMember spells source m) (stops : Stops continuesNumber rest)
    (isText : cs = source ++ rest) : ∃ h, member reader cs = .ok (m, ⟨rest, h⟩) := by
  cases spelled with
  | @intro key source colon text item quoted isColon spelled =>
    obtain rfl : cs = ('"' : CodePoint) :: (source ++ ('"' : CodePoint) :: (colon ++ (text ++ rest))) := by
      simp [isText, enclosed]
    obtain ⟨_, isKey⟩ := exists_textAfter_append (enclosed '"' '"' source ++ (colon ++ (text ++ rest)))
      [] quoted (length_lt_cons '"' (source ++ ('"' : CodePoint) :: (colon ++ (text ++ rest))))
    simp only [enclosed, List.cons_append, List.append_assoc, List.nil_append] at isKey
    obtain ⟨shorter, isValue⟩ := exists_valueAfterColon_append reads isColon spelled stops rfl
    refine ⟨by omega, ?_⟩
    unfold member
    simp only [if_true, isKey, isValue, List.reverse_nil, List.nil_append]

/-- What is taken is a member. -/
theorem exists_spelled_of_member (reads : Reads reader spells) {m : Text × Json}
    {within : rest.length < cs.length} (taken : member reader cs = .ok (m, ⟨rest, within⟩)) :
    ∃ source, cs = source ++ rest ∧ SpellsMember spells source m := by
  unfold member at taken
  split at taken
  · cases taken
  split at taken
  · rename_i isQuote
    split at taken
    · cases taken
    rename_i isKey
    split at taken
    · cases taken
    rename_i isValue
    cases taken
    obtain ⟨source, _, rfl, quoted, rfl⟩ := exists_quoted_of_textAfter isKey
    obtain ⟨colon, text, rfl, spaced, spelled⟩ := exists_spelled_of_valueAfterColon reads isValue
    exact ⟨_, by simp [enclosed, isQuote], .intro quoted spaced spelled⟩
  · cases taken

/-- Members up to the end of an object are taken. -/
theorem exists_membersAfter_append (reads : Reads reader spells) {members : Members} (acc : Members)
    (listed : Listed (SpellsMember spells) source members)
    (isText : cs = source ++ ('\x7d' : CodePoint) :: rest) (h : cs.length < base.length) :
    ∃ h', membersAfter reader base acc cs h = .ok (.obj (acc.overlay members), ⟨rest, h'⟩) := by
  induction listed generalizing acc cs with
  | last spelled blanks =>
    rw [List.append_assoc] at isText
    have stops := stops_blanks blanks (stops_cons_iff.2 rfl : Stops _ (('\x7d' : CodePoint) :: rest))
    obtain ⟨shorter, taken⟩ := exists_member_append reads spelled stops isText
    obtain ⟨less, skipped⟩ := exists_skipBlanks_cons (c := '\x7d') blanks rfl rest
    refine ⟨by simp only [List.length_cons] at less; omega, ?_⟩
    rw [membersAfter]
    simp only [taken, skipped, if_true]
    rfl
  | @more _ _ others m _ spelled isComma listed ih =>
    have stops : Stops isJsonBlank (others ++ ('\x7d' : CodePoint) :: rest) := by
      obtain ⟨_, _, rfl, rfl⟩ := listed.exists_cons SpellsMember.exists_cons
      exact stops_cons_iff.2 rfl
    simp only [List.append_assoc] at isText
    obtain ⟨shorter, taken⟩ := exists_member_append reads spelled (isComma.stops rfl _) isText
    obtain ⟨_, less, more, skipped, next⟩ := isComma.exists_skipBlanks rfl stops
    obtain ⟨within, last⟩ := ih (acc.put m.1 m.2) rfl (by simp only [List.length_cons] at less; omega)
    refine ⟨within, ?_⟩
    rw [membersAfter]
    simp only [taken, skipped, next, last, if_true]
    rw [if_neg (by decide)]
    rfl

/-- What is taken are members up to the end of an object. -/
theorem exists_listed_of_membersAfter (reads : Reads reader spells) {acc : Members}
    {h : cs.length < base.length} {within : rest.length < base.length}
    (taken : membersAfter reader base acc cs h = .ok (item, ⟨rest, within⟩)) :
    ∃ source members, cs = source ++ ('\x7d' : CodePoint) :: rest ∧
      Listed (SpellsMember spells) source members ∧ item = .obj (acc.overlay members) := by
  fun_induction membersAfter reader base acc cs h with
  | case1 => cases taken
  | case2 => cases taken
  | case3 acc cs _ key value _ _ isFirst _ _ skipped =>
    obtain ⟨source, rfl, spelled⟩ := exists_spelled_of_member reads isFirst
    obtain ⟨after, blanks, rfl⟩ := exists_blanks_of_skipBlanks skipped
    cases taken
    exact ⟨source ++ after, [(key, value)], by simp, .last spelled blanks, rfl⟩
  | case4 acc cs _ key value _ _ isFirst _ _ _ next _ skipped _ _ ih =>
    obtain ⟨others, members, rfl, listed, rfl⟩ := ih taken
    obtain ⟨source, rfl, spelled⟩ := exists_spelled_of_member reads isFirst
    obtain ⟨comma, rfl, isComma⟩ := exists_spaced skipped next
    exact ⟨source ++ (comma ++ others), (key, value) :: members, by simp,
      .more spelled isComma listed, rfl⟩
  | case5 => cases taken

/-- An object is taken, after its opening brace. -/
theorem exists_objectAfter_append (reads : Reads reader spells) {members : Members}
    (spelled : Enclosed '\x7b' '\x7d' (SpellsMember spells) source members)
    (isText : ('\x7b' : CodePoint) :: cs = source ++ rest) (h : cs.length < base.length) :
    ∃ h', objectAfter reader base cs h = .ok (.obj (Members.overlay [] members), ⟨rest, h'⟩) := by
  cases spelled with
  | @none blanks isBlanks =>
    obtain rfl : cs = blanks ++ ('\x7d' : CodePoint) :: rest := by simpa [enclosed] using isText
    obtain ⟨less, skipped⟩ := exists_skipBlanks_cons (c := '\x7d') isBlanks rfl rest
    refine ⟨by simp only [List.length_cons] at less; omega, ?_⟩
    simp only [objectAfter, skipped, if_true]
    rfl
  | @some before source _ isBefore listed =>
    obtain rfl : cs = before ++ (source ++ ('\x7d' : CodePoint) :: rest) := by
      simpa [enclosed] using isText
    obtain ⟨_, tail, rfl, rfl⟩ := listed.exists_cons SpellsMember.exists_cons
    obtain ⟨less, skipped⟩ :=
      exists_skipBlanks_cons (c := '"') isBefore rfl (tail ++ ('\x7d' : CodePoint) :: rest)
    obtain ⟨within, taken⟩ := exists_membersAfter_append reads [] listed rfl (Nat.lt_of_le_of_lt less h)
    refine ⟨within, ?_⟩
    simp only [List.cons_append] at taken
    simp only [objectAfter, List.cons_append, skipped, taken]
    rw [if_neg (by decide)]

/-- What is taken is an object, after its opening brace. -/
theorem exists_enclosed_of_objectAfter (reads : Reads reader spells) {h : cs.length < base.length}
    {within : rest.length < base.length}
    (taken : objectAfter reader base cs h = .ok (item, ⟨rest, within⟩)) :
    ∃ source members, ('\x7b' : CodePoint) :: cs = source ++ rest ∧
      Enclosed '\x7b' '\x7d' (SpellsMember spells) source members ∧
      item = .obj (Members.overlay [] members) := by
  unfold objectAfter at taken
  split at taken
  · obtain ⟨_, _, isText, -, -⟩ := exists_listed_of_membersAfter reads taken
    simp at isText
  · rename_i skipped
    obtain ⟨before, isBefore, rfl⟩ := exists_blanks_of_skipBlanks skipped
    split at taken
    · rename_i isEnd
      cases taken
      exact ⟨_, [], by simp [enclosed, isEnd], .none isBefore, rfl⟩
    · obtain ⟨source, members, isText, listed, rfl⟩ := exists_listed_of_membersAfter reads taken
      exact ⟨_, members, by simp [enclosed, isText], .some isBefore listed, rfl⟩

/-! ## All values -/

/-- A value that is no container is read at any depth. -/
theorem exists_value_scalar (depth : Nat) (spelled : Scalar Numeral.digitLimit source item)
    (stops : Stops continuesNumber rest) (isText : cs = source ++ rest) :
    ∃ h, value depth cs = .ok (item, ⟨rest, h⟩) := by
  obtain ⟨c, tail, rfl, opens⟩ := spelled.exists_cons
  obtain rfl : cs = c :: (tail ++ rest) := isText
  obtain ⟨shorter, taken⟩ := exists_scalar_append spelled stops rfl
  have notOpening := ne_of_opensScalar opens
  exact ⟨shorter, (value_cons notOpening.2.2.1 notOpening.2.2.2).trans taken⟩

/-- A container is read one level deeper than what it contains. -/
theorem exists_value_container (reads : Reads (value depth) spells) (spelled : Container spells source item)
    (isText : cs = source ++ rest) : ∃ h, value (depth + 1) cs = .ok (item, ⟨rest, h⟩) := by
  cases spelled with
  | array spelled =>
    obtain ⟨inside, rfl⟩ := spelled.exists_eq_enclosed
    obtain rfl : cs = ('[' : CodePoint) :: (inside ++ ([']'] : Text) ++ rest) := isText
    exact exists_arrayAfter_append reads spelled rfl (length_lt_cons _ _)
  | object spelled =>
    obtain ⟨inside, rfl⟩ := spelled.exists_eq_enclosed
    obtain rfl : cs = ('\x7b' : CodePoint) :: (inside ++ (['\x7d'] : Text) ++ rest) := isText
    exact exists_objectAfter_append reads spelled rfl (length_lt_cons _ _)

/-- What is read is no container, or one with values that are read one level further in. -/
theorem cases_of_value {within : rest.length < cs.length}
    (taken : value depth cs = .ok (item, ⟨rest, within⟩)) :
    (∃ source, cs = source ++ rest ∧ Scalar Numeral.digitLimit source item) ∨
      ∃ inner, depth = inner + 1 ∧ ∀ spells, Reads (value inner) spells →
        ∃ source, cs = source ++ rest ∧ Container spells source item := by
  rw [value.eq_def] at taken
  split at taken
  · cases taken
  split at taken
  · rename_i isArray
    split at taken
    · cases taken
    · rename_i inner
      refine .inr ⟨inner, rfl, fun spells reads => ?_⟩
      obtain ⟨source, items, isText, spelled, rfl⟩ := exists_enclosed_of_arrayAfter reads taken
      exact ⟨source, by rw [isArray, isText], .array spelled⟩
  split at taken
  · rename_i isObject
    split at taken
    · cases taken
    · rename_i inner
      refine .inr ⟨inner, rfl, fun spells reads => ?_⟩
      obtain ⟨source, members, isText, spelled, rfl⟩ := exists_enclosed_of_objectAfter reads taken
      exact ⟨source, by rw [isObject, isText], .object spelled⟩
  · exact .inl (exists_spelled_of_scalar taken)

/-- The reader of values and the grammar are two accounts of one relation. -/
theorem reads_value (depth : Nat) : Reads (value depth) (Spells Numeral.digitLimit depth) := by
  induction depth with
  | zero =>
    refine ⟨Scalar.begins, exists_value_scalar 0, fun taken => ?_⟩
    obtain spelled | ⟨inner, isDepth, -⟩ := cases_of_value taken
    · exact spelled
    · exact nomatch isDepth
  | succ depth reads =>
    refine ⟨?_, ?_, fun taken => ?_⟩
    · rintro source item (spelled | spelled)
      · exact spelled.begins
      · exact spelled.begins
    · rintro source item cs rest (spelled | spelled) stops isText
      · exact exists_value_scalar _ spelled stops isText
      · exact exists_value_container reads spelled isText
    · obtain ⟨source, isText, spelled⟩ | ⟨inner, isDepth, isContainer⟩ := cases_of_value taken
      · exact ⟨source, isText, .inl spelled⟩
      · obtain rfl := Nat.succ.inj isDepth
        obtain ⟨source, isText, spelled⟩ := isContainer _ reads
        exact ⟨source, isText, .inr spelled⟩

/-! ## Texts -/

/-- What spells a value that is none of the others spells a container. -/
theorem Spells.container {limit : Nat} (spelled : Spells limit depth source item)
    (notScalar : ¬Scalar limit source item) :
    ∃ inner, depth = inner + 1 ∧ Container (Spells limit inner) source item := by
  cases depth with
  | zero => exact absurd spelled notScalar
  | succ inner => exact ⟨inner, rfl, spelled.resolve_left notScalar⟩

/-- What spells a value and begins with a brace spells a container. -/
theorem Spells.container_of_braced {limit : Nat} (spelled : Spells limit depth source item)
    (isBraced : source.head? = some ('\x7b' : CodePoint)) :
    ∃ inner, depth = inner + 1 ∧ Container (Spells limit inner) source item := by
  refine spelled.container fun isScalar => ?_
  obtain ⟨c, tail, rfl, opens⟩ := isScalar.exists_cons
  exact (ne_of_opensScalar opens).2.2.2 (Option.some.inj isBraced)

/-- What spells an object is read from the front of any text. -/
theorem readFront_append (spelled : Spells Numeral.digitLimit nestingLimit source item)
    (isBraced : source.head? = some ('\x7b' : CodePoint)) (rest : Text) :
    readFront (source ++ rest) = .ok (item, rest) := by
  obtain ⟨inner, isDepth, container⟩ := spelled.container_of_braced isBraced
  obtain ⟨_, taken⟩ := exists_value_container (reads_value inner) container rfl
  rw [readFront, isDepth, taken]
  rfl

/-- A JSON text that begins with a brace is an object, which ends with a brace, and blanks. -/
theorem IsTextOf.exists_object {limit : Nat} {text : Text} (isText : IsTextOf limit depth text item)
    (isBraced : text.head? = some ('\x7b' : CodePoint)) :
    ∃ inside after, text = enclosed '\x7b' '\x7d' inside ++ after ∧ Blanks after ∧
      Spells limit depth (enclosed '\x7b' '\x7d' inside) item := by
  obtain ⟨before, source, after, rfl, isBefore, isAfter, spelled⟩ := isText
  have isNil : before = [] := by
    cases before with
    | nil => rfl
    | cons =>
      obtain rfl := Option.some.inj isBraced
      exact nomatch isBefore _ List.mem_cons_self
  subst isNil
  have isOpening : source.head? = some ('\x7b' : CodePoint) := by
    cases source with
    | nil => exact nomatch isAfter _ (List.mem_of_mem_head? isBraced)
    | cons => exact isBraced
  obtain ⟨inner, -, container⟩ := spelled.container_of_braced isOpening
  cases container with
  | array listed =>
    obtain ⟨_, rfl⟩ := listed.exists_eq_enclosed
    exact nomatch isOpening
  | object listed =>
    obtain ⟨inside, rfl⟩ := listed.exists_eq_enclosed
    exact ⟨inside, after, rfl, isAfter, spelled⟩

/-- What is read from the front of a text spelled its value. -/
theorem exists_spelled_of_readFront (isRead : readFront cs = .ok (item, rest)) :
    ∃ source, cs = source ++ rest ∧ Spells Numeral.digitLimit nestingLimit source item := by
  obtain ⟨⟨_, _⟩, taken, isResult⟩ := Refusal.map_eq_ok_iff.1 isRead
  cases isResult
  exact (reads_value nestingLimit).sound taken

/-- A text is read as a value exactly if it is a JSON text of that value. -/
theorem read_eq_ok_iff {text : Text} :
    read text = .ok item ↔ IsTextOf Numeral.digitLimit nestingLimit text item := by
  have reads := reads_value nestingLimit
  constructor
  · intro isRead
    unfold read at isRead
    split at isRead
    · cases isRead
    rename_i rest taken
    split at isRead
    · rename_i ends
      cases isRead
      have skipped : skipBlanks text = ⟨(skipBlanks text).1, (skipBlanks text).2⟩ := rfl
      obtain ⟨before, isBefore, isText⟩ := exists_blanks_of_skipBlanks skipped
      obtain ⟨source, isSource, spelled⟩ := reads.sound taken
      exact ⟨before, source, rest.1, isText.trans (congrArg (before ++ ·) isSource), isBefore,
        List.dropWhile_eq_nil_iff.1 ends, spelled⟩
    · cases isRead
  · rintro ⟨before, source, after, rfl, isBefore, isAfter, spelled⟩
    have noBlank : Stops isJsonBlank (source ++ after) := by
      obtain ⟨_, _, rfl, notBlank, -⟩ := reads.begins spelled
      exact stops_cons_iff.2 notBlank
    have stops : Stops continuesNumber after := by
      simpa using stops_blanks isAfter stops_nil
    obtain ⟨_, skipped⟩ := exists_skipBlanks_append isBefore noBlank
    obtain ⟨_, taken⟩ := reads.complete spelled stops (congrArg Subtype.val skipped)
    have ends : (skipBlanks after).1 = [] := List.dropWhile_eq_nil_iff.2 isAfter
    simp only [read, taken, ends]

/-! ## Spelling without blanks -/

/-- No blanks are needed. -/
theorem blanks_nil : Blanks [] := fun _ mem => absurd mem List.not_mem_nil

/-- A character without blanks around it. -/
theorem spaced_self (c : CodePoint) : Spaced c [c] := @Spaced.intro c [] [] blanks_nil blanks_nil

/-- A text of ordinary characters stands between quotes for itself. -/
theorem quoted_self {text : Text} (plain : ∀ c ∈ text, c ≠ '"' ∧ c ≠ '\\' ∧ ¬c.number < 0x20) :
    Quoted text text := by
  induction text with
  | nil => exact .nil
  | cons c text ih =>
    obtain ⟨⟨notQuote, notBackslash, notControl⟩, others⟩ := List.forall_mem_cons.1 plain
    exact .plain notQuote notBackslash notControl (ih others)

/-- What is no container is spelled at any depth. -/
theorem Scalar.atDepth {limit : Nat} (spelled : Scalar limit source item) (depth : Nat) :
    Spells limit depth source item := by
  cases depth with
  | zero => exact spelled
  | succ => exact .inl spelled

end CardForm.Json
