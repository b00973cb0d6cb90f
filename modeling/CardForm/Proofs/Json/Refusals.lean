import CardForm.Proofs.Json.Values

/-!
# Integers of too many digits

The reader refuses an integer of more than `Numeral.digitLimit` digits where it comes to one, and it refuses
no text for too many digits in which there is no such integer.
-/
namespace CardForm.Json

open Text (Stops stops_cons_iff)

variable {text rest cs source base opening acc whole : Text} {c : CodePoint} {item : Json}
  {depth count : Nat} {reader : ValueReader} {spells : Text → Json → Prop}

/-! ## Where there is one -/

/-- A text has the digits of an integer in it that are too many. -/
def HasLongInteger (text : Text) : Prop :=
  ∃ whole, Whole whole ∧ Numeral.digitLimit < whole.length ∧ whole <:+: text

/-- What a part of a text has the text has. -/
theorem HasLongInteger.mono (has : HasLongInteger rest) (isPart : rest <:+: text) :
    HasLongInteger text := by
  obtain ⟨whole, isWhole, long, isIn⟩ := has
  exact ⟨whole, isWhole, long, isIn.trans isPart⟩

/-- A function of what is read is refused where that is. -/
theorem Refusal.map_eq_error_iff {α β : Type} {outcome : Except Refusal α} {f : α → β}
    {refusal : Refusal} : outcome.map f = .error refusal ↔ outcome = .error refusal := by
  cases outcome <;> simp [Except.map]

/-- A number without its sign is refused for its digits only if it is an integer with too many of them. -/
theorem hasLongInteger_of_unsignedNumber {negative : Bool} {start : Text} {h : cs.length ≤ start.length}
    (refused : unsignedNumber negative start cs h = .error (.tooManyDigits count)) :
    HasLongInteger cs := by
  unfold unsignedNumber at refused
  split at refused
  · cases refused
  rename_i begins
  obtain ⟨rfl, isWhole⟩ := whole_of_wholePart? begins
  split at refused
  · split at refused <;> cases refused
  · split at refused
    · cases refused
    · rw [Refusal.map_eq_error_iff, integerOf] at refused
      split at refused
      · rename_i long
        exact ⟨_, isWhole, long, (List.prefix_append _ _).isInfix⟩
      · cases refused

/-- A number is refused for its digits only if it is an integer with too many of them. -/
theorem hasLongInteger_of_number (refused : number cs = .error (.tooManyDigits count)) :
    HasLongInteger cs := by
  unfold number at refused
  split at refused
  · cases refused
  split at refused
  · exact (hasLongInteger_of_unsignedNumber refused).mono (List.suffix_cons _ _).isInfix
  · exact hasLongInteger_of_unsignedNumber refused

/-- An escape by number is not refused for any digits. -/
theorem numberedEscape_ne_tooManyDigits : numberedEscape cs ≠ .error (.tooManyDigits count) := by
  intro refused
  unfold numberedEscape at refused
  repeat' split at refused
  all_goals cases refused

/-- An escape is not refused for any digits. -/
theorem escaped_ne_tooManyDigits : escaped opening cs ≠ .error (.tooManyDigits count) := by
  intro refused
  unfold escaped at refused
  split at refused
  · cases refused
  split at refused
  · exact numberedEscape_ne_tooManyDigits (Refusal.map_eq_error_iff.1 refused)
  · split at refused <;> cases refused

/-- A text is not refused for any digits. -/
theorem textAfter_ne_tooManyDigits {h : cs.length < base.length} :
    textAfter base opening acc cs h ≠ .error (.tooManyDigits count) := by
  fun_induction textAfter base opening acc cs h with
  | case1 | case2 | case5 => rintro ⟨⟩
  | case3 | case6 => assumption
  | case4 =>
    rename_i refused _ _ _ _
    rintro ⟨⟩
    exact escaped_ne_tooManyDigits refused

/-- A value that is no container is refused for its digits only if it is an integer with too many of
them. -/
theorem hasLongInteger_of_scalar (refused : scalar c cs = .error (.tooManyDigits count)) :
    HasLongInteger (c :: cs) := by
  unfold scalar at refused
  split at refused
  · exact absurd (Refusal.map_eq_error_iff.1 refused) textAfter_ne_tooManyDigits
  · split at refused
    · cases refused
    · exact hasLongInteger_of_number (Refusal.map_eq_error_iff.1 refused)

/-- A reader refuses texts for the digits of an integer only if there is one with too many of them. -/
def Reports (reader : ValueReader) : Prop :=
  ∀ {cs count}, reader cs = .error (.tooManyDigits count) → HasLongInteger cs

/-- What is left of a text when blanks are skipped is an end of it. -/
theorem skipBlanks_suffix {h : rest.length ≤ cs.length} (skipped : skipBlanks cs = ⟨rest, h⟩) :
    rest <:+ cs := by
  obtain ⟨before, -, rfl⟩ := exists_blanks_of_skipBlanks skipped
  exact List.suffix_append before rest

/-- What is left of a text between two things is an end of it. -/
theorem spaced_suffix {after : Text} {h : (c :: after).length ≤ cs.length} {h' : rest.length ≤ after.length}
    (skipped : skipBlanks cs = ⟨c :: after, h⟩) (next : skipBlanks after = ⟨rest, h'⟩) : rest <:+ cs := by
  obtain ⟨between, rfl, -⟩ := exists_spaced skipped next
  exact List.suffix_append between rest

section Containers

variable (reports : Reports reader)

include reports

/-- The value of a member is refused for digits only if there is an integer with too many of them. -/
theorem hasLongInteger_of_valueAfterColon
    (refused : valueAfterColon reader cs = .error (.tooManyDigits count)) : HasLongInteger cs := by
  unfold valueAfterColon at refused
  split at refused
  · cases refused
  rename_i skipped
  split at refused
  · split at refused
    rename_i next
    split at refused
    · rename_i isRefused
      cases refused
      exact (reports isRefused).mono (spaced_suffix skipped next).isInfix
    · cases refused
  · cases refused

/-- A member is refused for digits only if there is an integer with too many of them. -/
theorem hasLongInteger_of_member (refused : member reader cs = .error (.tooManyDigits count)) :
    HasLongInteger cs := by
  unfold member at refused
  split at refused
  · cases refused
  split at refused
  · split at refused
    · rename_i isRefused
      cases refused
      exact absurd isRefused textAfter_ne_tooManyDigits
    rename_i isKey
    split at refused
    · rename_i isRefused
      cases refused
      obtain ⟨source, _, rfl, -, -⟩ := exists_quoted_of_textAfter isKey
      refine (hasLongInteger_of_valueAfterColon reports isRefused).mono (List.IsSuffix.isInfix ?_)
      exact ⟨('"' : CodePoint) :: (source ++ (['"'] : Text)), by simp_all⟩
    · cases refused
  · cases refused

variable (reads : Reads reader spells)

include reads

/-- Items are refused for digits only if there is an integer with too many of them. -/
theorem hasLongInteger_of_itemsAfter {acc : List Json} {h : cs.length < base.length}
    (refused : itemsAfter reader base acc cs h = .error (.tooManyDigits count)) : HasLongInteger cs := by
  fun_induction itemsAfter reader base acc cs h with
  | case1 _ _ _ _ isRefused =>
    cases refused
    exact reports isRefused
  | case2 | case3 | case5 => cases refused
  | case4 _ _ _ _ _ _ isFirst _ _ _ next _ skipped _ _ ih =>
    obtain ⟨source, rfl, -⟩ := reads.sound isFirst
    exact (ih refused).mono ((spaced_suffix skipped next).trans (List.suffix_append source _)).isInfix

/-- Members are refused for digits only if there is an integer with too many of them. -/
theorem hasLongInteger_of_membersAfter {acc : Members} {h : cs.length < base.length}
    (refused : membersAfter reader base acc cs h = .error (.tooManyDigits count)) : HasLongInteger cs := by
  fun_induction membersAfter reader base acc cs h with
  | case1 _ _ _ _ isRefused =>
    cases refused
    exact hasLongInteger_of_member reports isRefused
  | case2 | case3 | case5 => cases refused
  | case4 _ _ _ _ _ _ _ isFirst _ _ _ next _ skipped _ _ ih =>
    obtain ⟨source, rfl, -⟩ := exists_spelled_of_member reads isFirst
    exact (ih refused).mono ((spaced_suffix skipped next).trans (List.suffix_append source _)).isInfix

/-- An array is refused for digits only if there is an integer with too many of them. -/
theorem hasLongInteger_of_arrayAfter {h : cs.length < base.length}
    (refused : arrayAfter reader base cs h = .error (.tooManyDigits count)) : HasLongInteger cs := by
  unfold arrayAfter at refused
  split at refused
  · exact (hasLongInteger_of_itemsAfter reports reads refused).mono (List.nil_infix)
  · rename_i skipped
    split at refused
    · cases refused
    · exact (hasLongInteger_of_itemsAfter reports reads refused).mono (skipBlanks_suffix skipped).isInfix

/-- An object is refused for digits only if there is an integer with too many of them. -/
theorem hasLongInteger_of_objectAfter {h : cs.length < base.length}
    (refused : objectAfter reader base cs h = .error (.tooManyDigits count)) : HasLongInteger cs := by
  unfold objectAfter at refused
  split at refused
  · exact (hasLongInteger_of_membersAfter reports reads refused).mono (List.nil_infix)
  · rename_i skipped
    split at refused
    · cases refused
    · exact (hasLongInteger_of_membersAfter reports reads refused).mono (skipBlanks_suffix skipped).isInfix

end Containers

/-- A value is refused for digits only if there is an integer with too many of them. -/
theorem reports_value (depth : Nat) : Reports (value depth) := by
  induction depth with
  | zero =>
    intro cs count refused
    rw [value.eq_def] at refused
    split at refused
    · cases refused
    split at refused
    · cases refused
    split at refused
    · cases refused
    · exact hasLongInteger_of_scalar refused
  | succ depth reports =>
    have reads := reads_value depth
    intro cs count refused
    rw [value.eq_def] at refused
    split at refused
    · cases refused
    split at refused
    · exact (hasLongInteger_of_arrayAfter reports reads refused).mono (List.suffix_cons _ _).isInfix
    split at refused
    · exact (hasLongInteger_of_objectAfter reports reads refused).mono (List.suffix_cons _ _).isInfix
    · exact hasLongInteger_of_scalar refused

/-! ## Where the reader comes to one -/

/-- An integer with too many digits is refused. -/
theorem value_long (depth : Nat) (isWhole : Whole whole) (long : Numeral.digitLimit < whole.length)
    (stops : Stops continuesNumber rest) :
    value depth (whole ++ rest) = .error (.tooManyDigits whole.length) := by
  have noFraction : fraction? rest = none :=
    fraction?_eq_none (stops.mono fun c isPoint => by simp_all [continuesNumber])
  have refused {start : Text} (h : (whole ++ rest).length ≤ start.length) :
      unsignedNumber false start (whole ++ rest) h = .error (.tooManyDigits whole.length) := by
    obtain ⟨_, taken⟩ := exists_wholePart?_append isWhole (stops_digit stops)
    simp [unsignedNumber, taken, noFraction, exponent?_eq_none stops, integerOf, long, Except.map]
  obtain ⟨c, tail, rfl, isDigit⟩ := isWhole.exists_cons
  have ne {other : CodePoint} (notDigit : other.isDigit = false) : c ≠ other :=
    ne_of_isDigit isDigit notDigit
  have noWord : word? (minus false ++ c :: (tail ++ rest)) = none := word?_eq_none isDigit (tail ++ rest)
  have isNumber : number (c :: (tail ++ rest)) = .error (.tooManyDigits (c :: tail).length) :=
    (if_neg (ne rfl)).trans (refused (length_le_self _))
  rw [minus, if_neg (by decide), List.nil_append] at noWord
  rw [List.cons_append, value_cons (ne rfl) (ne rfl), scalar, if_neg (ne rfl), noWord, isNumber]
  rfl

/-- No blanks are skipped where there are none. -/
theorem skipBlanks_of_stops (stops : Stops isJsonBlank cs) : skipBlanks cs = ⟨cs, length_le_self cs⟩ := by
  obtain ⟨_, skipped⟩ := exists_skipBlanks_append blanks_nil stops
  exact skipped

/-- An array is refused as its first item is. -/
theorem value_array {refusal : Refusal} (refused : value depth cs = .error refusal)
    (noBlank : Stops isJsonBlank cs) (noEnd : Stops (· == ']') cs) :
    value (depth + 1) ('[' :: cs) = .error refusal := by
  rw [value.eq_def]
  simp only [if_true, arrayAfter, skipBlanks_of_stops noBlank]
  cases cs with
  | nil =>
    dsimp only
    rw [itemsAfter]
    simp only [refused]
  | cons c cs =>
    have notEnd : ¬c = ']' := by simpa using noEnd
    simp only [notEnd, if_false]
    rw [itemsAfter]
    simp only [refused]

/-- An object is refused as the value of its first member is. -/
theorem value_object {refusal : Refusal} {key : Text} (quoted : Quoted source key)
    (refused : value depth cs = .error refusal) (noBlank : Stops isJsonBlank cs) :
    value (depth + 1) ('\x7b' :: '"' :: (source ++ ('"' : CodePoint) :: ':' :: cs)) =
      .error refusal := by
  have isValue : valueAfterColon (value depth) (':' :: cs) = .error refusal := by
    have isRefused : value depth (skipBlanks cs).1 = .error refusal := by
      rw [skipBlanks_of_stops noBlank]
      exact refused
    have noBlanks : skipBlanks (':' :: cs) = _ := skipBlanks_of_stops (stops_cons_iff.2 rfl)
    unfold valueAfterColon
    simp only [noBlanks, if_true, isRefused]
  have isMember : member (value depth) ('"' :: (source ++ ('"' : CodePoint) :: ':' :: cs)) =
      .error refusal := by
    obtain ⟨_, isKey⟩ := exists_textAfter_append ('"' :: (source ++ ('"' : CodePoint) :: ':' :: cs))
      [] quoted (length_lt_cons '"' (source ++ ('"' : CodePoint) :: ':' :: cs))
    unfold member
    simp only [if_true, isKey, isValue]
  have notArray : ¬('\x7b' : CodePoint) = '[' := by decide
  have notEnd : ¬('"' : CodePoint) = '\x7d' := by decide
  have noBlanks : skipBlanks ('"' :: (source ++ ('"' : CodePoint) :: ':' :: cs)) = _ :=
    skipBlanks_of_stops (stops_cons_iff.2 rfl)
  rw [value.eq_def]
  simp only [notArray, if_false, if_true, objectAfter, noBlanks, notEnd]
  rw [membersAfter]
  simp only [isMember]

end CardForm.Json
