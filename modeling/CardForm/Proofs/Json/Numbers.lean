import CardForm.Proofs.Json.Tokens

/-!
# Reading numbers

A number ends where it cannot go on: a reader takes all of it only if what stands behind it does not begin
with a character that a number may go on with (`Stops continuesNumber`).
-/
namespace CardForm.Json

open Text (Stops stops_cons_iff takeWhile_append_of_stops dropWhile_append_of_stops)

variable {rest cs digits whole source fraction : Text} {c : CodePoint} {negative : Bool}
  {exponent : Int} {n : Number} {limit : Nat}

/-- Whether a number may go on with a character. -/
def continuesNumber (c : CodePoint) : Bool := c.isDigit || c == '.' || c == 'e' || c == 'E'

/-- What does not go on with a number does not go on with its digits. -/
theorem stops_digit (stops : Stops continuesNumber rest) : Stops CodePoint.isDigit rest :=
  stops.mono fun c isDigit => by simp [continuesNumber, isDigit]

/-- A digit is none of the other characters. -/
theorem ne_of_isDigit (isDigit : c.isDigit = true) {other : CodePoint} (notDigit : other.isDigit = false) :
    c ≠ other := by
  rintro rfl
  exact Bool.false_ne_true (notDigit.symm.trans isDigit)

/-! ## Parts of numbers -/

/-- The first character of a run of digits is one. -/
theorem Digits.isDigit (run : Digits (c :: digits)) : c.isDigit = true :=
  (List.forall_mem_cons.1 run.all).1

/-- A run of digits begins with a digit. -/
theorem Digits.exists_cons (run : Digits digits) :
    ∃ c tail, digits = c :: tail ∧ c.isDigit = true := by
  obtain ⟨c, tail, rfl⟩ := List.exists_cons_of_ne_nil run.ne_nil
  exact ⟨c, tail, rfl, run.isDigit⟩

/-- After a first digit all others are taken. -/
theorem exists_digitsOf_append (run : Digits (c :: digits)) (stops : Stops CodePoint.isDigit rest) :
    ∃ h, digitsOf (digits ++ rest) = (digits, ⟨rest, h⟩) :=
  have all := (List.forall_mem_cons.1 run.all).2
  ⟨by simp, by
    simp only [digitsOf, takeWhile_append_of_stops all stops, dropWhile_append_of_stops all stops]⟩

/-- Only digits are taken. -/
theorem digits_of_digitsOf {within : rest.length ≤ cs.length} (isDigit : c.isDigit = true)
    (taken : digitsOf cs = (digits, ⟨rest, within⟩)) : cs = digits ++ rest ∧ Digits (c :: digits) := by
  simp only [digitsOf, Prod.mk.injEq, Subtype.mk.injEq] at taken
  obtain ⟨rfl, rfl⟩ := taken
  exact ⟨List.takeWhile_append_dropWhile.symm, List.cons_ne_nil _ _,
    List.forall_mem_cons.2 ⟨isDigit, fun _ mem => List.mem_takeWhile_imp mem⟩⟩

/-- The whole part of a number is taken. -/
theorem exists_wholePart?_append (isWhole : Whole whole) (stops : Stops CodePoint.isDigit rest) :
    ∃ h, wholePart? (whole ++ rest) = some (whole, ⟨rest, h⟩) := by
  cases isWhole with
  | zero => exact ⟨length_lt_cons '0' rest, rfl⟩
  | @digits c digits notZero run =>
    obtain ⟨within, taken⟩ := exists_digitsOf_append run stops
    exact ⟨length_lt_of_le c within, by simp [wholePart?, notZero, run.isDigit, taken]⟩

/-- What is taken is the whole part of a number. -/
theorem whole_of_wholePart? {within : rest.length < cs.length}
    (taken : wholePart? cs = some (whole, ⟨rest, within⟩)) : cs = whole ++ rest ∧ Whole whole := by
  unfold wholePart? at taken
  split at taken
  · cases taken
  · split at taken
    · rename_i isZero
      cases taken
      exact ⟨rfl, isZero ▸ .zero⟩
    · rename_i notZero
      split at taken
      · rename_i isDigit
        split at taken
        rename_i others
        cases taken
        obtain ⟨rfl, run⟩ := digits_of_digitsOf isDigit others
        exact ⟨rfl, .digits notZero run⟩
      · cases taken

/-- A fraction is taken. -/
theorem exists_fraction?_append (isFraction : Fraction source fraction)
    (stops : Stops CodePoint.isDigit rest) :
    ∃ h, fraction? (source ++ rest) = some (fraction, ⟨rest, h⟩) := by
  obtain ⟨run⟩ := isFraction
  obtain ⟨d, digits, rfl, isDigit⟩ := run.exists_cons
  obtain ⟨within, taken⟩ := exists_digitsOf_append run stops
  exact ⟨length_lt_longer _ (length_lt_of_le d within), by simp [fraction?, isDigit, taken]⟩

/-- What is taken is a fraction. -/
theorem exists_fraction_of_fraction? {within : rest.length < cs.length}
    (taken : fraction? cs = some (fraction, ⟨rest, within⟩)) :
    ∃ source, cs = source ++ rest ∧ Fraction source fraction := by
  unfold fraction? at taken
  split at taken
  · split at taken
    · rename_i begins
      split at taken
      rename_i others
      cases taken
      obtain ⟨rfl, run⟩ := digits_of_digitsOf begins.2 others
      exact ⟨_, by rw [begins.1]; rfl, .intro run⟩
    · cases taken
  · cases taken

/-- A fraction begins with its point. -/
theorem fraction?_eq_none (stops : Stops (· == '.') cs) : fraction? cs = none := by
  unfold fraction?
  split
  · rename_i c d cs
    have notPoint : c ≠ '.' := by simpa using stops
    simp [notPoint]
  · rfl

/-- Digits of an exponent are taken. -/
theorem exists_exponentDigits?_append (run : Digits digits) (stops : Stops CodePoint.isDigit rest) :
    ∃ h, exponentDigits? (digits ++ rest) = some (Numeral.valueOf digits, ⟨rest, h⟩) := by
  obtain ⟨d, digits, rfl, isDigit⟩ := run.exists_cons
  obtain ⟨within, taken⟩ := exists_digitsOf_append run stops
  exact ⟨length_lt_of_le d within, by simp [exponentDigits?, isDigit, taken]⟩

/-- What is taken are the digits of an exponent. -/
theorem exists_digits_of_signedExponent? {within : rest.length < cs.length}
    (taken : signedExponent? negative cs = some (exponent, ⟨rest, within⟩)) :
    ∃ digits, cs = digits ++ rest ∧ Digits digits ∧
      exponent = Numeral.signed negative (Numeral.valueOf digits) := by
  obtain ⟨⟨value, next⟩, taken, isResult⟩ := Option.map_eq_some_iff.1 taken
  cases isResult
  unfold exponentDigits? at taken
  split at taken
  · cases taken
  · split at taken
    · rename_i isDigit
      split at taken
      rename_i others
      cases taken
      obtain ⟨rfl, run⟩ := digits_of_digitsOf isDigit others
      exact ⟨_, rfl, run, rfl⟩
    · cases taken

/-- An exponent is taken. -/
theorem exists_exponent?_append (isExponent : Exponent source exponent)
    (stops : Stops CodePoint.isDigit rest) :
    ∃ h, exponent? (source ++ rest) = some (exponent, ⟨rest, h⟩) := by
  cases isExponent with
  | @unsigned mark digits isMark run =>
    obtain ⟨d, digits, rfl, isDigit⟩ := run.exists_cons
    have noSign : ¬(d = '-' ∨ d = '+') := not_or.2 ⟨ne_of_isDigit isDigit rfl, ne_of_isDigit isDigit rfl⟩
    obtain ⟨within, taken⟩ := exists_exponentDigits?_append run stops
    simp only [List.cons_append] at taken
    exact ⟨length_lt_longer _ within,
      by simp [exponent?, isMark, exponentAfterMark?, noSign, signedExponent?, taken]⟩
  | @signed mark sign digits isMark isSign run =>
    obtain ⟨within, taken⟩ := exists_exponentDigits?_append run stops
    exact ⟨length_lt_longer _ (length_lt_longer _ within),
      by simp [exponent?, isMark, exponentAfterMark?, isSign, signedExponent?, taken]⟩

/-- What is taken is an exponent. -/
theorem exists_exponent_of_exponent? {within : rest.length < cs.length}
    (taken : exponent? cs = some (exponent, ⟨rest, within⟩)) :
    ∃ source, cs = source ++ rest ∧ Exponent source exponent := by
  unfold exponent? at taken
  split at taken
  · cases taken
  split at taken
  · rename_i isMark
    obtain ⟨⟨value, next, _⟩, taken, isResult⟩ := Option.map_eq_some_iff.1 taken
    cases isResult
    unfold exponentAfterMark? at taken
    split at taken
    · cases taken
    split at taken
    · rename_i isSign
      obtain ⟨⟨value, next, _⟩, taken, isResult⟩ := Option.map_eq_some_iff.1 taken
      cases isResult
      obtain ⟨digits, rfl, run, rfl⟩ := exists_digits_of_signedExponent? taken
      exact ⟨_, rfl, .signed isMark isSign run⟩
    · obtain ⟨digits, isDigits, run, rfl⟩ := exists_digits_of_signedExponent? taken
      exact ⟨_, congrArg _ isDigits, .unsigned isMark run⟩
  · cases taken

/-- An exponent begins with its mark. -/
theorem exponent?_eq_none (stops : Stops continuesNumber cs) : exponent? cs = none := by
  cases cs with
  | nil => rfl
  | cons c cs =>
    have others := stops_cons_iff.1 stops
    simp only [continuesNumber, Bool.or_eq_false_iff, beq_eq_false_iff_ne, ne_eq] at others
    rw [exponent?, if_neg (not_or.2 ⟨others.1.2, others.2⟩)]

/-! ## Whole numbers -/

/-- A point does not go on with digits, and neither does the mark of an exponent. -/
theorem stops_digit_of_fraction (isFraction : Fraction source fraction) (rest : Text) :
    Stops CodePoint.isDigit (source ++ rest) := by
  obtain ⟨_⟩ := isFraction
  exact stops_cons_iff.2 rfl

/-- The mark of an exponent is neither a digit nor a point. -/
theorem stops_of_exponent (isExponent : Exponent source exponent) (rest : Text) :
    Stops CodePoint.isDigit (source ++ rest) ∧ Stops (· == '.') (source ++ rest) := by
  obtain ⟨rfl | rfl, _⟩ | ⟨rfl | rfl, _, _⟩ := isExponent <;>
    exact ⟨stops_cons_iff.2 rfl, stops_cons_iff.2 rfl⟩

/-- A number without its sign is taken. -/
theorem exists_unsignedNumber_append {start : Text}
    (spelled : Unsigned Numeral.digitLimit negative source n) (stops : Stops continuesNumber rest)
    (isText : cs = source ++ rest) (within : cs.length ≤ start.length) :
    ∃ h, unsignedNumber negative start cs within = .ok (n, ⟨rest, h⟩) := by
  have noFraction : fraction? rest = none :=
    fraction?_eq_none (stops.mono fun c isPoint => by simp_all [continuesNumber])
  have noExponent := exponent?_eq_none stops
  cases spelled with
  | integer isWhole short =>
    subst isText
    obtain ⟨shorter, taken⟩ := exists_wholePart?_append isWhole (stops_digit stops)
    refine ⟨by omega, ?_⟩
    simp [unsignedNumber, taken, noFraction, noExponent, integerOf, Nat.not_lt.2 short, Except.map]
  | @fraction whole source _ isWhole isFraction =>
    obtain rfl : cs = whole ++ (source ++ rest) := by rw [isText, List.append_assoc]
    obtain ⟨_, taken⟩ := exists_wholePart?_append isWhole (stops_digit_of_fraction isFraction rest)
    obtain ⟨_, next⟩ := exists_fraction?_append isFraction (stops_digit stops)
    exact ⟨by omega, by simp [unsignedNumber, taken, next, noExponent]⟩
  | @exponent whole source _ isWhole isExponent =>
    obtain rfl : cs = whole ++ (source ++ rest) := by rw [isText, List.append_assoc]
    obtain ⟨notDigit, notPoint⟩ := stops_of_exponent isExponent rest
    obtain ⟨_, taken⟩ := exists_wholePart?_append isWhole notDigit
    obtain ⟨_, next⟩ := exists_exponent?_append isExponent (stops_digit stops)
    exact ⟨by omega, by simp [unsignedNumber, taken, fraction?_eq_none notPoint, next]⟩
  | @both whole source _ power _ isWhole isFraction isExponent =>
    obtain rfl : cs = whole ++ (source ++ (power ++ rest)) := by simp [isText]
    obtain ⟨_, taken⟩ :=
      exists_wholePart?_append isWhole (stops_digit_of_fraction isFraction (power ++ rest))
    obtain ⟨_, next⟩ := exists_fraction?_append isFraction (stops_of_exponent isExponent rest).1
    obtain ⟨_, last⟩ := exists_exponent?_append isExponent (stops_digit stops)
    exact ⟨by omega, by simp [unsignedNumber, taken, next, last]⟩

/-- What is taken is a number without its sign. -/
theorem exists_unsigned_of_unsignedNumber {start : Text} {h : cs.length ≤ start.length}
    {within : rest.length < start.length}
    (taken : unsignedNumber negative start cs h = .ok (n, ⟨rest, within⟩)) :
    ∃ source, cs = source ++ rest ∧ Unsigned Numeral.digitLimit negative source n := by
  unfold unsignedNumber at taken
  split at taken
  · cases taken
  rename_i begins
  obtain ⟨rfl, isWhole⟩ := whole_of_wholePart? begins
  split at taken
  · rename_i goesOn
    obtain ⟨source, rfl, isFraction⟩ := exists_fraction_of_fraction? goesOn
    split at taken
    · rename_i ends
      obtain ⟨power, rfl, isExponent⟩ := exists_exponent_of_exponent? ends
      cases taken
      exact ⟨_, by simp only [List.append_assoc], .both isWhole isFraction isExponent⟩
    · cases taken
      exact ⟨_, by rw [List.append_assoc], .fraction isWhole isFraction⟩
  · split at taken
    · rename_i ends
      obtain ⟨power, rfl, isExponent⟩ := exists_exponent_of_exponent? ends
      cases taken
      exact ⟨_, by rw [List.append_assoc], .exponent isWhole isExponent⟩
    · unfold integerOf at taken
      split at taken
      · cases taken
      · rename_i short
        cases taken
        exact ⟨_, rfl, .integer isWhole (Nat.not_lt.1 short)⟩

/-- A whole part begins with a digit. -/
theorem Whole.exists_cons (isWhole : Whole whole) : ∃ c tail, whole = c :: tail ∧ c.isDigit = true := by
  cases isWhole with
  | zero => exact ⟨_, _, rfl, rfl⟩
  | digits _ run => exact ⟨_, _, rfl, run.isDigit⟩

/-- A number without its sign begins with a digit. -/
theorem Unsigned.exists_cons (spelled : Unsigned limit negative source n) :
    ∃ c tail, source = c :: tail ∧ c.isDigit = true := by
  cases spelled with
  | integer isWhole => exact isWhole.exists_cons
  | fraction isWhole | exponent isWhole | both isWhole =>
    obtain ⟨c, tail, rfl, isDigit⟩ := isWhole.exists_cons
    exact ⟨c, _, List.cons_append, isDigit⟩

/-- A number is taken. -/
theorem exists_number_append (spelled : Unsigned Numeral.digitLimit negative source n)
    (stops : Stops continuesNumber rest) (isText : cs = minus negative ++ (source ++ rest)) :
    ∃ h, number cs = .ok (n, ⟨rest, h⟩) := by
  subst isText
  cases negative with
  | true => exact exists_unsignedNumber_append spelled stops rfl (length_le_cons '-' (source ++ rest))
  | false =>
    obtain ⟨c, tail, rfl, isDigit⟩ := spelled.exists_cons
    have notMinus : c ≠ '-' := ne_of_isDigit isDigit rfl
    obtain ⟨shorter, taken⟩ := exists_unsignedNumber_append spelled stops rfl (length_le_self _)
    exact ⟨shorter, (if_neg notMinus).trans taken⟩

/-- What is taken is a number. -/
theorem exists_unsigned_of_number {within : rest.length < cs.length}
    (taken : number cs = .ok (n, ⟨rest, within⟩)) : ∃ negative source,
      cs = minus negative ++ (source ++ rest) ∧ Unsigned Numeral.digitLimit negative source n := by
  unfold number at taken
  split at taken
  · cases taken
  split at taken
  · rename_i isMinus
    obtain ⟨source, rfl, spelled⟩ := exists_unsigned_of_unsignedNumber taken
    exact ⟨true, source, by rw [isMinus]; rfl, spelled⟩
  · obtain ⟨source, isText, spelled⟩ := exists_unsigned_of_unsignedNumber taken
    exact ⟨false, source, isText, spelled⟩

end CardForm.Json
