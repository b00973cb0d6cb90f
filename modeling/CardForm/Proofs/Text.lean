import CardForm.Text.Basic
import CardForm.Text.Blank
import Mathlib.Data.List.TakeWhile

/-!
# Laws of texts

The texts of strings, which are told apart as the strings are, and the decimal digits of numbers:
numbers are told apart by their digits (`Text.ofNat_inj`), and a digit ends where another character
stands, so that two numerals followed by that character begin alike only where the numbers are the
same (`Text.eq_of_prefix_ofNat`); and a text that ends in that character and a numeral is told from others
by both (`Text.append_ofNat_inj`). What is shown of a text tells the text where no character was replaced.
What is taken or dropped from the front of a text ends where the text goes on otherwise (`Text.Stops`), and
trimming takes away no more than what stands around a text that begins and ends otherwise.
-/
namespace CardForm.Text

/-- Texts of characters are told apart as the characters are. -/
theorem ofChars_inj {a b : List Char} : ofChars a = ofChars b ↔ a = b :=
  List.map_inj_right fun _ _ same => CodePoint.ofChar_inj.1 same

/-- Numbers are told apart by their decimal digits. -/
theorem ofNat_inj {m n : Nat} : ofNat m = ofNat n ↔ m = n := by
  constructor
  · intro same
    have digits : Nat.toDigits 10 m = Nat.toDigits 10 n := ofChars_inj.1 same
    rw [← Nat.ofDigitChars_ten_toDigits (n := m), digits, Nat.ofDigitChars_ten_toDigits]
  · rintro rfl
    rfl

/-- The characters of a numeral are digits. -/
theorem isDigit_of_mem_ofNat {n : Nat} {c : CodePoint} (mem : c ∈ ofNat n) : c.isDigit = true := by
  obtain ⟨digit, inDigits, rfl⟩ := List.mem_map.1 mem
  have range := Nat.isDigit_of_mem_toDigits (by decide) (by decide) inDigits
  simp only [Char.isDigit, Bool.and_eq_true, decide_eq_true_eq, UInt32.le_iff_toNat_le] at range
  change (decide (48 ≤ digit.toNat) && decide (digit.toNat ≤ 57)) = true
  simpa using range

/-- Two numerals, each followed by a character that is no digit, begin alike only where the numbers
are the same. -/
theorem eq_of_prefix_ofNat {m n : Nat} {stop : CodePoint} {rest : Text}
    (noDigit : stop.isDigit = false) (begins : ofNat m ++ [stop] <+: ofNat n ++ stop :: rest) :
    m = n := by
  obtain ⟨tail, same⟩ := begins
  have digits (k : Nat) (after : Text) :
      (ofNat k ++ stop :: after).takeWhile CodePoint.isDigit = ofNat k := by
    rw [List.takeWhile_append_of_pos fun c mem => isDigit_of_mem_ofNat mem]
    simp [noDigit]
  rw [List.append_assoc, List.singleton_append] at same
  rw [← ofNat_inj, ← digits m tail, same, digits n rest]

/-- What stands before a numeral and a character that is no digit is told from the whole, and so is the
number. -/
theorem append_ofNat_inj {before other : Text} {stop : CodePoint} {m n : Nat}
    (noDigit : stop.isDigit = false) :
    before ++ stop :: ofNat m = other ++ stop :: ofNat n ↔ before = other ∧ m = n := by
  constructor
  · intro same
    -- read from the back, a numeral goes on until the first character that is no digit
    have digits (first : Text) (k : Nat) :
        (first ++ stop :: ofNat k).reverse.takeWhile CodePoint.isDigit = (ofNat k).reverse := by
      rw [List.reverse_append, List.reverse_cons, List.append_assoc,
        List.takeWhile_append_of_pos fun c mem => isDigit_of_mem_ofNat (List.mem_reverse.1 mem)]
      simp [noDigit]
    have sameDigits : ofNat m = ofNat n := by
      rw [← List.reverse_inj, ← digits before m, same, digits other n]
    rw [sameDigits] at same
    exact ⟨List.append_cancel_right same, ofNat_inj.1 sameDigits⟩
  · rintro ⟨rfl, rfl⟩
    rfl

/-- A text that is shown without replacement characters is shown as it is. -/
theorem eq_of_legible_eq {text shown : Text} (whole : CodePoint.replacement ∉ shown)
    (same : text.legible = shown) : text = shown := by
  have wellFormed : text.isWellFormed = true := by
    rw [isWellFormed, List.all_eq_true]
    intro c mem
    cases surrogate : c.isSurrogate with
    | false => rfl
    | true =>
      refine absurd (same ▸ List.mem_flatMap.2 ⟨c, mem, ?_⟩) whole
      rw [if_pos surrogate]
      exact List.mem_replicate.2 ⟨by decide, rfl⟩
  rw [← same, legible_of_isWellFormed wellFormed]

/-! ## Classes of characters -/

section Classes

variable {inClass : CodePoint → Bool} {text before after rest : Text}

/-- A text does not begin with a character of a class. -/
def Stops (inClass : CodePoint → Bool) (text : Text) : Prop := ∀ c ∈ text.head?, inClass c = false

/-- The empty text stops. -/
@[simp] theorem stops_nil : Stops inClass [] := by simp [Stops]

/-- A text stops at its first character. -/
@[simp] theorem stops_cons_iff {c : CodePoint} : Stops inClass (c :: rest) ↔ inClass c = false := by
  simp [Stops]

/-- What stops at a class stops at a smaller one. -/
theorem Stops.mono {other : CodePoint → Bool} (stops : Stops inClass text)
    (sub : ∀ c, other c = true → inClass c = true) : Stops other text := by
  intro c mem
  exact Bool.eq_false_iff.2 fun inOther =>
    Bool.false_ne_true ((stops c mem).symm.trans (sub c inOther))

/-- The characters of a class that begin a text are all taken, up to where it stops. -/
theorem takeWhile_append_of_stops (all : ∀ c ∈ before, inClass c = true) (stops : Stops inClass rest) :
    (before ++ rest).takeWhile inClass = before := by
  rw [List.takeWhile_append_of_pos all]
  cases rest with
  | nil => simp
  | cons c rest => simp [stops_cons_iff.1 stops]

/-- The characters of a class that begin a text are all dropped, up to where it stops. -/
theorem dropWhile_append_of_stops (all : ∀ c ∈ before, inClass c = true) (stops : Stops inClass rest) :
    (before ++ rest).dropWhile inClass = rest := by
  rw [List.dropWhile_append_of_pos all]
  cases rest with
  | nil => simp
  | cons c rest => simp [stops_cons_iff.1 stops]

/-- Where a text ends does not depend on what it is a part of. -/
theorem Stops.append (stops : Stops inClass text) (notEmpty : text ≠ []) (rest : Text) :
    Stops inClass (text ++ rest) := by
  obtain ⟨c, tail, rfl⟩ := List.exists_cons_of_ne_nil notEmpty
  exact stops

/-- What stands around a text is trimmed, up to where the text begins and ends. -/
theorem trim_append (isBefore : ∀ c ∈ before, inClass c = true) (isAfter : ∀ c ∈ after, inClass c = true)
    (begins : Stops inClass text) (ends : Stops inClass text.reverse) (notEmpty : text ≠ []) :
    trim inClass (before ++ (text ++ after)) = text := by
  have behind : ∀ c ∈ after.reverse, inClass c = true := fun c mem => isAfter c (List.mem_reverse.1 mem)
  rw [trim, dropWhile_append_of_stops isBefore (begins.append notEmpty after), List.reverse_append,
    dropWhile_append_of_stops behind ends, List.reverse_reverse]

/-- A text without characters of a class has nothing to trim. -/
theorem trim_eq_self (none : ∀ c ∈ text, inClass c = false) : text.trim inClass = text := by
  have stops {part : Text} (subset : part ⊆ text) : Stops inClass part := fun c mem =>
    none c (subset (List.mem_of_mem_head? mem))
  by_cases isEmpty : text = []
  · rw [isEmpty, trim_nil]
  · have around : ∀ c ∈ ([] : Text), inClass c = true := fun _ mem => absurd mem List.not_mem_nil
    simpa using trim_append around around (stops (List.Subset.refl text))
      (stops fun c mem => List.mem_reverse.1 mem) isEmpty

end Classes

end CardForm.Text
