import CardForm.Proofs.Json.Spelling
import CardForm.Proofs.Text

/-!
# Reading blanks, words and texts

Each reader of a part takes exactly what the grammar says: from a text that begins with a spelling it takes
that spelling, and whatever it takes is a spelling. An escaped high surrogate is read with what follows it,
so that it matters there what stands between the quotes behind it.
-/
namespace CardForm.Json

open Text (Stops dropWhile_append_of_stops)

variable {source text word rest cs before : Text}

/-- A function is applied to what is read. -/
theorem Refusal.map_eq_ok_iff {α β : Type} {outcome : Except Refusal α} {f : α → β} {result : β} :
    outcome.map f = .ok result ↔ ∃ value, outcome = .ok value ∧ f value = result := by
  cases outcome <;> simp [Except.map]

/-! ## Blanks and words -/

/-- Blanks are skipped. -/
theorem exists_skipBlanks_append (blanks : Blanks before) (stops : Stops isJsonBlank rest) :
    ∃ h, skipBlanks (before ++ rest) = ⟨rest, h⟩ :=
  ⟨by simp, Subtype.ext (dropWhile_append_of_stops blanks stops)⟩

/-- Nothing but blanks is skipped. -/
theorem exists_blanks_of_skipBlanks {h : rest.length ≤ cs.length} (skipped : skipBlanks cs = ⟨rest, h⟩) :
    ∃ before, Blanks before ∧ cs = before ++ rest := by
  obtain rfl : cs.dropWhile isJsonBlank = rest := congrArg Subtype.val skipped
  exact ⟨cs.takeWhile isJsonBlank, fun _ mem => List.mem_takeWhile_imp mem,
    List.takeWhile_append_dropWhile.symm⟩

/-- A word is taken from the front of a text. -/
theorem exists_after?_append (word rest : Text) : ∃ h, after? word (word ++ rest) = some ⟨rest, h⟩ := by
  induction word with
  | nil => exact ⟨_, rfl⟩
  | cons w word ih =>
    obtain ⟨_, isAfter⟩ := ih
    exact ⟨by simp only [List.cons_append, List.length_append, List.length_cons]; omega,
      by simp [after?, isAfter]⟩

/-- Nothing but the word is taken. -/
theorem eq_append_of_after? {within : rest.length + word.length ≤ cs.length}
    (taken : after? word cs = some ⟨rest, within⟩) : cs = word ++ rest := by
  induction word generalizing cs with
  | nil =>
    simp only [after?, Option.some.injEq, Subtype.mk.injEq] at taken
    exact taken
  | cons w word ih =>
    cases cs with
    | nil => simp [after?] at taken
    | cons c cs =>
      simp only [after?] at taken
      split at taken
      · rename_i same
        obtain ⟨⟨next, _⟩, isAfter, isNext⟩ := Option.map_eq_some_iff.1 taken
        obtain rfl : next = rest := congrArg Subtype.val isNext
        rw [same, List.cons_append, ← ih isAfter]
      · cases taken

/-! ## Texts -/

/-- Four digits are taken where a text goes on after them. -/
theorem exists_unit?_append {a b c d : CodePoint} {unit : Nat} (isUnit : unitOf? a b c d = some unit)
    (goesOn : rest ≠ []) : ∃ h, unit? (a :: b :: c :: d :: rest) = some (unit, ⟨rest, h⟩) := by
  obtain ⟨e, rest, rfl⟩ := List.exists_cons_of_ne_nil goesOn
  exact ⟨by simp only [List.length_cons]; omega, by simp [unit?, isUnit]⟩

/-- Only four digits are taken. -/
theorem eq_append_of_unit? {unit : Nat} {within : rest.length < cs.length}
    (taken : unit? cs = some (unit, ⟨rest, within⟩)) :
    ∃ a b c d, cs = a :: b :: c :: d :: rest ∧ rest ≠ [] ∧ unitOf? a b c d = some unit := by
  unfold unit? at taken
  split at taken
  · rename_i a b c d e rest
    obtain ⟨_, isUnit, ⟨⟩⟩ := Option.map_eq_some_iff.1 taken
    exact ⟨a, b, c, d, rfl, List.cons_ne_nil e rest, isUnit⟩
  · cases taken

/-- The letter of an escape by number is that of no other escape. -/
theorem ne_of_short {letter : CodePoint} (isShort : shortEscapes.lookup letter = some point) :
    letter ≠ 'u' := by
  rintro rfl
  exact nomatch isShort

/-- Nothing but an escape by number begins with a backslash and its letter. -/
theorem after?_eq_none_of_quoted (quoted : Quoted source text) (rest : Text)
    (noNumber : ∀ a b c d rest, source ≠ numbered a b c d rest) :
    after? "\\u" (source ++ ('"' : CodePoint) :: rest) = none := by
  change after? ['\\', 'u'] _ = none
  cases quoted with
  | nil => rfl
  | plain _ notBackslash => simp [after?, Ne.symm notBackslash]
  | short isShort => simp [after?, Ne.symm (ne_of_short isShort)]
  | unit => exact absurd rfl (noNumber _ _ _ _ _)
  | pair => exact absurd rfl (noNumber _ _ _ _ _)

/-- After a high surrogate the escape of another unit is taken with it if that is a low one. -/
theorem exists_numberedEscape_numbered {a b c d e f g h : CodePoint} {unit second : Nat}
    (isUnit : unitOf? a b c d = some unit) (isHigh : Utf16.isHigh unit = true)
    (isSecond : unitOf? e f g h = some second) (goesOn : rest ≠ []) :
    ∃ within shorter, numberedEscape (a :: b :: c :: d :: numbered e f g h rest) =
      if Utf16.isLow second then .ok (Utf16.joined unit second, ⟨rest, within⟩)
      else .ok (.ofNat unit, ⟨numbered e f g h rest, shorter⟩) := by
  have isCons : numbered e f g h rest ≠ [] := List.cons_ne_nil _ _
  obtain ⟨shorter, first⟩ := exists_unit?_append isUnit isCons
  obtain ⟨_, escape⟩ := exists_after?_append "\\u" (e :: f :: g :: h :: rest)
  obtain ⟨_, next⟩ := exists_unit?_append isSecond goesOn
  have long : ¬(e :: f :: g :: h :: rest).length ≤ 4 := by
    have := List.length_pos_iff.2 goesOn
    simp only [List.length_cons]
    omega
  refine ⟨by simp only [numbered, List.length_cons]; omega, shorter, ?_⟩
  change after? "\\u" (numbered e f g h rest) = _ at escape
  simp only [numberedEscape, first, isHigh, if_true, escape, long, if_false, next]

/-- A unit that does not begin a pair is taken by itself. -/
theorem exists_numberedEscape_unit {a b c d : CodePoint} {unit : Nat}
    (isUnit : unitOf? a b c d = some unit) (unpaired : Unpaired unit source)
    (quoted : Quoted source text) (rest : Text) :
    ∃ h, numberedEscape (a :: b :: c :: d :: (source ++ ('"' : CodePoint) :: rest)) =
      .ok (.ofNat unit, ⟨source ++ ('"' : CodePoint) :: rest, h⟩) := by
  have goesOn (source : Text) : source ++ ('"' : CodePoint) :: rest ≠ [] := by simp
  cases isHigh : Utf16.isHigh unit with
  | false =>
    obtain ⟨shorter, first⟩ := exists_unit?_append isUnit (goesOn source)
    exact ⟨shorter, by simp [numberedEscape, first, isHigh]⟩
  | true =>
    by_cases isNumbered : ∃ e f g h next, source = numbered e f g h next
    · obtain ⟨e, f, g, h, next, rfl⟩ := isNumbered
      obtain ⟨second, isSecond⟩ : ∃ second, unitOf? e f g h = some second := by
        cases quoted with
        | plain _ notBackslash => exact absurd rfl notBackslash
        | short isShort => exact nomatch isShort
        | unit isUnit => exact ⟨_, isUnit⟩
        | pair isUnit => exact ⟨_, isUnit⟩
      obtain ⟨_, shorter, taken⟩ :=
        exists_numberedEscape_numbered isUnit isHigh isSecond (goesOn next)
      exact ⟨shorter, taken.trans (if_neg (by simp [unpaired isHigh _ _ _ _ _ _ rfl isSecond]))⟩
    · obtain ⟨shorter, first⟩ := exists_unit?_append isUnit (goesOn source)
      have noEscape := after?_eq_none_of_quoted quoted rest
        fun e f g h next same => isNumbered ⟨e, f, g, h, next, same⟩
      exact ⟨shorter, by simp only [numberedEscape, first, isHigh, if_true, noEscape]⟩

/-- Two units of a pair are taken together. -/
theorem exists_numberedEscape_pair {a b c d e f g h : CodePoint} {high low : Nat}
    (isUnit : unitOf? a b c d = some high) (isHigh : Utf16.isHigh high = true)
    (isSecond : unitOf? e f g h = some low) (isLow : Utf16.isLow low = true) (goesOn : rest ≠ []) :
    ∃ h', numberedEscape (a :: b :: c :: d :: numbered e f g h rest) =
      .ok (Utf16.joined high low, ⟨rest, h'⟩) := by
  obtain ⟨within, _, taken⟩ := exists_numberedEscape_numbered isUnit isHigh isSecond goesOn
  exact ⟨within, taken.trans (if_pos isLow)⟩

/-- A unit that does not begin a pair is taken alone, if it is taken. -/
theorem eq_of_numberedEscape_unpaired {unit : Nat} {point : CodePoint} {front next : Text}
    {shorter : front.length < cs.length} {within : next.length < cs.length}
    (isFirst : unit? cs = some (unit, ⟨front, shorter⟩))
    (unpaired : Utf16.isHigh unit = true → ∀ e f g h low rest, front = numbered e f g h rest →
      rest ≠ [] → unitOf? e f g h = some low → ¬Utf16.isLow low = true)
    (taken : numberedEscape cs = .ok (point, ⟨next, within⟩)) : point = .ofNat unit ∧ next = front := by
  simp only [numberedEscape, isFirst] at taken
  split at taken
  · rename_i isHigh
    split at taken
    · cases taken; exact ⟨rfl, rfl⟩
    · rename_i digits _ escape
      split at taken
      · cases taken; exact ⟨rfl, rfl⟩
      · split at taken
        · cases taken
        · rename_i second rest _ isNext
          split at taken
          · rename_i isLow
            obtain ⟨e, f, g, h, isDigits, goesOn, isSecond⟩ := eq_append_of_unit? isNext
            have isFront : front = numbered e f g h rest :=
              (eq_append_of_after? escape).trans (congrArg (("\\u" : Text) ++ ·) isDigits)
            exact absurd isLow (unpaired isHigh e f g h second rest isFront goesOn isSecond)
          · cases taken; exact ⟨rfl, rfl⟩
  · cases taken; exact ⟨rfl, rfl⟩

/-- What is taken for an escape by number is a unit that does not begin a pair, or a pair. -/
theorem exists_of_numberedEscape {point : CodePoint} {next : Text} {within : next.length < cs.length}
    (taken : numberedEscape cs = .ok (point, ⟨next, within⟩)) :
    (∃ a b c d unit, cs = a :: b :: c :: d :: next ∧ unitOf? a b c d = some unit ∧
      point = .ofNat unit ∧ ∀ source rest, next = source ++ ('"' : CodePoint) :: rest →
        Unpaired unit source) ∨
    ∃ a b c d e f g h high low, cs = a :: b :: c :: d :: numbered e f g h next ∧
      unitOf? a b c d = some high ∧ Utf16.isHigh high = true ∧ unitOf? e f g h = some low ∧
      Utf16.isLow low = true ∧ point = Utf16.joined high low := by
  cases isFirst : unit? cs with
  | none => simp [numberedEscape, isFirst] at taken
  | some first =>
  obtain ⟨unit, front, shorter⟩ := first
  obtain ⟨a, b, c, d, isFront, -, isUnit⟩ := eq_append_of_unit? isFirst
  by_cases paired : Utf16.isHigh unit = true ∧ ∃ e f g h low rest, front = numbered e f g h rest ∧
    rest ≠ [] ∧ unitOf? e f g h = some low ∧ Utf16.isLow low = true
  · obtain ⟨isHigh, e, f, g, h, low, rest, rfl, goesOn, isSecond, isLow⟩ := paired
    subst isFront
    obtain ⟨_, both⟩ := exists_numberedEscape_pair isUnit isHigh isSecond isLow goesOn
    simp only [both, Except.ok.injEq, Prod.mk.injEq, Subtype.mk.injEq] at taken
    obtain ⟨rfl, rfl⟩ := taken
    exact .inr ⟨a, b, c, d, e, f, g, h, unit, low, rfl, isUnit, isHigh, isSecond, isLow, rfl⟩
  · obtain ⟨isPoint, isNext⟩ := eq_of_numberedEscape_unpaired isFirst
      (fun isHigh e f g h low rest isNumbered goesOn isSecond isLow =>
        paired ⟨isHigh, e, f, g, h, low, rest, isNumbered, goesOn, isSecond, isLow⟩) taken
    refine .inl ⟨a, b, c, d, unit, isNext ▸ isFront, isUnit, isPoint, ?_⟩
    rintro _ rest isRest isHigh e f g h low more rfl isSecond
    exact Bool.eq_false_iff.2 fun isLow => paired ⟨isHigh, e, f, g, h, low,
      more ++ ('"' : CodePoint) :: rest, isNext.symm.trans isRest, by simp, isSecond, isLow⟩

variable {base opening acc : Text} {point : CodePoint}

/-- An escape of one letter is taken. -/
theorem exists_escaped_short {letter : CodePoint} (isShort : shortEscapes.lookup letter = some point)
    (rest : Text) : ∃ h, escaped opening (letter :: rest) = .ok (point, ⟨rest, h⟩) :=
  ⟨length_lt_cons letter rest, by simp only [escaped, ne_of_short isShort, if_false, isShort]⟩

/-- An escape by number is taken. -/
theorem exists_escaped_numbered (taken : ∃ h, numberedEscape cs = .ok (point, ⟨rest, h⟩)) :
    ∃ h, escaped opening ('u' :: cs) = .ok (point, ⟨rest, h⟩) := by
  obtain ⟨h, taken⟩ := taken
  exact ⟨length_lt_longer _ h, by simp only [escaped, if_true, taken]; rfl⟩

/-- After an escape the text is taken as before. -/
theorem exists_textAfter_escape {next : Text}
    (escape : ∃ h, escaped opening cs = .ok (point, ⟨next, h⟩))
    (h : (('\\' : CodePoint) :: cs).length < base.length)
    (goesOn : ∀ h, ∃ h', textAfter base opening (point :: acc) next h =
      .ok ((point :: acc).reverse ++ text, ⟨rest, h'⟩)) :
    ∃ h', textAfter base opening acc ('\\' :: cs) h =
      .ok (acc.reverse ++ point :: text, ⟨rest, h'⟩) := by
  obtain ⟨within, escape⟩ := escape
  obtain ⟨shorter, taken⟩ := goesOn (by simp only [List.length_cons] at h; omega)
  refine ⟨shorter, ?_⟩
  rw [textAfter, if_neg (by decide), if_pos rfl, escape]
  simpa using taken

/-- What stands between quotes is taken for its text. -/
theorem exists_textAfter_append (opening acc : Text) (quoted : Quoted source text)
    (h : (source ++ ('"' : CodePoint) :: rest).length < base.length) :
    ∃ h', textAfter base opening acc (source ++ ('"' : CodePoint) :: rest) h =
      .ok (acc.reverse ++ text, ⟨rest, h'⟩) := by
  induction quoted generalizing acc with
  | nil => exact ⟨Nat.lt_of_succ_lt h, by simp [textAfter]⟩
  | @plain c source text notQuote notBackslash notControl _ ih =>
    obtain ⟨shorter, taken⟩ := ih (c :: acc) (Nat.lt_of_succ_lt h)
    exact ⟨shorter, by simpa [textAfter, notQuote, notBackslash, notControl] using taken⟩
  | short isShort _ ih => exact exists_textAfter_escape (exists_escaped_short isShort _) h (ih _)
  | unit isUnit unpaired quoted ih =>
    have number := exists_numberedEscape_unit isUnit unpaired quoted rest
    exact exists_textAfter_escape (exists_escaped_numbered number) h (ih _)
  | pair isUnit isHigh isSecond isLow _ ih =>
    exact exists_textAfter_escape (exists_escaped_numbered
      (exists_numberedEscape_pair isUnit isHigh isSecond isLow (by simp))) h (ih _)

/-- What is taken for an escape is one of a letter or one by number. -/
theorem cases_of_escaped {next : Text} {within : next.length < cs.length}
    (taken : escaped opening cs = .ok (point, ⟨next, within⟩)) :
    (∃ letter, cs = letter :: next ∧ shortEscapes.lookup letter = some point) ∨
      ∃ number h, cs = ('u' : CodePoint) :: number ∧
        numberedEscape number = .ok (point, ⟨next, h⟩) := by
  unfold escaped at taken
  split at taken
  · cases taken
  · rename_i c number
    split at taken
    · rename_i isNumber
      obtain ⟨⟨_, _, h⟩, taken, isResult⟩ := Refusal.map_eq_ok_iff.1 taken
      cases isResult
      exact .inr ⟨number, h, by rw [isNumber], taken⟩
    · split at taken
      · rename_i isShort
        simp only [Except.ok.injEq, Prod.mk.injEq, Subtype.mk.injEq] at taken
        obtain ⟨rfl, rfl⟩ := taken
        exact .inl ⟨c, rfl, isShort⟩
      · cases taken

/-- With the backslash and what is taken after it, more stands between quotes. -/
theorem exists_quoted_of_escaped {within : (source ++ ('"' : CodePoint) :: rest).length < cs.length}
    (taken : escaped opening cs = .ok (point, ⟨source ++ ('"' : CodePoint) :: rest, within⟩))
    (quoted : Quoted source text) :
    ∃ source, ('\\' : CodePoint) :: cs = source ++ ('"' : CodePoint) :: rest ∧
      Quoted source (point :: text) := by
  obtain ⟨letter, rfl, isShort⟩ | ⟨number, _, rfl, number⟩ := cases_of_escaped taken
  · exact ⟨_, rfl, .short isShort quoted⟩
  · obtain ⟨a, b, c, d, unit, rfl, isUnit, rfl, unpaired⟩ |
      ⟨a, b, c, d, e, f, g, h, high, low, rfl, isUnit, isHigh, isSecond, isLow, isJoined⟩ :=
      exists_of_numberedEscape number
    · exact ⟨_, rfl, .unit isUnit (unpaired source rest rfl) quoted⟩
    · rw [isJoined]
      exact ⟨_, rfl, .pair isUnit isHigh isSecond isLow quoted⟩

/-- What is taken for a text stood between quotes for it. -/
theorem exists_quoted_of_textAfter {h : cs.length < base.length} {result : Text}
    {within : rest.length < base.length}
    (taken : textAfter base opening acc cs h = .ok (result, ⟨rest, within⟩)) :
    ∃ source text, cs = source ++ ('"' : CodePoint) :: rest ∧ Quoted source text ∧
      result = acc.reverse ++ text := by
  fun_induction textAfter base opening acc cs h with
  | case1 => cases taken
  | case2 acc rest =>
    simp only [Except.ok.injEq, Prod.mk.injEq, Subtype.mk.injEq] at taken
    obtain ⟨rfl, rfl⟩ := taken
    exact ⟨[], [], rfl, .nil, by simp⟩
  | case3 acc rest point after _ escape _ _ _ _ ih =>
    obtain ⟨source, text, rfl, quoted, rfl⟩ := ih taken
    obtain ⟨source, isRest, quoted⟩ := exists_quoted_of_escaped escape quoted
    exact ⟨source, point :: text, isRest, quoted, by simp⟩
  | case4 => cases taken
  | case5 => cases taken
  | case6 acc c rest _ notQuote notBackslash notControl _ _ ih =>
    obtain ⟨source, text, rfl, quoted, rfl⟩ := ih taken
    exact ⟨c :: source, c :: text, rfl, .plain notQuote notBackslash notControl quoted, by simp⟩

end CardForm.Json
