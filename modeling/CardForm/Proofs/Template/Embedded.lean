import CardForm.Proofs.Json.Refusals
import CardForm.Proofs.Template.Failures

/-!
# Envelopes amid prose

An envelope is found in a text wherever it stands: at the first brace of the text, or in its only fenced
block, with any prose around it that has neither grave accents nor, in front, braces.
-/
namespace CardForm

variable {text before after rest label : Text}

/-! ## Fences -/

namespace Fence

/-- No fence begins with another character. -/
theorem isPrefixOf_cons {c : CodePoint} (notTick : c ≠ '\x60') : fence.isPrefixOf (c :: text) = false := by
  change (('\x60' : CodePoint) == c && _) = false
  simp [Ne.symm notTick]

/-- A text without grave accents has no fence. -/
theorem cut?_eq_none (noTick : ('\x60' : CodePoint) ∉ text) : cut? text = none := by
  induction text with
  | nil => rfl
  | cons c text ih =>
    rw [List.mem_cons, not_or] at noTick
    simp [cut?, isPrefixOf_cons (Ne.symm noTick.1), ih noTick.2]

/-- A text is cut at its first fence. -/
theorem exists_cut?_append (noTick : ('\x60' : CodePoint) ∉ before)
    (isText : text = before ++ (fence ++ rest)) : ∃ h, cut? text = some (before, ⟨rest, h⟩) := by
  subst isText
  induction before with
  | nil => exact ⟨length_drop_lt_cons 2 '\x60' (('\x60' : CodePoint) :: '\x60' :: rest), rfl⟩
  | cons c before ih =>
    rw [List.mem_cons, not_or] at noTick
    obtain ⟨shorter, cut⟩ := ih noTick.2
    exact ⟨length_lt_cons c shorter, by simp [cut?, isPrefixOf_cons (Ne.symm noTick.1), cut]⟩

/-- A text is another one behind spacing characters. -/
def Indented (rest text : Text) : Prop :=
  ∃ before, (∀ c ∈ before, c.isSpacing = true) ∧ text = before ++ rest

/-- Further spacing characters make no difference. -/
theorem Indented.append (indented : Indented rest text) (spacing : ∀ c ∈ before, c.isSpacing = true) :
    Indented rest (before ++ text) := by
  obtain ⟨others, isSpacing, rfl⟩ := indented
  exact ⟨before ++ others, by simpa [or_imp, forall_and] using ⟨spacing, isSpacing⟩, by simp⟩

section Header

variable {first : CodePoint} {tail : Text}

/-- What is dropped from the front of a text by a class stands before its first character of another
kind. -/
theorem Indented.dropWhile {inClass : CodePoint → Bool} (indented : Indented (first :: tail) text)
    (notIn : inClass first = false) : Indented (first :: tail) (text.dropWhile inClass) := by
  obtain ⟨before, spacing, rfl⟩ := indented
  induction before with
  | nil => exact ⟨[], spacing, by simp [notIn]⟩
  | cons c before ih =>
    have others := (List.forall_mem_cons.1 spacing).2
    rw [List.cons_append, List.dropWhile_cons]
    split
    · exact ih others
    · exact ⟨c :: before, spacing, rfl⟩

/-- So does one character that is dropped. -/
theorem Indented.dropOne {c : CodePoint} (indented : Indented (first :: tail) text) (ne : first ≠ c) :
    Indented (first :: tail) (Fence.dropOne c text) := by
  obtain ⟨before, spacing, rfl⟩ := indented
  cases before with
  | nil => exact ⟨[], spacing, if_neg ne⟩
  | cons a before =>
    rw [List.cons_append, Fence.dropOne]
    split
    · exact ⟨before, (List.forall_mem_cons.1 spacing).2, rfl⟩
    · exact ⟨a :: before, spacing, rfl⟩

/-- A label is dropped. -/
theorem dropLabel_append (isLabel : label ∈ labels) (text : Text) : dropLabel (label ++ text) = text := by
  simp only [labels, List.mem_cons, List.not_mem_nil, or_false] at isLabel
  obtain rfl | rfl := isLabel <;> rfl

/-- No label begins with a spacing character or a brace. -/
theorem Indented.dropLabel (indented : Indented (('\x7b' : CodePoint) :: tail) text) :
    dropLabel text = text := by
  have begins : ∃ c others, text = c :: others ∧ c ≠ 'j' ∧ c ≠ 'J' := by
    obtain ⟨before, spacing, rfl⟩ := indented
    cases before with
    | nil => exact ⟨'\x7b', tail, rfl, by decide⟩
    | cons c before =>
      have isSpacing := (List.forall_mem_cons.1 spacing).1
      refine ⟨c, before ++ _, rfl, ?_, ?_⟩ <;> rintro rfl <;> exact nomatch isSpacing
  obtain ⟨c, others, rfl, notLower, notUpper⟩ := begins
  have noLabel : labels.any (List.isPrefixOf · (c :: others)) = false := by
    change (('j' : CodePoint) == c && _ || ((('J' : CodePoint) == c && _) || false)) = false
    simp [Ne.symm notLower, Ne.symm notUpper]
  simp [Fence.dropLabel, noLabel]

/-- Before a brace a header leaves nothing but spacing characters. -/
theorem Indented.afterHeader (blanks : ∀ c ∈ before, c = ' ' ∨ c = '\t')
    (isLabel : label ∈ [] :: labels) (indented : Indented (('\x7b' : CodePoint) :: tail) text) :
    Indented (('\x7b' : CodePoint) :: tail) (afterHeader (before ++ (label ++ text))) := by
  have shed : Indented (('\x7b' : CodePoint) :: tail)
      (Fence.dropLabel (dropBlanks (before ++ (label ++ text)))) := by
    obtain rfl | isLabel := List.mem_cons.1 isLabel
    · have spacing : ∀ c ∈ before, c.isSpacing = true := fun c mem => by
        obtain rfl | rfl := blanks c mem <;> rfl
      have noBlanks : Indented (('\x7b' : CodePoint) :: tail) (dropBlanks (before ++ text)) :=
        (indented.append spacing).dropWhile rfl
      rwa [List.nil_append, noBlanks.dropLabel]
    · have begins : Text.Stops (fun c => c == ' ' || c == '\t') (label ++ text) := by
        simp only [labels, List.mem_cons, List.not_mem_nil, or_false] at isLabel
        obtain rfl | rfl := isLabel <;> exact Text.stops_cons_iff.2 rfl
      rwa [dropBlanks, Text.dropWhile_append_of_stops (by simpa using blanks) begins,
        dropLabel_append isLabel]
  exact ((shed.dropWhile rfl).dropOne (by decide)).dropOne (by decide)

end Header

/-- A text as a fenced block: there may be a label between the opening fence and the text, with spaces and
tabs before it, and any spacing characters stand around the text. -/
inductive Fenced (text : Text) : Text → Prop where
  /-- The parts of the block. -/
  | intro {before label between after : Text} : (∀ c ∈ before, c = ' ' ∨ c = '\t') →
      label ∈ [] :: labels → (∀ c ∈ between, c.isSpacing = true) →
      (∀ c ∈ after, c.isSpacing = true) →
      Fenced text (fence ++ (before ++ (label ++ (between ++ (text ++ (after ++ fence))))))

/-- A text without grave accents has no fenced block. -/
theorem bodies_eq_nil (noTick : ('\x60' : CodePoint) ∉ text) : bodies text = [] := by
  rw [bodies, cut?_eq_none noTick]

/-- The only block of a text is what stands between its two fences, after the header. -/
theorem bodies_block {header body : Text} (noneBefore : ('\x60' : CodePoint) ∉ before)
    (isBody : afterHeader header = body ++ (fence ++ after)) (noneIn : ('\x60' : CodePoint) ∉ body)
    (noneAfter : ('\x60' : CodePoint) ∉ after) : bodies (before ++ (fence ++ header)) = [body] := by
  obtain ⟨_, opening⟩ := exists_cut?_append noneBefore (Eq.refl (before ++ (fence ++ header)))
  obtain ⟨_, closing⟩ := exists_cut?_append noneIn isBody
  rw [bodies]
  simp only [opening, closing, bodies_eq_nil noneAfter]

/-- Spacing characters are no grave accents. -/
theorem notMem_of_spacing (spacing : ∀ c ∈ text, c.isSpacing = true) : ('\x60' : CodePoint) ∉ text :=
  fun mem => nomatch spacing _ mem

/-- What a text holds in a fenced block is its only body, with spacing characters around it. -/
theorem exists_bodies_of_fenced {block : Text} (fenced : Fenced text block)
    (isBraced : text.head? = some ('\x7b' : CodePoint)) (noTick : ('\x60' : CodePoint) ∉ text)
    (noneBefore : ('\x60' : CodePoint) ∉ before) (noneAfter : ('\x60' : CodePoint) ∉ rest) :
    ∃ indent after, bodies (before ++ (block ++ rest)) = [indent ++ (text ++ after)] ∧
      (∀ c ∈ indent, c.isSpacing = true) ∧ ∀ c ∈ after, c.isSpacing = true := by
  obtain ⟨tail, rfl⟩ := List.head?_eq_some_iff.1 isBraced
  cases fenced with
  | @intro blanks label between after isBlank isLabel isBetween isAfter =>
    have indented : Indented (('\x7b' : CodePoint) :: (tail ++ (after ++ (fence ++ rest))))
        (between ++ ('\x7b' : CodePoint) :: (tail ++ (after ++ (fence ++ rest)))) :=
      ⟨between, isBetween, rfl⟩
    obtain ⟨indent, isIndent, isBody⟩ := indented.afterHeader isBlank isLabel
    have noneIn : ('\x60' : CodePoint) ∉ indent ++ (('\x7b' : CodePoint) :: tail ++ after) := by
      simp only [List.mem_append, not_or]
      exact ⟨notMem_of_spacing isIndent, noTick, notMem_of_spacing isAfter⟩
    refine ⟨indent, after, ?_, isIndent, isAfter⟩
    simpa using bodies_block noneBefore (by simpa using isBody) noneIn noneAfter

end Fence

/-! ## Envelopes -/

namespace Envelope

open Json (IsTextOf Blanks enclosed)

variable {value : Json} {envelope : Envelope} {candidate : Text → Except Json.Refusal Json}

/-- The blanks of JSON are spacing characters. -/
theorem isSpacing_of_isJsonBlank {c : CodePoint} (isBlank : Json.isJsonBlank c = true) :
    c.isSpacing = true := by
  simp only [Json.isJsonBlank, Bool.or_eq_true, beq_iff_eq] at isBlank
  obtain ((rfl | rfl) | rfl) | rfl := isBlank <;> rfl

/-- A word occurs in a text exactly if it is a part of it. -/
theorem occurs_iff {word : Text} : occurs word text = true ↔ word <:+: text := by
  induction text with
  | nil => simp [occurs]
  | cons c text ih => simp [occurs, ih, List.infix_cons_iff]

/-- A text has a key of an envelope exactly if a marker is a part of it. -/
theorem hasMarker_iff : hasMarker text = true ↔ ∃ marker ∈ markers, marker <:+: text := by
  simp only [hasMarker, List.any_eq_true, occurs_iff]

/-- A text has a key of an envelope if a part of it has. -/
theorem hasMarker_of_part (isPart : rest <:+: text) (marked : hasMarker rest = true) :
    hasMarker text = true := by
  obtain ⟨marker, mem, isIn⟩ := hasMarker_iff.1 marked
  exact hasMarker_iff.2 ⟨marker, mem, isIn.trans isPart⟩

/-- No candidate begins before the first brace of a text. -/
theorem bracedTexts_append (noBrace : ('\x7b' : CodePoint) ∉ before) (text : Text) :
    bracedTexts (before ++ text) = bracedTexts text := by
  induction before with
  | nil => rfl
  | cons c before ih =>
    rw [List.mem_cons, not_or] at noBrace
    rw [List.cons_append, bracedTexts, if_neg (Ne.symm noBrace.1), ih noBrace.2]

/-- The first candidate that is an envelope is taken. -/
theorem firstAmong_cons {others : List Text} (isRead : candidate text = .ok value)
    (loads : load value = .ok envelope) : firstAmong candidate (text :: others) = .ok (some envelope) := by
  simp only [firstAmong, ofCandidate, isRead, loads]

/-- A text without grave accents is searched at its braces, where it has a key of an envelope. -/
theorem extract?_eq_searched (noTick : ('\x60' : CodePoint) ∉ text) (marked : hasMarker text = true) :
    extract? text = searched text := by
  simp only [extract?, fencedTexts, Fence.bodies_eq_nil noTick, List.map_nil, List.filter_nil, firstAmong,
    marked, if_true]

/-- A value that begins at the first brace of a text without grave accents is taken, where it is an
envelope. -/
theorem extract?_bare (isText : IsTextOf Numeral.digitLimit Json.nestingLimit text value)
    (isBraced : text.head? = some ('\x7b' : CodePoint))
    (noTick : ('\x60' : CodePoint) ∉ before ++ (text ++ after))
    (marked : ∃ marker ∈ markers, marker <:+: text) (loads : load value = .ok envelope)
    (noBrace : ('\x7b' : CodePoint) ∉ before) :
    extract? (before ++ (text ++ after)) = .ok (some envelope) := by
  have isPart : text <:+: before ++ (text ++ after) := ⟨before, after, by simp⟩
  have isMarked := hasMarker_of_part isPart (hasMarker_iff.2 marked)
  obtain ⟨inside, blanks, rfl, -, spelled⟩ := isText.exists_object isBraced
  rw [extract?_eq_searched noTick isMarked, searched, bracedTexts_append noBrace, List.append_assoc]
  have isRead := Json.readFront_append spelled rfl (blanks ++ after)
  exact firstAmong_cons (congrArg (Except.map Prod.fst) isRead) loads

/-- Where spacing characters around a JSON text of an object are trimmed, what spells the object is left. -/
theorem exists_trim {limit depth : Nat} {indent : Text} (isText : IsTextOf limit depth text value)
    (isBraced : text.head? = some ('\x7b' : CodePoint)) (isIndent : ∀ c ∈ indent, c.isSpacing = true)
    (isAfter : ∀ c ∈ after, c.isSpacing = true) :
    ∃ inside, Text.trim CodePoint.isSpacing (indent ++ (text ++ after)) = enclosed '\x7b' '\x7d' inside ∧
      Json.Spells limit depth (enclosed '\x7b' '\x7d' inside) value := by
  obtain ⟨inside, blanks, rfl, isBlank, spelled⟩ := isText.exists_object isBraced
  refine ⟨inside, ?_, spelled⟩
  have isBehind : ∀ c ∈ blanks ++ after, c.isSpacing = true := by
    intro c mem
    obtain mem | mem := List.mem_append.1 mem
    · exact isSpacing_of_isJsonBlank (isBlank c mem)
    · exact isAfter c mem
  have ends : Text.Stops CodePoint.isSpacing (enclosed '\x7b' '\x7d' inside).reverse := by
    simp only [enclosed, List.reverse_cons, List.reverse_append, List.reverse_nil, List.nil_append,
      List.cons_append]
    exact Text.stops_cons_iff.2 rfl
  rw [List.append_assoc]
  exact Text.trim_append isIndent isBehind (Text.stops_cons_iff.2 rfl) ends (List.cons_ne_nil _ _)

/-- A value in the only fenced block of a text is taken, where it is an envelope. -/
theorem extract?_fenced {block : Text} (isText : IsTextOf Numeral.digitLimit Json.nestingLimit text value)
    (isBraced : text.head? = some ('\x7b' : CodePoint)) (noTick : ('\x60' : CodePoint) ∉ text)
    (fenced : Fence.Fenced text block) (loads : load value = .ok envelope)
    (noneBefore : ('\x60' : CodePoint) ∉ before) (noneAfter : ('\x60' : CodePoint) ∉ after) :
    extract? (before ++ (block ++ after)) = .ok (some envelope) := by
  obtain ⟨indent, behind, isBodies, isIndent, isBehind⟩ :=
    Fence.exists_bodies_of_fenced fenced isBraced noTick noneBefore noneAfter
  obtain ⟨inside, trimmed, spelled⟩ := exists_trim isText isBraced isIndent isBehind
  have isFenced : fencedTexts (before ++ (block ++ after)) = [enclosed '\x7b' '\x7d' inside] := by
    simp only [fencedTexts, isBodies, List.map_cons, List.map_nil, trimmed]
    rfl
  have isRead : Json.read (enclosed '\x7b' '\x7d' inside) = .ok value :=
    Json.read_eq_ok_iff.2 ⟨[], _, [], by simp, by simp [Blanks], by simp [Blanks], spelled⟩
  rw [extract?, isFenced, firstAmong_cons isRead loads]

/-- An envelope is found wherever it stands: a text that begins with a brace, is a JSON text of an envelope
that can be imported, and has no grave accents but a key of an envelope, is found behind any prose without
grave accents and braces and before any without grave accents, both by itself and in a fenced block. -/
theorem extract?_embedded (isText : IsTextOf Numeral.digitLimit Json.nestingLimit text value)
    (isBraced : text.head? = some ('\x7b' : CodePoint)) (noTick : ('\x60' : CodePoint) ∉ text)
    (marked : ∃ marker ∈ markers, marker <:+: text) (loads : load value = .ok envelope)
    (noneBefore : ('\x60' : CodePoint) ∉ before) (noBrace : ('\x7b' : CodePoint) ∉ before)
    (noneAfter : ('\x60' : CodePoint) ∉ after) :
    extract? (before ++ text ++ after) = .ok (some envelope) ∧
      ∀ block, Fence.Fenced text block → extract? (before ++ block ++ after) = .ok (some envelope) := by
  constructor
  · have noneIn : ('\x60' : CodePoint) ∉ before ++ (text ++ after) := by
      simp only [List.mem_append, not_or]
      exact ⟨noneBefore, noTick, noneAfter⟩
    rw [List.append_assoc]
    exact extract?_bare isText isBraced noneIn marked loads noBrace
  · intro block fenced
    rw [List.append_assoc]
    exact extract?_fenced isText isBraced noTick fenced loads noneBefore noneAfter

/-! ## An envelope with a number in it -/

section Noted

open Json (Spells SpellsMember Whole blanks_nil spaced_self quoted_self)

variable {digits : Text} {limit : Nat}

/-- What stands behind the number in the text of `annotated`. -/
def annotatedEnd : Text :=
  ",\"source\":\"start\",\"target\":\"a\"\x7d],\"schema\":[\x7b\"id\":\"a\",\"type\":\"text\",\"label\":\"a\"\x7d]\x7d"

/-- A text of an envelope with a single field and one edge, which bears a number. -/
def annotated (digits : Text) : Text := "\x7b\"flowchartEdges\":[\x7b\"n\":" ++ (digits ++ annotatedEnd)

/-- The members of that envelope. -/
def annotatedMembers (n : Int) : Members :=
  [("flowchartEdges", .arr [.obj [("n", .num (.int n)), ("source", .str "start"), ("target", .str "a")]]),
    ("schema", .arr [.obj [("id", .str "a"), ("type", .str "text"), ("label", .str "a")]])]

/-- The envelope is imported. -/
theorem exists_load_annotated (n : Int) : ∃ envelope, load (.obj (annotatedMembers n)) = .ok envelope := by
  obtain ⟨parts, loads, noFlow⟩ :
      ∃ parts, loadParts (annotatedMembers n) = .ok parts ∧ parts.flow = none := ⟨_, rfl, rfl⟩
  obtain ⟨fields, isLinear⟩ :=
    Flow.exists_linear_of_named (not_showsUnnamed_expanded (valid_of_loadParts loads))
  obtain ⟨envelope, completes⟩ : ∃ envelope, parts.completed = .ok envelope := by
    rw [completed, noFlow]
    exact ⟨_, Failure.map_eq_ok_iff.2 ⟨fields, isLinear, rfl⟩⟩
  refine ⟨envelope, ?_⟩
  rw [load, if_pos (by rfl)]
  exact Failure.bind_eq_ok_iff.2 ⟨parts, loads, completes⟩

/-- The text spells the envelope, if the digits of its number are not too many. -/
theorem isTextOf_annotated (isWhole : Whole digits) (short : digits.length ≤ limit) :
    IsTextOf limit Json.nestingLimit (annotated digits)
      (.obj (annotatedMembers (Numeral.signed false (Numeral.valueOf digits)))) := by
  have member {spells : Text → Json → Prop} {source : Text} {item : Json} (key : Text)
      (plain : ∀ c ∈ key, c ≠ '"' ∧ c ≠ '\\' ∧ ¬c.number < 0x20) (spelled : spells source item) :
      SpellsMember spells (enclosed '"' '"' key ++ (([':'] : Text) ++ source)) (key, item) :=
    .intro (quoted_self plain) (spaced_self ':') spelled
  have text (text : Text) (plain : ∀ c ∈ text, c ≠ '"' ∧ c ≠ '\\' ∧ ¬c.number < 0x20) :
      Spells limit 987 (enclosed '"' '"' text) (.str text) :=
    (Json.Scalar.text (quoted_self plain)).atDepth 987
  have number : Spells limit 987 (Json.minus false ++ digits) _ :=
    (Json.Scalar.number (.integer isWhole short)).atDepth 987
  have edge : Spells limit 988 _ _ := .inr (.object (.some blanks_nil
    (.more (member "n" (by decide) number) (spaced_self ',')
      (.more (member "source" (by decide) (text "start" (by decide))) (spaced_self ',')
        (.last (member "target" (by decide) (text "a" (by decide))) blanks_nil)))))
  have edges : Spells limit 989 _ _ := .inr (.array (.some blanks_nil (.last edge blanks_nil)))
  have field : Spells limit 988 _ _ := .inr (.object (.some blanks_nil
    (.more (member "id" (by decide) (text "a" (by decide))) (spaced_self ',')
      (.more (member "type" (by decide) (text "text" (by decide))) (spaced_self ',')
        (.last (member "label" (by decide) (text "a" (by decide))) blanks_nil)))))
  have fields : Spells limit 989 _ _ := .inr (.array (.some blanks_nil (.last field blanks_nil)))
  have whole : Spells limit 990 _ _ := .inr (.object (.some blanks_nil
    (.more (member "flowchartEdges" (by decide) edges) (spaced_self ',')
      (.last (member "schema" (by decide) fields) blanks_nil))))
  refine ⟨[], _, [], ?_, blanks_nil, blanks_nil, whole⟩
  simp [annotated, annotatedEnd, enclosed, Json.minus, Text.ofString, Text.ofChars]

/-- The text begins with a brace. -/
theorem head?_annotated (digits : Text) : (annotated digits).head? = some ('\x7b' : CodePoint) := rfl

/-- The whole text is the first candidate in it. -/
theorem bracedTexts_annotated (digits : Text) :
    bracedTexts (annotated digits) = annotated digits :: bracedTexts (annotated digits).tail := rfl

/-- The text has no grave accents. -/
theorem noTick_annotated (all : ∀ c ∈ digits, c.isDigit = true) : ('\x60' : CodePoint) ∉ annotated digits := by
  simp only [annotated, List.mem_append, not_or]
  exact ⟨by decide, fun mem => absurd (all _ mem) (by decide), by decide⟩

/-- The text has a key of an envelope. -/
theorem marked_annotated (digits : Text) : ∃ marker ∈ markers, marker <:+: annotated digits := by
  have isPart : ("\"schema\"" : Text) <:+: annotatedEnd := occurs_iff.1 (by decide)
  have isEnd : annotatedEnd <:+ annotated digits := (List.suffix_append digits _).trans (List.suffix_append _ _)
  exact ⟨_, List.mem_cons_of_mem _ List.mem_cons_self, isPart.trans isEnd.isInfix⟩

/-- The envelope is found behind a word and before another brace, by itself and in a block with a label. -/
theorem extract?_embedded_annotated : ∃ envelope, load (.obj (annotatedMembers 7)) = .ok envelope ∧
    extract? ("Take " ++ annotated "7" ++ " or \x7b\x7d.") = .ok (some envelope) ∧
    extract? ("Take " ++
      (Fence.fence ++ (" " ++ ("json" ++ ("\r\n" ++ (annotated "7" ++ ("\n" ++ Fence.fence)))))) ++
      " or \x7b\x7d.") = .ok (some envelope) := by
  obtain ⟨envelope, loads⟩ := exists_load_annotated 7
  have isDigit : ∀ c ∈ ("7" : Text), c.isDigit = true := by decide
  have short : 1 ≤ Numeral.digitLimit := by decide
  have isText := isTextOf_annotated (.digits (by decide) ⟨by decide, isDigit⟩) short
  obtain ⟨bare, fenced⟩ := extract?_embedded isText (head?_annotated _) (noTick_annotated isDigit)
    (marked_annotated _) loads (by decide : _ ∉ ("Take " : Text)) (by decide)
    (by decide : _ ∉ (" or \x7b\x7d." : Text))
  exact ⟨envelope, loads, bare, fenced _ (.intro (by decide) (by decide) (by decide) (by decide))⟩

/-- The envelope is not read where its number has too many digits. -/
theorem frontValue_annotated (isWhole : Whole digits) (long : Numeral.digitLimit < digits.length) :
    frontValue (annotated digits) = .error (.tooManyDigits digits.length) := by
  have noBlank : Text.Stops Json.isJsonBlank (digits ++ annotatedEnd) := by
    obtain ⟨c, _, rfl, isDigit⟩ := isWhole.exists_cons
    simp only [List.cons_append, Text.stops_cons_iff, Json.isJsonBlank, Bool.or_eq_false_iff,
      beq_eq_false_iff_ne]
    and_intros <;> exact Json.ne_of_isDigit isDigit rfl
  have refused := Json.value_long 987 isWhole long (Text.stops_cons_iff.2 rfl : Text.Stops _ annotatedEnd)
  have inEdge := Json.value_object (quoted_self (by decide : ∀ c ∈ ("n" : Text), _)) refused noBlank
  have inEdges := Json.value_array inEdge (Text.stops_cons_iff.2 rfl) (Text.stops_cons_iff.2 rfl)
  have inEnvelope := Json.value_object (quoted_self (by decide : ∀ c ∈ ("flowchartEdges" : Text), _))
    inEdges (Text.stops_cons_iff.2 rfl)
  have isRead : Json.readFront (annotated digits) = .error (.tooManyDigits digits.length) :=
    congrArg (Except.map _) inEnvelope
  rw [frontValue, isRead]
  rfl

/-- With a number of too many digits in it, an envelope is not found. -/
theorem exists_embedded_refused : ∃ value envelope,
    IsTextOf 4301 Json.nestingLimit (annotated (List.replicate 4301 '1')) value ∧
    (annotated (List.replicate 4301 '1')).head? = some ('\x7b' : CodePoint) ∧
    ('\x60' : CodePoint) ∉ annotated (List.replicate 4301 '1') ∧
    (∃ marker ∈ markers, marker <:+: annotated (List.replicate 4301 '1')) ∧ load value = .ok envelope ∧
    extract? (annotated (List.replicate 4301 '1')) = .error (.tooManyDigits 4301) := by
  have isDigit : ∀ c ∈ List.replicate 4301 ('1' : CodePoint), c.isDigit = true := fun c mem => by
    rw [List.eq_of_mem_replicate mem]
    rfl
  have isWhole : Whole (List.replicate 4301 '1') :=
    .digits (by decide) ⟨List.cons_ne_nil _ _, isDigit⟩
  have count : (List.replicate 4301 ('1' : CodePoint)).length = 4301 := List.length_replicate
  obtain ⟨envelope, loads⟩ :=
    exists_load_annotated (Numeral.signed false (Numeral.valueOf (List.replicate 4301 '1')))
  have noTick := noTick_annotated isDigit
  have marked := marked_annotated (List.replicate 4301 '1')
  have refused := frontValue_annotated isWhole (by rw [count]; decide)
  rw [count] at refused
  refine ⟨_, envelope, isTextOf_annotated isWhole (Nat.le_of_eq count), head?_annotated _, noTick, marked,
    loads, ?_⟩
  rw [extract?_eq_searched noTick (hasMarker_iff.2 marked), searched, bracedTexts_annotated, firstAmong,
    refused]
  rfl

end Noted

end Envelope

end CardForm
