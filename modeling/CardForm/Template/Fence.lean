import CardForm.Text.Basic

/-!
# Fenced blocks

A fenced block of a text stands between two fences of three grave accents. After the opening fence
may stand the word `json`, with spaces and tabs around it, and a line break; the body is what
follows, up to the next fence. Blocks do not overlap: the text after a block is searched for the
next one.
-/
namespace CardForm.Fence

/-- The three characters of a fence. -/
def fence : Text := "\x60\x60\x60"

/-- The rest of a text is shorter than a text that has one more character. -/
theorem length_lt_cons {rest text : Text} (c : CodePoint) (h : rest.length < text.length) :
    rest.length < (c :: text).length := Nat.lt_succ_of_lt h

/-- Dropping from a text leaves less than the text with one more character. -/
theorem length_drop_lt_cons (count : Nat) (c : CodePoint) (text : Text) :
    (text.drop count).length < (c :: text).length := by
  simp only [List.length_drop, List.length_cons]
  omega

/-- The text up to the first fence, and the text after that fence. -/
def cut? : (text : Text) →
    Option (Text × {rest : Text // rest.length < text.length})
  | [] => none
  | c :: text =>
    if fence.isPrefixOf (c :: text) then some ([], ⟨text.drop 2, length_drop_lt_cons 2 c text⟩)
    else
      (cut? text).map fun (before, ⟨rest, h⟩) => (c :: before, ⟨rest, length_lt_cons c h⟩)

/-- The text without the spaces and tabs at its front. -/
def dropBlanks (text : Text) : Text := text.dropWhile fun c => c == ' ' || c == '\t'

/-- The words that say what a block holds. -/
def labels : List Text := ["json", "JSON"]

/-- The text without the word at its front that says what a block holds. -/
def dropLabel (text : Text) : Text :=
  if labels.any (List.isPrefixOf · text) then text.drop 4 else text

/-- The text without one character at its front. -/
def dropOne (c : CodePoint) : Text → Text
  | [] => []
  | a :: rest => if a = c then rest else a :: rest

/-- The text after what may stand between an opening fence and the body. -/
def afterHeader (text : Text) : Text :=
  dropOne '\n' (dropOne '\r' (dropBlanks (dropLabel (dropBlanks text))))

/-- Dropping blanks leaves no longer text. -/
theorem length_dropBlanks_le (text : Text) : (dropBlanks text).length ≤ text.length :=
  (List.dropWhile_sublist _).length_le

/-- Dropping a label leaves no longer text. -/
theorem length_dropLabel_le (text : Text) : (dropLabel text).length ≤ text.length := by
  unfold dropLabel
  split
  · simp only [List.length_drop]; omega
  · exact Nat.le_refl _

/-- Dropping one character leaves no longer text. -/
theorem length_dropOne_le (c : CodePoint) (text : Text) :
    (dropOne c text).length ≤ text.length := by
  unfold dropOne
  split
  · exact Nat.le_refl _
  · split <;> simp only [List.length_cons] <;> omega

/-- Dropping a header leaves no longer text. -/
theorem length_afterHeader_le (text : Text) : (afterHeader text).length ≤ text.length :=
  Nat.le_trans (length_dropOne_le _ _) <| Nat.le_trans (length_dropOne_le _ _) <|
    Nat.le_trans (length_dropBlanks_le _) <|
      Nat.le_trans (length_dropLabel_le _) (length_dropBlanks_le _)

/-- The bodies of the fenced blocks of a text, in order. -/
def bodies (text : Text) : List Text :=
  match cut? text with
  | none => []
  | some (_, ⟨opened, _⟩) =>
    match cut? (afterHeader opened) with
    | none => []
    | some (body, ⟨rest, _⟩) =>
      have := length_afterHeader_le opened
      body :: bodies rest
termination_by text.length

example : bodies "a \x60\x60\x60json\n1\x60\x60\x60 b \x60\x60\x60 2\x60\x60\x60" =
    (["1", "2"] : List Text) := by decide +kernel

end CardForm.Fence
