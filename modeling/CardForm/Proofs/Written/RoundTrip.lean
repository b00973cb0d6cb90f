import CardForm.Proofs.Written.Obstacle

/-!
# Documents come back as they were written

A document that was read, and can be written, is read again where it was written, and written again as
it was; each unknown key has its value in what is written (`Document.write_read_write`). Not every
document that is read can be written: the value of an unknown key may be too deep, and the keys of the
objects inside it may be ill-formed (`Document.exists_unwritable`).
-/
namespace CardForm

/-- The kinds of documents. -/
inductive Document where
  /-- A field of a form. -/
  | field
  /-- A flow. -/
  | flow
  /-- An edge specification. -/
  | edgeSpec
  /-- An envelope. -/
  | envelope
  /-- A record. -/
  | record

namespace Document

/-- The documents of a kind. -/
def Content : Document → Type
  | field => Field
  | flow => Flow
  | edgeSpec => EdgeSpec
  | envelope => Envelope
  | record => Record

/-- Read a document of a kind. -/
def read : ∀ document : Document, Json → Reading document.Content
  | field => Field.read
  | flow => Flow.read
  | edgeSpec => EdgeSpec.read
  | envelope => Envelope.read
  | record => Record.read

instance : ∀ document : Document, Writable document.Content
  | field => inferInstanceAs (Writable Field)
  | flow => inferInstanceAs (Writable Flow)
  | edgeSpec => inferInstanceAs (Writable EdgeSpec)
  | envelope => inferInstanceAs (Writable Envelope)
  | record => inferInstanceAs (Writable Record)

/-- The format of the documents of a kind. -/
def format : ∀ document : Document, Format document.Content
  | field => Field.format
  | flow => Flow.format
  | edgeSpec => EdgeSpec.format
  | envelope => Envelope.format
  | record => Record.format

/-- Documents are read in their format. -/
theorem read_format (document : Document) : document.format.read = document.read := by
  cases document <;> rfl

/-- Documents are written in their format. -/
theorem toJson_format (document : Document) : document.format.toJson = Writable.toJson := by
  cases document <;> rfl

/-- The formats of documents are exact. -/
theorem exact_format : ∀ document : Document, document.format.Exact
  | field => Field.exact_format
  | flow => Flow.exact_format
  | edgeSpec => EdgeSpec.exact_format
  | envelope => Envelope.exact_format
  | record => Record.exact_format

/-- Documents come back without an obstacle. -/
theorem unobstructed : ∀ document : Document, document.format.Unobstructed
  | field => Field.unobstructed
  | flow => Flow.unobstructed
  | edgeSpec => EdgeSpec.unobstructed
  | envelope => Envelope.unobstructed
  | record => Record.unobstructed

variable {document : Document} {found : Json} {value : document.Content}

/-- A document that was read where all numbers are finite and no object spells a declared key both
ways, and that can be written, is read again where it was written and written again as it was. The
unknown keys that are not null, at each level, have the portable forms of their values there, and these
are the values themselves. -/
theorem write_read_write (isRead : document.read found = .ok value) (finite : found.isFinite = true)
    (once : document.format.SpellsOnce found) (writable : Writable.isWritable value = true) :
    ∃ written again, Writable.write value = .ok written ∧ document.read written = .ok again ∧
      Writable.write again = .ok written ∧ document.format.Carries found written ∧
      ∀ part : Json, part.isFinite = true → part.portable = part := by
  have exact := document.exact_format
  rw [← document.read_format] at isRead
  -- The value is valid since it was read, and no extra of it spells a declared key.
  have readsAgain : document.format.read (document.format.toJson value) =
      .ok (document.format.reread value) :=
    (exact.read_toJson (exact.once_of_read isRead once)).2 ⟨exact.valid_of_read isRead, rfl⟩
  have sameForm : document.format.toJson (document.format.reread value) =
      document.format.toJson value := exact.toJson_reread (exact.finite_of_read finite isRead)
  have carries := exact.carries_of_read isRead
  rw [document.read_format] at readsAgain
  rw [document.toJson_format] at readsAgain sameForm carries
  refine ⟨Writable.toJson value, document.format.reread value, ?_, readsAgain, ?_, carries,
    fun part => Json.portable_eq_self⟩
  · exact Writable.write_of_isWritable writable
  · exact Writable.write_eq_ok_iff.2 ⟨document.unobstructed.isWritable_reread writable, sameForm⟩

/-- A field with a key in its other spelling, and with unknown keys at both of its levels. -/
def starred : Json :=
  .obj
    [("id", .str "q"), ("type", .str "text"), ("label", .str "Name"), ("piping_key", .str "name"),
      ("media", .obj [("type", .str "icon"), ("alt_text", .str "A star"), ("position", .str "above"),
        ("tint", .arr [.null, .int 1])]),
      ("note", .obj [("a", .null)])]

/-- It spells each declared key one way. -/
theorem spellsOnce_starred : Field.format.SpellsOnce starred := by
  -- Only the media are objects, and they have no objects among their own parts.
  refine Shape.spellsOnce_obj_iff.2 ⟨by decide, Slot.spelledOnce_simple, Slot.spelledOnce_simple,
    Slot.spelledOnce_simple, Slot.spelledOnce_simple, ?_, Slot.spelledOnce_simple, ?_, ?_,
    Slot.spelledOnce_simple, Slot.spelledOnce_simple, trivial⟩
  · rintro object ⟨found, ⟨⟩, _⟩
  · rintro object ⟨found, ⟨⟩, inMedia⟩
    refine Shape.spellsOnce_obj_iff.2 ⟨by decide, ?_⟩ object inMedia
    exact ⟨Slot.spelledOnce_simple, Slot.spelledOnce_simple, Slot.spelledOnce_simple,
      Slot.spelledOnce_simple, Slot.spelledOnce_simple, Slot.spelledOnce_simple, trivial⟩
  · rintro object ⟨found, ⟨⟩, _⟩

/-- Such a field comes back. -/
theorem write_read_write_starred :
    ∃ value : Field, Field.read starred = .ok value ∧ starred.isFinite = true ∧
      Field.format.SpellsOnce starred ∧ Writable.isWritable value = true ∧
      ∃ written again, Writable.write value = .ok written ∧ Field.read written = .ok again ∧
        Writable.write again = .ok written ∧ Field.format.Carries starred written := by
  have readsValue : Field.read starred = .ok
      { id := "q", kind := ⟨"text"⟩, label := "Name", pipingKey := some "name",
        media := some
          { kind := .icon, altText := some "A star", placement := .above,
            extras := [("tint", .arr [.null, .int 1])] },
        extras := [("note", .obj [("a", .null)])] } := rfl
  obtain ⟨written, again, writes, readsAgain, writesAgain, carries, _⟩ :=
    @write_read_write .field starred _ readsValue rfl spellsOnce_starred rfl
  exact ⟨_, readsValue, rfl, spellsOnce_starred, rfl, written, again, writes, readsAgain, writesAgain,
    carries⟩

/-! ## Documents that do not come back -/

/-- An edge specification with a note. -/
def noted (note : Json) : Json :=
  .obj [("source", .str "a"), ("target", .str "b"), ("note", note)]

/-- The note is kept. -/
theorem read_noted (note : Json) :
    EdgeSpec.read (noted note) = .ok ⟨"a", "b", none, [("note", note)]⟩ := rfl

/-- No object in an edge specification with a note spells a declared key both ways. -/
theorem spellsOnce_noted (note : Json) : EdgeSpec.format.SpellsOnce (noted note) := by
  have single : ∀ key ∈ EdgeSpec.shape.keys, key.camel = key.plain := by
    simp [EdgeSpec.shape, Shape.keys, Key.same]
  refine Shape.spellsOnce_obj_iff.2 ⟨Members.spelledOnce_of_single single, Slot.spelledOnce_simple,
    Slot.spelledOnce_simple, ?_, trivial⟩
  rintro object ⟨found, ⟨⟩, _⟩

/-- It is not written where the note has an obstacle. -/
theorem write_noted {note : Json} {found : Obstacle}
    (isFound : note.obstacle Json.writableNesting = some found) :
    Writable.write (EdgeSpec.mk "a" "b" none [("note", note)]) = .error (.ofObstacle found) := by
  have inExtras : Members.obstacle [("note", note)] Json.writableNesting = some found := by
    simp only [Members.obstacle, List.findSome?_cons, isFound]
  refine Writable.write_of_obstacle ?_
  change Obstacle.first? [none, Members.obstacle [("note", note)] Json.writableNesting] = some found
  rw [inExtras]
  rfl

/-- Not all documents that are read can be written: not one with a value that is too deep, nor one with
an ill-formed key in the value of another key. -/
theorem exists_unwritable :
    (∃ value, EdgeSpec.read (noted ((fun inner => .arr [inner])^[255] .null)) = .ok value ∧
      (noted ((fun inner => .arr [inner])^[255] .null)).isFinite = true ∧
      EdgeSpec.format.SpellsOnce (noted ((fun inner => .arr [inner])^[255] .null)) ∧
      Writable.write value = .error .tooDeep) ∧
    ∃ value, EdgeSpec.read (noted (.obj [([.ofNat 0xD800], .int 1)])) = .ok value ∧
      (noted (.obj [([.ofNat 0xD800], .int 1)])).isFinite = true ∧
      EdgeSpec.format.SpellsOnce (noted (.obj [([.ofNat 0xD800], .int 1)])) ∧
      Writable.write value = .error (.notEncodable 0 [.ofNat 0xD800]) := by
  constructor
  · have finite : ((fun inner => Json.arr [inner])^[255] .null).isFinite = true :=
      Json.isFinite_iterate_arr 255 .null
    refine ⟨_, read_noted _, ?_, spellsOnce_noted _, write_noted (Json.obstacle_iterate_arr 255 .null)⟩
    simp only [noted, Json.isFinite, Json.haveFinite, finite, Bool.and_self]
  · exact ⟨_, read_noted _, rfl, spellsOnce_noted _,
      @write_noted _ (.notEncodable 0 [.ofNat 0xD800]) rfl⟩

end Document

end CardForm
