import CardForm.Form.Logic
import CardForm.Form.Media
import CardForm.Text.Blank

/-!
# Fields

A field is one entry of the flat list that a form shows: a question with its input, or a statement
with its text. The kind of a field is kept by its name, because an editor's own copy of a kind may
hold a name outside the known ones and then replaces it (`Field.kind`); reading a field accepts the
known kinds only.
-/
namespace CardForm

/-- A kind of field, by its name. -/
structure FieldKind where
  /-- The name of the kind. -/
  name : Text
deriving DecidableEq

namespace FieldKind

/-- A statement: a text without an input. -/
def statement : FieldKind := ⟨"statement"⟩

/-- A choice of one of several buttons. -/
def radio : FieldKind := ⟨"radio"⟩

/-- The kinds that a field can be read with. -/
def known : List FieldKind :=
  [⟨"text"⟩, ⟨"email"⟩, ⟨"phone"⟩, ⟨"textarea"⟩, ⟨"select"⟩, ⟨"checkbox"⟩, radio, ⟨"file"⟩,
    ⟨"image"⟩, statement]

/-- The known kinds by their names. -/
def words : List (Text × FieldKind) := known.map fun kind => (kind.name, kind)

/-- The kinds whose options, where there are any, form a list. -/
def withOptions : List FieldKind := [⟨"select"⟩, radio, ⟨"checkbox"⟩]

end FieldKind

/-- An option with an image. -/
structure PicturedOption where
  /-- The answer that choosing it gives. -/
  value : Text
  /-- Where its image is fetched from. -/
  imageUrl : Option Text := none
  /-- What its image is described as. -/
  altText : Option Text := none
  /-- Unknown members. -/
  extras : Members := []

namespace PicturedOption

/-- The declared keys. -/
def keys : List Key := [.same "value", ⟨"imageUrl", "image_url"⟩, ⟨"altText", "alt_text"⟩]

/-- Read an option with an image from the members of an object. -/
def ofMembers (members : Members) : Reading PicturedOption :=
  PicturedOption.mk <$> members.required (.same "value") .text
    <*> members.optional ⟨"imageUrl", "image_url"⟩ .text
    <*> members.optional ⟨"altText", "alt_text"⟩ .text
    <*> .ok (members.extras keys)

/-- Read an option with an image. -/
def read : Json → Reading PicturedOption := .record "FieldOption" ofMembers

/-- An option with an image as JSON. -/
def toJson (option : PicturedOption) : Json :=
  Members.written
    [("value", some (.str option.value)), ("imageUrl", option.imageUrl.map .str),
      ("altText", option.altText.map .str)]
    option.extras

/-- The first obstacle to writing an option with an image. -/
def obstacle (option : PicturedOption) (room : Nat) : Option Obstacle :=
  option.extras.obstacle room

instance : Writable PicturedOption := ⟨toJson, obstacle⟩

end PicturedOption

/-- One of the answers that a field offers. -/
inductive FieldOption where
  /-- A bare answer. -/
  | plain (value : Text)
  /-- An answer with an image. -/
  | pictured (option : PicturedOption)

namespace FieldOption

/-- Read an option: a text or an object. -/
def read : Json → Reading FieldOption
  | .str s => .ok (.plain s)
  | value =>
    match (PicturedOption.read value).under (.key "FieldOption") with
    | .ok option => .ok (.pictured option)
    | .faulty faults => .faulty (⟨[.key "str"], .notText, value⟩ :: faults)

/-- An option as JSON. -/
def toJson : FieldOption → Json
  | plain value => .str value
  | pictured option => option.toJson

/-- The first obstacle to writing an option. -/
def obstacle : FieldOption → Nat → Option Obstacle
  | plain _, _ => none
  | pictured option, room => option.obstacle room

end FieldOption

/-- A field of a form. -/
structure Field where
  /-- The identifier by which answers and rules name the field. -/
  id : Text
  /-- Its kind. -/
  kind : FieldKind
  /-- The text shown with it. -/
  label : Text
  /-- The text shown in its empty input. -/
  placeholder : Option Text := none
  /-- The answers that it offers. -/
  options : Option (List FieldOption) := none
  /-- Whether it must be answered. -/
  required : Option Bool := none
  /-- What is shown with it. -/
  media : Option Media := none
  /-- Its conditional rules. -/
  logic : Option Logic := none
  /-- Whether its texts may show earlier answers. -/
  enablePiping : Option Bool := none
  /-- The name by which other texts show its answer. -/
  pipingKey : Option Text := none
  /-- Unknown members. -/
  extras : Members := []

namespace Field

/-- The declared keys. -/
def keys : List Key :=
  [.same "id", .same "type", .same "label", .same "placeholder", .same "options",
    .same "required", .same "media", ⟨"conditionalLogic", "conditional_logic"⟩,
    ⟨"enablePiping", "enable_piping"⟩, ⟨"pipingKey", "piping_key"⟩]

/-- Read a field from the members of an object. -/
def ofMembers (members : Members) : Reading Field :=
  Field.mk <$> members.required (.same "id") .nonEmptyText
    <*> members.required (.same "type") (.oneOf FieldKind.words)
    <*> members.required (.same "label") .text
    <*> members.optional (.same "placeholder") .text
    <*> members.optional (.same "options") (.array FieldOption.read)
    <*> members.optional (.same "required") .boolean
    <*> members.optional (.same "media") Media.read
    <*> members.optional ⟨"conditionalLogic", "conditional_logic"⟩ Logic.read
    <*> members.optional ⟨"enablePiping", "enable_piping"⟩ .boolean
    <*> members.optional ⟨"pipingKey", "piping_key"⟩ .text
    <*> .ok (members.extras keys)

/-- Read a field. -/
def read : Json → Reading Field := .record "FormField" ofMembers

/-- A field as JSON. -/
def toJson (field : Field) : Json :=
  Members.written
    [("id", some (.str field.id)), ("type", some (.str field.kind.name)),
      ("label", some (.str field.label)), ("placeholder", field.placeholder.map .str),
      ("options", field.options.map fun options => .arr (options.map FieldOption.toJson)),
      ("required", field.required.map .bool), ("media", field.media.map Media.toJson),
      ("conditionalLogic", field.logic.map Logic.toJson),
      ("enablePiping", field.enablePiping.map .bool),
      ("pipingKey", field.pipingKey.map .str)]
    field.extras

/-- The first obstacle to writing a field. -/
def obstacle (field : Field) (room : Nat) : Option Obstacle :=
  Obstacle.first?
    [field.options.bind (·.findSome? (·.obstacle room)), field.media.bind (·.obstacle room),
      field.logic.bind (·.obstacle room), field.extras.obstacle room]

instance : Writable Field := ⟨toJson, obstacle⟩

/-- A list of fields as JSON. -/
def listToJson (fields : List Field) : Json := .arr (fields.map toJson)

/-- Whether the field is a statement. -/
def isStatement (field : Field) : Bool := field.kind == .statement

/-- The name by which other texts show the answer: the piping key without the spacing around it
if that leaves something, else the identifier. -/
def pipingToken (field : Field) : Text :=
  match field.pipingKey.map (Text.trim CodePoint.isSpacing) with
  | some (c :: token) => c :: token
  | _ => field.id

/-- The last field of an identifier. -/
def last? (fields : List Field) (id : Text) : Option Field :=
  fields.reverse.find? fun field => field.id == id

end Field

end CardForm
