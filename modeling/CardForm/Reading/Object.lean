import CardForm.Reading.Scalar

/-!
# Reading and writing objects

An object has declared keys and unknown ones. A declared key has two spellings: in camel case and
with low lines. The camel-case spelling is taken where it occurs, the other one only in its
absence. Whatever members are left over are the object's *extras*; they are kept with it, and so no
key may be ill-formed. Writing an object gives the declared keys in camel case, leaves out what is
absent or null, and adds the extras that are not null, in the form that standard JSON can carry.
-/
namespace CardForm

/-- A declared key in its two spellings. -/
structure Key where
  /-- The spelling in camel case, which is the one written. -/
  camel : Text
  /-- The spelling with low lines. -/
  plain : Text
deriving DecidableEq

/-- A declared key with a single spelling. -/
def Key.same (name : Text) : Key := ⟨name, name⟩

/-- The spelling and the value of a declared key. -/
def Key.find? (key : Key) (members : Members) : Option (Text × Json) :=
  match members.get? key.camel with
  | some value => some (key.camel, value)
  | none => (members.get? key.plain).map fun value => (key.plain, value)

/-- Whether a spelling is the one by which a declared key was found. -/
def Key.claims (key : Key) (members : Members) (spelling : Text) : Bool :=
  (key.find? members).any fun found => found.1 == spelling

namespace Members

variable {α : Type}

/-- Read a declared key that must be there. -/
def required (members : Members) (key : Key) (read : Json → Reading α) : Reading α :=
  match key.find? members with
  | some (spelling, value) => (read value).under (.key spelling)
  | none => (Reading.fault .missing (.obj members)).under (.key key.camel)

/-- Read a declared key that has a value of its own when it is not there. -/
def defaulted (members : Members) (key : Key) (value : α) (read : Json → Reading α) :
    Reading α :=
  match key.find? members with
  | some (spelling, value) => (read value).under (.key spelling)
  | none => .ok value

/-- Read a declared key that may be absent or null. -/
def optional (members : Members) (key : Key) (read : Json → Reading α) : Reading (Option α) :=
  members.defaulted key none (Reading.orNull read)

/-- The members that none of the declared keys takes. -/
def extras (members : Members) (keys : List Key) : Members :=
  members.filter fun m => !keys.any fun key => key.claims members m.1

/-- Read the members of an object whose unknown keys are kept. None of its keys may be ill-formed,
and where one is, nothing else is told. -/
def wellKeyed (members : Members) (reading : Reading α) : Reading α :=
  match members.find? fun m => !m.1.isWellFormed with
  | some m => .fault .illFormedText (.str m.1)
  | none => reading

/-- The declared keys that have a value. -/
def present (declared : List (Text × Option Json)) : Members :=
  declared.filterMap fun (key, value) => value.map fun v => (key, v)

/-- The extras that are written. -/
def shown (extras : Members) : Members :=
  (extras.filter fun m => !m.2.isNull).map fun m => (m.1, m.2.portable)

/-- An object of declared keys and extras. -/
def written (declared : List (Text × Option Json)) (extras : Members) : Json :=
  .obj (present declared ++ shown extras)

end Members

/-- Read one of the records of this library by its members. -/
def Reading.record {α : Type} (name : Text) (read : Members → Reading α) : Json → Reading α :=
  object (.record name) fun members => members.wellKeyed (read members)

end CardForm
