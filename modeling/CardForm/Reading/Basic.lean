import CardForm.Reading.Fault

/-!
# Readings

A reading is a value or the list of the faults that stood in its way. Readings are combined side
by side (`<*>`): a combination of several has the faults of all of them, in order, and succeeds
where each of them does.
-/
namespace CardForm

/-- A value, or why there is none. -/
inductive Reading (α : Type) where
  /-- The value was read. -/
  | ok (value : α)
  /-- The value was not read for these faults. -/
  | faulty (faults : List Fault)

namespace Reading

variable {α β : Type}

/-- The reading with a function applied to its value. -/
def map (f : α → β) : Reading α → Reading β
  | ok value => ok (f value)
  | faulty faults => faulty faults

/-- Two readings side by side. -/
def seq : Reading (α → β) → Reading α → Reading β
  | ok f, ok value => ok (f value)
  | ok _, faulty faults => faulty faults
  | faulty faults, ok _ => faulty faults
  | faulty first, faulty second => faulty (first ++ second)

instance : Applicative Reading where
  map := map
  pure := ok
  seq f x := f.seq (x ())

/-- A reading that fails for one cause, at the value itself. -/
def fault (cause : Cause) (found : Json) : Reading α := faulty [⟨[], cause, found⟩]

/-- The reading seen from one step further out. -/
def under (step : Step) : Reading α → Reading α
  | ok value => ok value
  | faulty faults => faulty (faults.map (Fault.under step))

/-- Go on with the value where there is one. -/
def andThen (reading : Reading α) (next : α → Reading β) : Reading β :=
  match reading with
  | ok value => next value
  | faulty faults => faulty faults

/-- A function is applied to the value that was read. -/
@[simp] theorem map_ok (f : α → β) (value : α) : f <$> ok value = ok (f value) := rfl

/-- A value by itself is read. -/
@[simp] theorem pure_eq (value : α) : (pure value : Reading α) = ok value := rfl

/-- A function that was read is applied to the value that was read. -/
@[simp] theorem seq_ok_ok (f : α → β) (value : α) : ok f <*> ok value = ok (f value) := rfl

/-- A step further out changes nothing for a value that was read. -/
@[simp] theorem under_ok (step : Step) (value : α) : (ok value).under step = ok value := rfl

/-- A combination succeeds exactly where both sides do. -/
theorem seq_eq_ok_iff {f : Reading (α → β)} {x : Reading α} {y : β} :
    f <*> x = ok y ↔ ∃ g a, f = ok g ∧ x = ok a ∧ g a = y := by
  constructor
  · intro h
    cases f with
    | ok g =>
      cases x with
      | ok a => exact ⟨g, a, rfl, rfl, by simpa using h⟩
      | faulty fs => cases h
    | faulty fs => cases x <;> cases h
  · rintro ⟨g, a, rfl, rfl, rfl⟩
    rfl

end Reading

end CardForm
