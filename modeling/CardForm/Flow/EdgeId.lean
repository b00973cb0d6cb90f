import CardForm.Text.Basic

/-!
# Identifiers of edges and nodes

The identifier of an edge is made of those of its two ends, and of a count where several edges
join the same ends. The identifier of a new node is made of a stem and eight hexadecimal digits.
-/
namespace CardForm

/-- The identifier of the edge between two nodes that `count` edges between them precede. -/
def edgeId (source target : Text) (count : Nat) : Text :=
  let base : Text := "e-" ++ source ++ "-" ++ target
  if count = 0 then base else base ++ "-" ++ Text.ofNat count

/-- Identifiers for edges between the given ends, after edges between `earlier` ones: each counts
the edges before it that join the same ends. -/
def edgeIdsAfter (earlier : List (Text × Text)) : List (Text × Text) → List Text
  | [] => []
  | ends :: rest =>
    edgeId ends.1 ends.2 (earlier.count ends) :: edgeIdsAfter (ends :: earlier) rest

/-- Identifiers for edges between the given ends, in order. -/
def edgeIds (ends : List (Text × Text)) : List Text := edgeIdsAfter [] ends

/-- Each pair of ends has an identifier. -/
@[simp] theorem length_edgeIdsAfter (earlier ends : List (Text × Text)) :
    (edgeIdsAfter earlier ends).length = ends.length := by
  induction ends generalizing earlier with
  | nil => rfl
  | cons e rest ih => simp [edgeIdsAfter, ih]

/-- The identifier of a new node: a stem and the first eight of some random hexadecimal digits. -/
def freshNodeId (stem randomDigits : Text) : Text :=
  stem ++ "-" ++ Text.toLower (randomDigits.take 8)

example : edgeIds [("a", "b"), ("b", "a"), ("a", "b")] =
    (["e-a-b", "e-b-a", "e-a-b-1"] : List Text) := by decide +kernel

end CardForm
