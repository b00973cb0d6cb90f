import CardForm.Flow.Layout
import CardForm.Flow.Linear
import CardForm.Flow.Merge

/-!
# Edits of a flow

What an editor does to a flow: add a card behind the last one, delete a card, put the cards into
another order. Each edit also brings the copies in all questions up to date.
-/
namespace CardForm

/-- A card that an editor can add. -/
inductive NewCard where
  /-- A question with a piping key. -/
  | question
  /-- A statement. -/
  | statement
  /-- A question without a piping key. -/
  | unkeyed
deriving DecidableEq

/-- The card that a word names: a question without a piping key for an unknown word. -/
def NewCard.ofWord (word : Text) : NewCard :=
  if word = "question" then question else if word = "statement" then statement else unkeyed

namespace Flow

/-! ## Piping keys -/

/-- The piping keys that a new question can have, by number. -/
def pipingKeyAt (place : Nat) : Text :=
  if place = 0 then "question" else "question_" ++ Text.ofNat place

/-- The first piping key that is not among the used ones. One of the first keys, one more than
there are used ones, is free. -/
def freePipingKey (used : List Text) : Text :=
  (((List.range (used.length + 1)).map pipingKeyAt).find? fun key => !used.contains key).getD
    (pipingKeyAt 0)

/-- The piping key for a new question of a flow. -/
def newPipingKey (flow : Flow) : Except Failure Text :=
  flow.linear.map fun fields => freePipingKey (fields.map Field.pipingToken)

/-! ## Adding -/

/-- The text of a new statement. -/
def newStatementText : Text := "New statement"

/-- The payload of a new statement. -/
def newStatement (id : Text) : StatementData where
  fieldId := id
  label := newStatementText
  text := newStatementText

/-- The field of a new question. -/
def newField (id : Text) (pipingKey : Option Text) : Field where
  id := id
  kind := .radio
  label := "New question"
  options := some [.plain "Option 1", .plain "Option 2"]
  required := some false
  pipingKey := pipingKey

/-- The options of a new question are plain ones. -/
theorem exists_plain_of_mem_newField {id : Text} {pipingKey : Option Text} {options : List FieldOption}
    {option : FieldOption} (isOptions : options ∈ (newField id pipingKey).options) (mem : option ∈ options) :
    ∃ label, option = .plain label := by
  cases isOptions
  obtain rfl | rfl : option = .plain "Option 1" ∨ option = .plain "Option 2" := by simpa using mem
  · exact ⟨_, rfl⟩
  · exact ⟨_, rfl⟩

/-- A new question at a height. -/
def newQuestion (id : Text) (pipingKey : Option Text) (y : Number) : Node :=
  .question ⟨id, inColumn y, questionData (newField id pipingKey) none, []⟩

/-- The identifier of a new card, which has to be one that a field can bear. -/
def cardId (id : Text) : Except Failure Text :=
  ((Reading.nonEmptyText (.str id)).under (.key "id")).orUnfit

/-- A new card of a flow at a height. -/
def newNode (flow : Flow) (card : NewCard) (id : Text) (y : Number) : Except Failure Node :=
  match card with
  | .statement => (cardId id).map fun id => .statement ⟨id, inColumn y, newStatement id, []⟩
  | .unkeyed => (cardId id).map fun id => newQuestion id none y
  | .question => do
    let key ← flow.newPipingKey
    let id ← cardId id
    return newQuestion id (some key) y

/-- The nodes of a flow, up to date, with the start and the end where they are missing. -/
def nodesWithMarkers (flow : Flow) : List Node :=
  flow.nodes.map Node.normalized ++ (if flow.has startId then [] else [startNode]) ++
    if flow.has endId then [] else [endNode (.int ((flow.nodes.length + 1) * 100))]

/-- The edge from a new node to the end, which replaces one that entered the end before and keeps
its payload. -/
def exitEdge (before : Option Edge) (id : Text) : Edge :=
  match before with
  | some edge => { edge with id := edgeId id endId 0, source := id }
  | none => ⟨edgeId id endId 0, id, endId, none, []⟩

/-- The edges of a flow when a node is put between a source and the end. -/
def edgesThrough (edges : List Edge) (source id : Text) : List Edge :=
  edges.filter (fun edge => edge.target != endId) ++
    [⟨edgeId source id 0, source, id, none, []⟩,
      exitEdge (edges.find? fun edge => edge.target == endId) id]

/-- The flow with a new card of an identifier behind its last one. The edges into the end give way
to one from the new card. -/
def addWithId (flow : Flow) (card : NewCard) (id : Text) : Except Failure Flow :=
  if flow.has id then .error (.idInUse id)
  else
    let last := flow.content.getLast?
    let y := (last.map fun node => node.position.y.plus stepY).getD (.int firstY)
    let source := (last.map Node.id).getD startId
    (flow.newNode card id y).map fun node =>
      { flow with
        nodes := flow.nodesWithMarkers ++ [node]
        edges := edgesThrough flow.edges source id }

/-- The identifier for a new node: the wanted one, or a fresh one if that is empty. -/
def newId (wanted randomDigits : Text) : Text :=
  if wanted.isEmpty then freshNodeId "node" randomDigits else wanted

/-- The flow with a new card behind its last one, of the wanted identifier or a fresh one. -/
def add (flow : Flow) (card : NewCard) (wanted randomDigits : Text) : Except Failure Flow :=
  flow.addWithId card (newId wanted randomDigits)

/-! ## Deleting and reordering -/

/-- The flow without a card and the edges at it; the start and the end stay. -/
def delete (flow : Flow) (id : Text) : Flow :=
  if id = startId ∨ id = endId then flow
  else
    { flow with
      nodes := (flow.nodes.filter fun node => node.id != id).map Node.normalized
      edges := flow.edges.filter fun edge => edge.source != id && edge.target != id }

/-- The flow with a chain through its nodes of some identifiers as its edges. -/
def reorder (flow : Flow) (ids : List Text) : Flow :=
  { flow with
    nodes := flow.nodes.map Node.normalized
    edges := Edge.ofSpecs (chainSpecs (ids.filter flow.has)) }

end Flow

end CardForm
