import CardForm.Json.Reader
import CardForm.Template.Fence
import CardForm.Template.Import
import CardForm.Text.Blank

/-!
# Envelopes in free text

A free text, such as the reply of a chat partner, may hold an envelope. The bodies of its fenced
blocks are tried first, then the JSON objects that begin at its braces, where the text has a key of
an envelope at all. The first one that can be imported is taken. A candidate that is no JSON, no
envelope or an envelope with an invalid flow is passed over; any other failure ends the search.
-/
namespace CardForm.Envelope

/-- The bodies of the fenced blocks of a text, without the blanks around them, that are not
empty. -/
def fencedTexts (text : Text) : List Text :=
  ((Fence.bodies text).map (Text.trim CodePoint.isSpacing)).filter fun body => !body.isEmpty

/-- The ends of a text that begin with an opening brace. -/
def bracedTexts : Text → List Text
  | [] => []
  | c :: rest => if c = '\x7b' then (c :: rest) :: bracedTexts rest else bracedTexts rest

/-- Whether a word occurs in a text. -/
def occurs (word : Text) : Text → Bool
  | [] => word.isEmpty
  | c :: rest => word.isPrefixOf (c :: rest) || occurs word rest

/-- The keys of which one must occur in quotes before a text is searched for objects. -/
def markers : List Text := ["\"flowchartGraph\"", "\"schema\""]

/-- Whether a text has a key of an envelope. -/
def hasMarker (text : Text) : Bool := markers.any fun marker => occurs marker text

/-- The envelope that a candidate is, if it is one that can be imported. -/
def ofCandidate (candidate : Except Json.Refusal Json) : Except Failure (Option Envelope) :=
  match candidate with
  | .error (.tooManyDigits count) => .error (.tooManyDigits count)
  | .error _ => .ok none
  | .ok value =>
    match load value with
    | .ok envelope => .ok (some envelope)
    | .error .notEnvelope => .ok none
    | .error (.invalidFlow _) => .ok none
    | .error failure => .error failure

/-- The first envelope among the candidates that some texts hold. -/
def firstAmong (candidate : Text → Except Json.Refusal Json) :
    List Text → Except Failure (Option Envelope)
  | [] => .ok none
  | text :: rest =>
    match ofCandidate (candidate text) with
    | .ok none => firstAmong candidate rest
    | found => found

/-- The value that begins a text. -/
def frontValue (text : Text) : Except Json.Refusal Json :=
  (Json.readFront text).map Prod.fst

/-- The envelope in a text whose keys need not be looked for. -/
def searched (text : Text) : Except Failure (Option Envelope) :=
  firstAmong frontValue (bracedTexts text)

/-- The first envelope in a text. -/
def extract? (text : Text) : Except Failure (Option Envelope) :=
  match firstAmong Json.read (fencedTexts text) with
  | .ok none => if hasMarker text then searched text else .ok none
  | found => found

end CardForm.Envelope
