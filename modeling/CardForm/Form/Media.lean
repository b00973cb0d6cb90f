import CardForm.Json.Writable
import CardForm.Reading.Object

/-!
# Media

An image, video, animation or icon that is shown with a card, and where it stands.
-/
namespace CardForm

/-- What is shown. -/
inductive MediaKind where
  /-- A still image. -/
  | image
  /-- A video. -/
  | video
  /-- An animated image. -/
  | gif
  /-- A named icon. -/
  | icon
deriving DecidableEq

/-- The word of a kind of media. -/
def MediaKind.word : MediaKind → Text
  | image => "image"
  | video => "video"
  | gif => "gif"
  | icon => "icon"

/-- The kinds of media by their words. -/
def MediaKind.words : List (Text × MediaKind) :=
  [image, video, gif, icon].map fun kind => (kind.word, kind)

/-- Where media stand in relation to the content of a card. -/
inductive Placement where
  /-- Over the content. -/
  | above
  /-- Under the content. -/
  | below
  /-- Behind the content. -/
  | background
  /-- On the left. -/
  | left
  /-- On the right. -/
  | right
deriving DecidableEq

/-- The word of a placement. -/
def Placement.word : Placement → Text
  | above => "above"
  | below => "below"
  | background => "background"
  | left => "left"
  | right => "right"

/-- The placements by their words. -/
def Placement.words : List (Text × Placement) :=
  [above, below, background, left, right].map fun place => (place.word, place)

/-- Who plays a video. -/
inductive VideoHost where
  /-- YouTube. -/
  | youtube
  /-- Vimeo. -/
  | vimeo
  /-- The form itself, from an uploaded file. -/
  | upload
deriving DecidableEq

/-- The word of a video host. -/
def VideoHost.word : VideoHost → Text
  | youtube => "youtube"
  | vimeo => "vimeo"
  | upload => "upload"

/-- The video hosts by their words. -/
def VideoHost.words : List (Text × VideoHost) :=
  [youtube, vimeo, upload].map fun host => (host.word, host)

/-- Something shown with a card. -/
structure Media where
  /-- What is shown. -/
  kind : MediaKind
  /-- Where it is fetched from. -/
  url : Option Text := none
  /-- What it is described as. -/
  altText : Option Text := none
  /-- Where it stands. -/
  placement : Placement
  /-- Who plays it, if it is a video. -/
  videoHost : Option VideoHost := none
  /-- What the host calls it. -/
  videoId : Option Text := none
  /-- Unknown members. -/
  extras : Members := []

namespace Media

/-- The declared keys. -/
def keys : List Key :=
  [.same "type", .same "url", ⟨"altText", "alt_text"⟩, .same "position",
    ⟨"videoType", "video_type"⟩, ⟨"videoId", "video_id"⟩]

/-- Read media from the members of an object. -/
def ofMembers (members : Members) : Reading Media :=
  Media.mk <$> members.required (.same "type") (.oneOf MediaKind.words)
    <*> members.optional (.same "url") .text
    <*> members.optional ⟨"altText", "alt_text"⟩ .text
    <*> members.required (.same "position") (.oneOf Placement.words)
    <*> members.optional ⟨"videoType", "video_type"⟩ (.oneOf VideoHost.words)
    <*> members.optional ⟨"videoId", "video_id"⟩ .text
    <*> .ok (members.extras keys)

/-- Read media. -/
def read : Json → Reading Media := .record "CardMedia" ofMembers

/-- Media as JSON. -/
def toJson (media : Media) : Json :=
  Members.written
    [("type", some (.str media.kind.word)), ("url", media.url.map .str),
      ("altText", media.altText.map .str), ("position", some (.str media.placement.word)),
      ("videoType", media.videoHost.map fun host => .str host.word),
      ("videoId", media.videoId.map .str)]
    media.extras

/-- The first obstacle to writing media. -/
def obstacle (media : Media) (room : Nat) : Option Obstacle := media.extras.obstacle room

instance : Writable Media := ⟨toJson, obstacle⟩

/-- Equality of media: their declared parts are equal and their extras are alike. -/
def alike (a b : Media) : Bool :=
  a.kind == b.kind && a.url == b.url && a.altText == b.altText && a.placement == b.placement &&
    a.videoHost == b.videoHost && a.videoId == b.videoId && a.extras.alike b.extras

/-- Media are equal to themselves. -/
@[simp] theorem alike_self (media : Media) : media.alike media = true := by
  simp [alike, Members.alike]

end Media

end CardForm
