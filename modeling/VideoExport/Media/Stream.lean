import VideoExport.Media.Compatibility
import VideoExport.Datum.Decode

/-!
# Sources

A source is a clip as probing reports it: a name, a duration and a list of
streams. Streams are named by their index, which need not be their place in
the list.

* `Source.ofKind`, `Source.primary?`, `Source.stream?`: streams of a source;
* `Source.stem`: what the names of its exports are made of;
* `Source.datum`, `Source.ofDatum?`: a source in documents.
-/

namespace VideoExport

/-- The kind of a stream. -/
inductive MediaKind
  | video
  | audio
  | subtitle
  | other
  deriving DecidableEq, Repr, Inhabited

namespace MediaKind

/-- The name of a kind. -/
def name : MediaKind → String
  | video => "video"
  | audio => "audio"
  | subtitle => "subtitle"
  | other => "other"

/-- The kind of a name. -/
def named? : String → Option MediaKind
  | "video" => some video
  | "audio" => some audio
  | "subtitle" => some subtitle
  | "other" => some other
  | _ => none

end MediaKind

/-- A stream of a source. -/
structure Stream where
  index : UInt64
  kind : MediaKind
  codec : String
  width : Option UInt32
  height : Option UInt32
  frameRate : Option Float
  sampleRate : Option UInt32
  channels : Option UInt32
  language : Option String
  title : Option String
  isDefault : Bool
  isForced : Bool
  bitRate : Option UInt64
  deriving Inhabited

/-- A source: its name, its duration in seconds, and its streams. -/
structure Source where
  name : String
  duration : Float
  streams : List Stream
  deriving Inhabited

/-- A subtitle: its text and the seconds from which and up to which it is
    shown. -/
structure Cue (α : Type) where
  start : α
  stop : α
  text : String
  deriving DecidableEq, Repr

namespace Source

/-- The streams of a kind. -/
def ofKind (s : Source) (kind : MediaKind) : List Stream := s.streams.filter (·.kind == kind)

/-- The stream of video that every export takes: the first one. -/
def primary? (s : Source) : Option Stream := (s.ofKind .video).head?

/-- The stream of an index. -/
def stream? (s : Source) (index : UInt64) : Option Stream := s.streams.find? (·.index == index)

/-- The frame rate of the primary stream, if it is known and makes sense. -/
def frameRate (s : Source) : Option Float :=
  (s.primary?.bind (·.frameRate)).filter fun fps => fps.isFinite && 0.0 < fps

/-- What the names of exports are made of: the name of the source without its
    extension. -/
def stem (s : Source) : String := ((Text.stem? s.name).filter (!·.isEmpty)).getD "export"

end Source

/-! ## In documents -/

namespace Stream

/-- The fields of a stream, in their order. -/
def fieldNames : List String :=
  ["index", "kind", "codec", "width", "height", "frame_rate", "sample_rate", "channels",
    "language", "title", "is_default", "is_forced", "bit_rate"]

/-- A stream as a document has it; what is not known is left out. -/
def datum (s : Stream) : Datum :=
  let known {α : Type} (name : String) (f : α → Datum) (x : Option α) : List (String × Datum) :=
    (x.map fun a => (name, f a)).toList
  .map <|
    [("index", .word64 s.index), ("kind", .str s.kind.name), ("codec", .str s.codec)] ++
    known "width" .word32 s.width ++
    known "height" .word32 s.height ++
    known "frame_rate" .float s.frameRate ++
    known "sample_rate" .word32 s.sampleRate ++
    known "channels" .word32 s.channels ++
    known "language" .str s.language ++
    known "title" .str s.title ++
    [("is_default", .bool s.isDefault), ("is_forced", .bool s.isForced)] ++
    known "bit_rate" .word64 s.bitRate

/-- The stream that a document describes. -/
def ofDatum? : Taker Stream := fun d => do
  let fs ← d.fields? fieldNames
  return {
    index := ← fs.required "index" Datum.word64?
    kind := ← fs.required "kind" (Datum.choice? MediaKind.named?)
    codec := ← fs.required "codec" Datum.str?
    width := ← fs.orElse "width" (Datum.option? Datum.word32?) none
    height := ← fs.orElse "height" (Datum.option? Datum.word32?) none
    frameRate := ← fs.orElse "frame_rate" (Datum.option? Datum.float?) none
    sampleRate := ← fs.orElse "sample_rate" (Datum.option? Datum.word32?) none
    channels := ← fs.orElse "channels" (Datum.option? Datum.word32?) none
    language := ← fs.orElse "language" (Datum.option? Datum.str?) none
    title := ← fs.orElse "title" (Datum.option? Datum.str?) none
    isDefault := ← fs.orElse "is_default" Datum.bool? false
    isForced := ← fs.orElse "is_forced" Datum.bool? false
    bitRate := ← fs.orElse "bit_rate" (Datum.option? Datum.word64?) none }

end Stream

namespace Source

/-- A source as a document has it. -/
def datum (s : Source) : Datum :=
  .map [("name", .str s.name), ("duration", .float s.duration),
    ("streams", .ofList Stream.datum s.streams)]

/-- The source that a document describes. -/
def ofDatum? : Taker Source := fun d => do
  let fs ← d.fields? ["name", "duration", "streams"]
  return {
    name := ← fs.required "name" Datum.str?
    duration := ← fs.required "duration" Datum.float?
    streams := ← fs.required "streams" (Datum.list? Stream.ofDatum?) }

end Source

/-- A subtitle as a document has it. -/
def Cue.datum (c : Cue Float) : Datum :=
  .map [("start", .float c.start), ("end", .float c.stop), ("text", .str c.text)]

/-- The subtitle that a document describes. -/
def Cue.ofDatum? : Taker (Cue Float) := fun d => do
  let fs ← d.fields? ["start", "end", "text"]
  return {
    start := ← fs.required "start" Datum.float?
    stop := ← fs.required "end" Datum.float?
    text := ← fs.required "text" Datum.str? }

end VideoExport
