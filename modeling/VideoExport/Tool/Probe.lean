import VideoExport.Datum.Json
import VideoExport.Media.Stream
import VideoExport.Text.Utf8

/-!
# Probe reports

What a source holds is found out by a program that writes a report in JSON. Its
numbers are often texts, and much of it may be missing.

* `ProbeReport.ofBytes?`: a report;
* `ProbeReport.duration`: the duration, as far as it can be told;
* `ProbeReport.source`: the source that a report describes.
-/

namespace VideoExport

/-- What a report says about a stream. -/
structure ProbeStream where
  index : UInt64
  codecType : Option String
  codecName : Option String
  width : Option UInt32
  height : Option UInt32
  averageRate : Option String
  baseRate : Option String
  sampleRate : Option String
  channels : Option UInt32
  bitRate : Option String
  duration : Option String
  tags : List (String × String)
  disposition : List (String × Int)
  deriving DecidableEq

/-- A report: its streams, and the duration of the whole. -/
structure ProbeReport where
  streams : List ProbeStream
  duration : Option String
  deriving DecidableEq

/-- The entries of a map, the last ones first. -/
def Datum.entries? {α : Type} (take : Taker α) : Taker (List (String × α))
  | .map fields => (fields.reverse.mapM fun (name, d) => (take d).map (name, ·))
  | _ => none

namespace ProbeStream

/-- The fields of a stream, in their order. -/
def fieldNames : List String :=
  ["index", "codec_type", "codec_name", "width", "height", "avg_frame_rate", "r_frame_rate",
    "sample_rate", "channels", "bit_rate", "duration", "tags", "disposition"]

/-- The stream that a document describes. -/
def ofDatum? : Taker ProbeStream := fun d => do
  let fs ← d.fields? fieldNames
  return {
    index := ← fs.required "index" Datum.word64?
    codecType := ← fs.maybe "codec_type" Datum.str?
    codecName := ← fs.maybe "codec_name" Datum.str?
    width := ← fs.maybe "width" Datum.word32?
    height := ← fs.maybe "height" Datum.word32?
    averageRate := ← fs.maybe "avg_frame_rate" Datum.str?
    baseRate := ← fs.maybe "r_frame_rate" Datum.str?
    sampleRate := ← fs.maybe "sample_rate" Datum.str?
    channels := ← fs.maybe "channels" Datum.word32?
    bitRate := ← fs.maybe "bit_rate" Datum.str?
    duration := ← fs.maybe "duration" Datum.str?
    tags := ← fs.orElse "tags" (Datum.entries? Datum.str?) []
    disposition := ← fs.orElse "disposition" (Datum.entries? Datum.int64?) [] }

/-- A tag of a stream. -/
def tag? (s : ProbeStream) (name : String) : Option String :=
  (s.tags.find? (·.1 == name)).map (·.2)

/-- Whether a stream is marked. -/
def isMarked (s : ProbeStream) (name : String) : Bool :=
  ((s.disposition.find? (·.1 == name)).map (·.2)).getD 0 != 0

/-- A frame rate, written as a fraction or a number: finite and positive. -/
def rate? (text : String) : Option Float :=
  let rate := match Text.cut? '/' text with
    | some (num, den) => do
      let d ← Number.float? (Text.trim den)
      if d == 0.0 then none
      else
        let n ← Number.float? (Text.trim num)
        pure (n / d)
    | none => Number.float? (Text.trim text)
  rate.filter fun r => r.isFinite && 0.0 < r

/-- The frame rate of a stream: the mean one, else the base one, else the one
    that is assumed. -/
def frameRate (s : ProbeStream) : Float :=
  (s.averageRate.bind rate? <|> s.baseRate.bind rate?).getD (Float.ofNat fallbackFrameRate)

/-- The kind of a stream. -/
def kind (s : ProbeStream) : MediaKind :=
  match s.codecType with
  | some "video" => .video
  | some "audio" => .audio
  | some "subtitle" => .subtitle
  | _ => .other

/-- The stream as it is known from then on. -/
def stream (s : ProbeStream) : Stream :=
  let video := s.kind == .video
  let audio := s.kind == .audio
  { index := s.index
    kind := s.kind
    codec := Text.lower (s.codecName.getD "unknown")
    width := if video then some (s.width.getD 0) else none
    height := if video then some (s.height.getD 0) else none
    frameRate := if video then some s.frameRate else none
    sampleRate := if audio then some ((s.sampleRate.bind Number.word32?).getD 0) else none
    channels := if audio then some (s.channels.getD 0) else none
    language := s.tag? "language"
    title := s.tag? "title"
    isDefault := s.isMarked "default"
    isForced := s.isMarked "forced"
    bitRate := s.bitRate.bind Number.word64? }

end ProbeStream

namespace ProbeReport

/-- The report that a document describes. -/
def ofDatum? : Taker ProbeReport := fun d => do
  let fs ← d.fields? ["streams", "format"]
  let format : Taker (Option String) := fun d => do
    let fs ← d.fields? ["duration"]
    fs.maybe "duration" Datum.str?
  return {
    streams := ← fs.orElse "streams" (Datum.list? ProbeStream.ofDatum?) []
    duration := (← fs.maybe "format" format).join }

/-- What stands for a gap in the bytes of a report: half of a surrogate pair,
    which a string may hold only where nobody reads it. -/
def gapMark : List Char := "\\ud800".toList

/-- The report of bytes. -/
def ofBytes? (bytes : Bytes) : Option ProbeReport :=
  let chars := (Text.Utf8.read bytes).flatMap fun
    | some c => [c]
    | none => gapMark
  (Json.read? (String.ofList chars)).bind ofDatum?

/-- The duration of the source: that of the whole if it is finite and positive,
    else the first one that a stream has, whatever it is, else zero. -/
def sourceDuration (r : ProbeReport) : Float :=
  let whole := (r.duration.bind Number.float?).filter fun d => d.isFinite && 0.0 < d
  let ofStreams := r.streams.findSome? fun s => s.duration.bind Number.float?
  (whole <|> ofStreams).getD 0.0

/-- The source that a report describes. -/
def source (r : ProbeReport) (input : String) : Source :=
  ⟨input, r.sourceDuration, r.streams.map ProbeStream.stream⟩

end ProbeReport

end VideoExport
