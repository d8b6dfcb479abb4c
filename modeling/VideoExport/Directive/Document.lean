import VideoExport.Directive.Basic
import VideoExport.Datum.Decode

/-!
# Directives in documents

A directive is written as its name beside its value. A codec is the word for
copying or a name, and a target of a map a word or an index.

* `Directive.datum`, `Directive.ofDatum?`: one directive;
* `Directive.listDatum`, `Directive.listOfDatum?`: a list of directives.
-/

namespace VideoExport

/-- The value that a word, alone or with a content, stands for. -/
def Datum.variant? {α : Type} (take : String → Option Datum → Option α) : Taker α
  | .str s | .plain s => take s none
  | .map [(s, d)] => take s (some d)
  | _ => none

/-- The value of a word that has no content. -/
def Datum.bare? {α : Type} (value : α) : Option Datum → Option α
  | none => some value
  | some d => if d.isNull then some value else none

namespace CodecValue

/-- A codec in documents. -/
def datum : CodecValue → Datum
  | copy => .str "copy"
  | named name => .map [("named", .str name)]

/-- The codec that a document describes. -/
def ofDatum? : Taker CodecValue := Datum.variant? fun word content =>
  match word, content with
  | "copy", content => Datum.bare? copy content
  | "named", some d => d.str?.map named
  | _, _ => none

end CodecValue

namespace Kbps

/-- A rate in documents. -/
def datum (r : Kbps) : Datum := .map [("kbps", .word32 r.kbps)]

/-- The rate that a document describes. -/
def ofDatum? : Taker Kbps := fun d => do
  let fs ← d.fields? ["kbps"]
  return ⟨← fs.required "kbps" Datum.word32?⟩

end Kbps

namespace MapTarget

/-- A target in documents. -/
def datum : MapTarget → Datum
  | primaryVideo => .str "primary_video"
  | allAudio => .str "all_audio"
  | allSubtitles => .str "all_subtitles"
  | track index => .map [("track", .word64 index)]

/-- The target that a document describes. -/
def ofDatum? : Taker MapTarget := Datum.variant? fun word content =>
  match word, content with
  | "primary_video", content => Datum.bare? primaryVideo content
  | "all_audio", content => Datum.bare? allAudio content
  | "all_subtitles", content => Datum.bare? allSubtitles content
  | "track", some d => d.word64?.map track
  | _, _ => none

end MapTarget

namespace Directive

/-- The name of a directive in documents, and its value. -/
def entry : Directive → String × Datum
  | trimStart s => ("trim_start", .float s)
  | trimDuration s => ("trim_duration", .float s)
  | videoCodec c => ("video_codec", c.datum)
  | audioCodec c => ("audio_codec", c.datum)
  | subtitleCodec c => ("subtitle_codec", .str c)
  | videoRate r => ("video_bitrate", r.datum)
  | audioRate r => ("audio_bitrate", r.datum)
  | maxRate r => ("max_rate", r.datum)
  | bufferSize r => ("buf_size", r.datum)
  | qp n => ("qp", .word32 n)
  | crf n => ("crf", .word32 n)
  | speed name => ("preset", .str name)
  | videoFilter chain => ("video_filter", .str chain)
  | map target => ("map", target.datum)
  | threads n => ("threads", .word32 n)
  | quality n => ("quality", .word32 n)
  | unknown tokens => ("unknown", .ofList .str tokens)

/-- A directive in documents. -/
def datum (d : Directive) : Datum := .map [("flag", .str d.entry.1), ("value", d.entry.2)]

/-- The directive of a name with its value. -/
def ofEntry? (name : String) (d : Datum) : Option Directive :=
  match name with
  | "trim_start" => d.float?.map trimStart
  | "trim_duration" => d.float?.map trimDuration
  | "video_codec" => (CodecValue.ofDatum? d).map videoCodec
  | "audio_codec" => (CodecValue.ofDatum? d).map audioCodec
  | "subtitle_codec" => d.str?.map subtitleCodec
  | "video_bitrate" => (Kbps.ofDatum? d).map videoRate
  | "audio_bitrate" => (Kbps.ofDatum? d).map audioRate
  | "max_rate" => (Kbps.ofDatum? d).map maxRate
  | "buf_size" => (Kbps.ofDatum? d).map bufferSize
  | "qp" => d.word32?.map qp
  | "crf" => d.word32?.map crf
  | "preset" => d.str?.map speed
  | "video_filter" => d.str?.map videoFilter
  | "map" => (MapTarget.ofDatum? d).map map
  | "threads" => d.word32?.map threads
  | "quality" => d.word32?.map quality
  | "unknown" => (d.list? Datum.str?).map unknown
  | _ => none

/-- The directive that a document describes. -/
def ofDatum? : Taker Directive := Datum.tagged? "flag" "value" ofEntry?

/-- A list of directives in documents. -/
def listDatum (ds : List Directive) : Datum := .map [("directives", .ofList datum ds)]

/-- The list of directives that a document describes. -/
def listOfDatum? : Taker (List Directive) := fun d => do
  let fs ← d.fields? ["directives"]
  fs.required "directives" (Datum.list? ofDatum?)

end Directive

end VideoExport
