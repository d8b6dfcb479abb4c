import VideoExport.Settings.Basic
import VideoExport.Datum.Decode

/-!
# Settings in documents

Every field of settings may be left out and then has its default; fields that
nobody knows are skipped.

* `Settings.datum`, `Settings.ofDatum?`: settings in documents;
* `RateControl.datum`, `Resize.datum`, …: their parts.
-/

namespace VideoExport

namespace RateControl

/-- A rate control in documents: its mode and its value. -/
def datum (r : RateControl) : Datum :=
  let value := match r with
    | crf v | qp v => Datum.word8 v
    | bitrate kbps => Datum.word32 kbps
  .map [("mode", .str r.mode.name), ("value", value)]

/-- The rate control of a mode with a value. -/
def ofMode? : String → Taker RateControl
  | "crf", d => d.word8?.map crf
  | "bitrate", d => d.word32?.map bitrate
  | "qp", d => d.word8?.map qp
  | _, _ => none

/-- The rate control that a document describes. -/
def ofDatum? : Taker RateControl := Datum.tagged? "mode" "value" ofMode?

end RateControl

namespace Fit

/-- The name of a fit. -/
def name : Fit → String
  | stretch => "stretch"
  | contain => "contain"
  | cover => "cover"

/-- The fit of a name. -/
def named? : String → Option Fit
  | "stretch" => some stretch
  | "contain" => some contain
  | "cover" => some cover
  | _ => none

end Fit

namespace Resize

/-- A resize in documents. -/
def datum (r : Resize) : Datum :=
  .map [("width", .word32 r.width), ("height", .word32 r.height), ("fit", .str r.fit.name)]

/-- The resize that a document describes. -/
def ofDatum? : Taker Resize := fun d => do
  let fs ← d.fields? ["width", "height", "fit"]
  return {
    width := ← fs.required "width" Datum.word32?
    height := ← fs.required "height" Datum.word32?
    fit := ← fs.orElse "fit" (Datum.choice? Fit.named?) .stretch }

end Resize

namespace Color

/-- An adjustment of colours in documents. -/
def datum (c : Color) : Datum :=
  .map [("brightness", .float c.brightness), ("contrast", .float c.contrast),
    ("saturation", .float c.saturation), ("hue", .float c.hue)]

/-- The adjustment that a document describes. -/
def ofDatum? : Taker Color := fun d => do
  let fs ← d.fields? ["brightness", "contrast", "saturation", "hue"]
  return {
    brightness := ← fs.orElse "brightness" Datum.float? identity.brightness
    contrast := ← fs.orElse "contrast" Datum.float? identity.contrast
    saturation := ← fs.orElse "saturation" Datum.float? identity.saturation
    hue := ← fs.orElse "hue" Datum.float? identity.hue }

end Color

/-- The name of a mode. -/
def TrackMode.name : TrackMode → String
  | all => "all"
  | single => "single"

/-- The mode of a name. -/
def TrackMode.named? : String → Option TrackMode
  | "all" => some .all
  | "single" => some .single
  | _ => none

namespace Selection

/-- A selection in documents. -/
def datum (s : Selection) : Datum :=
  .map [("mode", .str s.mode.name), ("selected", .ofOption .word64 s.selected)]

/-- The selection that a document describes. -/
def ofDatum? : Taker Selection := fun d => do
  let fs ← d.fields? ["mode", "selected"]
  return {
    mode := ← fs.orElse "mode" (Datum.choice? TrackMode.named?) .all
    selected := ← fs.orElse "selected" (Datum.option? Datum.word64?) .none }

end Selection

namespace AnimationOptions

/-- The options of an animation in documents. -/
def datum (o : AnimationOptions) : Datum :=
  .map [("fps", .word32 o.fps), ("speed", .word32 o.speed)]

/-- The options that a document describes. -/
def ofDatum? : Taker AnimationOptions := fun d => do
  let fs ← d.fields? ["fps", "speed"]
  return {
    fps := ← fs.orElse "fps" Datum.word32? Settings.default.animation.fps
    speed := ← fs.orElse "speed" Datum.word32? Settings.default.animation.speed }

end AnimationOptions

namespace Settings

/-- The fields of settings, in their order. -/
def fieldNames : List String :=
  ["trim_start", "trim_end", "container", "video_codec", "rate_control", "speed", "preset",
    "resize", "color", "audio_codec", "audio_bitrate_kbps", "video_no_reencode",
    "audio_no_reencode", "audio_tracks", "subtitle_tracks", "gif"]

/-- Settings in documents. -/
def datum (s : Settings) : Datum :=
  .map [
    ("trim_start", .float s.trimStart),
    ("trim_end", .float s.trimEnd),
    ("container", .str s.container.extension),
    ("video_codec", .str s.videoCodec.name),
    ("rate_control", s.rateControl.datum),
    ("speed", .ofOption .str s.speed),
    ("preset", .ofOption .str s.preset),
    ("resize", .ofOption Resize.datum s.resize),
    ("color", s.color.datum),
    ("audio_codec", .str s.audioCodec.name),
    ("audio_bitrate_kbps", .word32 s.audioKbps),
    ("video_no_reencode", .bool s.keepVideo),
    ("audio_no_reencode", .bool s.keepAudio),
    ("audio_tracks", s.audioTracks.datum),
    ("subtitle_tracks", s.subtitleTracks.datum),
    ("gif", s.animation.datum)]

/-- The settings that a document describes. -/
def ofDatum? : Taker Settings := fun d => do
  let fs ← d.fields? fieldNames
  return {
    trimStart := ← fs.orElse "trim_start" Datum.float? default.trimStart
    trimEnd := ← fs.orElse "trim_end" Datum.float? default.trimEnd
    container := ← fs.orElse "container" (Datum.choice? Container.named?) default.container
    videoCodec := ← fs.orElse "video_codec" (Datum.choice? VideoCodec.named?) default.videoCodec
    rateControl := ← fs.orElse "rate_control" RateControl.ofDatum? default.rateControl
    speed := ← fs.orElse "speed" (Datum.option? Datum.str?) default.speed
    preset := ← fs.orElse "preset" (Datum.option? Datum.str?) default.preset
    resize := ← fs.orElse "resize" (Datum.option? Resize.ofDatum?) default.resize
    color := ← fs.orElse "color" Color.ofDatum? default.color
    audioCodec := ← fs.orElse "audio_codec" (Datum.choice? AudioCodec.named?) default.audioCodec
    audioKbps := ← fs.orElse "audio_bitrate_kbps" Datum.word32? default.audioKbps
    keepVideo := ← fs.orElse "video_no_reencode" Datum.bool? default.keepVideo
    keepAudio := ← fs.orElse "audio_no_reencode" Datum.bool? default.keepAudio
    audioTracks := ← fs.orElse "audio_tracks" Selection.ofDatum? default.audioTracks
    subtitleTracks :=
      ← fs.orElse "subtitle_tracks" Selection.ofDatum? default.subtitleTracks
    animation := ← fs.orElse "gif" AnimationOptions.ofDatum? default.animation }

end Settings

end VideoExport
