import VideoExport.Media.Compatibility
import VideoExport.Media.Stream

/-!
# Warnings

Where a request cannot be met to the letter, the plan that comes closest is
made, and a warning says what was changed.

* `PlanWarning`: the changes;
* `PlanWarning.text`: a change in words.
-/

namespace VideoExport

/-- A change that a plan makes to what was requested. -/
inductive PlanWarning
  /-- Filters are active, so that video cannot be copied. -/
  | copyOverriddenByFilters
  /-- The container cannot hold a copy of the source's video. -/
  | videoCopyIncompatible (codec : String) (container : Container)
  /-- The container cannot hold video of the requested codec. -/
  | videoCodecIncompatible (requested : VideoCodec) (container : Container) (fallback : VideoCodec)
  /-- The encoder has no constant quantizer. -/
  | qpUnsupported (codec : VideoCodec) (crf : UInt8)
  /-- The container cannot hold sound of the requested codec. -/
  | audioCodecIncompatible (requested : AudioCodec) (container : Container) (fallback : AudioCodec)
  /-- A track of sound is of another codec or not for the container. -/
  | audioReencodeForced (codecs : List String) (container : Container) (target : AudioCodec)
  /-- The container cannot hold subtitles that are pictures. -/
  | bitmapSubtitleSkipped (index : UInt64) (codec : String) (container : Container)
  /-- The selected track is not there. -/
  | selectedTrackMissing (kind : MediaKind) (index : UInt64)
  /-- The container has no place for tracks of this kind. -/
  | tracksDropped (kind : MediaKind) (count : Nat) (container : Container)
  deriving DecidableEq, Repr

/-- The name of a kind in a message. -/
def MediaKind.title : MediaKind → String
  | video => "Video"
  | audio => "Audio"
  | subtitle => "Subtitle"
  | other => "Other"

namespace PlanWarning

/-- The text of a warning. -/
def text : PlanWarning → String
  | copyOverriddenByFilters =>
    "Video filters are active, re-encoding instead of stream copy"
  | videoCopyIncompatible codec container =>
    s!"Source video codec {codec} cannot be copied into {container.extension}, re-encoding"
  | videoCodecIncompatible requested container fallback =>
    s!"Video codec {requested.name} is not supported in {container.extension}, " ++
      s!"using {fallback.name}"
  | qpUnsupported codec crf =>
    s!"Codec {codec.name} does not support QP rate control, using CRF " ++ Number.text crf.toNat
  | audioCodecIncompatible requested container fallback =>
    s!"Audio codec {requested.name} is not allowed in {container.extension}, " ++
      s!"using {fallback.name}"
  | audioReencodeForced codecs container target =>
    "Audio codec(s) " ++ String.intercalate ", " codecs ++
      s!" cannot be copied as {target.name} into {container.extension}, " ++
      "re-encoding despite no-reencode"
  | bitmapSubtitleSkipped index codec container =>
    s!"Skipping bitmap subtitle track {Number.text index.toNat} ({codec}): " ++
      s!"not supported in {container.extension}"
  | selectedTrackMissing kind index =>
    s!"Selected {kind.title} track {Number.text index.toNat} does not exist"
  | tracksDropped kind count container =>
    s!"Dropping {Number.text count} selected {kind.title} track(s): {container.extension} holds video only"

/-- A warning in documents. -/
def datum (w : PlanWarning) : Datum :=
  let entry (name : String) (fields : List (String × Datum)) : Datum :=
    .map (("warning", .str name) :: fields)
  match w with
  | copyOverriddenByFilters => entry "copy_overridden_by_filters" []
  | videoCopyIncompatible codec k =>
    entry "video_copy_incompatible" [("codec", .str codec), ("container", .str k.extension)]
  | videoCodecIncompatible requested k fallback =>
    entry "video_codec_incompatible" [("requested", .str requested.name),
      ("container", .str k.extension), ("fallback", .str fallback.name)]
  | qpUnsupported codec crf =>
    entry "qp_unsupported" [("codec", .str codec.name), ("crf", .word8 crf)]
  | audioCodecIncompatible requested k fallback =>
    entry "audio_codec_incompatible" [("requested", .str requested.name),
      ("container", .str k.extension), ("fallback", .str fallback.name)]
  | audioReencodeForced codecs k target =>
    entry "audio_reencode_forced" [("codecs", .ofList .str codecs),
      ("container", .str k.extension), ("target", .str target.name)]
  | bitmapSubtitleSkipped index codec k =>
    entry "bitmap_subtitle_skipped" [("index", .word64 index), ("codec", .str codec),
      ("container", .str k.extension)]
  | selectedTrackMissing kind index =>
    entry "selected_track_missing" [("kind", .str kind.name), ("index", .word64 index)]
  | tracksDropped kind count k =>
    entry "tracks_dropped" [("kind", .str kind.name), ("count", .int count),
      ("container", .str k.extension)]

end PlanWarning

end VideoExport
