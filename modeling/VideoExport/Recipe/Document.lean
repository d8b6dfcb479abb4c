import VideoExport.Recipe.Basic
import VideoExport.Settings.Document

/-!
# Recipes in documents

A recipe is written for whoever wants to see what a plan comes down to. What
it does not say is written as such.

* `Recipe.datum`: a recipe in documents.
-/

namespace VideoExport

/-- A box to scale to, in documents. -/
def ScaleBox.datum (b : ScaleBox) : Datum :=
  .map [("width", .int b.width.toInt), ("height", .int b.height.toInt), ("fit", .str b.fit.name)]

/-- Filters in documents. -/
def Filters.datum (f : Filters) : Datum :=
  .map [("chain", .ofList .str f.chain), ("resize", .ofOption ScaleBox.datum f.resize),
    ("color", .ofOption Color.datum f.color)]

/-- How video is encoded, in documents. -/
def VideoRecipe.datum (v : VideoRecipe) : Datum :=
  .map [("codec", .ofOption .str v.codec), ("copy", .bool v.copy),
    ("force_transcode", .bool v.transcode), ("bitrate_kbps", .ofOption .word32 v.kbps),
    ("maxrate_kbps", .ofOption .word32 v.maxKbps),
    ("bufsize_kbps", .ofOption .word32 v.bufferKbps), ("crf", .ofOption .word32 v.crf),
    ("qp", .ofOption .word32 v.qp), ("preset", .ofOption .str v.speed),
    ("quality", .ofOption .word32 v.quality)]

/-- How sound is encoded, in documents. -/
def AudioRecipe.datum (a : AudioRecipe) : Datum :=
  .map [("codec", .ofOption .str a.codec), ("copy", .bool a.copy),
    ("force_transcode", .bool a.transcode), ("bitrate_kbps", .ofOption .word32 a.kbps)]

/-- A recipe in documents. -/
def Recipe.datum (r : Recipe) : Datum :=
  .map [("container", .str r.container.extension),
    ("trim_start", .ofOption .float r.trimStart),
    ("trim_duration", .ofOption .float r.trimDuration),
    ("video", r.video.datum), ("audio", r.audio.datum),
    ("subtitle_codec", .ofOption .str r.subtitleCodec), ("filters", r.filters.datum),
    ("include_primary_video", .bool r.primaryVideo), ("include_all_audio", .bool r.allAudio),
    ("include_all_subtitles", .bool r.allSubtitles), ("track_ids", .ofList .word64 r.tracks),
    ("threads", .ofOption .word32 r.threads), ("ignored", .ofList .str r.ignored)]

end VideoExport
