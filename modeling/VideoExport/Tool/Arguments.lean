import VideoExport.Tool.Geometry
import VideoExport.Timecode

/-!
# Arguments

What the programs are started with. The options for encoding are built anew
from the recipe; nothing of a plan's tokens is passed on as it is.

* `Recipe.encodeArguments`: the options for encoding;
* `Job.directArguments`, `Job.decodeArguments`, `Job.encodeArguments`: the
  arguments for each way of converting.
-/

namespace VideoExport

/-- A flag with a value, if there is one. -/
def option {α : Type} (flag : String) (text : α → String) (value : Option α) : List String :=
  match value with
  | some a => [flag, text a]
  | none => []

/-- A rate as an argument. -/
def rateText (kbps : UInt32) : String := (Kbps.mk kbps).text

/-- The options for encoding video. -/
def VideoRecipe.arguments (v : VideoRecipe) : List String :=
  if v.copy then ["-c:v", "copy"]
  else
    option "-c:v" id v.codec ++ option "-preset" id v.speed ++ option "-b:v" rateText v.kbps ++
      option "-maxrate" rateText v.maxKbps ++ option "-bufsize" rateText v.bufferKbps ++
      option "-crf" Directive.countText v.crf ++ option "-qp" Directive.countText v.qp

/-- The options for encoding sound. -/
def AudioRecipe.arguments (a : AudioRecipe) : List String :=
  if a.copy then ["-c:a", "copy"]
  else option "-c:a" id a.codec ++ option "-b:a" rateText a.kbps

/-- The options for encoding. -/
def Recipe.encodeArguments (r : Recipe) : List String :=
  r.video.arguments ++ r.audio.arguments ++ option "-c:s" id r.subtitleCodec ++
    option "-threads" Directive.countText r.threads

/-- What every start of the converter begins with. -/
def quietArguments : List String := ["-hide_banner", "-nostdin", "-v", "error"]

/-- The options for frames without a header. -/
def rawArguments : List String := ["-f", "rawvideo", "-pix_fmt", "rgba"]

namespace Job

/-- The options for the source, with the place to start at. -/
def sourceArguments (j : Job) : List String :=
  option "-ss" Timecode.wire j.recipe.trimStart ++ ["-i", j.input]

/-- The option for the duration. -/
def durationArguments (j : Job) : List String := option "-t" Timecode.wire j.recipe.trimDuration

/-- The options that take tracks of an input along. -/
def mapArguments (input : Nat) (tracks : List TrackDecision) : List String :=
  tracks.flatMap fun d => ["-map", Number.text input ++ ":" ++ Number.text d.index.toNat]

/-- The arguments for converting in one go. -/
def directArguments (j : Job) (output : String) : List String :=
  let chain := j.recipe.filters.geometry
  quietArguments ++ ["-y"] ++ j.sourceArguments ++ j.durationArguments ++
    mapArguments 0 (j.tracks.filter (·.kept)) ++
    (if chain.isEmpty || j.recipe.video.copy then [] else ["-vf", Filter.chain chain]) ++
    j.recipe.encodeArguments ++ ["-progress", "pipe:1", "-nostats", output]

/-- The arguments for decoding frames of a size. -/
def decodeArguments (j : Job) (video : UInt64) (size : FrameSize) : List String :=
  let chain := j.recipe.filters.geometry ++ ["scale=" ++ Filter.size size.width size.height]
  quietArguments ++ j.sourceArguments ++ j.durationArguments ++
    ["-map", "0:" ++ Number.text video.toNat, "-vf", Filter.chain chain] ++ rawArguments ++
    ["pipe:1"]

/-- The arguments for encoding frames of a size. Everything but video is taken
    from the source. -/
def encodeArguments (j : Job) (size : FrameSize) (output : String) : List String :=
  quietArguments ++ ["-y"] ++ rawArguments ++
    ["-s", size.text, "-r", Number.plain j.frameRate, "-i", "pipe:0"] ++ j.sourceArguments ++
    j.durationArguments ++ ["-map", "0:v:0"] ++
    mapArguments 1 (j.tracks.filter fun d => d.kept && d.kind != .video) ++
    j.recipe.encodeArguments ++ [output]

end Job

/-- The arguments for a probe report. -/
def probeArguments (input : String) : List String :=
  ["-v", "error", "-print_format", "json", "-show_streams", "-show_format", input]

/-- The arguments for the subtitles of a track. -/
def subtitleArguments (input : String) (track : UInt64) : List String :=
  quietArguments ++
    ["-i", input, "-map", "0:" ++ Number.text track.toNat, "-f", "srt", "pipe:1"]

end VideoExport
