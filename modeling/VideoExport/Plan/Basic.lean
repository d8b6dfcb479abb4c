import VideoExport.Directive.Document
import VideoExport.Plan.Warning

/-!
# Plans

A plan is what an export comes down to: the directives to be carried out, what
the result will be called and hold, and the warnings about what was changed.
Only the directives and the name of the output reach whoever carries them out.

* `Plan`, `OutputDescriptor`: the parts of a plan;
* `Plan.tokens`: what is sent.
-/

namespace VideoExport

/-- What an export will produce. -/
structure OutputDescriptor where
  fileName : String
  container : Container
  videoTrack : UInt64
  audioTracks : List UInt64
  subtitleTracks : List UInt64
  deriving DecidableEq, Repr, Inhabited

/-- The directives of an export and what is known about its result. -/
structure Plan where
  directives : List Directive
  output : OutputDescriptor
  warnings : List PlanWarning
  /-- The seconds that the result should last. -/
  expectedDuration : Float
  videoCopy : Bool
  /-- Whether sound is copied, if there is any. -/
  audioCopy : Option Bool

/-- The name of an export of a source. -/
def exportName (source : Source) (k : Container) : String :=
  source.stem ++ "_export." ++ k.extension

/-- What an export of these tracks will produce. -/
def OutputDescriptor.ofTracks (source : Source) (k : Container) (video : UInt64)
    (audio subtitles : List UInt64) : OutputDescriptor :=
  ⟨exportName source k, k, video, audio, subtitles⟩

/-- The tokens of a plan. -/
def Plan.tokens (p : Plan) : List String := Directive.tokens p.directives

/-- What an export will produce, in documents. -/
def OutputDescriptor.datum (o : OutputDescriptor) : Datum :=
  .map [("file_name", .str o.fileName), ("container", .str o.container.extension),
    ("extension", .str o.container.extension), ("mime_type", .str o.container.mimeType),
    ("includes_audio", .bool !o.audioTracks.isEmpty),
    ("includes_subtitles", .bool !o.subtitleTracks.isEmpty),
    ("video_stream", .word64 o.videoTrack), ("audio_streams", .ofList .word64 o.audioTracks),
    ("subtitle_streams", .ofList .word64 o.subtitleTracks)]

/-- A plan in documents. -/
def Plan.datum (p : Plan) : Datum :=
  .map [("directives", Directive.listDatum p.directives), ("output", p.output.datum),
    ("warnings", .ofList PlanWarning.datum p.warnings),
    ("expected_duration", .float p.expectedDuration), ("video_copy", .bool p.videoCopy),
    ("audio_copy", .ofOption .bool p.audioCopy)]

end VideoExport
