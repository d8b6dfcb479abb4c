import VideoExport.Recipe.Basic
import VideoExport.Media.Stream

/-!
# Track decisions

Every stream of a source is kept or discarded, each for itself: the primary
video always is kept, other video never, sound and subtitles if they are asked
for by kind or by index.

* `Recipe.verdict`: what becomes of a stream, and why;
* `Recipe.decisions`: one decision for every stream, in their order.
-/

namespace VideoExport

/-- What becomes of a stream, and why. -/
inductive Verdict
  | primaryVideo
  | secondaryVideo
  | allAudio
  | explicit
  | notSelected
  | noPassthrough
  | subtitle
  | unsupported
  deriving DecidableEq, Repr, Inhabited

namespace Verdict

/-- Whether the stream is kept. -/
def keeps : Verdict → Bool
  | primaryVideo | allAudio | explicit | subtitle => true
  | secondaryVideo | notSelected | noPassthrough | unsupported => false

/-- The reason in words. -/
def reason : Verdict → String
  | primaryVideo => "primary video"
  | secondaryVideo => "secondary video"
  | allAudio => "all audio requested"
  | explicit => "explicitly selected"
  | notSelected => "not selected"
  | noPassthrough => "subtitle passthrough not supported"
  | subtitle => "subtitle selected"
  | unsupported => "unsupported track type"

end Verdict

/-- What becomes of a stream of a source. -/
structure TrackDecision where
  index : UInt64
  kind : MediaKind
  codec : String
  verdict : Verdict
  deriving DecidableEq, Repr, Inhabited

/-- Whether the stream is kept. -/
def TrackDecision.kept (d : TrackDecision) : Bool := d.verdict.keeps

namespace Recipe

/-- What becomes of a stream, by the index of the primary video and by whether
    subtitles can be passed through. -/
def verdict (r : Recipe) (primary : Option UInt64) (passthrough : Bool) (s : Stream) : Verdict :=
  let asked := r.tracks.contains s.index
  match s.kind with
  | .video => if primary = some s.index then .primaryVideo else .secondaryVideo
  | .audio => if r.allAudio then .allAudio else if asked then .explicit else .notSelected
  | .subtitle =>
    if r.allSubtitles || asked then if passthrough then .subtitle else .noPassthrough
    else .notSelected
  | .other => .unsupported

/-- The decisions on the streams of a source. -/
def decisions (r : Recipe) (source : Source) (passthrough : Bool) : List TrackDecision :=
  let primary := source.primary?.map (·.index)
  source.streams.map fun s => ⟨s.index, s.kind, s.codec, r.verdict primary passthrough s⟩

/-- There is one decision for every stream. -/
theorem index_decisions (r : Recipe) (source : Source) (passthrough : Bool) :
    (r.decisions source passthrough).map (·.index) = source.streams.map (·.index) := by
  simp [decisions]

end Recipe

/-- A decision in documents. -/
def TrackDecision.datum (d : TrackDecision) : Datum :=
  .map [("index", .word64 d.index), ("kind", .str d.kind.name), ("codec", .str d.codec),
    ("keep", .bool d.kept), ("reason", .str d.verdict.reason)]

end VideoExport
