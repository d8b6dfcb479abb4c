import VideoExport.Job.Decision
import VideoExport.Plan.Warning

/-!
# Objections

A recipe is not trusted: before it is carried out it is checked against its
source and its container. Every objection is found, not only the first.

* `Recipe.objections`: all objections;
* `Objection.issue`: an objection as it is reported.
-/

namespace VideoExport

/-- A reason not to carry out a recipe. -/
inductive Objection
  /-- A track that the source does not have. -/
  | unknownTrack (index : UInt64)
  /-- A track of video that is not the primary one. -/
  | secondaryVideo (index : UInt64)
  /-- An animation that is not encoded as one. -/
  | needsAnimationEncoder (primary : Option UInt64) (container : Container)
  /-- A track that an animation has no place for. -/
  | noPlace (index : UInt64) (kind : MediaKind) (container : Container)
  /-- The encoder of animations in another container. -/
  | animationEncoder (container : Container)
  /-- Video that the container cannot hold. -/
  | videoCodec (primary : Option UInt64) (codec : VideoCodec) (container : Container)
  /-- Sound that the container cannot hold a copy of. -/
  | audioCopy (index : UInt64) (codec : String) (container : Container)
  /-- Nothing to export. -/
  | nothingKept
  deriving DecidableEq, Repr

/-- An objection as it is reported. -/
def Objection.issue : Objection → TrackIssue
  | unknownTrack index => ⟨some index, "references no source track"⟩
  | secondaryVideo index => ⟨some index, "only the primary video track can be exported"⟩
  | needsAnimationEncoder primary k => ⟨primary, s!"{k.extension} output needs the gif encoder"⟩
  | noPlace index kind k => ⟨some index, s!"{k.extension} cannot carry {kind.title} tracks"⟩
  | animationEncoder k => ⟨none, s!"the gif encoder cannot write {k.extension}"⟩
  | videoCodec primary codec k =>
    ⟨primary, s!"video codec {codec.name} is not allowed in {k.extension}"⟩
  | audioCopy index codec k =>
    ⟨some index, s!"audio codec {codec} cannot be copied into {k.extension}"⟩
  | nothingKept => ⟨none, "every track was discarded"⟩

namespace Recipe

/-- The objection to a track that is asked for by its index: it has to be there
    and not be other video than the primary. -/
def trackObjection? (source : Source) (index : UInt64) : Option Objection :=
  match source.stream? index with
  | none => some (.unknownTrack index)
  | some s =>
    if s.kind = .video ∧ source.primary?.map (·.index) ≠ some index then
      some (.secondaryVideo index)
    else none

/-- The name of the codec that the output's video will have: the source's if it
    is copied, else that of the encoder. -/
def effectiveVideoCodec (r : Recipe) (source : Source) : Option String :=
  if r.video.copy then source.primary?.map (·.codec) else r.video.codec

/-- The name of the encoder of animations. -/
def animationEncoderName : String := "gif"

/-- The objections about animations: they have an encoder of their own, which
    writes nothing else, and hold video only. -/
def animationObjections (r : Recipe) (source : Source) (ds : List TrackDecision) :
    List Objection :=
  let encoder := r.effectiveVideoCodec source == some animationEncoderName
  if r.container.isAnimation then
    (if r.video.copy || !encoder then
      [.needsAnimationEncoder (source.primary?.map (·.index)) r.container] else []) ++
    (ds.filter fun d => d.kept && d.kind != .video).map fun d =>
      .noPlace d.index d.kind r.container
  else if encoder then [.animationEncoder r.container]
  else []

/-- The objection to video of a known codec that the container cannot hold. -/
def videoObjections (r : Recipe) (source : Source) : List Objection :=
  match (r.effectiveVideoCodec source).bind VideoCodec.known? with
  | some c =>
    if c.fits r.container then []
    else [.videoCodec (source.primary?.map (·.index)) c r.container]
  | none => []

/-- The objections to copies of sound that the container cannot hold. -/
def audioObjections (r : Recipe) (ds : List TrackDecision) : List Objection :=
  if r.audio.copy then
    (ds.filter fun d => d.kept && d.kind == .audio && !r.container.holdsAudio d.codec).map
      fun d => .audioCopy d.index d.codec r.container
  else []

/-- All objections to a recipe for a source with these decisions. -/
def objections (r : Recipe) (source : Source) (ds : List TrackDecision) : List Objection :=
  r.tracks.filterMap (trackObjection? source) ++ r.animationObjections source ds ++
    r.videoObjections source ++ r.audioObjections ds ++
    (if ds.any (·.kept) then [] else [.nothingKept])

end Recipe

end VideoExport
