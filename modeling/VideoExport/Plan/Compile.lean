import VideoExport.Directive.Builder
import VideoExport.Filter.Expression
import VideoExport.Plan.Basic
import VideoExport.Plan.Trim
import VideoExport.Preset
import VideoExport.Tracks

/-!
# Making plans

Settings and a source become a plan. What the container or the encoder cannot
do is replaced by the nearest thing it can; only settings that are not in
order, an unknown preset or a source without video are refused.

* `Plan.compile`: the plan;
* `VideoRequest`, `AudioChoice`, `SubtitleChoice`: what is decided for each
  kind of track, with the warnings that the decision raises.
-/

namespace VideoExport

/-! ## Times and filters -/

/-- The trim window of settings in a source. -/
def Settings.trimWindow (s : Settings) (source : Source) : TrimWindow Float :=
  TrimWindow.resolve s.trimStart s.trimEnd source.duration (frameTime source.frameRate)

/-- The directives that ask for a trim window, if it has to be asked for. -/
def TrimWindow.part (w : TrimWindow Float) : Part :=
  .given w.requested [.trimStart w.start, .trimDuration w.duration]

/-- The filters of settings: that of the preset, a resize and a change of
    colours. -/
def Settings.filterParts (s : Settings) (preset : Option Preset) : List String :=
  (preset.bind (·.filter)).toList ++ (s.resize.map Resize.filter).toList ++
    s.color.filter?.toList

/-! ## Video -/

/-- What is asked of the encoder of video. -/
structure VideoRequest where
  codec : VideoCodec
  rateControl : RateControl
  speed : Option String

/-- What settings ask for, unless a preset takes their place. -/
def Settings.videoRequest (s : Settings) : Option Preset → VideoRequest
  | some p => ⟨p.codec, p.rateControl, p.speed⟩
  | none => ⟨s.videoCodec, s.rateControl, s.speed⟩

/-- The codec to encode with: the requested one if the container can hold it. -/
def VideoCodec.within (c : VideoCodec) (k : Container) : VideoCodec :=
  if c.fits k then c else default k

/-- The warning about a codec that the container cannot hold. -/
def VideoCodec.withinWarnings (c : VideoCodec) (k : Container) : List PlanWarning :=
  if c.fits k then [] else [.videoCodecIncompatible c k (default k)]

/-- The rate control that a codec's encoder can follow: a constant quantizer
    becomes a constant quality where there is none, and a quality is moved into
    its range. -/
def VideoCodec.follow (c : VideoCodec) : RateControl → RateControl
  | .qp value => if c.knowsMode .qp then .qp value else .crf (c.clampCrf value)
  | .crf value => .crf (c.clampCrf value)
  | .bitrate kbps => .bitrate kbps

/-- The warning about a constant quantizer that an encoder does not have. -/
def VideoCodec.followWarnings (c : VideoCodec) : RateControl → List PlanWarning
  | .qp value => if c.knowsMode .qp then [] else [.qpUnsupported c (c.clampCrf value)]
  | _ => []

/-- The directives of a rate control. -/
def RateControl.directives : RateControl → List Directive
  | crf value => [.crf value.toUInt32]
  | qp value => [.qp value.toUInt32]
  | bitrate kbps =>
    let budget := RateBudget.ofTarget kbps
    [.videoRate ⟨budget.target⟩, .maxRate ⟨budget.ceiling⟩, .bufferSize ⟨budget.buffer⟩]

/-- What keeps video from being copied: filters, or a codec that is known not
    to fit into the container. Codecs that nobody knows are copied. -/
def copyObstacle? (primary : Stream) (k : Container) (filtered : Bool) : Option PlanWarning :=
  if filtered then some .copyOverriddenByFilters
  else match VideoCodec.known? primary.codec with
    | some c => if c.fits k then none else some (.videoCopyIncompatible primary.codec k)
    | none => none

/-! ## Sound -/

/-- The codec to encode sound with: the requested one if the container can
    hold it. -/
def AudioCodec.within (c : AudioCodec) (k : Container) : AudioCodec :=
  if k.holdsAudio c.name then c else default k

/-- What is decided for sound: whether it is copied, if there is any, the
    directives and the warnings. -/
structure AudioChoice where
  copy : Option Bool
  directives : List Directive
  warnings : List PlanWarning

/-- The codecs of tracks that keep sound from being copied: those that the
    container cannot hold and those that are not the target. -/
def blockedCodecs (source : Source) (tracks : List UInt64) (k : Container) (target : AudioCodec) :
    List String :=
  ((tracks.filterMap source.stream?).map (·.codec)).filter fun codec =>
    !k.holdsAudio codec || !AudioName.same codec target.name

/-- The warning about a selected track that is not there. -/
def ChosenTracks.missingWarnings (t : ChosenTracks) (kind : MediaKind) : List PlanWarning :=
  (t.missing.map (.selectedTrackMissing kind)).toList

/-- What is decided for the sound of these tracks. -/
def Settings.audioChoice (s : Settings) (source : Source) (tracks : ChosenTracks) : AudioChoice :=
  let k := s.container
  let missing := tracks.missingWarnings .audio
  if tracks.indices.isEmpty then ⟨none, [], missing⟩
  else
    let target := s.audioCodec.within k
    let blocked := if s.keepAudio then blockedCodecs source tracks.indices k target else []
    if s.keepAudio && blocked.isEmpty then ⟨some true, [.audioCodec .copy], missing⟩
    else
      let forced :=
        if s.keepAudio then [PlanWarning.audioReencodeForced blocked k target] else []
      let replaced :=
        if target == s.audioCodec then []
        else [PlanWarning.audioCodecIncompatible s.audioCodec k target]
      { copy := some false
        directives := [.audioCodec (.named target.encoder),
          .audioRate ⟨clampAudioRate s.audioKbps⟩]
        warnings := missing ++ forced ++ replaced }

/-! ## Subtitles -/

/-- The codec of the track of an index, and nothing if there is none. -/
def Source.codecOf (source : Source) (index : UInt64) : String :=
  ((source.stream? index).map (·.codec)).getD ""

/-- What is decided for subtitles: the tracks that are kept, whether these are
    all that the source has, and the warnings. -/
structure SubtitleChoice where
  kept : List UInt64
  wildcard : Bool
  warnings : List PlanWarning

/-- What is decided for the subtitles of these tracks: those that are pictures
    are left out where the container cannot hold them. -/
def SubtitleChoice.ofTracks (source : Source) (k : Container) (tracks : ChosenTracks) :
    SubtitleChoice :=
  let skip (index : UInt64) : Bool :=
    Subtitle.isBitmap (source.codecOf index) && !Subtitle.bitmapsFit k
  let skipped := tracks.indices.filter skip
  { kept := tracks.indices.filter (!skip ·)
    wildcard := tracks.wildcard && skipped.isEmpty
    warnings := tracks.missingWarnings .subtitle ++ skipped.map fun index =>
      .bitmapSubtitleSkipped index (source.codecOf index) k }

/-- The codec directive of the subtitles that are kept, if any are. -/
def SubtitleChoice.codec? (c : SubtitleChoice) (source : Source) (k : Container) :
    Option Directive :=
  if c.kept.isEmpty then none
  else (Subtitle.codecFor k ((c.kept.filterMap source.stream?).map (·.codec))).map .subtitleCodec

/-! ## Tracks -/

/-- The directives that take these tracks along: all at once if they are all
    there are, else one by one. -/
def mapTracks (tracks : List UInt64) (wildcard : Bool) (all : MapTarget) : List Directive :=
  if tracks.isEmpty then []
  else if wildcard then [.map all]
  else tracks.map fun index => .map (.track index)

/-- The directive for a number of threads, unless that is left open. -/
def threadsDirective? (threads : Option UInt32) : Option Directive :=
  (threads.filter (0 < ·)).map .threads

/-! ## Plans -/

namespace Plan

/-- The plan of an export with sound and subtitles. Maps come last. -/
def ofVideo (threads : Option UInt32) (s : Settings) (source : Source) (primary : Stream)
    (preset : Option Preset) : Plan :=
  let k := s.container
  let window := s.trimWindow source
  let request := s.videoRequest preset
  let codec := request.codec.within k
  let filters := Filter.chain? (s.filterParts preset)
  let obstacle := if s.keepVideo then copyObstacle? primary k filters.isSome else none
  let copy := s.keepVideo && obstacle.isNone
  let video : List Part :=
    if copy then [.one (.videoCodec .copy)]
    else [.one (.videoCodec (.named codec.encoder)), .maybe (request.speed.map .speed),
      .several (codec.follow request.rateControl).directives,
      .maybe (filters.map .videoFilter)]
  let audioTracks := s.audioTracks.resolve source .audio
  let audio := s.audioChoice source audioTracks
  let subtitles := SubtitleChoice.ofTracks source k (s.subtitleTracks.resolve source .subtitle)
  { directives := Directive.ofParts <|
      [window.part] ++ video ++
      [.several audio.directives, .maybe (subtitles.codec? source k),
        .maybe (threadsDirective? threads), .one (.map .primaryVideo),
        .several (mapTracks audioTracks.indices audioTracks.wildcard .allAudio),
        .several (mapTracks subtitles.kept subtitles.wildcard .allSubtitles)]
    output := .ofTracks source k primary.index audioTracks.indices subtitles.kept
    warnings := request.codec.withinWarnings k ++ obstacle.toList ++
      (if copy then [] else codec.followWarnings request.rateControl) ++
      audio.warnings ++ subtitles.warnings
    expectedDuration := window.duration
    videoCopy := copy
    audioCopy := audio.copy }

/-- The warning about selected tracks that an animation has no place for. -/
def droppedWarnings (sel : Selection) (source : Source) (kind : MediaKind) (k : Container) :
    List PlanWarning :=
  let tracks := (sel.resolve source kind).indices
  if tracks.isEmpty then [] else [.tracksDropped kind tracks.length k]

/-- The plan of an animation: the frame rate is reduced first, and only the
    primary track of video is taken along. -/
def ofAnimation (threads : Option UInt32) (s : Settings) (source : Source) (primary : Stream)
    (preset : Option Preset) : Plan :=
  let k := s.container
  let window := s.trimWindow source
  let rate := "fps=" ++ Number.text s.animation.fps.toNat
  { directives := Directive.ofParts
      [window.part, .one (.videoCodec (.named "gif")),
        .one (.videoFilter (Filter.chain (rate :: s.filterParts preset))),
        .one (.quality s.animation.speed), .maybe (threadsDirective? threads),
        .one (.map .primaryVideo)]
    output := .ofTracks source k primary.index [] []
    warnings :=
      (if s.keepVideo then [.videoCopyIncompatible primary.codec k] else []) ++
      droppedWarnings s.audioTracks source .audio k ++
      droppedWarnings s.subtitleTracks source .subtitle k
    expectedDuration := window.duration
    videoCopy := false
    audioCopy := none }

/-- The plan of an export, for so many threads. -/
def compile (threads : Option UInt32) (s : Settings) (source : Source) : Except Failure Plan := do
  s.validate
  match source.primary? with
  | none => throw (.invalidSettings s!"Source {source.name} has no video track")
  | some primary =>
    let preset ← s.preset.mapM Preset.find
    return if s.container.isAnimation then ofAnimation threads s source primary preset
      else ofVideo threads s source primary preset

end Plan

end VideoExport
