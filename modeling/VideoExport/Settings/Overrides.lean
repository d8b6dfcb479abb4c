import VideoExport.Preset
import VideoExport.Timecode
import VideoExport.Tracks

/-!
# Overrides

Settings come from four layers. What a command says itself counts first; then,
for the selections of tracks, what the marks of the source suggest, if the
command asks for that; then what a file says; and last the defaults. Only the
preset has a default of its own, and copying can only be turned on.

* `Overrides`: what a command says;
* `Settings.ofLayers`: the settings of file and defaults;
* `Overrides.resolve`: the settings of all layers, which are valid.
-/

namespace VideoExport

/-- What a command says about settings. -/
structure Overrides where
  start : Option String
  stop : Option String
  container : Option String
  videoCodec : Option String
  crf : Option UInt8
  bitrate : Option UInt32
  qp : Option UInt8
  speed : Option String
  preset : Option String
  resize : Option Resize
  fit : Option Fit
  brightness : Option Float
  contrast : Option Float
  saturation : Option Float
  hue : Option Float
  audioCodec : Option String
  audioKbps : Option UInt32
  copyVideo : Bool
  copyAudio : Bool
  audioTrack : Option UInt64
  noAudio : Bool
  subtitleTrack : Option UInt64
  allSubtitles : Bool
  suggestedTracks : Bool
  frameRate : Option UInt32
  paletteSpeed : Option UInt32
  deriving Inhabited

/-- The settings of a file, or the defaults if there is none. Where they do not
    say when to end, the export ends with its source. -/
def Settings.ofLayers (file : Option Settings) (source : Source) : Settings :=
  match file with
  | some s => if s.trimEnd ≤ 0.0 then { s with trimEnd := source.duration } else s
  | none => { default with trimEnd := source.duration }

namespace Overrides

/-- Why overrides cannot be applied. -/
inductive Fault
  /-- The time of the start cannot be read. -/
  | start (text : String) (fault : Timecode.Fault)
  /-- The time of the end cannot be read. -/
  | stop (text : String) (fault : Timecode.Fault)
  /-- A name is unknown, or the result is not valid. -/
  | failure (f : Failure)
  deriving Repr

/-- The text of a fault. -/
def Fault.message : Fault → String
  | start text fault => s!"Invalid start time '{text}': {fault.failure.message}"
  | stop text fault => s!"Invalid end time '{text}': {fault.failure.message}"
  | failure f => f.message

/-- A value that is read from a text, or another one if there is no text. -/
def reading {α ε : Type} (read : String → Except ε α) (wrap : String → ε → Fault)
    (text : Option String) (otherwise : α) : Except Fault α :=
  match text with
  | none => .ok otherwise
  | some t =>
    match read t with
    | .ok a => .ok a
    | .error e => .error (wrap t e)

/-- A value of a name, or another one if there is no name. -/
def named {α : Type} (read : String → Except Failure α) (name : Option String) (otherwise : α) :
    Except Fault α :=
  reading read (fun _ => .failure) name otherwise

/-- The rate control: a quality counts before a bitrate, and that before a
    quantizer. -/
def rateControl (o : Overrides) (otherwise : RateControl) : RateControl :=
  match o.crf, o.bitrate, o.qp with
  | some v, _, _ => .crf v
  | none, some kbps, _ => .bitrate kbps
  | none, none, some v => .qp v
  | none, none, none => otherwise

/-- The selection of sound. -/
def audioTracks (o : Overrides) (source : Source) (otherwise : Selection) : Selection :=
  if o.noAudio then .none
  else match o.audioTrack with
    | some index => .single index
    | none => if o.suggestedTracks then source.suggested.1 else otherwise

/-- The selection of subtitles. -/
def subtitleTracks (o : Overrides) (source : Source) (otherwise : Selection) : Selection :=
  if o.allSubtitles then .all
  else match o.subtitleTrack with
    | some index => .single index
    | none => if o.suggestedTracks then source.suggested.2 else otherwise

/-- The preset, by its own name: that of the command, else that of the file,
    else the default one. -/
def presetName (o : Overrides) (file default : Option String) : Except Fault (Option String) :=
  match (o.preset.or file).or default with
  | none => .ok none
  | some name => named (fun n => (Preset.find n).map fun p => some p.name) (some name) none

/-- The settings of all layers, not yet validated. -/
def apply (o : Overrides) (s : Settings) (source : Source) (defaultPreset : Option String) :
    Except Fault Settings := do
  let trimStart ← reading Timecode.read .start o.start s.trimStart
  let trimEnd ← reading Timecode.read .stop o.stop s.trimEnd
  let container ← named Container.read o.container s.container
  let videoCodec ← named VideoCodec.read o.videoCodec s.videoCodec
  let preset ← o.presetName s.preset defaultPreset
  let audioCodec ← named AudioCodec.read o.audioCodec s.audioCodec
  return {
    trimStart, trimEnd, container, videoCodec, preset, audioCodec
    rateControl := o.rateControl s.rateControl
    speed := o.speed.or s.speed
    resize := (o.resize.map fun r => { r with fit := o.fit.getD .stretch }).or s.resize
    color :=
      { brightness := o.brightness.getD s.color.brightness
        contrast := o.contrast.getD s.color.contrast
        saturation := o.saturation.getD s.color.saturation
        hue := o.hue.getD s.color.hue }
    audioKbps := o.audioKbps.getD s.audioKbps
    keepVideo := s.keepVideo || o.copyVideo
    keepAudio := s.keepAudio || o.copyAudio
    audioTracks := o.audioTracks source s.audioTracks
    subtitleTracks := o.subtitleTracks source s.subtitleTracks
    animation :=
      { fps := o.frameRate.getD s.animation.fps
        speed := o.paletteSpeed.getD s.animation.speed } }

/-- The settings of all layers. -/
def resolve (o : Overrides) (file : Option Settings) (source : Source)
    (defaultPreset : Option String) : Except Fault Settings := do
  let s ← o.apply (.ofLayers file source) source defaultPreset
  match s.validate with
  | .ok () => return s
  | .error f => throw (.failure f)

end Overrides

end VideoExport
