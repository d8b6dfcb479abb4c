import VideoExport.Media.RateControl
import VideoExport.Number.Layout

/-!
# Export settings

What a user asks of an export. Settings that are in order have a finite trim
window whose end, unless it is open, is not before its start, sizes and rates
that are not zero, and numbers within their ranges.

* `Settings`: the settings, with their defaults;
* `Settings.fault?`: the first thing that is wrong with settings;
* `Settings.validate`: settings that are in order, or the failure.
-/

namespace VideoExport

/-- How a resize maps a frame onto its target box. -/
inductive Fit
  /-- Fill the box, whatever becomes of the proportions. -/
  | stretch
  /-- Stay within the box and keep the proportions. -/
  | contain
  /-- Cover the box, keep the proportions and cut off what is outside. -/
  | cover
  deriving DecidableEq, Repr, Inhabited

/-- A target box and how frames are mapped onto it. -/
structure Resize where
  width : UInt32
  height : UInt32
  fit : Fit
  deriving DecidableEq, Repr, Inhabited

/-- An adjustment of colours. -/
structure Color where
  /-- What is added, from -1 to 1. -/
  brightness : Float
  /-- A factor; 1 changes nothing. -/
  contrast : Float
  /-- A factor; 0 leaves greys. -/
  saturation : Float
  /-- A rotation in degrees. -/
  hue : Float
  deriving Inhabited

namespace Color

/-- The adjustment that changes nothing. -/
def identity : Color := ⟨0.0, 1.0, 1.0, 0.0⟩

/-- The deviation below which an adjustment is none. -/
def tolerance : Float := 1e-6

/-- Whether an adjustment changes nothing that matters. -/
def isIdentity (c : Color) : Bool :=
  c.brightness.abs < tolerance && (c.contrast - 1.0).abs < tolerance &&
    (c.saturation - 1.0).abs < tolerance && c.hue.abs < tolerance

/-- Whether every part of an adjustment is a finite number. -/
def isFinite (c : Color) : Bool :=
  c.brightness.isFinite && c.contrast.isFinite && c.saturation.isFinite && c.hue.isFinite

end Color

/-- Whether every track of a kind is exported or a selected one. -/
inductive TrackMode
  | all
  | single
  deriving DecidableEq, Repr, Inhabited

/-- The tracks of a kind to export. In the mode for a single track no
    selection means no track. -/
structure Selection where
  mode : TrackMode
  selected : Option UInt64
  deriving DecidableEq, Repr, Inhabited

namespace Selection

/-- Every track. -/
def all : Selection := ⟨.all, none⟩

/-- One track. -/
def single (index : UInt64) : Selection := ⟨.single, some index⟩

/-- No track. -/
def none : Selection := ⟨.single, .none⟩

end Selection

/-- What only an animation needs: frames per second, and how fast, at the cost
    of quality, its palette is chosen. -/
structure AnimationOptions where
  fps : UInt32
  speed : UInt32
  deriving DecidableEq, Repr, Inhabited

namespace AnimationOptions

/-- The frame rates of animations. -/
def fpsRange : UInt32 × UInt32 := (1, 50)

/-- The speeds of choosing a palette. -/
def speedRange : UInt32 × UInt32 := (1, 30)

end AnimationOptions

/-- What a user asks of an export. -/
structure Settings where
  /-- The seconds at which the export starts. -/
  trimStart : Float
  /-- The seconds at which it ends; unless positive, it ends with its source. -/
  trimEnd : Float
  container : Container
  videoCodec : VideoCodec
  rateControl : RateControl
  /-- How fast, at the cost of size, the encoder works. -/
  speed : Option String
  /-- The name of a preset, which takes the place of codec, rate control and
      speed. -/
  preset : Option String
  resize : Option Resize
  color : Color
  audioCodec : AudioCodec
  audioKbps : UInt32
  keepVideo : Bool
  keepAudio : Bool
  audioTracks : Selection
  subtitleTracks : Selection
  animation : AnimationOptions
  deriving Inhabited

namespace Settings

/-- The settings of a user who asks for nothing. -/
def default : Settings where
  trimStart := 0.0
  trimEnd := 0.0
  container := .mp4
  videoCodec := .h264
  rateControl := .crf 23
  speed := none
  preset := none
  resize := none
  color := .identity
  audioCodec := .aac
  audioKbps := 128
  keepVideo := false
  keepAudio := false
  audioTracks := .all
  subtitleTracks := .none
  animation := ⟨10, 10⟩

/-- Whether frames are resized or recoloured. -/
def hasFilters (s : Settings) : Bool := s.resize.isSome || !s.color.isIdentity

/-- What is wrong with settings. -/
inductive Fault
  | trimNotFinite
  | trimStartNegative
  | trimEndFirst (stop start : Float)
  | emptyBox
  | zeroBitrate
  | qualityTooHigh (value : UInt8)
  | animationRate (fps : UInt32)
  | animationSpeed (speed : UInt32)
  | colorNotFinite
  | brightnessOutside (value : Float)
  | colorNegative

/-- A range in a message. -/
def rangeText (r : UInt32 × UInt32) : String :=
  Number.text r.1.toNat ++ "..=" ++ Number.text r.2.toNat

/-- The text of a fault. -/
def Fault.detail : Fault → String
  | trimNotFinite => "Trim window must be finite"
  | trimStartNegative => "Trim start cannot be negative"
  | trimEndFirst stop start =>
    s!"Trim end ({Number.fixed 3 stop}s) is before trim start ({Number.fixed 3 start}s)"
  | emptyBox => "Resize dimensions cannot be zero"
  | zeroBitrate => "Target bitrate cannot be zero"
  | qualityTooHigh value => s!"Quality value {Number.text value.toNat} exceeds 63"
  | animationRate fps =>
    s!"GIF frame rate {Number.text fps.toNat} is outside {rangeText AnimationOptions.fpsRange}"
  | animationSpeed speed =>
    s!"GIF speed {Number.text speed.toNat} is outside {rangeText AnimationOptions.speedRange}"
  | colorNotFinite => "Color adjustments must be finite numbers"
  | brightnessOutside value => s!"Brightness {Number.plain value} outside [-1, 1]"
  | colorNegative => "Contrast and saturation cannot be negative"

/-- What is wrong with a trim window. -/
def trimFault? (start stop : Float) : Option Fault :=
  if !start.isFinite || !stop.isFinite then some .trimNotFinite
  else if start < 0.0 then some .trimStartNegative
  else if 0.0 < stop && stop < start then some (.trimEndFirst stop start)
  else none

/-- What is wrong with a target box. -/
def resizeFault? : Option Resize → Option Fault
  | some r => if r.width == 0 || r.height == 0 then some .emptyBox else none
  | none => none

/-- The highest quality value of any codec. -/
def maxQuality : UInt8 := 63

/-- What is wrong with a rate control. -/
def rateFault? : RateControl → Option Fault
  | .bitrate kbps => if kbps == 0 then some .zeroBitrate else none
  | .crf value | .qp value => if maxQuality < value then some (.qualityTooHigh value) else none

/-- What is wrong with the options of an animation. -/
def animationFault? (o : AnimationOptions) : Option Fault :=
  if o.fps < AnimationOptions.fpsRange.1 || AnimationOptions.fpsRange.2 < o.fps then
    some (.animationRate o.fps)
  else if o.speed < AnimationOptions.speedRange.1 || AnimationOptions.speedRange.2 < o.speed then
    some (.animationSpeed o.speed)
  else none

/-- What is wrong with an adjustment of colours. -/
def colorFault? (c : Color) : Option Fault :=
  if !c.isFinite then some .colorNotFinite
  else if c.brightness < -1.0 || 1.0 < c.brightness then some (.brightnessOutside c.brightness)
  else if c.contrast < 0.0 || c.saturation < 0.0 then some .colorNegative
  else none

/-- The first thing that is wrong with settings. The options of an animation
    count only if one is exported. -/
def fault? (s : Settings) : Option Fault :=
  trimFault? s.trimStart s.trimEnd <|> resizeFault? s.resize <|> rateFault? s.rateControl <|>
    (if s.container.isAnimation then animationFault? s.animation else none) <|>
    colorFault? s.color

/-- Nothing, or the failure of settings that are not in order. -/
def validate (s : Settings) : Except Failure Unit :=
  match s.fault? with
  | some f => .error (.invalidSettings f.detail)
  | none => .ok ()

end Settings

end VideoExport
