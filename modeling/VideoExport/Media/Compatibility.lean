import VideoExport.Media.RateControl
import VideoExport.Number.Quantity

/-!
# Compatibility

What goes together: the codecs that a container can hold, the rate controls
that an encoder knows, and the ranges of its numbers. A default is always
among what its container holds, so a fallback never needs another one.

* `VideoCodec.fits`, `Container.holdsAudio`: codecs and containers;
* `VideoCodec.fits_default`, `Container.holdsAudio_default`: the defaults fit;
* `VideoCodec.clampCrf_mem`: a clamped quality is in its codec's range;
* `Subtitle.codecFor`: how the subtitles of a container are encoded.
-/

namespace VideoExport

/-! ## Video -/

namespace VideoCodec

/-- The containers that can hold video of a codec. -/
def containers : VideoCodec → List Container
  | h264 | hevc => [.mp4, .mov, .mkv]
  | vp9 | av1 => [.mp4, .mkv, .webm]

/-- Whether a container can hold video of a codec. -/
def fits (c : VideoCodec) (k : Container) : Bool := c.containers.contains k

/-- The ways to control the rate that a codec's encoder knows. -/
def rateModes : VideoCodec → List RateMode
  | h264 | hevc => [.crf, .bitrate, .qp]
  | vp9 | av1 => [.crf, .bitrate]

/-- Whether a codec's encoder knows a way to control the rate. -/
def knowsMode (c : VideoCodec) (m : RateMode) : Bool := c.rateModes.contains m

/-- The codec to fall back to in a container. -/
def default (k : Container) : VideoCodec :=
  match k with
  | .webm => vp9
  | _ => h264

/-- The lowest and the highest constant quality of a codec's encoder. -/
def crfRange : VideoCodec → UInt8 × UInt8
  | h264 | hevc => (0, 51)
  | vp9 | av1 => (0, 63)

/-- The constant quality that stands in for a rate control that a codec's
    encoder does not know. -/
def defaultCrf : VideoCodec → UInt8
  | h264 => 23
  | hevc => 31
  | vp9 => 32
  | av1 => 35

/-- A constant quality moved into a codec's range. -/
def clampCrf (c : VideoCodec) (value : UInt8) : UInt8 :=
  if value < c.crfRange.1 then c.crfRange.1
  else if c.crfRange.2 < value then c.crfRange.2 else value

/-- The codec to fall back to fits into its container, unless that is an
    animation. -/
theorem fits_default {k : Container} (h : k.isAnimation = false) : (default k).fits k = true := by
  cases k <;> first | rfl | contradiction

/-- A clamped quality is in its codec's range. -/
theorem clampCrf_mem (c : VideoCodec) (value : UInt8) :
    c.crfRange.1 ≤ c.clampCrf value ∧ c.clampCrf value ≤ c.crfRange.2 := by
  have hr : c.crfRange.1 ≤ c.crfRange.2 := by cases c <;> decide
  unfold clampCrf
  split
  case isTrue => exact ⟨UInt8.le_refl _, hr⟩
  case isFalse hlow =>
    split
    case isTrue => exact ⟨hr, UInt8.le_refl _⟩
    case isFalse hhigh => exact ⟨UInt8.not_lt.1 hlow, UInt8.not_lt.1 hhigh⟩

end VideoCodec

/-! ## Sound -/

namespace AudioName

/-- A codec's name as the tables spell it: names of encoders and decoders
    stand for their codec. -/
def normal (codec : String) : String :=
  match Text.lower (Text.trim codec) with
  | "libopus" => "opus"
  | "libvorbis" => "vorbis"
  | "libmp3lame" | "mp3float" => "mp3"
  | "mp4a" | "aac_latm" => "aac"
  | name => name

/-- Whether two names stand for the same codec. -/
def same (a b : String) : Bool := normal a == normal b

end AudioName

namespace Container

/-- The names of the codecs of sound that a container can hold; `none` if it
    can hold any. -/
def audioNames : Container → Option (List String)
  | mp4 => some ["aac", "mp3", "ac3", "eac3", "opus", "flac", "alac"]
  | mov => some ["aac", "mp3", "ac3", "eac3", "alac", "pcm_s16le", "pcm_s24le"]
  | webm => some ["opus", "vorbis"]
  | gif => some []
  | mkv => none

/-- Whether a container can hold sound of a codec. -/
def holdsAudio (k : Container) (codec : String) : Bool :=
  match k.audioNames with
  | some names => names.contains (AudioName.normal codec)
  | none => true

end Container

/-- The codec of sound to fall back to in a container. -/
def AudioCodec.default (k : Container) : AudioCodec :=
  match k with
  | .webm => opus
  | _ => aac

/-- The codec to fall back to is one that its container can hold, unless that
    is an animation. -/
theorem Container.holdsAudio_default {k : Container} (h : k.isAnimation = false) :
    k.holdsAudio (AudioCodec.default k).name = true := by
  cases k <;> first | decide +kernel | contradiction

/-! ## Subtitles -/

namespace Subtitle

/-- The names of the codecs whose subtitles are pictures. -/
def bitmapNames : List String :=
  ["hdmv_pgs_subtitle", "pgssub", "dvd_subtitle", "dvdsub", "dvb_subtitle", "dvbsub", "xsub"]

/-- Whether the subtitles of a codec are pictures, which no text encoder can
    take. -/
def isBitmap (codec : String) : Bool := bitmapNames.contains (Text.lower (Text.trim codec))

/-- Whether a container can hold subtitles that are pictures. -/
def bitmapsFit (k : Container) : Bool := k == .mkv

/-- The codec of text subtitles in a container. -/
def textCodec : Container → Option String
  | .mp4 | .mov => some "mov_text"
  | .mkv => some "ass"
  | .webm => some "webvtt"
  | .gif => none

/-- The codec for tracks of these codecs in a container. One track of pictures
    means that all of them are copied. -/
def codecFor (k : Container) (codecs : List String) : Option String :=
  (textCodec k).map fun text => if codecs.any isBitmap then "copy" else text

end Subtitle

/-! ## Times -/

section Times

open Number

variable {α : Type} [Quantity α]

/-- The frame rate that is assumed where none is known. -/
def fallbackFrameRate : Nat := 30

/-- The shortest window that a source can express: one frame. -/
def frameTime (frameRate : Option α) : α :=
  let known := frameRate.filter fun fps => Quantity.isFinite fps && Quantity.ofNat 0 < fps
  Quantity.ofNat 1 / known.getD (Quantity.ofNat fallbackFrameRate)

/-- The deviation below which a trim is none: half the shortest window, and at
    least a hundredth of a second. -/
def trimTolerance (shortest : α) : α :=
  Quantity.larger (shortest / Quantity.ofNat 2) (Quantity.ofDecimal ⟨false, 1, -2⟩)

/-- The delay of an animation's frames in hundredths of a second. -/
def frameDelay (fps : Float) : UInt16 :=
  if fps.isFinite && 0.0 < fps then
    UInt16.ofNat (max 2 (nearestWithin (UInt16.size - 1) (100.0 / fps)))
  else 10

end Times

end VideoExport
