import VideoExport.Animation.Basic
import VideoExport.Backend.Basic

/-!
# The synthetic backend

For rehearsals there is a backend that makes up its frames. What it produces
depends on the job alone: an animation of the frames, or a short payload that
identifies them by a checksum. It can also be told to misbehave.

* `Synthetic`: how the backend behaves;
* `Synthetic.backend`: the backend.
-/

namespace VideoExport

/-- How a synthetic conversion behaves. -/
inductive SyntheticBehavior
  | complete
  /-- It fails at the frame of this number. -/
  | failAt (frame : UInt64)
  /-- It waits for its end and reports nothing. -/
  | hang
  /-- It starts and waits for its end. -/
  | stall
  /-- It starts late, deaf to everything until then. -/
  | startAfter (ms : Nat)
  deriving DecidableEq, Repr, Inhabited

/-- The sources that are known by name, and how conversions behave. -/
structure Synthetic where
  sources : List (String × Source)
  behavior : SyntheticBehavior
  passthrough : Bool
  extractDelayMs : Nat
  frameDelayMs : Nat

/-- A stream with nothing known but its kind and codec. -/
def Stream.bare (index : UInt64) (kind : MediaKind) (codec : String) : Stream where
  index := index
  kind := kind
  codec := Text.lower codec
  width := none
  height := none
  frameRate := none
  sampleRate := none
  channels := none
  language := none
  title := none
  isDefault := false
  isForced := false
  bitRate := none

namespace Synthetic

/-- A backend that completes its conversions and knows no sources. -/
def default : Synthetic := ⟨[], .complete, true, 0, 0⟩

/-- The source of a name that is not known. -/
def anySource (input : String) : Source where
  name := input
  duration := 10.0
  streams := [
    { Stream.bare 0 .video "h264" with
      width := some 64, height := some 36, frameRate := some 30.0 },
    { Stream.bare 1 .audio "aac" with
      sampleRate := some 48000, channels := some 2, language := some "eng", isDefault := true },
    { Stream.bare 2 .subtitle "subrip" with language := some "eng" }]

/-- The source of a name. -/
def source (y : Synthetic) (input : String) : Source :=
  ((y.sources.find? (·.1 == input)).map (·.2)).getD (anySource input)

/-- The subtitles of a track. -/
def cues (track : UInt64) : List (Cue Float) :=
  (List.range 3).map fun n =>
    let start := Float.ofNat n * 2.0
    ⟨start, start + 1.5, s!"Line {Number.text (n + 1)} of track {Number.text track.toNat}"⟩

/-- The subtitles of a track of an input, if it is one of subtitles. -/
def extract (y : Synthetic) (input : String) (track : UInt64) : Activity (List (Cue Float)) :=
  .pause y.extractDelayMs <|
    match (y.source input).stream? track with
    | some s => if s.kind = .subtitle then .ok (cues track) else refuse
    | none => refuse
where
  /-- The failure for any other track. -/
  refuse : Activity (List (Cue Float)) :=
    .fail (.backend s!"Track {Number.text track.toNat} of {input} is not a subtitle track")

/-! ## Frames -/

/-- The size of frames: that of the source, unless both sides of another one
    are asked for. -/
def frameSize (j : Job) : FrameSize :=
  let own := match j.source.primary? with
    | some s => match s.width, s.height with
      | some w, some h => ⟨w, h⟩
      | _, _ => ⟨64, 36⟩
    | none => ⟨64, 36⟩
  match j.recipe.filters.resize with
  | some box =>
    if 0 < box.width ∧ 0 < box.height then ⟨box.width.toUInt32, box.height.toUInt32⟩ else own
  | none => own

/-- The frame rate: the requested one, or that of the source. -/
def frameRate (j : Job) : Float :=
  (j.recipe.filters.frameRate? <|> j.source.frameRate).getD (Float.ofNat fallbackFrameRate)

/-- The largest number of frames. -/
def maxFrames : Nat := 3000

/-- The number of frames. -/
def frameCount (j : Job) : Nat :=
  max 1 (Number.ceilWithin maxFrames (j.expectedDuration * frameRate j))

/-- A frame: a gradient that changes with its number. -/
def frame (size : FrameSize) (number : Nat) : Bytes :=
  let shade (i side : Nat) : UInt8 := UInt8.ofNat (i * 255 / max 1 side)
  (List.range size.height.toNat).flatMap fun y =>
    (List.range size.width.toNat).flatMap fun x =>
      [shade x size.width.toNat, shade y size.height.toNat, UInt8.ofNat (number * 7), 255]

/-! ## Payloads -/

/-- A checksum with more bytes folded into it. -/
def foldChecksum (sum : UInt64) (bytes : Bytes) : UInt64 :=
  bytes.foldl (fun sum b => (sum ^^^ b.toUInt64) * 0x100000001b3) sum

/-- The checksum of nothing. -/
def emptyChecksum : UInt64 := 0xcbf29ce484222325

/-- The lowest bytes of a number, the lowest one first. -/
def littleEndian : (count : Nat) → Nat → Bytes
  | 0, _ => []
  | count + 1, n => UInt8.ofNat n :: littleEndian count (n / 256)

/-- The payload of a job: what it is about, and the checksum of its frames. -/
def payload (j : Job) (frames : Nat) (size : FrameSize) (sum : UInt64) : Bytes :=
  s!"CBSYN1{j.recipe.container.extension}\n".toUTF8.toList ++ littleEndian 8 frames ++
    littleEndian 4 size.width.toNat ++ littleEndian 4 size.height.toNat ++
    littleEndian 8 sum.toNat ++
    (j.tracks.filter (·.kept)).flatMap fun d => littleEndian 4 d.index.toNat

/-! ## Conversion -/

/-- What is carried from frame to frame. -/
structure Carried (e : AnimationEncoder) where
  filter : Option FrameFilter
  writer : Option (AnimationWriter e)
  sum : UInt64

section

variable {e : AnimationEncoder}

/-- One more frame: filtered, counted in, and written. -/
def Carried.take (c : Carried e) (size : FrameSize) (bytes : Bytes) :
    Except Failure (Carried e) := do
  let (out, filter) ← match c.filter with
    | some f =>
      let (result, f) := f.apply size bytes
      pure (← result, some f)
    | none => pure (bytes, none)
  let writer ← c.writer.mapM fun w => w.push out
  return ⟨filter, writer, foldChecksum c.sum out⟩

/-- What a conversion produces after its last frame. -/
def Carried.result (c : Carried e) (j : Job) (total : Nat) (size : FrameSize) :
    Except Failure Bytes :=
  match c.writer with
  | some w => w.finish
  | none => .ok (payload j total size c.sum)

/-- The frames that remain, after a pause between any two. -/
def frames (y : Synthetic) (j : Job) (total : Nat) (size : FrameSize) :
    (remaining : Nat) → Carried e → Activity Bytes
  | 0, c => .finish (c.result j total size)
  | remaining + 1, c =>
    let number := total - (remaining + 1)
    if y.behavior = .failAt (UInt64.ofNat number) then
      .fail (.conversion s!"synthetic encoder failure at frame {Number.text number}")
    else match c.take size (frame size number) with
      | .error f => .fail f
      | .ok c =>
        let share := Float.ofNat (number + 1) / Float.ofNat total
        .report ⟨share, some (UInt64.ofNat (number + 1))⟩ <|
          .poll fun cancelled =>
            if cancelled then .fail .cancelled
            else .pause y.frameDelayMs (frames y j total size remaining c)

end

/-- All frames of a job. -/
def produce (y : Synthetic) (e : AnimationEncoder) (j : Job) : Activity Bytes :=
  let size := frameSize j
  let speed := j.recipe.video.quality.getD Settings.default.animation.speed
  let writer :=
    if j.recipe.container.isAnimation then
      (AnimationWriter.start e size (frameRate j) speed).map some
    else .ok none
  match writer with
  | .error f => .fail f
  | .ok writer =>
    let total := frameCount j
    frames y j total size total ⟨j.grading?.map .ofGrading, writer, emptyChecksum⟩

/-- The conversion of a job. -/
def convert (y : Synthetic) (e : AnimationEncoder) (j : Job) : Activity Bytes :=
  let wait : Activity Bytes := .untilCancelled (fun _ => none) (.fail .cancelled)
  match y.behavior with
  | .hang => wait
  | .stall => .started wait
  | .startAfter ms => .sleep ms (.started (y.produce e j))
  | .complete | .failAt _ => .started (y.produce e j)

/-- The backend. -/
def backend (y : Synthetic) (e : AnimationEncoder) : Backend where
  name := "synthetic"
  passthrough := y.passthrough
  probe input := .ok (y.source input)
  subtitles := y.extract
  convert := y.convert e

end Synthetic

end VideoExport
