import VideoExport.Media.Compatibility
import VideoExport.Frame.Filter
import VideoExport.Settings.Basic

/-!
# Animations

An animation is a file of frames of one size that are shown over and over. Such
files are encoded elsewhere: whatever encodes them keeps a state of its own, which
is written frame by frame, and the writer is what stands before it. It gives every
frame the same delay, counts the frames, and refuses those of another size before
anything is touched.

* `AnimationEncoder`: what encodes animations;
* `AnimationWriter`: an animation that is being written;
* `AnimationWriter.offer`, `AnimationWriter.finish`: a frame, and the end.
-/

namespace VideoExport

/-- A frame of an animation, with its delay in hundredths of a second. -/
structure AnimationFrame (Image : Type) where
  delay : UInt16
  image : Image
  deriving DecidableEq, Repr

/-- What encodes animations. It says why if it fails. -/
structure AnimationEncoder where
  /-- What is known of a file that is being written. -/
  State : Type
  /-- What is made of the pixels of a frame. -/
  Image : Type
  /-- A file of a width and a height, without frames. -/
  create : UInt16 → UInt16 → Except String State
  /-- A file whose frames are shown over and over. -/
  repeatForever : State → Except String State
  /-- The image of pixels of a width and a height, made at a speed, and what it
      leaves where the pixels were. -/
  quantize : (width height : UInt16) → (speed : UInt32) → Bytes → Image × Bytes
  /-- Whether a frame has been written, and the file after it. -/
  write : State → AnimationFrame Image → Except String Unit × State
  /-- The bytes of a file to which nothing is added. -/
  finish : State → Except String Bytes

/-- The failure of an encoder. -/
def encodingFailure (reason : String) : Failure := .conversion s!"GIF encoding failed: {reason}"

/-- An animation that is being written: the encoder's state, the size of its
    frames, their delay, how fast their images are made, the place where this is
    done, and how many of them there are. -/
structure AnimationWriter (e : AnimationEncoder) where
  encoder : e.State
  width : UInt16
  height : UInt16
  delay : UInt16
  speed : UInt32
  scratch : Bytes
  count : Nat

namespace AnimationWriter

/-- A side that fits into the format. -/
def side? (n : UInt32) : Option UInt16 :=
  if 0 < n.toNat ∧ n.toNat < UInt16.size then some n.toUInt16 else none

/-- The speed in the range of speeds. -/
def clampSpeed (speed : UInt32) : UInt32 :=
  if speed < AnimationOptions.speedRange.1 then AnimationOptions.speedRange.1
  else if AnimationOptions.speedRange.2 < speed then AnimationOptions.speedRange.2
  else speed

variable {e : AnimationEncoder}

/-- An animation without frames. -/
def start (e : AnimationEncoder) (size : FrameSize) (fps : Float) (speed : UInt32) :
    Except Failure (AnimationWriter e) :=
  match side? size.width, side? size.height with
  | some width, some height =>
    match e.create width height >>= e.repeatForever with
    | .ok encoder =>
      .ok {
        encoder, width, height
        delay := frameDelay fps
        speed := clampSpeed speed
        scratch := []
        count := 0 }
    | .error reason => .error (encodingFailure reason)
  | _, _ => .error (.conversion s!"GIF frames cannot be {size.text}")

/-- The number of bytes of a frame. -/
def byteCount (w : AnimationWriter e) : Nat := w.width.toNat * w.height.toNat * 4

/-- A frame that has its size is made an image, written and counted. -/
def write (w : AnimationWriter e) (frame : Bytes) : Except Failure Unit × AnimationWriter e :=
  let (image, scratch) := e.quantize w.width w.height w.speed frame
  match e.write w.encoder ⟨w.delay, image⟩ with
  | (.ok (), encoder) => (.ok (), { w with encoder, scratch, count := w.count + 1 })
  | (.error reason, encoder) => (.error (encodingFailure reason), { w with encoder, scratch })

/-- Why a frame is refused: it does not have its size. -/
def refusal (w : AnimationWriter e) (frame : Bytes) : Failure :=
  .conversion (s!"GIF frame has {Number.text frame.length} bytes, " ++
    s!"expected {Number.text w.byteCount} for " ++
    s!"{Number.text w.width.toNat}x{Number.text w.height.toNat}")

/-- Whether a frame is taken, and the writer after it. A frame that does not
    have its size is refused before anything is touched. -/
def offer (w : AnimationWriter e) (frame : Bytes) : Except Failure Unit × AnimationWriter e :=
  if frame.length = w.byteCount then w.write frame else (.error (w.refusal frame), w)

/-- The writer after a frame, if this is taken. -/
def push (w : AnimationWriter e) (frame : Bytes) : Except Failure (AnimationWriter e) :=
  let (taken, w) := w.offer frame
  taken.map fun () => w

/-- The finished file, which has at least one frame. -/
def finish (w : AnimationWriter e) : Except Failure Bytes :=
  if w.count = 0 then .error (.conversion "no frames were decoded for the GIF")
  else (e.finish w.encoder).mapError .file

end AnimationWriter

end VideoExport
