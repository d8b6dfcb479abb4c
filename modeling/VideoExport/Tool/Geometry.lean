import VideoExport.Backend.Basic
import VideoExport.Number.Quantity

/-!
# Frame geometry

Frames that pass between two programs have no header, so their size has to be
known beforehand: it follows from the source and from the last change of size.
Sides that follow from others are even.

* `FrameSize.after`: the size of frames after a change of size;
* `Job.frameGeometry`: the size of the frames of a job.
-/

namespace VideoExport

open Number

section

variable {α : Type} [Quantity α]

/-- The even number nearest to a positive number, at least two. -/
def evenSide (x : α) : UInt32 :=
  UInt32.ofNat (max 2 (min (UInt32.size - 1) (2 * Quantity.nearest signBit32 (x / Quantity.ofNat 2))))

/-- The largest size within a box that has the proportions of another one. -/
def sizeWithin (width height boxWidth boxHeight : α) : FrameSize :=
  let scale := Quantity.smaller (boxWidth / width) (boxHeight / height)
  ⟨evenSide (width * scale), evenSide (height * scale)⟩

/-- The size of frames of a size after a change of size, over numbers that
    sides are reckoned in. A side of the box that is not positive follows from
    the other one. -/
def FrameSize.afterIn (size : FrameSize) (box : ScaleBox) : FrameSize :=
  let width : α := Quantity.ofNat (max 1 size.width.toNat)
  let height : α := Quantity.ofNat (max 1 size.height.toNat)
  let boxWidth : α := Quantity.ofNat box.width.toInt.toNat
  let boxHeight : α := Quantity.ofNat box.height.toInt.toNat
  if 0 < box.width then
    if 0 < box.height then
      match box.fit with
      | .contain => sizeWithin width height boxWidth boxHeight
      | .stretch | .cover => ⟨box.width.toUInt32, box.height.toUInt32⟩
    else ⟨box.width.toUInt32, evenSide (height * boxWidth / width)⟩
  else if 0 < box.height then ⟨evenSide (width * boxHeight / height), box.height.toUInt32⟩
  else size

end

/-- The size of frames of a size after a change of size. -/
def FrameSize.after (size : FrameSize) (resize : Option ScaleBox) : FrameSize :=
  match resize with
  | some box => FrameSize.afterIn (α := Float) size box
  | none => size

/-- The video of a job and the size of its frames. -/
def Job.frameGeometry (j : Job) : Except Failure (UInt64 × FrameSize) :=
  match j.primary? with
  | none => .error (.conversion "frame decoding needs a video track")
  | some video =>
    match (j.source.stream? video.index).bind fun s =>
        (s.width.bind fun w => s.height.map (FrameSize.mk w)) with
    | none => .error (.conversion "source video dimensions are unknown")
    | some size => .ok (video.index, size.after j.recipe.filters.resize)

/-- The frame rate of a job: the requested one, or that of the source. -/
def Job.frameRate (j : Job) : Float :=
  (j.recipe.filters.frameRate? <|> j.source.frameRate).getD (Float.ofNat fallbackFrameRate)

/-- The least whole number that is not below a number, at least one. -/
def ceilAtLeastOne (x : Float) : Float :=
  if x < 9007199254740992.0 then Float.ofNat (max 1 (ceilWithin (Nat.pow 2 53) x))
  else if 1.0 < x then x else 1.0

/-- The number of frames that a job should have. -/
def Job.expectedFrames (j : Job) : Float := ceilAtLeastOne (j.expectedDuration * j.frameRate)

end VideoExport
