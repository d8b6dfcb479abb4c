import VideoExport.Frame.Grading

/-!
# Filtering frames

A frame filter takes frames one after the other and writes each of them, with
its colours changed, over a surface of its size. The surface is used again for
the next frame; a new one is made only for a frame of another size.

* `Transform.cover`: the pixels of a frame written over those of a surface;
* `FrameFilter.apply`: one frame;
* `FrameFilter.apply_fst`: the result does not depend on earlier frames.
-/

namespace VideoExport

/-- A size in pixels. -/
structure FrameSize where
  width : UInt32
  height : UInt32
  deriving DecidableEq, Repr, Inhabited

namespace FrameSize

/-- The number of pixels. -/
def area (s : FrameSize) : Nat := s.width.toNat * s.height.toNat

/-- The number of bytes of a frame. -/
def byteCount (s : FrameSize) : Nat := s.area * 4

/-- The text of a size. -/
def text (s : FrameSize) : String :=
  Number.text s.width.toNat ++ "x" ++ Number.text s.height.toNat

end FrameSize

/-! ## Surfaces -/

/-- What four bytes for each pixel of a size hold. -/
structure Surface where
  size : FrameSize
  bytes : Bytes
  length_bytes : bytes.length = size.byteCount

namespace Transform

/-- The pixels of a frame with their colours changed, each in the place of one
    of a surface. What the surface has beyond them stays. -/
def cover (t : Transform) : (frame surface : Bytes) → Bytes
  | r :: g :: b :: a :: frame, _ :: _ :: _ :: _ :: surface =>
    (t.pixel ⟨r, g, b, a⟩).toBytes ++ t.cover frame surface
  | _, surface => surface

/-- A surface keeps its length. -/
theorem length_cover (t : Transform) (frame surface : Bytes) :
    (t.cover frame surface).length = surface.length := by
  fun_induction cover t frame surface with
  | case1 r g b a frame _ _ _ _ surface ih =>
    rw [List.length_append, ih]
    simp [Pixel.toBytes]
    omega
  | case2 => rfl

theorem bytes_pixel (t : Transform) (r g b a : UInt8) (frame : Bytes) :
    t.bytes (r :: g :: b :: a :: frame) = (t.pixel ⟨r, g, b, a⟩).toBytes ++ t.bytes frame := rfl

/-- What holds one more pixel begins with one. -/
theorem exists_pixel {n : Nat} {frame : Bytes} (h : frame.length = (n + 1) * 4) :
    ∃ r g b a rest, frame = r :: g :: b :: a :: rest ∧ rest.length = n * 4 := by
  match frame, h with
  | r :: g :: b :: a :: rest, h =>
    simp only [List.length_cons] at h
    exact ⟨r, g, b, a, rest, rfl, by omega⟩
  | [], h | [_], h | [_, _], h | [_, _, _], h =>
    simp only [List.length_cons, List.length_nil] at h
    omega

/-- A frame with as many pixels as a surface leaves nothing of what was there. -/
theorem cover_eq_bytes (t : Transform) {n : Nat} {frame surface : Bytes}
    (hframe : frame.length = n * 4) (hsurface : surface.length = n * 4) :
    t.cover frame surface = t.bytes frame := by
  induction n generalizing frame surface with
  | zero =>
    obtain rfl := List.eq_nil_of_length_eq_zero (hframe.trans (Nat.zero_mul 4))
    obtain rfl := List.eq_nil_of_length_eq_zero (hsurface.trans (Nat.zero_mul 4))
    rfl
  | succ n ih =>
    obtain ⟨r, g, b, a, frame, rfl, hrest⟩ := exists_pixel hframe
    obtain ⟨_, _, _, _, surface, rfl, hbeneath⟩ := exists_pixel hsurface
    rw [cover, bytes_pixel, ih hrest hbeneath]

end Transform

namespace Surface

/-- A surface on which there is nothing yet. -/
def blank (size : FrameSize) : Surface :=
  ⟨size, List.replicate size.byteCount 0, List.length_replicate⟩

/-- A surface with a frame written over it. -/
def paint (s : Surface) (t : Transform) (frame : Bytes) : Surface :=
  ⟨s.size, t.cover frame s.bytes, (t.length_cover frame s.bytes).trans s.length_bytes⟩

/-- A surface under a frame of its size holds this frame and nothing else. -/
theorem bytes_paint (s : Surface) (t : Transform) {frame : Bytes}
    (h : frame.length = s.size.byteCount) : (s.paint t frame).bytes = t.bytes frame :=
  t.cover_eq_bytes h s.length_bytes

end Surface

/-! ## The filter -/

/-- A grading and what is kept between frames: the surface that the last one
    was written over, and how many surfaces were made. -/
structure FrameFilter where
  grading : Grading
  surface : Option Surface
  allocations : Nat

namespace FrameFilter

/-- A filter that has seen no frame. -/
def ofGrading (g : Grading) : FrameFilter := ⟨g, none, 0⟩

/-- A filter with a surface of a size: its own one if that has this size, else
    a new one. -/
def withSurface (f : FrameFilter) (size : FrameSize) : FrameFilter × Surface :=
  let anew := ({ f with allocations := f.allocations + 1 }, Surface.blank size)
  match f.surface with
  | some s => if s.size = size then (f, s) else anew
  | none => anew

/-- Why a frame is refused: it does not have its size. -/
def refusal (size : FrameSize) (frame : Bytes) : Failure :=
  .conversion (s!"Frame of {Number.text frame.length} bytes does not match " ++
    s!"{size.text} RGBA ({Number.text size.byteCount} bytes)")

/-- What a frame becomes, and the filter after it. A frame that does not have
    its size is refused before anything is touched. -/
def apply (f : FrameFilter) (size : FrameSize) (frame : Bytes) :
    Except Failure Bytes × FrameFilter :=
  if frame.length = size.byteCount then
    let (f, surface) := f.withSurface size
    let painted := surface.paint f.grading.transform frame
    (.ok painted.bytes, { f with surface := some painted })
  else (.error (refusal size frame), f)

theorem size_withSurface (f : FrameFilter) (size : FrameSize) :
    (f.withSurface size).2.size = size := by
  unfold withSurface
  split
  · split
    · assumption
    · rfl
  · rfl

theorem grading_withSurface (f : FrameFilter) (size : FrameSize) :
    (f.withSurface size).1.grading = f.grading := by
  unfold withSurface
  split
  · split <;> rfl
  · rfl

/-- What a frame becomes does not depend on the frames before it. -/
theorem apply_fst (f : FrameFilter) (size : FrameSize) (frame : Bytes) :
    (f.apply size frame).1 =
      if frame.length = size.byteCount then .ok (f.grading.transform.bytes frame)
      else .error (refusal size frame) := by
  unfold apply
  split
  case isTrue h =>
    have hsize : frame.length = (f.withSurface size).2.size.byteCount := by
      rw [size_withSurface, h]
    simp only [grading_withSurface, Surface.bytes_paint _ _ hsize]
  case isFalse => rfl

/-- No frame changes the grading. -/
theorem grading_apply (f : FrameFilter) (size : FrameSize) (frame : Bytes) :
    (f.apply size frame).2.grading = f.grading := by
  unfold apply
  split
  · exact f.grading_withSurface size
  · rfl

end FrameFilter

end VideoExport
