import VideoExport.Frame.Filter
import VideoExport.Proofs.Frame.Attempts

/-!
# Frames through a filter

A filter keeps a surface and a count, but no frame ever shows what came before it: all of a
surface is written over. A frame that is refused is not even counted.

* `apply_accepted`: a frame that is taken is what the surface holds afterwards;
* `renewals`: how often a size differs from the one before it;
* `attempts_give`: any number of frames.
-/

namespace VideoExport

/-- A frame and the size it is said to have. -/
structure SizedFrame where
  size : FrameSize
  bytes : Bytes
  deriving DecidableEq, Repr

/-- Whether a frame has the size it is said to have. -/
def SizedFrame.fits (frame : SizedFrame) : Bool := frame.bytes.length == frame.size.byteCount

/-! ## What is seen through -/

/-- Every fourth byte is what a pixel is seen through, and stays as it is. -/
theorem Transform.getElem?_bytes (t : Transform) {n : ℕ} {frame : Bytes}
    (h : frame.length = n * 4) (i : ℕ) : (t.bytes frame)[4 * i + 3]? = frame[4 * i + 3]? := by
  induction n generalizing frame i with
  | zero =>
    obtain rfl := List.eq_nil_of_length_eq_zero (h.trans (Nat.zero_mul 4))
    rfl
  | succ n ih =>
    obtain ⟨r, g, b, a, frame, rfl, hrest⟩ := exists_pixel h
    rw [bytes_pixel]
    cases i with
    | zero => rfl
    | succ i => exact ih hrest i

theorem Transform.length_bytes (t : Transform) {n : ℕ} {frame : Bytes}
    (h : frame.length = n * 4) : (t.bytes frame).length = frame.length := by
  rw [← t.cover_eq_bytes h h, t.length_cover]

namespace FrameFilter

/-! ## One frame -/

/-- The size of the surface, if there is one. -/
def size? (f : FrameFilter) : Option FrameSize := f.surface.map Surface.size

/-- What a frame becomes, and the filter after it. -/
def give (f : FrameFilter) (frame : SizedFrame) : Except Failure Bytes × FrameFilter :=
  f.apply frame.size frame.bytes

/-- What a frame becomes in a new filter. -/
def alone (g : Grading) (frame : SizedFrame) : Except Failure Bytes :=
  ((ofGrading g).give frame).1

theorem give_fst {g : Grading} {f : FrameFilter} (hf : f.grading = g) (frame : SizedFrame) :
    (f.give frame).1 = alone g frame := by
  rw [alone, give, give, apply_fst, apply_fst, hf]
  rfl

/-- A frame is taken exactly if it has its size. -/
theorem alone_isOk_iff (g : Grading) (frame : SizedFrame) :
    (alone g frame).isOk = true ↔
      frame.bytes.length = 4 * (frame.size.width.toNat * frame.size.height.toNat) := by
  rw [alone, give, apply_fst, FrameSize.byteCount, FrameSize.area, Nat.mul_comm 4]
  split
  case isTrue h => exact iff_of_true rfl h
  case isFalse h => exact iff_of_false Bool.false_ne_true h

/-- What a frame becomes is as long as the frame, and is seen through like it. -/
theorem of_alone_eq_ok {g : Grading} {frame : SizedFrame} {out : Bytes}
    (h : alone g frame = .ok out) :
    out.length = frame.bytes.length ∧ ∀ i, out[4 * i + 3]? = frame.bytes[4 * i + 3]? := by
  rw [alone, give, apply_fst] at h
  split at h
  case isTrue hlength =>
    obtain rfl := Except.ok.inj h
    exact ⟨Transform.length_bytes _ hlength, Transform.getElem?_bytes _ hlength⟩
  case isFalse => cases h

/-- A frame that is refused leaves the filter as it was. -/
theorem give_refused (f : FrameFilter) {frame : SizedFrame} (h : frame.fits = false) :
    (f.give frame).2 = f := by
  have hlength : ¬ frame.bytes.length = frame.size.byteCount := by
    simpa [SizedFrame.fits] using h
  rw [give, apply, if_neg hlength]

/-- A frame that is taken is what the surface holds afterwards. -/
theorem surface_give (f : FrameFilter) {frame : SizedFrame} {out : Bytes}
    (h : (f.give frame).1 = .ok out) :
    (f.give frame).2.surface.map (fun s => (s.size, s.bytes)) = some (frame.size, out) := by
  rw [give, apply] at h ⊢
  split at h
  case isTrue hlength =>
    rw [if_pos hlength, ← Except.ok.inj h]
    exact congrArg (fun size => some (size, _)) (f.size_withSurface frame.size)
  case isFalse => cases h

theorem size?_give (f : FrameFilter) {frame : SizedFrame} (h : frame.fits = true) :
    (f.give frame).2.size? = some frame.size := by
  have hlength : frame.bytes.length = frame.size.byteCount := by
    simpa [SizedFrame.fits] using h
  have hgiven : (f.give frame).1 = .ok (f.grading.transform.bytes frame.bytes) := by
    rw [give, apply_fst, if_pos hlength]
  simpa [size?] using congrArg (Option.map Prod.fst) (f.surface_give hgiven)

/-- A surface is made for a frame exactly if the one that is there has another size. -/
theorem allocations_give (f : FrameFilter) {frame : SizedFrame} (h : frame.fits = true) :
    (f.give frame).2.allocations =
      f.allocations + if f.size? = some frame.size then 0 else 1 := by
  have hlength : frame.bytes.length = frame.size.byteCount := by
    simpa [SizedFrame.fits] using h
  have hcount : (f.withSurface frame.size).1.allocations =
      f.allocations + if f.size? = some frame.size then 0 else 1 := by
    rw [withSurface, size?]
    cases f.surface with
    | none => rfl
    | some s =>
      by_cases hsize : s.size = frame.size
      · simp [hsize]
      · simp [hsize]
  rw [give, apply, if_pos hlength]
  exact hcount

/-! ## Any number of frames -/

/-- How often a size differs from the one before it, after a first one. -/
def renewals (before : Option FrameSize) (sizes : List FrameSize) : ℕ :=
  ((before :: sizes.map some).zip sizes).countP fun (last, size) => last ≠ some size

theorem renewals_cons (before : Option FrameSize) (size : FrameSize) (sizes : List FrameSize) :
    renewals before (size :: sizes) =
      (if before = some size then 0 else 1) + renewals (some size) sizes := by
  rw [renewals, List.map_cons, List.zip_cons_cons, List.countP_cons, Nat.add_comm]
  congr 1
  by_cases h : before = some size <;> simp [h]

/-- The surfaces that frames of their sizes make are counted by the changes of size. -/
theorem allocations_attempts (f : FrameFilter) {frames : List SizedFrame}
    (h : ∀ frame ∈ frames, frame.fits = true) :
    (attempts give f frames).2.allocations =
      f.allocations + renewals f.size? (frames.map SizedFrame.size) := by
  induction frames generalizing f with
  | nil => rfl
  | cons frame frames ih =>
    have hfits := h frame List.mem_cons_self
    rw [attempts_cons, List.map_cons, renewals_cons,
      ih (f.give frame).2 fun later hlater => h later (List.mem_cons_of_mem _ hlater),
      f.allocations_give hfits, f.size?_give hfits, Nat.add_assoc]

/-- Frames that a new filter is given know nothing of each other. Each becomes what it becomes
    in a filter of its own, and is refused there exactly if it does not have its size; what it
    becomes is seen through like the frame. After all of them the filter is as if those that were
    refused had never been given to it, and has made a surface for each that was taken after none
    or after one of another size. -/
theorem attempts_give (g : Grading) (frames : List SizedFrame) :
    let run := attempts give (ofGrading g) frames
    let taken := frames.filter fun frame => (alone g frame).isOk
    run.1 = frames.map (alone g) ∧
      (∀ frame, (alone g frame).isOk = true ↔
        frame.bytes.length = 4 * (frame.size.width.toNat * frame.size.height.toNat)) ∧
      run.2 = (attempts give (ofGrading g) taken).2 ∧
      (∀ frame out, alone g frame = .ok out →
        out.length = frame.bytes.length ∧ ∀ i, out[4 * i + 3]? = frame.bytes[4 * i + 3]?) ∧
      run.2.allocations = renewals none (taken.map SizedFrame.size) := by
  intro run taken
  have hgrading : ∀ {f : FrameFilter}, f.grading = g → ∀ frame, (f.give frame).2.grading = g :=
    fun hf frame => (grading_apply _ _ _).trans hf
  have hfits : ∀ frame : SizedFrame, (alone g frame).isOk = frame.fits := fun frame => by
    rw [Bool.eq_iff_iff, alone_isOk_iff]
    simp [SizedFrame.fits, FrameSize.byteCount, FrameSize.area, Nat.mul_comm]
  have hlast : run.2 = (attempts give (ofGrading g) taken).2 :=
    attempts_snd (p := fun f => f.grading = g) hgrading
      (fun {f} _ {frame} hrefused => f.give_refused (hfits frame ▸ hrefused)) rfl frames
  have htaken : ∀ frame ∈ taken, frame.fits = true := fun frame hframe =>
    hfits frame ▸ (List.mem_filter.1 hframe).2
  refine ⟨attempts_fst (p := fun f => f.grading = g) hgrading (fun hf => give_fst hf) rfl frames,
    alone_isOk_iff g, hlast, fun frame out h => of_alone_eq_ok h, ?_⟩
  rw [hlast, allocations_attempts _ htaken]
  exact Nat.zero_add _

/-- A frame and one with its sides exchanged have equally many bytes but not the same surface,
    and one that is too short does not come between two of the same size. -/
theorem attempts_give_sample :
    let g : Grading := ⟨1.2, 1.0, 0.0, 30.0⟩
    let wide : SizedFrame := ⟨⟨2, 1⟩, [255, 0, 0, 255, 0, 255, 0, 7]⟩
    let high : SizedFrame := ⟨⟨1, 2⟩, [1, 2, 3, 4, 5, 6, 7, 8]⟩
    let short : SizedFrame := ⟨⟨2, 2⟩, [0, 0, 0, 0, 0, 0, 0, 0]⟩
    let run := attempts give (ofGrading g) [wide, short, wide, high, short, wide]
    run.2.allocations = 3 ∧
      ∃ out, alone g wide = .ok out ∧ run.1[5]? = some (.ok out) ∧ out[7]? = some 7 := by
  intro g wide high short run
  obtain ⟨hresults, hisOk, -, hout, hcount⟩ :=
    attempts_give g [wide, short, wide, high, short, wide]
  have hwide : (alone g wide).isOk = true := (hisOk wide).2 (by decide)
  have hhigh : (alone g high).isOk = true := (hisOk high).2 (by decide)
  have hshort : (alone g short).isOk = false :=
    Bool.eq_false_iff.2 fun h => absurd ((hisOk short).1 h) (by decide)
  refine ⟨?_, ?_⟩
  · rw [hcount]
    simp only [List.filter_cons, hwide, hhigh, hshort, if_true, Bool.false_eq_true, if_false,
      List.filter_nil]
    rfl
  · cases halone : alone g wide with
    | error failure =>
      rw [halone] at hwide
      cases hwide
    | ok out =>
      refine ⟨out, rfl, ?_, (hout wide out halone).2 1⟩
      rw [hresults, ← halone]
      rfl

end FrameFilter

end VideoExport
