import VideoExport.Frame.Filter
import VideoExport.Job.Activity

/-!
# Frames out of deliveries

A program writes frames without marks between them, and a read may end anywhere:
inside a frame, at its end or after it. Reading goes on until a frame is full;
what is left of the last delivery belongs to the next one.

* `nextFrame?`: the next frame, and what is still to be read;
* `nextFrame?_output`: bytes are neither lost nor invented;
* `length_nextFrame?`: a frame is full;
* `FrameSize.bufferLength`: how many bytes are read for a frame;
* `wholeFrames`: the frames of a size, without a piece of one at the end.
-/

namespace VideoExport

/-- The next frame of `n` bytes, some of which have been read before, and what
    is delivered after it. -/
def nextFrame? (n : Nat) : (filled : Bytes) → List Delivery → Option (Bytes × List Delivery)
  | _, [] => none
  | filled, .interrupted :: rest => nextFrame? n filled rest
  | filled, .bytes first more :: rest =>
    let data := filled ++ first :: more
    let frame := data.take n
    if frame.length < n then nextFrame? n data rest
    else some (frame, Delivery.ofBytes (data.drop n) ++ rest)

/-- The frame and what is still to be read are all that has been read before and
    all that is delivered. -/
theorem nextFrame?_output {n : Nat} {filled frame : Bytes} {stream rest : List Delivery}
    (h : nextFrame? n filled stream = some (frame, rest)) :
    frame ++ Delivery.output rest = filled ++ Delivery.output stream := by
  induction stream generalizing filled with
  | nil => simp [nextFrame?] at h
  | cons d stream ih =>
    cases d with
    | interrupted => exact ih h
    | bytes first more =>
      simp only [nextFrame?] at h
      split at h
      · rw [ih h]
        simp [Delivery.output, Delivery.data]
      · cases h
        rw [Delivery.output_append, Delivery.output_ofBytes, ← List.append_assoc,
          List.take_append_drop]
        simp [Delivery.output, Delivery.data]

/-- A frame has as many bytes as it should have. -/
theorem length_nextFrame? {n : Nat} {filled frame : Bytes} {stream rest : List Delivery}
    (h : nextFrame? n filled stream = some (frame, rest)) : frame.length = n := by
  induction stream generalizing filled with
  | nil => simp [nextFrame?] at h
  | cons d stream ih =>
    cases d with
    | interrupted => exact ih h
    | bytes first more =>
      simp only [nextFrame?] at h
      split at h
      · exact ih h
      · rename_i hn
        cases h
        exact Nat.le_antisymm (List.length_take_le n _) (Nat.le_of_not_lt hn)

/-- The frames of `n` bytes, at most so many of them. -/
def frames (n : Nat) : (limit : Nat) → List Delivery → List Bytes
  | 0, _ => []
  | limit + 1, stream =>
    match nextFrame? n [] stream with
    | some (frame, rest) => frame :: frames n limit rest
    | none => []

/-- The length of the buffer that frames of a size are read into, reckoned in
    words of 64 bits. -/
def FrameSize.bufferLength (s : FrameSize) : Nat :=
  (s.width.toUInt64 * s.height.toUInt64 * 4).toNat

/-- The buffer holds a frame if the number of its bytes is a word. -/
theorem FrameSize.bufferLength_eq {s : FrameSize} (h : s.byteCount < UInt64.size) :
    s.bufferLength = s.byteCount := by
  have hbound : s.width.toNat * s.height.toNat * 4 < 2 ^ 64 := h
  have harea : s.width.toNat * s.height.toNat < 2 ^ 64 := by omega
  rw [bufferLength, UInt64.toNat_mul, UInt64.toNat_mul, UInt32.toNat_toUInt64,
    UInt32.toNat_toUInt64, Nat.mod_eq_of_lt harea]
  exact Nat.mod_eq_of_lt hbound

/-- A buffer for nothing is empty. -/
theorem FrameSize.bufferLength_eq_zero {s : FrameSize} (h : s.byteCount = 0) :
    s.bufferLength = 0 :=
  (bufferLength_eq (h ▸ by decide)).trans h

/-- The whole frames of a size in what a program delivers. There are not more of
    them than bytes, as none is empty, and a piece of a frame at the end is
    dropped. -/
def wholeFrames (size : FrameSize) (stream : List Delivery) : List Bytes :=
  frames size.bufferLength (Delivery.output stream).length stream

end VideoExport
