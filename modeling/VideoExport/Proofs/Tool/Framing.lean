import Mathlib
import VideoExport.Proofs.Job.Course
import VideoExport.Proofs.Tool.Geometry
import VideoExport.Tool.Backend

/-!
# Framing

However the bytes of a program are delivered, its frames are the same: the
slices of a frame's length, one after the other, and what is left at the end is
no frame. Each of them goes its way by itself: the question whether to end comes
first, then the frame is filtered and passed on, then it is reported. The start
comes with the first one.

* `FrameSize.slices`, `wholeFrames_eq_slices`: frames do not depend on where
  deliveries end;
* `Pump.course`: what happens on the way of so many frames;
* `Pump.run_leads`: frames that are passed on;
* `Pump.all_leads`: all frames of a program, to their end or to a question that
  is answered yes.
-/

namespace VideoExport

/-- The whole frames of a size in some bytes. -/
def FrameSize.slices (size : FrameSize) (bytes : Bytes) : List Bytes :=
  (List.range (bytes.length / size.byteCount)).map fun i =>
    (bytes.drop (i * size.byteCount)).take size.byteCount

/-- What can be passed on in one go can be passed on in two. -/
theorem foldlM_append_eq_ok_iff {σ β ε : Type} {f : σ → β → Except ε σ} {s t : σ} {l l' : List β} :
    (l ++ l').foldlM f s = .ok t ↔ ∃ u, l.foldlM f s = .ok u ∧ l'.foldlM f u = .ok t := by
  rw [List.foldlM_append]
  cases l.foldlM f s with
  | error e => exact iff_of_false (fun h => by cases h) (fun ⟨_, h, _⟩ => by cases h)
  | ok u => exact ⟨fun h => ⟨u, rfl, h⟩, fun ⟨_, h, h'⟩ => Except.ok.inj h ▸ h'⟩

section

variable {n : ℕ} {filled frame : Bytes} {stream rest : List Delivery} {size : FrameSize}

/-! ## Frames -/

/-- There is no other frame exactly if too few bytes are left. -/
theorem nextFrame?_eq_none_iff (hfilled : filled.length < n) :
    nextFrame? n filled stream = none ↔ filled.length + (Delivery.output stream).length < n := by
  induction stream generalizing filled with
  | nil => simpa [nextFrame?, Delivery.output] using hfilled
  | cons d stream ih =>
    cases d with
    | interrupted => exact ih hfilled
    | bytes first more =>
      have houtput : Delivery.output (.bytes first more :: stream) =
          first :: more ++ Delivery.output stream := rfl
      simp only [nextFrame?, List.length_take]
      split
      case isTrue hshort =>
        have hdata : (filled ++ first :: more).length < n := by omega
        rw [ih hdata, houtput, List.length_append, List.length_append, Nat.add_assoc]
      case isFalse hfull =>
        rw [houtput, List.length_append]
        rw [List.length_append] at hfull
        exact iff_of_false (Option.some_ne_none _) (by omega)

/-- The next frame is made of the first bytes that are still to be read, and the others
    remain. -/
theorem eq_of_nextFrame? (h : nextFrame? n [] stream = some (frame, rest)) :
    n ≤ (Delivery.output stream).length ∧ frame = (Delivery.output stream).take n ∧
      Delivery.output rest = (Delivery.output stream).drop n := by
  have houtput : frame ++ Delivery.output rest = Delivery.output stream := nextFrame?_output h
  have hlength : frame.length = n := length_nextFrame? h
  rw [← houtput]
  refine ⟨by simp [hlength], ?_, ?_⟩
  · rw [List.take_left' hlength]
  · rw [List.drop_left' hlength]

/-- As long as a frame holds anything, every frame that is read leaves less to be read. -/
theorem length_output_lt_of_nextFrame? (hn : 0 < n)
    (h : nextFrame? n [] stream = some (frame, rest)) :
    (Delivery.output rest).length < (Delivery.output stream).length := by
  obtain ⟨hle, -, hrest⟩ := eq_of_nextFrame? h
  rw [hrest, List.length_drop]
  omega

theorem frames_eq (hn : 0 < n) {limit : ℕ} (hlimit : (Delivery.output stream).length / n ≤ limit) :
    frames n limit stream = (List.range ((Delivery.output stream).length / n)).map fun i =>
      ((Delivery.output stream).drop (i * n)).take n := by
  induction limit generalizing stream with
  | zero => simp [frames, Nat.le_zero.1 hlimit]
  | succ limit ih =>
    rw [frames]
    cases hnext : nextFrame? n [] stream with
    | none =>
      have hshort := (nextFrame?_eq_none_iff (by simpa using hn)).1 hnext
      rw [Nat.div_eq_of_lt (by simpa using hshort)]
      rfl
    | some next =>
      obtain ⟨frame, rest⟩ := next
      obtain ⟨hle, rfl, hrest⟩ := eq_of_nextFrame? hnext
      have hcount : (Delivery.output stream).length / n =
          (Delivery.output rest).length / n + 1 := by
        rw [hrest, List.length_drop, ← Nat.div_eq_sub_div hn hle]
      have hdrop : ∀ i, ((Delivery.output rest).drop (i * n)).take n =
          ((Delivery.output stream).drop ((i + 1) * n)).take n := by
        intro i
        rw [hrest, List.drop_drop, Nat.add_mul, Nat.one_mul, Nat.add_comm]
      rw [hcount, List.range_succ_eq_map, List.map_cons, List.map_map]
      simp only
      rw [ih (by omega)]
      simp [hdrop, Function.comp_def]

/-- However bytes are delivered, their frames are the same. -/
theorem wholeFrames_eq_slices (hsize : 0 < size.byteCount) (hfits : size.byteCount < UInt64.size)
    (stream : List Delivery) : wholeFrames size stream = size.slices (Delivery.output stream) := by
  rw [wholeFrames, FrameSize.bufferLength_eq hfits]
  exact frames_eq hsize (Nat.div_le_self _ _)

theorem length_of_mem_slices {bytes : Bytes} (h : frame ∈ size.slices bytes) :
    frame.length = size.byteCount := by
  obtain ⟨i, hi, rfl⟩ := List.mem_map.1 h
  have hle : (i + 1) * size.byteCount ≤ bytes.length :=
    (Nat.mul_le_mul_right _ (List.mem_range.1 hi)).trans (Nat.div_mul_le_self _ _)
  rw [Nat.add_mul, Nat.one_mul] at hle
  rw [List.length_take, List.length_drop]
  omega

/-- All bytes are in frames but those of a piece of one at the end. -/
theorem flatten_slices (size : FrameSize) (bytes : Bytes) :
    (size.slices bytes).flatten =
      bytes.take (bytes.length / size.byteCount * size.byteCount) := by
  rw [FrameSize.slices]
  induction bytes.length / size.byteCount with
  | zero => simp
  | succ k ih =>
    rw [List.range_succ, List.map_append, List.flatten_append, ih, Nat.add_mul, Nat.one_mul,
      List.take_add]
    simp

/-! ## The filter -/

/-- What a frame becomes by a change of colours, if there is one. -/
def filtered (g : Option Grading) (frame : Bytes) : Bytes :=
  g.elim frame fun g => g.transform.bytes frame

/-- A filter takes frames that have their size, and its change of colours stays the same. -/
theorem exists_graded (filter : Option FrameFilter) (hframe : frame.length = size.byteCount) :
    ∃ filter', graded filter size frame = .ok (filtered (filter.map (·.grading)) frame, filter') ∧
      filter'.map (·.grading) = filter.map (·.grading) := by
  cases filter with
  | none => exact ⟨none, rfl, rfl⟩
  | some f =>
    obtain ⟨⟨result, f'⟩, happly⟩ : ∃ pair, f.apply size frame = pair := ⟨_, rfl⟩
    have hresult : result = .ok (f.grading.transform.bytes frame) := by
      have hfst := f.apply_fst size frame
      rwa [happly, if_pos hframe] at hfst
    have hgrading : f'.grading = f.grading := by
      have hkeep := f.grading_apply size frame
      rwa [happly] at hkeep
    refine ⟨some f', ?_, congrArg some hgrading⟩
    rw [graded, happly, hresult]
    rfl

end

namespace Pump

variable {σ α : Type} {p : Pump σ}

/-! ## On the way -/

/-- What happens on the way of so many frames: before each of them the question whether to end, the
    start with the first one, and after each of them a report of its number and of the share of
    those that are expected. -/
def course (expected : Float) (count : ℕ) : List Happening :=
  (List.range count).flatMap fun i =>
    .asked false :: ((if i = 0 then [.started] else []) ++
      [.reported ⟨Float.ofNat (i + 1) / expected, some (UInt64.ofNat (i + 1))⟩])

theorem course_succ (expected : Float) (count : ℕ) :
    course expected (count + 1) = course expected count ++ (.asked false ::
      ((if count = 0 then [.started] else []) ++
        [.reported ⟨Float.ofNat (count + 1) / expected, some (UInt64.ofNat (count + 1))⟩])) := by
  rw [course, List.range_succ, List.flatMap_append, List.flatMap_singleton, ← course]

/-- A frame is taken if it can be filtered and passed on. -/
theorem take_eq_ok {state : State σ} {frame out : Bytes} {filter : Option FrameFilter} {made : σ}
    (hgraded : graded state.filter p.size frame = .ok (out, filter))
    (hemit : p.emit state.made out = .ok made) : p.take state frame = .ok ⟨filter, made⟩ := by
  rw [take, hgraded]
  show (do return ⟨filter, ← p.emit state.made out⟩ : Except Failure (State σ)) = _
  rw [hemit]
  rfl

/-- A frame that is taken leads on to the next one. -/
theorem leads_of_take {next : PumpEnd → State σ → Activity α} {count : ℕ} {state state' : State σ}
    {frame : Bytes} {rest : List Bytes} (h : p.take state frame = .ok state') :
    (p.run next count state (frame :: rest)).Leads
      (.asked false :: ((if count = 0 then [.started] else []) ++
        [.reported ⟨Float.ofNat (count + 1) / p.expected, some (UInt64.ofNat (count + 1))⟩]))
      (p.run next (count + 1) state' rest) := by
  refine .poll false ?_
  simp only [Bool.false_eq_true, if_false, step, h, sample]
  split
  · exact .started (.report (.stay _))
  · exact .report (.stay _)

/-- A question that is answered yes is the end, whatever frames are left. -/
theorem leads_cancelled {next : PumpEnd → State σ → Activity α} {count : ℕ} {state : State σ}
    (frames : List Bytes) :
    (p.run next count state frames).Leads [.asked true] (next .cancelled state) := by
  cases frames <;> exact .poll true (.stay _)

/-- Frames that have their size and can be passed on are passed on. -/
theorem run_leads (state : State σ) {frames : List Bytes} {made : σ}
    (hframes : ∀ frame ∈ frames, frame.length = p.size.byteCount)
    (hemit : (frames.map (filtered (state.filter.map (·.grading)))).foldlM p.emit state.made =
      .ok made) :
    ∃ final, final.made = made ∧ final.filter.map (·.grading) = state.filter.map (·.grading) ∧
      ∀ {α : Type} (next : PumpEnd → State σ → Activity α) (rest : List Bytes),
        (p.run next 0 state (frames ++ rest)).Leads (course p.expected frames.length)
          (p.run next frames.length final rest) := by
  -- By induction on the frames from behind, as reports go by the number of those before.
  induction frames using List.reverseRecOn generalizing made with
  | nil =>
    cases hemit
    exact ⟨state, rfl, rfl, fun next rest => .stay _⟩
  | append_singleton frames frame ih =>
    rw [List.map_append, foldlM_append_eq_ok_iff] at hemit
    obtain ⟨before, hbefore, hlast⟩ := hemit
    simp only [List.map_singleton, List.foldlM_cons, List.foldlM_nil, bind_pure] at hlast
    obtain ⟨middle, rfl, hgrading, hleads⟩ :=
      ih (fun f hf => hframes f (List.mem_append_left _ hf)) hbefore
    obtain ⟨filter, hgraded, hfilter⟩ := exists_graded middle.filter
      (hframes frame (List.mem_append_right _ (List.mem_singleton_self frame)))
    rw [← hgrading] at hlast
    refine ⟨⟨filter, made⟩, rfl, hfilter.trans hgrading, fun next rest => ?_⟩
    rw [List.append_assoc, List.length_append, List.length_singleton, course_succ]
    exact (hleads next _).trans (leads_of_take (take_eq_ok hgraded hlast))

/-- However its bytes are delivered, the frames of a program are the slices of a frame's
    length, one after the other, without the piece that is left at the end. If the filtered
    ones can all be passed on, then they are, in this order, with the start before the first
    report and a report of its number for each one; and that is all if no question is answered
    yes. If only so many questions are answered no before one is answered yes, it is so of as
    many frames, and then comes the end. It is so of every size with a number of bytes that is a
    word. -/
theorem all_leads (hwidth : 0 < p.size.width) (hheight : 0 < p.size.height)
    (hfits : 4 * (p.size.width.toNat * p.size.height.toNat) < 2 ^ 64) (stream : List Delivery)
    (filter : Option FrameFilter) {made last : σ}
    (hemit : ((p.size.slices (Delivery.output stream)).map
      (filtered (filter.map (·.grading)))).foldlM p.emit made = .ok last) :
    let output := Delivery.output stream
    let count := output.length / p.size.byteCount
    let frames := (p.size.slices output).map (filtered (filter.map (·.grading)))
    (∃ dropped, output = (p.size.slices output).flatten ++ dropped ∧
        dropped.length < p.size.byteCount) ∧
      frames.length = count ∧
      (∃ final, final.made = last ∧ ∀ (α : Type) (next : PumpEnd → State σ → Activity α),
        (p.all stream ⟨filter, made⟩ next).Leads (course p.expected count ++ [.asked false])
          (next (.finished (UInt64.ofNat count)) final)) ∧
      ∀ answered ≤ count, ∃ final,
        (frames.take answered).foldlM p.emit made = .ok final.made ∧
          ∀ (α : Type) (next : PumpEnd → State σ → Activity α),
            (p.all stream ⟨filter, made⟩ next).Leads (course p.expected answered ++ [.asked true])
              (next .cancelled final) := by
  intro output count frames
  have hsize : 0 < p.size.byteCount := FrameSize.byteCount_pos_iff.2 ⟨hwidth, hheight⟩
  have hword : p.size.byteCount < UInt64.size := by
    rwa [Nat.mul_comm] at hfits
  have hall : ∀ (α : Type) (state : State σ) (next : PumpEnd → State σ → Activity α),
      p.all stream state next = p.run next 0 state (p.size.slices output) := by
    intro α state next
    have hbuffer : p.size.bufferLength ≠ 0 := by
      rw [FrameSize.bufferLength_eq hword]
      exact hsize.ne'
    rw [all, if_neg hbuffer, wholeFrames_eq_slices hsize hword]
  have hcount : (p.size.slices output).length = count := by
    rw [FrameSize.slices, List.length_map, List.length_range]
  refine ⟨⟨output.drop (count * p.size.byteCount), ?_, ?_⟩, ?_, ?_, fun answered hle => ?_⟩
  · rw [flatten_slices, List.take_append_drop]
  · rw [List.length_drop, Nat.mul_comm, ← Nat.mod_eq_sub]
    exact Nat.mod_lt _ hsize
  · rw [List.length_map, hcount]
  · obtain ⟨final, hmade, -, hleads⟩ :=
      run_leads ⟨filter, made⟩ (fun _ => length_of_mem_slices) hemit
    refine ⟨final, hmade, fun α next => ?_⟩
    have hend := hleads next []
    rw [List.append_nil, hcount] at hend
    rw [hall]
    exact hend.trans (.poll false (.stay _))
  · obtain ⟨between, hbetween, -⟩ : ∃ between,
        (frames.take answered).foldlM p.emit made = .ok between ∧
          (frames.drop answered).foldlM p.emit between = .ok last := by
      rw [← foldlM_append_eq_ok_iff, List.take_append_drop]
      exact hemit
    rw [← List.map_take] at hbetween
    obtain ⟨final, hmade, -, hleads⟩ := run_leads ⟨filter, made⟩
      (fun f hf => length_of_mem_slices (List.mem_of_mem_take hf)) hbetween
    refine ⟨final, by rw [hmade, ← List.map_take, hbetween], fun α next => ?_⟩
    have hend := hleads next ((p.size.slices output).drop answered)
    rw [List.take_append_drop, List.length_take, hcount, min_eq_left hle] at hend
    rw [hall]
    exact hend.trans (leads_cancelled _)

/-- Two frames of two pixels come in three deliveries, with an interruption, and a piece of a
    third one is dropped. The second question may be answered yes as well. -/
theorem all_leads_sample :
    let p : Pump (List Bytes) := ⟨⟨2, 1⟩, fun made frame => .ok (made ++ [frame]), 2.0⟩
    let stream : List Delivery := [.bytes 255 [0, 0], .interrupted,
      .bytes 255 [0, 255, 0, 255, 0, 0, 255, 255], .bytes 9 [9, 9, 9, 1, 2, 3]]
    let first : Bytes := [255, 0, 0, 255, 0, 255, 0, 255]
    let second : Bytes := [0, 0, 255, 255, 9, 9, 9, 9]
    let way := p.all stream ⟨none, []⟩ fun end_ state => Activity.ok (end_, state.made)
    0 < p.size.width ∧ 0 < p.size.height ∧
      4 * (p.size.width.toNat * p.size.height.toNat) < 2 ^ 64 ∧
      ((p.size.slices (Delivery.output stream)).map (filtered none)).foldlM p.emit [] =
        .ok [first, second] ∧
      (∃ dropped, Delivery.output stream = first ++ second ++ dropped ∧ dropped.length < 8) ∧
      way.Leads [.asked false, .started, .reported ⟨0.5, some 1⟩, .asked false,
        .reported ⟨1.0, some 2⟩, .asked false] (.ok (.finished 2, [first, second])) ∧
      way.Leads [.asked false, .started, .reported ⟨0.5, some 1⟩, .asked true]
        (.ok (.cancelled, [first])) := by
  intro p stream first second way
  have hwidth : 0 < p.size.width := by decide
  have hheight : 0 < p.size.height := by decide
  have hfits : 4 * (p.size.width.toNat * p.size.height.toNat) < 2 ^ 64 := by decide
  have hslices : p.size.slices (Delivery.output stream) = [first, second] := by decide +kernel
  have hemit : ((p.size.slices (Delivery.output stream)).map (filtered none)).foldlM p.emit [] =
      .ok [first, second] := by
    rw [hslices]
    rfl
  have hcount : (Delivery.output stream).length / p.size.byteCount = 2 := by decide +kernel
  have hhalf : Float.ofNat (0 + 1) / 2.0 = 0.5 := by decide +kernel
  have hwhole : Float.ofNat (1 + 1) / 2.0 = 1.0 := by decide +kernel
  have hcourse : course 2.0 1 = [.asked false, .started, .reported ⟨0.5, some 1⟩] := by
    rw [← hhalf]
    rfl
  obtain ⟨hdropped, -, ⟨final, hmade, hleads⟩, hcancelled⟩ :=
    all_leads hwidth hheight hfits stream none hemit
  rw [hslices] at hdropped hcancelled
  have hend := hleads _ fun end_ state => Activity.ok (end_, state.made)
  rw [hcount, hmade, course_succ, hcourse, hwhole] at hend
  obtain ⟨between, hbetween, hstopped⟩ := hcancelled 1 (by rw [hcount]; decide)
  have hstop := hstopped _ fun end_ state => Activity.ok (end_, state.made)
  rw [← Except.ok.inj hbetween, hcourse] at hstop
  exact ⟨hwidth, hheight, hfits, hemit, hdropped, hend, hstop⟩

end Pump

end VideoExport
