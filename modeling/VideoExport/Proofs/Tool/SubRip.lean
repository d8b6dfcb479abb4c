import VideoExport.Proofs.Number.Exact
import VideoExport.Proofs.Number.Field
import VideoExport.Proofs.Tool.Blocks
import VideoExport.Timecode

/-!
# Subtitles as text

Subtitles are written as numbered blocks of lines, each with its times and its text, and what is
written so is read back. As blocks are read on their own, a block that is no subtitle does not
harm the others.

* `clock`, `time?_clock`: a number of milliseconds between colons;
* `HasLines`: texts that do not end a block;
* `render`: subtitles as a text;
* `cues_blockwise`: texts are read blockwise, whichever line ends they have, and what was
  rendered is read back.
-/

namespace VideoExport

open Number Text Text.Chars

/-- A subtitle with other times. -/
def Cue.map {α β : Type} (f : α → β) (c : Cue α) : Cue β := ⟨f c.start, f c.stop, c.text⟩

/-- The seconds of a time whose parts are all numbers, reckoned in quantities of any kind. -/
def ClockTime.seconds? (α : Type) [Quantity α] : ClockTime → Option α
  | ⟨.finite h, .finite m, .finite s⟩ =>
    some (Quantity.ofDecimal h * Quantity.ofNat 3600 + Quantity.ofDecimal m * Quantity.ofNat 60 +
      Quantity.ofDecimal s)
  | _ => none

/-- In the quantities that round, these are the seconds of the time. -/
theorem ClockTime.toFloat_of_seconds? {t : ClockTime} {x : Float} (h : t.seconds? Float = some x) :
    t.toFloat = x := by
  have hhour : (Quantity.ofNat 3600 : Float) = 3600.0 := by decide +kernel
  have hminute : (Quantity.ofNat 60 : Float) = 60.0 := by decide +kernel
  match t, h with
  | ⟨.finite _, .finite _, .finite _⟩, h =>
    rw [seconds?, hhour, hminute] at h
    exact Option.some.inj h

namespace Srt

/-! ## Times -/

/-- A number of milliseconds as hours, minutes, seconds and thousandths. -/
def clock (ms : ℕ) : List Char :=
  filledDigits 2 (ms / 3600000) ++ ':' :: (filledDigits 2 (ms / 60000 % 60) ++
    ':' :: (filledDigits 2 (ms / 1000 % 60) ++ ',' :: filledDigits 3 (ms % 1000)))

theorem mem_clock {ms : ℕ} {c : Char} (h : c ∈ clock ms) : c.isDigit = true ∨ c = ':' ∨ c = ',' := by
  simp only [clock, List.mem_append, List.mem_cons] at h
  rcases h with h | h | h | h | h | h | h
  · exact .inl (isDigit_of_mem_filledDigits h)
  · exact .inr (.inl h)
  · exact .inl (isDigit_of_mem_filledDigits h)
  · exact .inr (.inl h)
  · exact .inl (isDigit_of_mem_filledDigits h)
  · exact .inr (.inr h)
  · exact .inl (isDigit_of_mem_filledDigits h)

/-- A character that is no digit and no mark between digits is in no time. -/
theorem notMem_clock {ms : ℕ} {c : Char} (hdigit : c.isDigit = false) (hcolon : c ≠ ':')
    (hcomma : c ≠ ',') : c ∉ clock ms := by
  intro h
  rcases mem_clock h with h | h | h
  · rw [hdigit] at h
    cases h
  · exact hcolon h
  · exact hcomma h

theorem isBlank_of_mem_clock {ms : ℕ} {c : Char} (h : c ∈ clock ms) : isBlank c = false := by
  rcases mem_clock h with h | rfl | rfl
  · exact isBlank_of_isDigit h
  · rfl
  · rfl

theorem clock_ne_nil (ms : ℕ) : clock ms ≠ [] :=
  List.append_ne_nil_of_left_ne_nil (filledDigits_ne_nil 2 _) _

/-- What is read of the time of a number of milliseconds. -/
def clockTime (ms : ℕ) : ClockTime where
  hours := .finite ⟨false, ms / 3600000, 0⟩
  minutes := .finite ⟨false, ms / 60000 % 60, 0⟩
  seconds := .finite ⟨false, ms / 1000 % 60 * 1000 + ms % 1000, -3⟩

/-- The places of seconds may follow a comma as well as a point. -/
theorem splitOn_clock (ms : ℕ) :
    splitOn ':' ((clock ms).map fun c => if c = ',' then '.' else c) =
      [filledDigits 2 (ms / 3600000), filledDigits 2 (ms / 60000 % 60),
        filledDigits 2 (ms / 1000 % 60) ++ '.' :: filledDigits 3 (ms % 1000)] := by
  have hkeep : ∀ width n, (filledDigits width n).map (fun c => if c = ',' then '.' else c) =
      filledDigits width n := by
    intro width n
    refine (List.map_congr_left fun c hc => if_neg ?_).trans (List.map_id _)
    rintro rfl
    exact absurd (isDigit_of_mem_filledDigits hc) (by decide)
  have hcolon : ∀ width n, ':' ∉ filledDigits width n := fun width n hc =>
    absurd (isDigit_of_mem_filledDigits hc) (by decide)
  have hseconds : ':' ∉ filledDigits 2 (ms / 1000 % 60) ++ '.' :: filledDigits 3 (ms % 1000) := by
    simp [hcolon]
  have hmark : (if ':' = ',' then '.' else ':') = ':' := if_neg (by decide)
  simp only [clock, List.map_append, List.map_cons, hkeep, hmark, if_true]
  rw [splitOn_append_cons, splitOn_append_cons, splitOn_eq_singleton (hcolon _ _),
    splitOn_eq_singleton (hcolon _ _), splitOn_eq_singleton hseconds]
  rfl

/-- The time of a number of milliseconds is read with its parts, also with a blank after it. -/
theorem time?_clock (ms : ℕ) {s : List Char} (h : trim s = clock ms) :
    time? s = some (clockTime ms) := by
  rw [time?, h, splitOn_clock]
  simp only [Numeral.read?_filledDigits, Numeral.read?_filledPlaces _ (Nat.mod_lt ms (by decide : 1000 > 0))]
  rfl

/-- The seconds of a time that is read are those of its parts. -/
theorem toFloat_clockTime (ms : ℕ) :
    (clockTime ms).seconds? Float = some (clockTime ms).toFloat := by
  obtain ⟨x, hx⟩ : ∃ x, (clockTime ms).seconds? Float = some x := ⟨_, rfl⟩
  rw [hx, ClockTime.toFloat_of_seconds? hx]

/-- The parts of a time add up to its milliseconds. -/
theorem seconds?_clockTime (ms : ℕ) : (clockTime ms).seconds? ℚ = some ((ms : ℚ) / 1000) := by
  have hparts : (ms / 3600000 * 3600 + ms / 60000 % 60 * 60) * 1000 +
      (ms / 1000 % 60 * 1000 + ms % 1000) = ms := by omega
  have hvalue : ∀ (n : ℕ) (e : ℤ), (Quantity.ofDecimal ⟨false, n, e⟩ : ℚ) = n * 10 ^ e :=
    fun n e => rfl
  rw [clockTime, ClockTime.seconds?, hvalue, hvalue, hvalue, Quantity.ofNat_rat,
    Quantity.ofNat_rat, Option.some.injEq, eq_div_iff (by norm_num)]
  have hplaces : (10 : ℚ) ^ (-3 : ℤ) = 1 / 1000 := by norm_num
  conv_rhs => rw [← hparts]
  push_cast
  rw [hplaces]
  ring

/-! ## Texts of lines -/

/-- A text of lines, none of which is empty, if there are any. -/
def HasLines (text : List Char) : Prop :=
  ∃ ls : List (List Char), (∀ l ∈ ls, IsLine l) ∧ text = join '\n' ls

theorem isLine_of_notMem {l : List Char} (hne : l ≠ []) (hn : '\n' ∉ l) (hr : '\r' ∉ l) :
    IsLine l :=
  ⟨hne, hn, fun h => hr (List.mem_of_getLast? h)⟩

/-- Before a text of lines comes no line feed. -/
theorem HasLines.head?_ne {text : List Char} (h : HasLines text) : text.head? ≠ some '\n' := by
  obtain ⟨ls, hls, rfl⟩ := h
  cases ls with
  | nil => exact fun hc => nomatch hc
  | cons l ls =>
    have hl := hls l List.mem_cons_self
    obtain ⟨c, rest, rfl⟩ := List.exists_cons_of_ne_nil hl.ne_nil
    rw [join_cons_cons]
    exact fun hc => hl.notMem (Option.some.inj hc ▸ List.mem_cons_self)

/-- A text of lines is empty, a line, or a line before a text of lines that is not empty. -/
theorem HasLines.induct {motive : List Char → Prop} (nil : motive [])
    (line : ∀ l, IsLine l → motive l)
    (cons : ∀ l text, IsLine l → HasLines text → text ≠ [] → motive text →
      motive (l ++ '\n' :: text))
    {text : List Char} (h : HasLines text) : motive text := by
  obtain ⟨ls, hls, rfl⟩ := h
  induction ls with
  | nil => exact nil
  | cons l ls ih =>
    have hl := hls l List.mem_cons_self
    have hrest : ∀ k ∈ ls, IsLine k := fun k hk => hls k (List.mem_cons_of_mem _ hk)
    cases ls with
    | nil => exact line l hl
    | cons m ls =>
      refine cons l _ hl ⟨m :: ls, hrest, rfl⟩ ?_ (ih hrest)
      obtain ⟨c, m', rfl⟩ := List.exists_cons_of_ne_nil (hrest m List.mem_cons_self).ne_nil
      rw [join_cons_cons]
      exact List.cons_ne_nil _ _

/-- A text of lines does not end with any part of a line end. -/
theorem HasLines.getLast?_ne {text : List Char} (h : HasLines text) :
    text.getLast? ≠ some '\n' ∧ text.getLast? ≠ some '\r' := by
  refine HasLines.induct
    (motive := fun text => text.getLast? ≠ some '\n' ∧ text.getLast? ≠ some '\r')
    ⟨fun hc => (nomatch hc), fun hc => (nomatch hc)⟩
    (fun l hl => ⟨fun hc => hl.notMem (List.mem_of_getLast? hc), hl.getLast?_ne⟩)
    (fun l text _ _ hne ih => ?_) h
  have hlast : (l ++ '\n' :: text).getLast? = text.getLast? := by
    rw [List.getLast?_append, List.getLast?_cons, List.getLast?_eq_some_getLast hne]
    rfl
  rwa [hlast]

theorem HasLines.unifyLineEnds_eq {text : List Char} (h : HasLines text) :
    unifyLineEnds text = text := by
  refine HasLines.induct (motive := fun text => unifyLineEnds text = text) rfl
    (fun l hl => unifyLineEnds_eq_self (.inl hl.notMem)) (fun l text hl _ _ ih => ?_) h
  rw [unifyLineEnds_append hl.getLast?_ne, unifyLineEnds_eq_self (.inl hl.notMem), ih]

/-- A text of lines is part of one block. -/
theorem HasLines.resume_eq {text : List Char} (h : HasLines text) (begun : List Char) :
    resume begun text = [begun ++ text] := by
  revert begun
  refine HasLines.induct (motive := fun text => ∀ begun, resume begun text = [begun ++ text])
    (fun begun => ?_) (fun l hl begun => ?_) (fun l text hl htext _ ih begun => ?_) h
  · rw [resume_end, List.append_nil]
  · have happend := resume_append hl.notMem begun []
    rwa [List.append_nil, resume_end] at happend
  · rw [resume_line hl.notMem htext.head?_ne, ih]
    simp

theorem HasLines.join_lines {text : List Char} (h : HasLines text) : join '\n' (lines text) = text := by
  obtain ⟨ls, hls, rfl⟩ := h
  rw [lines_join hls]

/-! ## Subtitles as text -/

/-- The line of two times. -/
def timing (start stop : ℕ) : List Char := clock start ++ ' ' :: (arrow ++ ' ' :: clock stop)

/-- The block of a subtitle whose times are milliseconds: its number, its times, and its
    text. -/
def block (number : ℕ) (c : Cue ℕ) : List Char :=
  digits number ++ '\n' :: (timing c.start c.stop ++ '\n' :: c.text.toList)

/-- The blocks of subtitles that are numbered from a number on. -/
def renderFrom (number : ℕ) : List (Cue ℕ) → List Char
  | [] => []
  | c :: cs => block number c ++ '\n' :: '\n' :: renderFrom (number + 1) cs

/-- Subtitles as a text, in numbered blocks with an empty line after each of them. -/
def render (cs : List (Cue ℕ)) : String := String.ofList (renderFrom 1 cs)

theorem cutAround?_timing (start stop : ℕ) :
    cutAround? arrow (timing start stop) = some (clock start ++ [' '], ' ' :: clock stop) := by
  have hdash : '-' ∉ clock start ++ [' '] := by
    simpa using notMem_clock (by decide) (by decide) (by decide)
  rw [timing, List.append_cons]
  exact cutAround?_append hdash _

/-- The times of a subtitle are read from their line. -/
theorem times?_timing (start stop : ℕ) :
    times? (timing start stop) = some (clockTime start, clockTime stop) := by
  have hstart : trim (clock start ++ [' ']) = clock start :=
    trim_append_blank (fun _ => isBlank_of_mem_clock) rfl
  have hstop : words (' ' :: clock stop) = [clock stop] :=
    words_cons_blank (fun _ => isBlank_of_mem_clock) (clock_ne_nil stop) rfl
  have htrim : trim (clock stop) = clock stop := trim_eq_self fun _ => isBlank_of_mem_clock
  rw [times?, cutAround?_timing]
  simp only [Option.bind_eq_bind, Option.bind_some, time?_clock start hstart, hstop,
    List.headD_cons, time?_clock stop htrim]
  rfl

theorem isLine_timing (start stop : ℕ) : IsLine (timing start stop) := by
  have hnotMem : ∀ c, c.isDigit = false → c ≠ ':' → c ≠ ',' → c ∉ ' ' :: (arrow ++ [' ']) →
      c ∉ timing start stop := by
    intro c hdigit hcolon hcomma hmark h
    rw [timing, List.mem_append, List.mem_cons, List.mem_append, List.mem_cons] at h
    have hclock : ∀ ms, c ∉ clock ms := fun ms => notMem_clock hdigit hcolon hcomma
    simp only [List.mem_cons, List.mem_append, not_or] at hmark
    rcases h with h | h | h | h | h
    · exact hclock start h
    · exact hmark.1 h
    · exact hmark.2.1 h
    · exact hmark.1 h
    · exact hclock stop h
  exact isLine_of_notMem (List.append_ne_nil_of_left_ne_nil (clock_ne_nil start) _)
    (hnotMem _ (by decide) (by decide) (by decide) (by decide))
    (hnotMem _ (by decide) (by decide) (by decide) (by decide))

theorem isLine_digits (n : ℕ) : IsLine (digits n) :=
  isLine_of_notMem (digits_ne_nil n) (fun h => absurd (isDigit_of_mem_digits h) (by decide))
    fun h => absurd (isDigit_of_mem_digits h) (by decide)

section

variable {c : Cue ℕ} (h : HasLines c.text.toList) (number : ℕ)

include h

theorem blocks_block : blocks (block number c) = [block number c] := by
  have hhead : (timing c.start c.stop ++ '\n' :: c.text.toList).head? ≠ some '\n' := by
    rw [List.head?_append_of_ne_nil _ (isLine_timing _ _).ne_nil]
    exact fun hc => (isLine_timing _ _).notMem (List.mem_of_mem_head? hc)
  rw [← resume_nil, block, resume_line (isLine_digits number).notMem hhead,
    resume_line (isLine_timing _ _).notMem h.head?_ne, h.resume_eq]
  simp

/-- A block is read as its subtitle. -/
theorem cue?_block : cue? (block number c) = some (c.map clockTime) := by
  have hline := isLine_timing c.start c.stop
  have hlines : lines (block number c) =
      digits number :: timing c.start c.stop :: lines c.text.toList := by
    rw [block, lines_append_of_notMem (isLine_digits number).notMem (isLine_digits number).getLast?_ne,
      lines_append_of_notMem hline.notMem hline.getLast?_ne]
  -- The number is no line of times, and the line after it is one.
  have hnumber : (cutAround? arrow (digits number)).isNone = true := by
    rw [Option.isNone_iff_eq_none]
    exact cutAround?_eq_none fun hc => absurd (isDigit_of_mem_digits hc) (by decide)
  have htiming : ¬ (cutAround? arrow (timing c.start c.stop)).isNone = true := by
    rw [cutAround?_timing]
    exact Bool.false_ne_true
  have hskip : (lines (block number c)).dropWhile (fun l => (cutAround? arrow l).isNone) =
      timing c.start c.stop :: lines c.text.toList := by
    rw [hlines, List.dropWhile_cons, if_pos hnumber, List.dropWhile_cons, if_neg htiming]
  rw [cue?, hskip]
  simp only [times?_timing, Option.map_some, h.join_lines, String.ofList_toList]
  rfl

/-- A block does not end with a carriage return, nor with one and a line feed. The line feed it
    ends with if the subtitle has no text comes after the times. -/
theorem block_ends : (block number c).getLast? ≠ some '\r' ∧
    ∀ before, block number c ≠ before ++ ['\r', '\n'] := by
  have hline := isLine_timing c.start c.stop
  have htimes : (digits number ++ '\n' :: timing c.start c.stop).getLast? ≠ some '\r' := by
    rw [List.getLast?_append, List.getLast?_cons, List.getLast?_eq_some_getLast hline.ne_nil]
    exact fun hc => hline.getLast?_ne (by
      rw [List.getLast?_eq_some_getLast hline.ne_nil]; exact hc)
  obtain hnil | hne := eq_or_ne c.text.toList []
  · have hblock : block number c = (digits number ++ '\n' :: timing c.start c.stop) ++ ['\n'] := by
      simp [block, hnil]
    rw [hblock]
    refine ⟨by rw [List.getLast?_concat]; decide, fun before hc => htimes ?_⟩
    rw [List.append_cons before] at hc
    rw [(List.append_inj' hc rfl).1, List.getLast?_concat]
  · have hlast : (block number c).getLast? = c.text.toList.getLast? := by
      rw [block, List.getLast?_append, List.getLast?_cons, List.getLast?_append,
        List.getLast?_cons, List.getLast?_eq_some_getLast hne]
      rfl
    refine ⟨hlast ▸ h.getLast?_ne.2, fun before hc => h.getLast?_ne.1 ?_⟩
    rw [← hlast, hc]
    simp

/-- A block before other text is read on its own. -/
theorem readChars_block (s : List Char) :
    readChars (block number c ++ '\n' :: '\n' :: s) = c.map clockTime :: readChars s := by
  have hnumber := isLine_digits number
  have hline := isLine_timing c.start c.stop
  have hunify : unifyLineEnds (block number c) = block number c := by
    rw [block, unifyLineEnds_append hnumber.getLast?_ne, unifyLineEnds_append hline.getLast?_ne,
      unifyLineEnds_eq_self (.inl hnumber.notMem), unifyLineEnds_eq_self (.inl hline.notMem),
      h.unifyLineEnds_eq]
  obtain ⟨hend, hr⟩ := block_ends h number
  rw [readChars_append hend (hunify.symm ▸ hr)]
  have hblock : readChars (block number c) = [c.map clockTime] := by
    rw [readChars, hunify, blocks_block h, List.filterMap_cons, cue?_block h]
    rfl
  rw [hblock]
  rfl

end

theorem readChars_renderFrom (number : ℕ) {cs : List (Cue ℕ)}
    (h : ∀ c ∈ cs, HasLines c.text.toList) :
    readChars (renderFrom number cs) = cs.map (Cue.map clockTime) := by
  induction cs generalizing number with
  | nil => rfl
  | cons c cs ih =>
    rw [renderFrom, readChars_block (h c List.mem_cons_self),
      ih (number + 1) fun d hd => h d (List.mem_cons_of_mem _ hd), List.map_cons]

/-! ## Reading blockwise -/

theorem cues_append {a : String} (h : '\r' ∉ unifyLineEnds a.toList) (b : String) :
    cues (a ++ "\n\n" ++ b) = cues a ++ cues b := by
  have htext : (a ++ "\n\n" ++ b).toList = a.toList ++ '\n' :: '\n' :: b.toList := by
    rw [String.toList_append, String.toList_append, List.append_assoc]
    rfl
  rw [cues, read, htext, readChars_append_of_notMem h, List.map_append]
  rfl

theorem cues_withCarriageReturns {t : String} (h : '\r' ∉ t.toList) :
    cues (String.ofList (withCarriageReturns t.toList)) = cues t := by
  rw [cues, cues, read, read, readChars, readChars, String.toList_ofList,
    unifyLineEnds_withCarriageReturns h, unifyLineEnds_eq_self (.inr h)]

theorem read_render {cs : List (Cue ℕ)} (h : ∀ c ∈ cs, HasLines c.text.toList) :
    read (render cs) = cs.map (Cue.map clockTime) := by
  rw [read, render, String.toList_ofList, readChars_renderFrom 1 h]

/-- Subtitles are read blockwise: what stands before an empty line and what stands after it are
    read on their own, and a part between two of them that has no subtitle harms neither side.
    It does not matter whether lines end with a line feed or also with a carriage return. What
    was rendered is read back: its times, exactly reckoned, are the milliseconds, and what is
    returned is the same reckoning in numbers that round. -/
theorem cues_blockwise :
    (∀ a b : String, '\r' ∉ unifyLineEnds a.toList →
      cues (a ++ "\n\n" ++ b) = cues a ++ cues b) ∧
    (∀ a m b : String, '\r' ∉ unifyLineEnds a.toList → '\r' ∉ unifyLineEnds m.toList →
      cues m = [] → cues (a ++ "\n\n" ++ (m ++ "\n\n" ++ b)) = cues a ++ cues b) ∧
    (∀ t : String, '\r' ∉ t.toList →
      cues (String.ofList (withCarriageReturns t.toList)) = cues t) ∧
    ∀ cs : List (Cue ℕ), (∀ c ∈ cs, HasLines c.text.toList) →
      (read (render cs)).map (Cue.map (ClockTime.seconds? ℚ)) =
          cs.map (Cue.map fun ms : ℕ => some ((ms : ℚ) / 1000)) ∧
        (cues (render cs)).map (Cue.map some) =
          (read (render cs)).map (Cue.map (ClockTime.seconds? Float)) := by
  refine ⟨fun a b ha => cues_append ha b, fun a m b ha hm hnone => ?_,
    fun t ht => cues_withCarriageReturns ht, fun cs hcs => ⟨?_, ?_⟩⟩
  · rw [cues_append ha, cues_append hm, hnone, List.nil_append]
  · rw [read_render hcs, List.map_map]
    refine List.map_congr_left fun c _ => ?_
    simp only [Function.comp_apply, Cue.map, seconds?_clockTime]
  · rw [cues, read_render hcs, List.map_map, List.map_map, List.map_map]
    refine List.map_congr_left fun c _ => ?_
    simp only [Function.comp_apply, Cue.map, toFloat_clockTime]

/-- A subtitle, a block without times, and a subtitle of two lines with hints after its times;
    and a subtitle that is rendered. -/
theorem cues_blockwise_sample :
    let first := "1\n00:00:01,000 --> 00:00:02,500\nHello"
    let junk := "2\nno times here"
    let last := "3\n00:01:00.250 --> 00:01:02,000 X1:10\nTwo\nlines\n"
    let rendered : Cue ℕ := ⟨3723004, 3724500, "Two\nlines"⟩
    ('\r' ∉ unifyLineEnds first.toList ∧ '\r' ∉ unifyLineEnds junk.toList ∧ cues junk = []) ∧
      cues (first ++ "\n\n" ++ last) = cues first ++ cues last ∧
      cues (first ++ "\n\n" ++ (junk ++ "\n\n" ++ last)) = cues first ++ cues last ∧
      cues (String.ofList (withCarriageReturns last.toList)) = cues last ∧
      HasLines rendered.text.toList ∧
      (read (render [rendered])).map (Cue.map (ClockTime.seconds? ℚ)) =
        [⟨some (3723004 / 1000), some (3724500 / 1000), "Two\nlines"⟩] := by
  intro first junk last rendered
  have hfirst : '\r' ∉ unifyLineEnds first.toList := by decide +kernel
  have hjunk : '\r' ∉ unifyLineEnds junk.toList := by decide +kernel
  have hnone : cues junk = [] := by
    have hread : read junk = [] := by decide +kernel
    rw [cues, hread, List.map_nil]
  have hlines : HasLines rendered.text.toList := by
    refine ⟨["Two".toList, "lines".toList], fun l hl => ?_, by decide +kernel⟩
    rcases List.mem_pair.1 hl with rfl | rfl
    · exact isLine_of_notMem (by decide) (by decide) (by decide)
    · exact isLine_of_notMem (by decide) (by decide) (by decide)
  obtain ⟨happend, hskip, hreturns, hrender⟩ := cues_blockwise
  refine ⟨⟨hfirst, hjunk, hnone⟩, happend first last hfirst, hskip first junk last hfirst hjunk hnone,
    hreturns last (by decide +kernel), hlines, ?_⟩
  rw [(hrender [rendered] fun c hc => List.mem_singleton.1 hc ▸ hlines).1]
  rfl

end Srt

end VideoExport
