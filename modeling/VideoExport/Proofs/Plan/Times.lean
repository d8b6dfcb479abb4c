import VideoExport.Job.Objection
import VideoExport.Proofs.Plan.Recipe
import VideoExport.Proofs.Wire.Times

/-!
# Plans and what is read of them

A plan can be checked by its directives, before it is sent, or by its tokens.
Both come to the same recipe, whatever the speed is called, except for times:
what is read of these are the numbers of their texts. Nothing that is decided
or objected to depends on them.

* `Settings.isSound_trimWindow`: the start of a window is a time, and so is its
  duration if it is finite;
* `Recipe.times_read`: what is read of the times of directives;
* `Plan.agree_read`: directives and tokens come to the same.
-/

namespace VideoExport

open Number Text

/-! ## Windows -/

theorem ofNat_zero : (Quantity.ofNat 0 : Float) = 0.0 := by decide +kernel

theorem ofNat_one : (Quantity.ofNat 1 : Float) = 1.0 := by decide +kernel

/-- No frame takes less than no time, even at a rate at which it takes forever. -/
theorem zero_le_frameTime (rate : Option Float) : 0.0 ≤ frameTime rate := by
  rw [frameTime, ofNat_one]
  cases h : rate.filter fun fps => Quantity.isFinite fps && Quantity.ofNat 0 < fps with
  | none => decide +kernel
  | some fps =>
    obtain ⟨-, hfps⟩ := Option.filter_eq_some_iff.1 h
    rw [Bool.and_eq_true, decide_eq_true_eq, ofNat_zero] at hfps
    exact zero_le_one_div hfps.1 hfps.2

/-- The larger of two numbers is not negative if the second one is not. -/
theorem zero_le_larger {a b : Float} (hb : 0.0 ≤ b)
    (h : (Quantity.larger a b).isFinite = true) : 0.0 ≤ Quantity.larger a b := by
  rw [Quantity.larger] at h ⊢
  by_cases hlt : a < b
  · rw [if_pos hlt]
    exact hb
  · rw [if_neg hlt] at h ⊢
    exact zero_le_of_not_lt hb h hlt

/-- A clamped number is one of three. -/
theorem clamp_cases {P : Float → Prop} {low high a : Float} (hlow : P low) (hhigh : P high)
    (ha : P a) : P (Quantity.clamp low high a) := by
  rw [Quantity.clamp]
  split
  · exact hlow
  · split
    · exact hhigh
    · exact ha

/-- The times of settings in order are. -/
theorem Settings.trimFault?_eq_none {s : Settings} (h : s.fault? = none) :
    trimFault? s.trimStart s.trimEnd = none := by
  cases hf : trimFault? s.trimStart s.trimEnd with
  | none => rfl
  | some f => simp [fault?, hf] at h

/-- Settings in order start at a time. -/
theorem Settings.isTime_trimStart {s : Settings} (h : s.fault? = none) :
    s.trimStart.isFinite = true ∧ 0.0 ≤ s.trimStart := by
  have htrim := trimFault?_eq_none h
  rw [trimFault?] at htrim
  split at htrim
  · cases htrim
  case isFalse hfinite =>
    split at htrim
    · cases htrim
    case isFalse hnegative =>
      rw [Bool.or_eq_true, not_or, Bool.not_eq_true', Bool.not_eq_false] at hfinite
      exact ⟨hfinite.1, zero_le_of_not_lt (by decide) hfinite.1 hnegative⟩

/-- A window whose start is a time, and whose duration is one if it is finite. -/
structure TrimWindow.IsSound (w : TrimWindow Float) : Prop where
  isFinite_start : w.start.isFinite = true
  zero_le_start : 0.0 ≤ w.start
  zero_le_duration : w.duration.isFinite = true → 0.0 ≤ w.duration

/-- The window of settings in order. -/
theorem Settings.isSound_trimWindow {s : Settings} (h : s.fault? = none) (source : Source) :
    (s.trimWindow source).IsSound := by
  have hstart := isTime_trimStart h
  have hframe := zero_le_frameTime source.frameRate
  rw [trimWindow, TrimWindow.resolve]
  split
  case isTrue hknown =>
    rw [TrimWindow.isKnown, Bool.and_eq_true, decide_eq_true_eq, ofNat_zero] at hknown
    -- The start is moved between zero and the duration of the source, and both
    -- are times.
    have hzero : (Quantity.ofNat 0 : Float).isFinite = true ∧ 0.0 ≤ (Quantity.ofNat 0 : Float) := by
      decide +kernel
    have hclamp := clamp_cases (P := fun x => x.isFinite = true ∧ 0.0 ≤ x) hzero
      ⟨hknown.1, zero_le_of_lt hknown.1 hknown.2⟩ hstart
    exact ⟨hclamp.1, hclamp.2, zero_le_larger hframe⟩
  case isFalse => exact ⟨hstart.1, hstart.2, zero_le_larger hframe⟩

/-! ## Times of recipes -/

/-- Whether a directive says a time. -/
def Directive.isTime (d : Directive) : Bool :=
  d.flag? == some .trimStart || d.flag? == some .trimDuration

namespace Recipe

/-- The times of a recipe. -/
def times (r : Recipe) : Option Float × Option Float := (r.trimStart, r.trimDuration)

theorem governs_times : Governs (·.isTime) times where
  congr := by
    intro r r' h d
    simp only [times, Prod.mk.injEq] at h
    cases d with
    | videoCodec c => cases c <;> exact Prod.ext h.1 h.2
    | audioCodec c => cases c <;> exact Prod.ext h.1 h.2
    | map t => cases t <;> exact Prod.ext h.1 h.2
    | trimStart s => exact Prod.ext rfl h.2
    | trimDuration s => exact Prod.ext h.1 rfl
    | _ => exact Prod.ext h.1 h.2
  skip := by
    intro d h r
    cases d with
    | videoCodec c => cases c <;> rfl
    | audioCodec c => cases c <;> rfl
    | map t => cases t <;> rfl
    | trimStart s | trimDuration s => cases h
    | _ => rfl

/-- Where only the first directives say times, these are all there are. -/
theorem times_ofDirectives (ds : List Directive) {rest : List Directive}
    (h : ∀ d ∈ rest, d.isTime = false) (output : String) :
    (ofDirectives (ds ++ rest) output).times =
      (ds.foldl apply (empty (Container.ofOutput output))).times := by
  rw [ofDirectives, List.foldl_append]
  exact governs_times.foldl_skip h _

/-- And what is read of them are all that are read. -/
theorem times_read (ds : List Directive) {rest : List Directive}
    (hflag : ∀ d ∈ ds ++ rest, d.flag?.isSome = true) (h : ∀ d ∈ rest, d.isTime = false)
    (output : String) :
    (read (Directive.tokens (ds ++ rest)) output).times =
      ((ds.flatMap fun d => Directive.lex d.toTokens).foldl apply
        (empty (Container.ofOutput output))).times := by
  rw [read, Directive.lex_tokens hflag, List.flatMap_append]
  refine times_ofDirectives _ (fun d' hd' => ?_) output
  obtain ⟨d, hd, hd'⟩ := List.mem_flatMap.1 hd'
  obtain ⟨f, hf⟩ := Option.isSome_iff_exists.1 (hflag d (List.mem_append_right _ hd))
  -- A directive that says no time is not read as one that does.
  have htime := h d hd
  rw [Directive.isTime, hf] at htime
  rcases Directive.flag?_of_mem_lex_toTokens hf hd' with h' | h'
  · rw [Directive.isTime, h', htime]
  · rw [Directive.isTime, h']
    rfl

end Recipe

namespace Plan

variable {threads : Option UInt32} {s : Settings} {source : Source} {p : Plan}

/-- A plan starts with its window, and says nothing about times after it. -/
theorem exists_directives_eq (h : compile threads s source = .ok p) :
    ∃ rest, p.directives = (s.trimWindow source).part.directives ++ rest ∧
      ∀ d ∈ rest, d.isTime = false := by
  obtain ⟨-, -, primary, -, rfl⟩ := compile_eq_ok_iff.1 h
  split
  · refine ⟨_, directives_ofAnimation threads s source primary s.chosenPreset?, ?_⟩
    simp only [List.forall_mem_cons, List.forall_mem_append]
    refine ⟨rfl, rfl, rfl, fun d hd => ?_, rfl, fun _ hd => by cases hd⟩
    simp [Directive.isTime, flag?_of_mem_threads hd]
  · refine ⟨_, directives_ofVideo threads s source primary s.chosenPreset?, ?_⟩
    have hflags : ∀ f ∈ videoFlags ++ tailFlags,
        (f == some .trimStart || f == some .trimDuration) = false := by decide
    rw [List.forall_mem_append]
    exact ⟨fun d hd => hflags _ (List.mem_append_left _ (flag?_of_mem_video hd)),
      fun d hd => hflags _ (List.mem_append_right _ (flag?_of_mem_tail hd))⟩

theorem expectedDuration_eq (h : compile threads s source = .ok p) :
    p.expectedDuration = (s.trimWindow source).duration := by
  obtain ⟨-, -, primary, -, rfl⟩ := compile_eq_ok_iff.1 h
  split <;> rfl

/-- A plan says times only in its window. -/
theorem mem_directives_iff_of_isTime (h : compile threads s source = .ok p) {d : Directive}
    (hd : d.isTime = true) :
    d ∈ p.directives ↔ (s.trimWindow source).requested = true ∧
      (d = .trimStart (s.trimWindow source).start ∨ d = .trimDuration p.expectedDuration) := by
  obtain ⟨rest, hds, hrest⟩ := exists_directives_eq h
  have hnot : d ∉ rest := fun hmem => by rw [hrest d hmem] at hd; cases hd
  rw [hds, expectedDuration_eq h, List.mem_append, or_iff_left hnot, TrimWindow.part,
    Part.directives]
  cases (s.trimWindow source).requested <;> simp

/-- The times of a plan are read as the numbers of the texts of those that were
    written. -/
theorem isReread_times (h : compile threads s source = .ok p)
    (hfinite : p.expectedDuration.isFinite = true) (output : String) :
    Option.Rel Timecode.IsReread (Recipe.ofDirectives p.directives output).times.1
        (Recipe.read p.tokens output).times.1 ∧
      Option.Rel Timecode.IsReread (Recipe.ofDirectives p.directives output).times.2
        (Recipe.read p.tokens output).times.2 := by
  have hflag := isSome_flag? h
  have hwindow := Settings.isSound_trimWindow (compile_eq_ok_iff.1 h).1 source
  rw [expectedDuration_eq h] at hfinite
  obtain ⟨rest, hds, hrest⟩ := exists_directives_eq h
  rw [hds] at hflag
  rw [tokens, hds, Recipe.times_ofDirectives _ hrest, Recipe.times_read _ hflag hrest]
  generalize s.trimWindow source = w at hwindow hfinite
  obtain ⟨start, hstart, hlexStart⟩ := Directive.lex_trimStart hwindow.isFinite_start hwindow.zero_le_start
  obtain ⟨duration, hduration, hlexDuration⟩ :=
    Directive.lex_trimDuration hfinite (hwindow.zero_le_duration hfinite)
  rw [TrimWindow.part, Part.directives]
  cases w.requested with
  | false => exact ⟨.none, .none⟩
  | true =>
    rw [if_pos rfl, List.flatMap_cons, List.flatMap_cons, List.flatMap_nil, hlexStart, hlexDuration]
    exact ⟨.some hstart, .some hduration⟩

/-- A plan is the same by its directives as by its tokens, up to speed, leftovers
    and the places of times; so the same is decided, and the same objected to. -/
theorem agree_read (h : compile threads s source = .ok p)
    (hfinite : p.expectedDuration.isFinite = true) (output : String) :
    let made := Recipe.ofDirectives p.directives output
    let read := Recipe.read p.tokens output
    made.core = read.core ∧ Option.Rel Timecode.IsReread made.trimStart read.trimStart ∧
      Option.Rel Timecode.IsReread made.trimDuration read.trimDuration ∧
      ∀ (other : Source) (passthrough : Bool),
        made.decisions other passthrough = read.decisions other passthrough ∧
          made.objections other (made.decisions other passthrough) =
            read.objections other (read.decisions other passthrough) := by
  intro made read
  have hcore : made.core = read.core := (core_read h output).symm
  have hdecisions : ∀ (r : Recipe) (other : Source) (passthrough : Bool),
      r.decisions other passthrough = r.core.decisions other passthrough := fun _ _ _ => rfl
  have hobjections : ∀ (r : Recipe) (other : Source) (ds : List TrackDecision),
      r.objections other ds = r.core.objections other ds := fun _ _ _ => rfl
  obtain ⟨hstart, hduration⟩ := isReread_times h hfinite output
  refine ⟨hcore, hstart, hduration, fun other passthrough => ?_⟩
  rw [hdecisions made, hdecisions read, hobjections made, hobjections read, hcore]
  exact ⟨rfl, rfl⟩

/-- So it is for a window within a clip and a speed that is spelled like a flag. -/
theorem agree_read_window :
    let s := { Settings.default with trimStart := 1.5, trimEnd := 4.0, speed := some "-crf" }
    ∃ p, compile none s .sample = .ok p ∧ p.expectedDuration.isFinite = true ∧
      (Recipe.ofDirectives p.directives p.output.fileName).core =
        (Recipe.read p.tokens p.output.fileName).core := by
  intro s
  obtain ⟨p, hp⟩ := exists_compile none s .sample (by decide +kernel) rfl rfl
  have hfinite : p.expectedDuration.isFinite = true := by
    rw [expectedDuration_eq hp]
    decide +kernel
  exact ⟨p, hp, hfinite, (agree_read hp hfinite p.output.fileName).1⟩

end Plan

end VideoExport
