import VideoExport.Proofs.Plan.Budget
import VideoExport.Proofs.Plan.Compile
import VideoExport.Proofs.Recipe.Core

/-!
# Plans on the wire

Every directive of a plan is understood, and all but times and speeds are
written without loss. So whoever reads the tokens of a plan comes to the same
recipe as from its directives, up to times and speed; no name of a speed, be it
empty or spelled like a flag, can disturb anything else.

* `Plan.isSent_of_mem_directives`: what a plan's directives are like;
* `Plan.core_read`: the recipe that is read.
-/

namespace VideoExport

open Number Text

/-- A directive that is understood, and exact if it is essential. -/
def Directive.IsSent (d : Directive) : Prop :=
  d.flag?.isSome = true ∧ (d.isEssential = true → d.IsExact)

namespace Directive

theorem IsExact.isSent {d : Directive} (h : d.IsExact) : d.IsSent := by
  obtain ⟨f, value, htokens, hflag, hpair⟩ := h.exists_value
  exact ⟨by rw [flag?_of_ofPair? hpair]; rfl, fun _ => h⟩

/-- A directive that is not essential is sent, whatever its value. -/
theorem isSent_of_not_isEssential {d : Directive} {f : Flag} (h : d.flag? = some f)
    (hd : d.isEssential = false) : d.IsSent :=
  ⟨by rw [h]; rfl, fun h' => by rw [hd] at h'; cases h'⟩

end Directive

theorem isSent_window (w : TrimWindow Float) : ∀ d ∈ w.part.directives, d.IsSent := by
  intro d hd
  rcases List.mem_pair.1 (flag?_of_mem_window hd) with h | h <;>
    exact Directive.isSent_of_not_isEssential h (by simp [Directive.isEssential, h])

/-! ## Rates -/

theorem RateBudget.target_pos (requested : UInt32) : 0 < (ofTarget requested).target.toNat := by
  rw [toNat_target]
  omega

theorem isSent_rateControl (r : RateControl) : ∀ d ∈ r.directives, d.IsSent := by
  intro d hd
  cases r with
  | crf value | qp value =>
    rw [RateControl.directives, List.mem_singleton] at hd
    rw [hd]
    exact Directive.IsExact.isSent (by trivial)
  | bitrate kbps =>
    have htarget := RateBudget.target_pos kbps
    have hceiling := UInt32.le_iff_toNat_le.1 (RateBudget.target_le_ceiling kbps)
    have hbuffer := UInt32.le_iff_toNat_le.1 (RateBudget.target_le_buffer kbps)
    simp only [RateControl.directives, List.mem_cons, List.not_mem_nil, or_false] at hd
    rcases hd with rfl | rfl | rfl
    · exact Directive.IsExact.isSent htarget
    · exact Directive.IsExact.isSent (htarget.trans_le hceiling)
    · exact Directive.IsExact.isSent (htarget.trans_le hbuffer)

theorem clampAudioRate_pos (kbps : UInt32) : 0 < (clampAudioRate kbps).toNat := by
  have hlow : audioRates.1.toNat = 32 := rfl
  have hhigh : audioRates.2.toNat = 512 := rfl
  rw [clampAudioRate]
  split
  · omega
  · split
    · omega
    · have := UInt32.le_iff_toNat_le.1 (UInt32.not_lt.1 ‹¬kbps < audioRates.1›)
      omega

theorem isSent_audioChoice (s : Settings) (source : Source) (tracks : ChosenTracks) :
    ∀ d ∈ (s.audioChoice source tracks).directives, d.IsSent := by
  intro d hd
  rcases s.audioChoice_cases source tracks with ⟨-, -, h⟩ | ⟨-, -, -, h⟩ | ⟨-, -, h⟩
  · rw [h] at hd
    cases hd
  · rw [h, List.mem_singleton] at hd
    rw [hd]
    exact Directive.isExact_copy.2.isSent
  · rw [h] at hd
    rcases List.mem_cons.1 hd with rfl | hd
    · exact (Directive.isExact_audioEncoder _).isSent
    · rw [List.mem_singleton.1 hd]
      exact Directive.IsExact.isSent (clampAudioRate_pos _)

/-! ## Texts -/

theorem isToken_textCodec {k : Container} {name : String} (h : Subtitle.textCodec k = some name) :
    IsToken name := by
  cases k <;> cases h <;>
    exact isToken_of_all (by decide) rfl (by decide)

theorem isSent_subtitleCodec (c : SubtitleChoice) (source : Source) (k : Container) :
    ∀ d ∈ (c.codec? source k).toList, d.IsSent := by
  intro d hd
  obtain ⟨-, hd⟩ := Option.ite_none_left_eq_some.1 (Option.mem_toList.1 hd)
  obtain ⟨name, hname, rfl⟩ := Option.map_eq_some_iff.1 hd
  obtain ⟨text, htext, rfl⟩ := Option.map_eq_some_iff.1 hname
  refine Directive.IsExact.isSent (Directive.isPlain_of_isToken ?_)
  split
  · exact isToken_of_all (by decide) (by decide) (by decide)
  · exact isToken_textCodec htext

/-- The filters of settings in order are tokens. -/
theorem Settings.isToken_of_mem_filterParts {s : Settings} {preset : Option Preset}
    (hcolor : s.color.isFinite = true) (hpreset : ∀ p ∈ preset, p ∈ presets) {e : String}
    (he : e ∈ s.filterParts preset) : IsToken e := by
  rw [filterParts] at he
  rw [List.mem_append, List.mem_append, Option.mem_toList, Option.mem_toList, Option.mem_toList] at he
  rcases he with (he | he) | he
  · obtain ⟨p, hp, he⟩ := Option.bind_eq_some_iff.1 he
    exact isToken_presetFilter (hpreset p hp) he
  · obtain ⟨r, -, rfl⟩ := Option.map_eq_some_iff.1 he
    exact isToken_resizeFilter r
  · exact Color.isToken_colorFilter hcolor he

theorem isSent_chain {parts : List String} (h : ∀ e ∈ parts, IsToken e) :
    ∀ d ∈ ((Filter.chain? parts).map Directive.videoFilter).toList, d.IsSent := by
  intro d hd
  obtain ⟨text, htext, rfl⟩ := Option.map_eq_some_iff.1 (Option.mem_toList.1 hd)
  obtain ⟨hne, htext⟩ := Option.ite_none_left_eq_some.1 htext
  rw [← Option.some.inj htext]
  exact Directive.IsExact.isSent
    (Directive.isPlain_of_isToken (isToken_chain (fun h => hne (by rw [h]; rfl)) h))

/-! ## Plans -/

theorem isSent_threads (threads : Option UInt32) :
    ∀ d ∈ (threadsDirective? threads).toList, d.IsSent := by
  intro d hd
  obtain ⟨n, -, rfl⟩ := Option.map_eq_some_iff.1 (Option.mem_toList.1 hd)
  exact Directive.IsExact.isSent trivial

theorem isSent_map (t : MapTarget) : (Directive.map t).IsSent := Directive.IsExact.isSent trivial

theorem isSent_mapTracks (tracks : List UInt64) (wildcard : Bool) (all : MapTarget) :
    ∀ d ∈ mapTracks tracks wildcard all, d.IsSent := by
  intro d hd
  rw [mapTracks] at hd
  split at hd
  · cases hd
  · split at hd
    · rw [List.mem_singleton.1 hd]
      exact isSent_map all
    · obtain ⟨i, -, rfl⟩ := List.mem_map.1 hd
      exact isSent_map _

namespace Plan

variable {threads : Option UInt32} {s : Settings} {source : Source} {p : Plan}

theorem isSent_of_mem_encodeDirectives {preset : Option Preset}
    (hcolor : s.color.isFinite = true) (hpreset : ∀ q ∈ preset, q ∈ presets) :
    ∀ d ∈ s.encodeDirectives preset, d.IsSent := by
  rw [Settings.encodeDirectives]
  simp only [List.forall_mem_append, List.forall_mem_cons]
  refine ⟨(Directive.isExact_videoEncoder _).isSent, ?_, isSent_rateControl _,
    isSent_chain fun e => Settings.isToken_of_mem_filterParts hcolor hpreset⟩
  intro d hd
  -- The speed is free text, which may not survive; but nothing depends on it.
  obtain ⟨name, -, rfl⟩ := Option.map_eq_some_iff.1 (Option.mem_toList.1 hd)
  exact Directive.isSent_of_not_isEssential (f := .speed) rfl rfl

theorem isSent_of_mem_ofVideo (primary : Stream) {preset : Option Preset}
    (hcolor : s.color.isFinite = true) (hpreset : ∀ q ∈ preset, q ∈ presets) :
    ∀ d ∈ (ofVideo threads s source primary preset).directives, d.IsSent := by
  rw [directives_ofVideo, tailDirectives]
  simp only [List.forall_mem_append, List.forall_mem_cons]
  refine ⟨isSent_window _, ?_, isSent_audioChoice s source _, isSent_subtitleCodec _ source _,
    isSent_threads _, isSent_map _, isSent_mapTracks _ _ _, isSent_mapTracks _ _ _⟩
  split
  · intro d hd
    rw [List.mem_singleton.1 hd]
    exact Directive.isExact_copy.1.isSent
  · exact isSent_of_mem_encodeDirectives hcolor hpreset

theorem isSent_of_mem_ofAnimation (primary : Stream) {preset : Option Preset}
    (hcolor : s.color.isFinite = true) (hpreset : ∀ q ∈ preset, q ∈ presets) :
    ∀ d ∈ (ofAnimation threads s source primary preset).directives, d.IsSent := by
  have hrate : IsToken ("fps=" ++ Number.text s.animation.fps.toNat) :=
    (isToken_of_all (by decide) (by decide) (by decide)).append (hasNoBlank_text _)
  have hchain := isToken_chain (List.cons_ne_nil _ (s.filterParts preset))
    (List.forall_mem_cons.2 ⟨hrate, fun e => Settings.isToken_of_mem_filterParts hcolor hpreset⟩)
  rw [directives_ofAnimation]
  simp only [List.forall_mem_append, List.forall_mem_cons]
  exact ⟨isSent_window _, Directive.isExact_animationEncoder.isSent,
    Directive.IsExact.isSent (Directive.isPlain_of_isToken hchain),
    Directive.IsExact.isSent trivial, isSent_threads _, isSent_map _, fun _ h => by cases h⟩

/-- Every directive of a plan is understood, and exact if it is essential. -/
theorem isSent_of_mem_directives (h : compile threads s source = .ok p) :
    ∀ d ∈ p.directives, d.IsSent := by
  obtain ⟨hfault, -, primary, -, rfl⟩ := compile_eq_ok_iff.1 h
  have hcolor := Settings.isFinite_color hfault
  have hpreset : ∀ q ∈ s.chosenPreset?, q ∈ presets := fun _ => Settings.mem_presets_of_chosenPreset?
  split
  · exact isSent_of_mem_ofAnimation primary hcolor hpreset
  · exact isSent_of_mem_ofVideo primary hcolor hpreset

theorem isSome_flag? (h : compile threads s source = .ok p) :
    ∀ d ∈ p.directives, d.flag?.isSome = true := fun d hd => (isSent_of_mem_directives h d hd).1

/-- What is read of a plan's tokens is what its directives say, up to times and
    speed. -/
theorem core_read (h : compile threads s source = .ok p) (output : String) :
    (Recipe.read p.tokens output).core = (Recipe.ofDirectives p.directives output).core := by
  exact Recipe.core_read_tokens (isSome_flag? h)
    (fun d hd he => ((isSent_of_mem_directives h d hd).2 he).isFaithful) output

end Plan

end VideoExport
