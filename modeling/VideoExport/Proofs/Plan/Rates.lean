import Mathlib.Data.Rat.Floor
import VideoExport.Proofs.Plan.Admission
import VideoExport.Proofs.Plan.Codecs

/-!
# Rates that encoders can follow

An encoder is told its rate in one of three ways, each a block of directives of
its own. Which one it is depends on what was asked for and on the encoder that
is left once presets and fallbacks have had their say; whatever was asked for,
this encoder can follow it. So no export fails for want of a codec, a container
or a rate control that go together.

* `RateBlock`, `RateBlock.Answers`: the blocks, and which of them answer a
  request;
* `Plan.Refusal`: why there may be no plan;
* `Plan.compile_rate_cases`: every plan has a block that answers its request,
  and what is refused is refused for another reason.
-/

namespace VideoExport

/-! ## Blocks -/

/-- What an encoder is told about its rate. -/
inductive RateBlock
  | quality (value : UInt32)
  | quantizer (value : UInt32)
  | budget (target ceiling buffer : UInt32)

namespace RateBlock

/-- The directives of a block. -/
def directives : RateBlock → List Directive
  | quality value => [.crf value]
  | quantizer value => [.qp value]
  | budget target ceiling buffer => [.videoRate ⟨target⟩, .maxRate ⟨ceiling⟩, .bufferSize ⟨buffer⟩]

theorem directives_injective : Function.Injective directives := by
  intro a b h
  cases a <;> cases b <;> simp_all [directives]

/-- A block answers a request to the encoder of a codec: the encoder knows this
    way to control the rate and its numbers, and a quality stands in for a
    quantizer only where there is none. A target comes with a ceiling of five
    quarters of it, rounded half up, and with a buffer of twice of it. -/
inductive Answers (c : VideoCodec) : RateControl → RateBlock → Prop
  | quality {asked value} (hlow : c.crfRange.1.toNat ≤ value.toNat)
      (hhigh : value.toNat ≤ c.crfRange.2.toNat) : Answers c (.crf asked) (.quality value)
  | requantized {asked value} (hencoder : c.encoder ∉ ["libx264", "libx265"])
      (hlow : c.crfRange.1.toNat ≤ value.toNat) (hhigh : value.toNat ≤ c.crfRange.2.toNat) :
      Answers c (.qp asked) (.quality value)
  | quantizer {asked value} (hencoder : c.encoder ∈ ["libx264", "libx265"])
      (hvalue : value.toNat = asked.toNat) : Answers c (.qp asked) (.quantizer value)
  | budget {asked target ceiling buffer} (htarget : target.toNat = max asked.toNat 150)
      (hceiling : ceiling.toNat =
        min (max target.toNat ⌊(target.toNat : ℚ) * 5 / 4 + 1 / 2⌋₊) (2 ^ 32 - 1))
      (hbuffer : buffer.toNat = min (max (2 * target.toNat) 300) (2 ^ 32 - 1))
      (hle_ceiling : target ≤ ceiling) (hle_buffer : target ≤ buffer) :
      Answers c (.bitrate asked) (.budget target ceiling buffer)

end RateBlock

/-! ## Numbers -/

/-- The budget of a rate answers a request for that. -/
theorem RateBudget.answers_ofTarget (c : VideoCodec) (asked : UInt32) :
    RateBlock.Answers c (.bitrate asked)
      (.budget (ofTarget asked).target (ofTarget asked).ceiling (ofTarget asked).buffer) := by
  have hword := (ofTarget asked).target.toNat_lt
  refine .budget (toNat_target asked) ?_ ?_ (target_le_ceiling asked) (target_le_buffer asked)
  · rw [floor_five_quarters, toNat_ceiling, UInt32.size]
    omega
  · rw [toNat_buffer, UInt32.size]
    omega

/-- A quality that is moved into the range of an encoder stays there as a word. -/
theorem VideoCodec.clampCrf_toUInt32_mem (c : VideoCodec) (value : UInt8) :
    c.crfRange.1.toNat ≤ (c.clampCrf value).toUInt32.toNat ∧
      (c.clampCrf value).toUInt32.toNat ≤ c.crfRange.2.toNat := by
  obtain ⟨hlow, hhigh⟩ := c.clampCrf_mem value
  rw [UInt8.toNat_toUInt32]
  exact ⟨UInt8.le_iff_toNat_le.1 hlow, UInt8.le_iff_toNat_le.1 hhigh⟩

theorem VideoCodec.knowsMode_qp_iff (c : VideoCodec) :
    c.knowsMode .qp = true ↔ c.encoder ∈ ["libx264", "libx265"] := by
  cases c <;> decide

/-- What an encoder is told to follow is a block that answers the request. -/
theorem VideoCodec.exists_answers (c : VideoCodec) (asked : RateControl) :
    ∃ b : RateBlock, b.Answers c asked ∧ (c.follow asked).directives = b.directives := by
  cases asked with
  | crf value =>
    obtain ⟨hlow, hhigh⟩ := c.clampCrf_toUInt32_mem value
    exact ⟨.quality (c.clampCrf value).toUInt32, .quality hlow hhigh, rfl⟩
  | bitrate kbps => exact ⟨_, RateBudget.answers_ofTarget c kbps, rfl⟩
  | qp value =>
    have hmode := c.knowsMode_qp_iff
    rw [follow]
    cases hknows : c.knowsMode .qp with
    | true =>
      exact ⟨.quantizer value.toUInt32, .quantizer (hmode.1 hknows) (UInt8.toNat_toUInt32 value), rfl⟩
    | false =>
      obtain ⟨hlow, hhigh⟩ := c.clampCrf_toUInt32_mem value
      rw [hknows] at hmode
      exact ⟨.quality (c.clampCrf value).toUInt32,
        .requantized (mt hmode.2 Bool.false_ne_true) hlow hhigh, rfl⟩

/-! ## Directives -/

/-- Whether a directive says something about the rate of video. -/
def Directive.isRate (d : Directive) : Bool := rateFlags.contains d.flag?

/-- Whether it says the codec of video. -/
def Directive.isVideoCodec (d : Directive) : Bool := d.flag? == some .videoCodec

namespace Plan

variable {threads : Option UInt32} {s : Settings} {source : Source} {primary : Stream}
  {preset : Option Preset} {p : Plan}

/-- The encoder is named once. -/
theorem filter_isVideoCodec_ofVideo
    (hcopy : (ofVideo threads s source primary preset).videoCopy = false) :
    (ofVideo threads s source primary preset).directives.filter (·.isVideoCodec) =
      [.videoCodec (.named (s.encodedCodec preset).encoder)] := by
  have hrate : ((s.encodedCodec preset).follow (s.videoRequest preset).rateControl).directives.filter
      (·.isVideoCodec) = [] :=
    List.filter_eq_nil_iff.2 fun d hd =>
      (by decide : ∀ f ∈ rateFlags, ¬ (f == some Flag.videoCodec) = true) _
        (flag?_of_mem_rateControl hd)
  refine (filter_ofVideo (q := (· == some .videoCodec)) (by decide)).trans ?_
  rw [hcopy, if_neg Bool.false_ne_true]
  change (s.encodeDirectives preset).filter (·.isVideoCodec) = _
  rw [Settings.encodeDirectives, List.filter_cons_of_pos rfl, List.filter_append, List.filter_append,
    hrate]
  cases (s.videoRequest preset).speed <;> cases Filter.chain? (s.filterParts preset) <;> rfl

/-- All that is said about the rate is what the encoder is told to follow. -/
theorem filter_isRate_ofVideo (hcopy : (ofVideo threads s source primary preset).videoCopy = false) :
    (ofVideo threads s source primary preset).directives.filter (·.isRate) =
      ((s.encodedCodec preset).follow (s.videoRequest preset).rateControl).directives := by
  have hrate : ∀ d ∈ ((s.encodedCodec preset).follow (s.videoRequest preset).rateControl).directives,
      d.isRate = true := fun d hd =>
    List.contains_iff_mem.2 (flag?_of_mem_rateControl hd)
  refine (filter_ofVideo (q := rateFlags.contains) (by decide)).trans ?_
  rw [hcopy, if_neg Bool.false_ne_true]
  change (s.encodeDirectives preset).filter (·.isRate) = _
  rw [Settings.encodeDirectives, List.filter_cons_of_neg Bool.false_ne_true, List.filter_append,
    List.filter_append, List.filter_eq_self.2 hrate]
  cases (s.videoRequest preset).speed <;> cases Filter.chain? (s.filterParts preset) <;>
    simp [Directive.isRate, Directive.flag?, rateFlags]

/-- And it is said in one go. -/
theorem tokens_rate_infix (hcopy : (ofVideo threads s source primary preset).videoCopy = false) :
    Directive.tokens ((s.encodedCodec preset).follow (s.videoRequest preset).rateControl).directives <:+:
      (ofVideo threads s source primary preset).tokens := by
  refine List.IsInfix.flatMap ?_ _
  rw [directives_ofVideo, hcopy, if_neg Bool.false_ne_true, Settings.encodeDirectives]
  exact ((List.infix_append' _ _ _).trans (List.infix_cons List.infix_rfl)).trans
    (List.infix_append' _ _ _)

/-! ## Plans and refusals -/

variable (s source) in
/-- Why there is no plan for settings and a source. -/
inductive Refusal : Failure → Prop
  | settings {fault} (hfault : s.fault? = some fault) : Refusal (.invalidSettings fault.detail)
  | video (hvideo : source.ofKind .video = []) :
      Refusal (.invalidSettings s!"Source {source.name} has no video track")
  | preset {name} (hname : s.preset = some name)
      (hunknown : ∀ q ∈ presets, Text.sameIgnoringCase q.name (Text.trim name) = false) :
      Refusal (.unknownPreset (Text.trim name))

/-- What is not found is in the table under no name. -/
theorem refusal_of_find {name : String} {f : Failure} (hname : s.preset = some name)
    (h : Preset.find name = .error f) : Refusal s source f := by
  rw [Preset.find] at h
  split at h
  case h_1 => cases h
  case h_2 hnone =>
    cases h
    exact .preset hname fun q hq => by simpa using List.find?_eq_none.1 hnone q hq

/-- Nothing else is refused. -/
theorem refusal_of_compile_eq_error {f : Failure} (h : compile threads s source = .error f) :
    Refusal s source f := by
  rw [compile, Settings.validate] at h
  cases hfault : s.fault? with
  | some fault =>
    rw [hfault] at h
    cases h
    exact .settings hfault
  | none =>
    rw [hfault] at h
    cases hprimary : source.primary? with
    | none =>
      rw [hprimary] at h
      cases h
      exact .video (List.head?_eq_none_iff.1 hprimary)
    | some primary =>
      rw [hprimary] at h
      cases hpreset : s.preset with
      | none =>
        rw [hpreset] at h
        cases h
      | some name =>
        cases hfind : Preset.find name with
        | error e =>
          simp [bind, Except.bind, Functor.map, Except.map, hpreset, hfind] at h
          exact refusal_of_find hpreset (h ▸ hfind)
        | ok q => simp [bind, Except.bind, Functor.map, Except.map, hpreset, hfind, pure, Except.pure] at h

/-- A plan stays possible with any codecs, any container of video and any rate
    that is in order by itself. -/
theorem exists_compile_replaced {k : Container} {rate : RateControl} (c : VideoCodec)
    (a : AudioCodec) (hk : k ≠ .gif) (hrate : Settings.rateFault? rate = none)
    (h : ∃ p, compile threads s source = .ok p) :
    ∃ p, compile threads
      { s with videoCodec := c, audioCodec := a, container := k, rateControl := rate } source =
        .ok p := by
  obtain ⟨p, hp⟩ := h
  obtain ⟨hfault, hpreset, primary, hprimary, -⟩ := compile_eq_ok_iff.1 hp
  refine ⟨_, compile_eq_ok_iff.2 ⟨?_, hpreset, primary, hprimary, rfl⟩⟩
  have hvideo : ¬ k.isAnimation = true := mt Container.isAnimation_iff.1 hk
  simp only [Settings.fault?, Option.orElse_eq_orElse, Option.orElse_eq_or, Option.or_eq_none_iff,
    hrate, if_neg hvideo] at hfault ⊢
  exact ⟨hfault.1, hfault.2.1, trivial, trivial, hfault.2.2.2.2⟩

/-! ## Rates of plans -/

/-- What a plan that encodes video tells its encoder: which one it is, by a
    codec that the container can hold, and one block that answers the request,
    in one go. -/
structure IsRated (s : Settings) (p : Plan) : Prop where
  encoder : p.directives.filter (·.isVideoCodec) = [.videoCodec (.named s.effectiveCodec.encoder)]
  fits : s.effectiveCodec.fits s.container = true
  block : ∃! b : RateBlock, b.Answers s.effectiveCodec s.requestedRate ∧
    p.directives.filter (·.isRate) = b.directives ∧ Directive.tokens b.directives <:+: p.tokens

theorem isRated_ofVideo (hk : s.container ≠ .gif)
    (hcopy : (ofVideo threads s source primary s.chosenPreset?).videoCopy = false) :
    IsRated s (ofVideo threads s source primary s.chosenPreset?) where
  encoder := by
    rw [filter_isVideoCodec_ofVideo hcopy, Settings.encodedCodec_chosenPreset?]
  fits := by
    rw [← Settings.encodedCodec_chosenPreset?]
    exact VideoCodec.fits_within _ hk
  block := by
    obtain ⟨b, hanswers, hb⟩ := s.effectiveCodec.exists_answers s.requestedRate
    have hfilter : (ofVideo threads s source primary s.chosenPreset?).directives.filter (·.isRate) =
        b.directives := by
      rw [filter_isRate_ofVideo hcopy, Settings.encodedCodec_chosenPreset?,
        Settings.rateControl_videoRequest, hb]
    have htokens := tokens_rate_infix hcopy
    rw [Settings.encodedCodec_chosenPreset?, Settings.rateControl_videoRequest, hb] at htokens
    exact ⟨b, ⟨hanswers, hfilter, htokens⟩, fun other hother =>
      RateBlock.directives_injective (hother.2.1.symm.trans hfilter)⟩

/-- Whoever encodes video is told one rate that the encoder can follow, and
    which codecs, containers and rates go together is no reason to refuse: there
    is no plan only for settings that are not in order, a source without video
    and an unknown preset. -/
theorem compile_rate_cases (threads : Option UInt32) (s : Settings) (source : Source) :
    (∀ p, compile threads s source = .ok p → s.container ≠ .gif → p.videoCopy = false →
      IsRated s p) ∧
    (∀ f, compile threads s source = .error f → Refusal s source f) ∧
    ∀ c a k rate, k ≠ .gif → Settings.rateFault? rate = none →
      (∃ p, compile threads s source = .ok p) →
      ∃ p, compile threads
        { s with videoCodec := c, audioCodec := a, container := k, rateControl := rate } source =
          .ok p := by
  refine ⟨fun p h hk hcopy => ?_, fun f => refusal_of_compile_eq_error,
    fun c a k rate hk hrate => exists_compile_replaced c a hk hrate⟩
  obtain ⟨-, -, primary, -, hp⟩ := compile_eq_ok_iff.1 h
  rw [if_neg (mt Container.isAnimation_iff.1 hk)] at hp
  subst hp
  exact isRated_ofVideo hk hcopy

/-- So it is for a quantizer in a container that can hold neither the codec nor
    one whose encoder knows quantizers, and for the highest rate instead. -/
theorem compile_rate_cases_webm :
    let s : Settings := { Settings.default with container := .webm, rateControl := .qp 63 }
    (∃ p, compile none s .sample = .ok p ∧ s.container ≠ .gif ∧ p.videoCopy = false ∧ IsRated s p) ∧
      ∃ p, compile none { s with rateControl := .bitrate 4294967295 } .sample = .ok p := by
  intro s
  have hsettings : s.fault? = none := by decide +kernel
  have hplan := exists_compile none s .sample hsettings rfl rfl
  have hk : s.container ≠ .gif := by decide
  obtain ⟨p, hp⟩ := hplan
  have hcopy : p.videoCopy = false := by
    obtain ⟨-, -, primary, -, rfl⟩ := compile_eq_ok_iff.1 hp
    rfl
  have hcases := compile_rate_cases none s .sample
  exact ⟨⟨p, hp, hk, hcopy, hcases.1 p hp hk hcopy⟩,
    hcases.2.2 s.videoCodec s.audioCodec s.container (.bitrate 4294967295) hk rfl ⟨p, hp⟩⟩

end Plan
end VideoExport
