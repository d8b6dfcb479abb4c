import VideoExport.Proofs.Text.Lower
import VideoExport.Proofs.Wire.Times

/-!
# Lists that survive

Decoding undoes encoding for exactly those lists of directives whose values the
wire can represent: texts that trimming leaves alone, codecs in lower case that
are not the word for copying, rates that are not zero, and times that are the
numbers of their texts. Besides, no value may be spelled like a flag.

* `Directive.IsRepresentable`: what the wire can represent;
* `Directive.isFaithful_iff`: which directives are lexed into themselves;
* `Directive.lex_tokens_eq_self_iff`: which lists of any length are.
-/

namespace VideoExport

open Number Text

/-! ## Values -/

/-- A codec as it is read: the instruction to copy, or a name in lower case that
    is not the word for it. -/
def CodecValue.IsRepresentable : CodecValue → Prop
  | copy => True
  | named name => IsTrimmed name ∧ lower name = name ∧ sameIgnoringCase name "copy" = false

theorem CodecValue.read?_text_iff {c : CodecValue} : read? c.text = some c ↔ c.IsRepresentable := by
  cases c with
  | copy => exact iff_of_true read?_copy trivial
  | named name =>
    rw [read?, text, Option.map_eq_some_iff, IsRepresentable]
    constructor
    · rintro ⟨t, ht, hread⟩
      split at hread
      · cases hread
      case isFalse hcopy =>
        -- The name is in lower case what is left of it after trimming, so it is
        -- trimmed, and nothing was trimmed away.
        obtain rfl := named.inj hread
        have htrim : IsTrimmed (lower t) := (isTrimmed_of_nonBlank? ht).lower
        have hlower : lower t = t :=
          Option.some.inj ((nonBlank?_eq_self_iff.2 htrim).symm.trans ht)
        rw [hlower] at htrim ⊢
        exact ⟨htrim, hlower, Bool.eq_false_iff.2 hcopy⟩
    · rintro ⟨htrim, hlower, hcopy⟩
      refine ⟨name, nonBlank?_eq_self_iff.2 htrim, ?_⟩
      rw [hcopy, hlower]
      rfl

namespace Kbps

theorem pos_of_scaled? {number : List Char} {factor : Float} {r : Kbps}
    (h : scaled? number factor = some r) : 0 < r.kbps.toNat := by
  rw [scaled?] at h
  simp only [Option.bind_eq_bind, Option.bind_eq_some_iff, Option.guard_eq_some'] at h
  obtain ⟨_, -, _, -, _, ⟨hpos, hlt⟩, h⟩ := h
  cases h
  rw [UInt32.toNat_ofNat_of_lt' hlt]
  exact hpos

/-- No rate is read as zero. -/
theorem pos_of_read? {text : String} {r : Kbps} (h : read? text = some r) : 0 < r.kbps.toNat := by
  unfold read? at h
  simp only at h
  split at h <;> exact pos_of_scaled? h

theorem read?_text_iff {r : Kbps} : read? r.text = some r ↔ 0 < r.kbps.toNat :=
  ⟨pos_of_read?, read?_text⟩

end Kbps

/-- Only a finite time that is not negative can be read as itself. -/
theorem seconds?_wire_eq_self_iff {s : Float} :
    seconds? (Timecode.wire s) = some s ↔
      s.isFinite = true ∧ 0.0 ≤ s ∧ Timecode.IsReread s s := by
  rw [seconds?_wire, Option.filter_eq_some_iff, Bool.and_eq_true, decide_eq_true_eq]
  exact ⟨fun ⟨hread, hfinite, hs⟩ => ⟨hfinite, hs, hread⟩,
    fun ⟨hfinite, hs, hread⟩ => ⟨hread, hfinite, hs⟩⟩

namespace Directive

/-! ## Directives -/

/-- A directive whose value the wire can represent. A time has to be the number
    of its text with three places, which only finite times have. -/
def IsRepresentable : Directive → Prop
  | trimStart s | trimDuration s => s.isFinite = true ∧ 0.0 ≤ s ∧ Timecode.IsReread s s
  | videoCodec c | audioCodec c => c.IsRepresentable
  | subtitleCodec text | speed text | videoFilter text => IsTrimmed text
  | videoRate r | audioRate r | maxRate r | bufferSize r => 0 < r.kbps.toNat
  | qp _ | crf _ | threads _ | quality _ | map _ => True
  | unknown _ => False

/-- A value is read as the directive that wrote it exactly if it can be
    represented. -/
theorem exists_ofPair?_iff {d : Directive} {f : Flag} (h : d.flag? = some f) :
    ∃ value, d.toTokens = [f.text, value] ∧ (ofPair? f value = some d ↔ d.IsRepresentable) := by
  cases d <;> cases h <;> refine ⟨_, rfl, ?_⟩ <;>
    simp [ofPair?, IsRepresentable, seconds?_wire_eq_self_iff, CodecValue.read?_text_iff,
      nonBlank?_eq_self_iff, Kbps.read?_text_iff, count?_countText, MapTarget.read?_text]

/-- A directive is lexed into itself exactly if its value can be represented and
    is no flag. -/
theorem isFaithful_iff {d : Directive} (h : d.flag?.isSome = true) :
    d.IsFaithful ↔ d.IsRepresentable ∧ ∀ value ∈ d.valueText?, Flag.named? value = none := by
  obtain ⟨f, hf⟩ := Option.isSome_iff_exists.1 h
  obtain ⟨value, htokens, hpair⟩ := exists_ofPair?_iff hf
  have hvalue : d.valueText? = some value := by rw [valueText?, htokens]; rfl
  have hunknown : ∀ ts, unknown ts ≠ d := fun ts he => by rw [← he] at hf; cases hf
  rw [IsFaithful, htokens, hvalue, ← hpair]
  simp only [Option.mem_def, Option.some.injEq, forall_eq']
  cases hflag : Flag.named? value with
  | none =>
    rw [lex_flag_value f hflag, lex]
    cases ofPair? f value with
    | none => simp [hunknown]
    | some p => simp
  | some v =>
    -- A value that is a flag stands alone, after the flag, which does too.
    rw [Flag.text_of_named? hflag, lex_flag_flag, lex]
    simp

/-! ## Lists -/

theorem lex_ne_nil {ts : List String} (h : ts ≠ []) : lex ts ≠ [] := by
  unfold lex
  split
  · exact absurd rfl h
  · exact List.cons_ne_nil _ _
  · split
    · exact List.cons_ne_nil _ _
    · exact List.cons_ne_nil _ _
    · split <;> exact List.cons_ne_nil _ _

theorem length_le_flatMap {ds : List Directive} {g : Directive → List Directive}
    (h : ∀ d ∈ ds, g d ≠ []) : ds.length ≤ (ds.flatMap g).length := by
  induction ds with
  | nil => exact Nat.zero_le _
  | cons d ds ih =>
    have hpos := List.length_pos_iff.2 (h d List.mem_cons_self)
    have ih := ih fun d' hd' => h d' (List.mem_cons_of_mem _ hd')
    rw [List.flatMap_cons, List.length_append, List.length_cons]
    omega

/-- If every directive of a list becomes something, the list stays the same
    only if each of them does. -/
theorem flatMap_eq_self_iff {ds : List Directive} {g : Directive → List Directive}
    (h : ∀ d ∈ ds, g d ≠ []) : ds.flatMap g = ds ↔ ∀ d ∈ ds, g d = [d] := by
  induction ds with
  | nil => simp
  | cons d ds ih =>
    have htail := fun d' hd' => h d' (List.mem_cons_of_mem d hd')
    rw [List.flatMap_cons, List.forall_mem_cons, ← ih htail]
    constructor
    · intro he
      -- What the others become is no shorter than they are, so the first one
      -- becomes a single directive.
      have hlen := length_le_flatMap htail
      obtain ⟨x, xs, hx⟩ := List.exists_cons_of_ne_nil (h d List.mem_cons_self)
      rw [hx, List.cons_append, List.cons.injEq] at he
      obtain ⟨rfl, he⟩ := he
      have hxs : xs = [] := by
        have := congrArg List.length he
        rw [List.length_append] at this
        exact List.length_eq_zero_iff.1 (by omega)
      rw [hxs, List.nil_append] at he
      exact ⟨by rw [hx, hxs], he⟩
    · rintro ⟨hd, hds⟩
      rw [hd, hds]
      rfl

/-- A list of directives that are understood is lexed into itself exactly if each
    of them is. -/
theorem lex_tokens_eq_self_iff_isFaithful {ds : List Directive}
    (h : ∀ d ∈ ds, d.flag?.isSome = true) : lex (tokens ds) = ds ↔ ∀ d ∈ ds, d.IsFaithful := by
  have hne : ∀ d ∈ ds, lex d.toTokens ≠ [] := by
    intro d hd
    obtain ⟨f, hf⟩ := Option.isSome_iff_exists.1 (h d hd)
    obtain ⟨value, htokens⟩ := exists_toTokens hf
    exact lex_ne_nil (by rw [htokens]; exact List.cons_ne_nil _ _)
  rw [lex_tokens h]
  exact flatMap_eq_self_iff hne

/-- A list of directives that are understood is lexed into itself exactly if
    every value can be represented and none is a flag. -/
theorem lex_tokens_eq_self_iff {ds : List Directive} (h : ∀ d ∈ ds, d.flag?.isSome = true) :
    lex (tokens ds) = ds ↔
      ∀ d ∈ ds, d.IsRepresentable ∧ ∀ value ∈ d.valueText?, Flag.named? value = none := by
  rw [lex_tokens_eq_self_iff_isFaithful h]
  exact forall₂_congr fun d hd => isFaithful_iff (h d hd)

/-- So it is for a list with a value of every form. -/
theorem lex_tokens_sample :
    let ds := [trimStart 1.5, trimDuration 2.25, videoCodec (.named "libx264"), speed "slow",
      videoRate ⟨4500⟩, videoFilter "scale=640:360", audioCodec .copy, threads 4, map (.track 2)]
    (∀ d ∈ ds, d.flag?.isSome = true) ∧
      (∀ d ∈ ds, d.IsRepresentable ∧ ∀ value ∈ d.valueText?, Flag.named? value = none) ∧
      lex (tokens ds) = ds := by
  intro ds
  have hflag : ∀ d ∈ ds, d.flag?.isSome = true := by
    simp only [ds, List.forall_mem_cons]
    exact ⟨rfl, rfl, rfl, rfl, rfl, rfl, rfl, rfl, rfl, fun _ h => by cases h⟩
  have hvalues : ∀ d ∈ ds, d.IsRepresentable ∧ ∀ value ∈ d.valueText?, Flag.named? value = none := by
    have htrim : ∀ name ∈ ["libx264", "slow", "scale=640:360"], IsTrimmed name := by
      unfold IsTrimmed
      decide
    have htimes : ∀ t ∈ [1.5, 2.25], t.isFinite = true ∧ 0.0 ≤ t ∧ Timecode.IsReread t t := by
      unfold Timecode.IsReread
      decide +kernel
    have hrate : 0 < (4500 : UInt32).toNat := by decide
    simp only [ds, List.forall_mem_cons] at htrim htimes ⊢
    refine ⟨⟨htimes.1, ?_⟩, ⟨htimes.2.1, ?_⟩, ⟨⟨htrim.1, by decide, by decide⟩, ?_⟩, ⟨htrim.2.1, ?_⟩,
      ⟨hrate, ?_⟩, ⟨htrim.2.2.1, ?_⟩, ⟨trivial, ?_⟩, ⟨trivial, ?_⟩, ⟨trivial, ?_⟩,
      fun _ h => by cases h⟩ <;>
      rintro value ⟨⟩
    · exact named?_wire _
    · exact named?_wire _
    · rfl
    · rfl
    · exact (isToken_kbps _).named?_eq_none
    · rfl
    · rfl
    · exact (isToken_text _).named?_eq_none
    · exact named?_mapText _
  exact ⟨hflag, hvalues, (lex_tokens_eq_self_iff hflag).2 hvalues⟩

end Directive

end VideoExport
