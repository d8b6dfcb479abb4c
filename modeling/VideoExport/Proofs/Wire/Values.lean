import VideoExport.Proofs.Number.Fixed
import VideoExport.Proofs.Text.Pieces
import VideoExport.Proofs.Wire.Lexing

/-!
# Values that survive

Numbers, rates, tracks and names are written so that they are read as what
they were. The directives that carry them are faithful; the exceptions are
times, which lose places, and names that are free text.

* `IsToken`: words that no flag is spelled like;
* `Kbps.read?_text`: rates, which are read as floating-point numbers;
* `Directive.IsExact`, `Directive.IsExact.isFaithful`: the directives that are
  lexed into themselves.
-/

namespace VideoExport

open Number Text

/-- A word that is no flag. -/
structure IsToken (s : String) : Prop extends IsWord s where
  head?_ne : s.toList.head? ≠ some '-'

namespace IsToken

theorem named?_eq_none {s : String} (h : IsToken s) : Flag.named? s = none :=
  Flag.named?_eq_none h.head?_ne

theorem append {s t : String} (hs : IsToken s) (ht : HasNoBlank t) : IsToken (s ++ t) where
  toIsWord := hs.toIsWord.append ht
  head?_ne := by
    have hne : s.toList ≠ [] := fun h => hs.ne_empty (String.toList_eq_nil_iff.1 h)
    rw [String.toList_append, List.head?_append_of_ne_nil _ hne]
    exact hs.head?_ne

end IsToken

/-! ## Numbers -/

theorem hasNoBlank_text (n : ℕ) : HasNoBlank (Number.text n) := by
  intro c hc
  rw [Number.text, String.toList_ofList] at hc
  exact isBlank_of_isDigit (isDigit_of_mem_digits hc)

theorem head?_digits_ne {n : ℕ} {c : Char} (hc : c.isDigit = false) :
    (digits n).head? ≠ some c := fun h =>
  absurd (isDigit_of_mem_digits (List.mem_of_mem_head? h)) (by rw [hc]; exact Bool.false_ne_true)

theorem isToken_text (n : ℕ) : IsToken (Number.text n) where
  ne_empty := fun h => digits_ne_nil n (by simpa [Number.text] using congrArg String.toList h)
  noBlank := hasNoBlank_text n
  head?_ne := by
    rw [Number.text, String.toList_ofList]
    exact head?_digits_ne rfl

/-- The digits of a number that fits its word are read as that number. -/
theorem word?_digits {bound n : ℕ} (h : n < bound) : word? bound (digits n) = some n := by
  have hfilter : (digitsValue? (digits n)).filter (· < bound) = some n := by
    rw [digitsValue?_digits]
    simp [h]
  unfold word?
  simp only
  split
  case h_1 rest he => exact absurd (congrArg List.head? he) (head?_digits_ne rfl)
  case h_2 => exact hfilter

theorem count?_countText (n : UInt32) : count? (Directive.countText n) = some n := by
  have hn : n.toNat < UInt32.size := n.toNat_lt
  rw [count?, Directive.countText, (hasNoBlank_text _).trim, word32?, Number.text,
    String.toList_ofList, word?_digits hn, Option.map_some, UInt32.ofNat_toNat]

theorem word64?_text (n : UInt64) : word64? (Number.text n.toNat) = some n := by
  have hn : n.toNat < UInt64.size := n.toNat_lt
  rw [word64?, Number.text, String.toList_ofList, word?_digits hn, Option.map_some,
    UInt64.ofNat_toNat]

/-! ## Rates -/

namespace Kbps

/-- A whole number of kilobits, which is small enough to be exact, is read
    back. -/
theorem scaled?_digits {n : ℕ} (hpos : 0 < n) (hlt : n < UInt32.size) :
    scaled? (digits n) 1.0 = some ⟨UInt32.ofNat n⟩ := by
  have hsize : UInt32.size = 4294967296 := rfl
  -- Every word of 32 bits is exact as a floating-point number, so neither the
  -- factor nor the rounding changes it.
  have hvalue := Decimal.hasValue_natural hpos (hlt.trans (by decide))
  have hone : (1 : ℚ) ≤ n := by exact_mod_cast hpos
  have hread : Numeral.read? (digits n) = some (.finite ⟨false, n, 0⟩) := Numeral.read?_digits false n
  have hnearest : nearestWithin UInt32.size ((Numeral.finite ⟨false, n, 0⟩).toFloat * 1.0) = n :=
    (hvalue.times_one hone).nearestWithin_natCast hlt.le
  have hfinite : ((Numeral.finite ⟨false, n, 0⟩).toFloat.isFinite &&
      decide (0.0 < (Numeral.finite ⟨false, n, 0⟩).toFloat)) = true := by
    rw [Bool.and_eq_true]
    exact ⟨hvalue.isFinite, decide_eq_true hvalue.zero_lt⟩
  have hrange : 1 ≤ n ∧ n < UInt32.size := ⟨hpos, hlt⟩
  rw [scaled?]
  rw [hread]
  simp only [Option.bind_eq_bind, Option.bind_some, hfinite, hnearest]
  simp [hrange]

theorem read?_text {r : Kbps} (h : 0 < r.kbps.toNat) : read? r.text = some r := by
  have hlt : r.kbps.toNat < UInt32.size := r.kbps.toNat_lt
  have hblank : HasNoBlank r.text := (hasNoBlank_text _).append (by simp [HasNoBlank]; decide)
  have hlist : r.text.toList = digits r.kbps.toNat ++ ['k'] := by
    rw [text, String.toList_append, Number.text, String.toList_ofList]
    rfl
  have htrim := Chars.trim_eq_self hblank
  rw [hlist] at htrim
  unfold read?
  simp only [hlist, htrim, List.getLast?_concat, List.dropLast_concat]
  rw [scaled?_digits h hlt, UInt32.ofNat_toNat]

end Kbps

/-! ## Tracks and codecs -/

/-- The text of a number starts with a digit. -/
theorem text_ne_of_head? {n : ℕ} {s : String} {c : Char} (hs : s.toList.head? = some c)
    (hc : c.isDigit = false) : Number.text n ≠ s := fun h => by
  rw [← h, Number.text, String.toList_ofList] at hs
  exact head?_digits_ne hc hs

namespace MapTarget

theorem ofSpec?_text (n : UInt64) : ofSpec? (Number.text n.toNat) = some (track n) := by
  unfold ofSpec?
  split
  case h_7 => rw [word64?_text, Option.map_some]
  -- All other cases are words, and a number starts with a digit.
  all_goals
    rename_i h
    exact absurd h (text_ne_of_head? rfl rfl)

theorem read?_text (t : MapTarget) : read? t.text = some t := by
  cases t with
  | primaryVideo | allAudio | allSubtitles => rfl
  | track n =>
    have hblank : HasNoBlank (text (track n)) :=
      HasNoBlank.append (by simp [HasNoBlank]; decide) (hasNoBlank_text _)
    rw [read?, hblank.trim, text, Text.after?_append, Option.bind_some, ofSpec?_text]

end MapTarget

theorem CodecValue.read?_copy : read? copy.text = some copy := by rfl

theorem CodecValue.read?_videoEncoder (c : VideoCodec) : read? c.encoder = some (named c.encoder) := by
  cases c <;> rfl

theorem CodecValue.read?_audioEncoder (c : AudioCodec) : read? c.encoder = some (named c.encoder) := by
  cases c <;> rfl

/-! ## Exact directives -/

namespace Directive

/-- A text that is no flag and that trimming leaves alone. -/
def IsPlain (s : String) : Prop := Flag.named? s = none ∧ nonBlank? s = some s

theorem isPlain_of_isToken {s : String} (h : IsToken s) : IsPlain s :=
  ⟨h.named?_eq_none, h.nonBlank?⟩

/-- A directive whose value is written without loss: numbers and tracks always
    are, rates unless they are zero, and texts if they are read as themselves. -/
def IsExact : Directive → Prop
  | trimStart s | trimDuration s =>
    Flag.named? (Timecode.wire s) = none ∧ seconds? (Timecode.wire s) = some s
  | videoCodec c | audioCodec c =>
    Flag.named? c.text = none ∧ CodecValue.read? c.text = some c
  | subtitleCodec text | speed text | videoFilter text => IsPlain text
  | videoRate r | audioRate r | maxRate r | bufferSize r => 0 < r.kbps.toNat
  | qp _ | crf _ | threads _ | quality _ | map _ => True
  | unknown _ => False

theorem isToken_kbps (r : Kbps) : IsToken r.text :=
  (isToken_text _).append (by simp [HasNoBlank]; decide)

theorem named?_mapText (t : MapTarget) : Flag.named? t.text = none := by
  refine Flag.named?_eq_none ?_
  cases t <;> simp [MapTarget.text, String.toList_append]

/-- The value of an exact directive is no flag and is read as what it was. -/
theorem IsExact.exists_value {d : Directive} (h : d.IsExact) :
    ∃ f value, d.toTokens = [f.text, value] ∧ Flag.named? value = none ∧
      ofPair? f value = some d := by
  cases d with
  | trimStart s => exact ⟨.trimStart, _, rfl, h.1, by rw [ofPair?, h.2]; rfl⟩
  | trimDuration s => exact ⟨.trimDuration, _, rfl, h.1, by rw [ofPair?, h.2]; rfl⟩
  | videoCodec c => exact ⟨.videoCodec, _, rfl, h.1, by rw [ofPair?, h.2]; rfl⟩
  | audioCodec c => exact ⟨.audioCodec, _, rfl, h.1, by rw [ofPair?, h.2]; rfl⟩
  | subtitleCodec s => exact ⟨.subtitleCodec, _, rfl, h.1, by rw [ofPair?, h.2]; rfl⟩
  | speed s => exact ⟨.speed, _, rfl, h.1, by rw [ofPair?, h.2]; rfl⟩
  | videoFilter s => exact ⟨.videoFilter, _, rfl, h.1, by rw [ofPair?, h.2]; rfl⟩
  | videoRate r =>
    exact ⟨.videoRate, _, rfl, (isToken_kbps r).named?_eq_none,
      by rw [ofPair?, Kbps.read?_text h]; rfl⟩
  | audioRate r =>
    exact ⟨.audioRate, _, rfl, (isToken_kbps r).named?_eq_none,
      by rw [ofPair?, Kbps.read?_text h]; rfl⟩
  | maxRate r =>
    exact ⟨.maxRate, _, rfl, (isToken_kbps r).named?_eq_none,
      by rw [ofPair?, Kbps.read?_text h]; rfl⟩
  | bufferSize r =>
    exact ⟨.bufferSize, _, rfl, (isToken_kbps r).named?_eq_none,
      by rw [ofPair?, Kbps.read?_text h]; rfl⟩
  | qp n =>
    exact ⟨.qp, _, rfl, (isToken_text _).named?_eq_none,
      by rw [ofPair?, count?_countText]; rfl⟩
  | crf n =>
    exact ⟨.crf, _, rfl, (isToken_text _).named?_eq_none,
      by rw [ofPair?, count?_countText]; rfl⟩
  | threads n =>
    exact ⟨.threads, _, rfl, (isToken_text _).named?_eq_none,
      by rw [ofPair?, count?_countText]; rfl⟩
  | quality n =>
    exact ⟨.quality, _, rfl, (isToken_text _).named?_eq_none,
      by rw [ofPair?, count?_countText]; rfl⟩
  | map t =>
    exact ⟨.map, _, rfl, named?_mapText t, by rw [ofPair?, MapTarget.read?_text]; rfl⟩
  | unknown tokens => exact h.elim

/-- An exact directive is lexed into itself. -/
theorem IsExact.isFaithful {d : Directive} (h : d.IsExact) : d.IsFaithful := by
  obtain ⟨f, value, htokens, hflag, hpair⟩ := h.exists_value
  exact isFaithful_of_ofPair? htokens hflag hpair

theorem isExact_copy : (videoCodec .copy).IsExact ∧ (audioCodec .copy).IsExact :=
  ⟨⟨rfl, CodecValue.read?_copy⟩, ⟨rfl, CodecValue.read?_copy⟩⟩

theorem isExact_videoEncoder (c : VideoCodec) : (videoCodec (.named c.encoder)).IsExact :=
  ⟨by cases c <;> rfl, CodecValue.read?_videoEncoder c⟩

theorem isExact_audioEncoder (c : AudioCodec) : (audioCodec (.named c.encoder)).IsExact :=
  ⟨by cases c <;> rfl, CodecValue.read?_audioEncoder c⟩

theorem isExact_animationEncoder : (videoCodec (.named "gif")).IsExact :=
  ⟨rfl, by rfl⟩

end Directive

end VideoExport
