import Mathlib
import VideoExport.Proofs.Text.Pieces
import VideoExport.Text.Case

/-!
# Trimmed texts in lower case

Whether trimming leaves a text alone is decided by its first and its last
character. The lower-case form of a character that is not blank has no blank,
so lower-casing a trimmed text gives a trimmed text. Nor has it another
lower-case form, so lower-casing twice is lower-casing once.

* `IsTrimmed`: texts that are not empty and that trimming leaves alone;
* `isBlank_lowerChar`: no character becomes blank;
* `IsTrimmed.lower`: trimmed texts in lower case;
* `Chars.isLower_lowerChar`: the lower-case form of a character is its own;
* `lower_lower`: a text in lower case stays as it is.
-/

namespace VideoExport.Text

/-! ## Trimming -/

namespace Chars

theorem trimEnd_eq (s : List Char) : trimEnd s = s.rdropWhile isBlank := rfl

/-- Trimming leaves a text alone exactly if it neither starts nor ends with a
    blank. -/
theorem trim_eq_self_iff {s : List Char} :
    trim s = s ↔ (∀ c ∈ s.head?, isBlank c = false) ∧ (∀ c ∈ s.getLast?, isBlank c = false) := by
  have hhead : trimStart s = s ↔ ∀ c ∈ s.head?, isBlank c = false := by
    cases s with
    | nil => simp [trimStart]
    | cons c s => simp [trimStart, List.dropWhile_eq_self_iff]
  have hlast : trimEnd s = s ↔ ∀ c ∈ s.getLast?, isBlank c = false := by
    rw [trimEnd_eq, List.rdropWhile_eq_self_iff]
    cases s with
    | nil => simp
    | cons c s => simp [List.getLast?_eq_some_getLast (List.cons_ne_nil c s)]
  rw [← hhead, ← hlast]
  constructor
  · intro h
    -- Neither end can lose anything, as nothing is lost in the end.
    have hlen : s.length ≤ (trimStart s).length := by
      have hprefix : trim s <+: trimStart s := List.rdropWhile_prefix _ _
      rw [h] at hprefix
      exact hprefix.length_le
    have hstart : trimStart s = s := (List.dropWhile_suffix _).eq_of_length_le hlen
    rw [trim, hstart] at h
    exact ⟨hstart, h⟩
  · rintro ⟨hstart, hend⟩
    rw [trim, hstart, hend]

theorem trim_trim (s : List Char) : trim (trim s) = trim s := by
  rw [trim_eq_self_iff]
  constructor
  · intro c hc
    -- What trimming starts with is what is left after the blanks at the start.
    obtain ⟨rest, hrest⟩ : trim s <+: s.dropWhile isBlank := List.rdropWhile_prefix _ _
    have hhead := List.head?_dropWhile_not isBlank s
    rw [← hrest, List.head?_append, Option.mem_def.1 hc] at hhead
    simpa using hhead
  · intro c hc
    obtain ⟨hne, he⟩ := List.mem_getLast?_eq_getLast hc
    rw [he]
    exact Bool.eq_false_iff.2 (List.rdropWhile_last_not _ _ hne)

end Chars

/-- A text that is not empty and that trimming leaves alone. -/
def IsTrimmed (s : String) : Prop := s ≠ "" ∧ trim s = s

theorem isTrimmed_iff {s : String} :
    IsTrimmed s ↔ s.toList ≠ [] ∧ (∀ c ∈ s.toList.head?, isBlank c = false) ∧
      (∀ c ∈ s.toList.getLast?, isBlank c = false) := by
  have htrim : trim s = s ↔ Chars.trim s.toList = s.toList := by
    rw [trim, ← String.toList_inj, String.toList_ofList]
  rw [IsTrimmed, htrim, Chars.trim_eq_self_iff, ne_eq, ne_eq, String.toList_eq_nil_iff]

theorem nonBlank?_eq_self_iff {s : String} : nonBlank? s = some s ↔ IsTrimmed s := by
  rw [nonBlank?, IsTrimmed]
  simp only [Option.ite_none_left_eq_some, String.isEmpty_iff, Option.some.injEq]
  constructor
  · rintro ⟨hne, htrim⟩
    exact ⟨htrim ▸ hne, htrim⟩
  · rintro ⟨hne, htrim⟩
    exact ⟨htrim.symm ▸ hne, htrim⟩

theorem isTrimmed_of_nonBlank? {s t : String} (h : nonBlank? s = some t) : IsTrimmed t := by
  rw [nonBlank?] at h
  simp only [Option.ite_none_left_eq_some, String.isEmpty_iff, Option.some.injEq] at h
  obtain ⟨hne, rfl⟩ := h
  refine ⟨hne, ?_⟩
  rw [trim, trim, String.toList_ofList, Chars.trim_trim]

/-! ## Lower case -/

/-- The code points of blanks, in ranges. -/
def blankRanges : List (ℕ × ℕ) :=
  [(9, 13), (0x20, 0x20), (0x85, 0x85), (0xA0, 0xA0), (0x1680, 0x1680), (0x2000, 0x200A),
    (0x2028, 0x2029), (0x202F, 0x202F), (0x205F, 0x205F), (0x3000, 0x3000)]

theorem isBlank_iff {c : Char} : isBlank c = true ↔ ∃ r ∈ blankRanges, r.1 ≤ c.toNat ∧ c.toNat ≤ r.2 := by
  simp only [isBlank, blankRanges, Bool.or_eq_true, Bool.and_eq_true, decide_eq_true_eq, beq_iff_eq,
    List.mem_cons, List.not_mem_nil, or_false, exists_eq_or_imp, exists_eq_left]
  omega

/-- No run of the table reaches a blank. -/
theorem lowerRuns_avoid_blanks :
    ∀ r ∈ lowerRuns, ∀ b ∈ blankRanges, (r.last : ℤ) + r.shift < b.1 ∨ b.2 < r.first + r.shift := by
  decide +kernel

/-- A character of a code point has that code point, unless there is none. -/
theorem toNat_ofNat (n : ℕ) : (Char.ofNat n).toNat = n ∨ (Char.ofNat n).toNat = 0 := by
  rw [Char.ofNat]
  split
  · exact .inl rfl
  · exact .inr rfl

theorem isBlank_toLower {c : Char} (h : isBlank c = false) : isBlank c.toLower = false := by
  rw [Char.toLower]
  split
  case isFalse => exact h
  case isTrue hc =>
    -- The letters from A to Z have the codes from 65 to 90, and lie 32 before their
    -- lower-case forms.
    have hA : 65 ≤ c.val.toNat := UInt32.le_iff_toNat_le.1 hc.1
    have hZ : c.val.toNat ≤ 90 := UInt32.le_iff_toNat_le.1 hc.2
    rw [← Bool.not_eq_true, isBlank_iff]
    rintro ⟨b, hb, hlow, hhigh⟩
    have hval : (c.val + ('a'.val - 'A'.val)).toNat = c.val.toNat + 32 := by
      rw [UInt32.toNat_add]
      exact Nat.mod_eq_of_lt (by show c.val.toNat + 32 < 2 ^ 32; omega)
    have hfar : ∀ b ∈ blankRanges, b.2 < 97 ∨ 122 < b.1 := by decide
    have := hfar b hb
    change b.1 ≤ (c.val + ('a'.val - 'A'.val)).toNat at hlow
    change (c.val + ('a'.val - 'A'.val)).toNat ≤ b.2 at hhigh
    omega

/-- No character becomes blank in lower case. -/
theorem isBlank_lowerChar {c : Char} (h : isBlank c = false) :
    isBlank (Chars.lowerChar c) = false := by
  rw [Chars.lowerChar]
  split
  · exact isBlank_toLower h
  · split
    case h_2 => exact h
    case h_1 r hr =>
      have hcovers := Array.find?_some hr
      have hmem := Array.mem_of_find?_eq_some hr
      simp only [CaseRun.covers, Bool.and_eq_true, decide_eq_true_eq] at hcovers
      obtain ⟨⟨hfirst, hlast⟩, -⟩ := hcovers
      rw [← Bool.not_eq_true, isBlank_iff]
      rintro ⟨b, hb, hlow, hhigh⟩
      have havoid := lowerRuns_avoid_blanks r hmem b hb
      have hpos : ∀ b ∈ blankRanges, 0 < b.1 := by decide
      have := hpos b hb
      rcases toNat_ofNat ((c.toNat : ℤ) + r.shift).toNat with he | he <;> rw [he] at hlow hhigh <;> omega

namespace Chars

/-- The lower-case form of a character in its place. -/
theorem exists_lowerAfter_cons (before : List Char) (c : Char) (s : List Char) :
    ∃ image, image ≠ [] ∧ (isBlank c = false → ∀ x ∈ image, isBlank x = false) ∧
      lowerAfter before (c :: s) = image ++ lowerAfter (c :: before) s := by
  refine ⟨_, ?_, ?_, rfl⟩
  · split
    · simp
    · split <;> simp
  · intro h x hx
    split at hx
    · rw [List.mem_singleton.1 hx]
      split <;> rfl
    · split at hx
      · simp only [List.mem_cons, List.not_mem_nil, or_false] at hx
        rcases hx with rfl | rfl <;> rfl
      · rw [List.mem_singleton.1 hx]
        exact isBlank_lowerChar h

theorem lowerAfter_ne_nil {before s : List Char} (h : s ≠ []) : lowerAfter before s ≠ [] := by
  cases s with
  | nil => exact absurd rfl h
  | cons c s =>
    obtain ⟨image, hne, -, he⟩ := exists_lowerAfter_cons before c s
    rw [he]
    exact List.append_ne_nil_of_left_ne_nil hne _

theorem head?_lowerAfter {before s : List Char} (h : ∀ c ∈ s.head?, isBlank c = false) :
    ∀ c ∈ (lowerAfter before s).head?, isBlank c = false := by
  cases s with
  | nil => simp [lowerAfter]
  | cons c s =>
    obtain ⟨image, hne, hblank, he⟩ := exists_lowerAfter_cons before c s
    rw [he, List.head?_append_of_ne_nil _ hne]
    exact fun x hx => hblank (h c rfl) x (List.mem_of_mem_head? hx)

theorem getLast?_lowerAfter {before s : List Char} (h : ∀ c ∈ s.getLast?, isBlank c = false) :
    ∀ c ∈ (lowerAfter before s).getLast?, isBlank c = false := by
  -- The last character is that of the image of the last one, as no image is empty.
  induction s generalizing before with
  | nil => simp [lowerAfter]
  | cons c s ih =>
    obtain ⟨image, -, hblank, he⟩ := exists_lowerAfter_cons before c s
    rw [he]
    cases s with
    | nil =>
      rw [lowerAfter, List.append_nil]
      exact fun x hx => hblank (h c rfl) x (List.mem_of_getLast? hx)
    | cons d s =>
      rw [List.getLast?_append_of_ne_nil _ (lowerAfter_ne_nil (List.cons_ne_nil d s))]
      exact ih (by rwa [List.getLast?_cons_cons] at h)

end Chars

/-- Trimmed texts are trimmed in lower case. -/
theorem IsTrimmed.lower {s : String} (h : IsTrimmed s) : IsTrimmed (lower s) := by
  rw [isTrimmed_iff] at h ⊢
  rw [Text.lower, String.toList_ofList]
  exact ⟨Chars.lowerAfter_ne_nil h.1, Chars.head?_lowerAfter h.2.1, Chars.getLast?_lowerAfter h.2.2⟩

/-! ## Lower case twice -/

/-- Whether a run takes no code point from `lo` on to `hi`, or takes every second one,
    as `r` does from `lo` on, but not the same ones. -/
def CaseRun.avoids (r : CaseRun) (lo hi : Nat) (q : CaseRun) : Bool :=
  hi.blt q.first || q.last.blt lo ||
    (q.stride.beq 2 && (r.stride.beq 2 || r.first.beq r.last) && ((lo + q.first) % 2).beq 1)

/-- No run of the table reaches another one, or itself. -/
theorem lowerRuns_avoid_runs :
    lowerRuns.toList.all (fun r =>
      lowerRuns.toList.all (r.avoids (r.first + r.shift).toNat (r.last + r.shift).toNat)) = true := by
  decide +kernel

/-- No run of the table reaches the capital letters of ASCII, or the capital I with a
    dot. -/
theorem lowerRuns_avoid_capitals :
    ∀ r ∈ lowerRuns.toList, 90 < (r.first : ℤ) + r.shift ∧
      ((r.last : ℤ) + r.shift < 0x130 ∨ 0x130 < (r.first : ℤ) + r.shift) := by
  decide +kernel

namespace Chars

/-- A character that lower-casing leaves alone wherever it stands. -/
def IsLower (c : Char) : Prop := c ≠ 'Σ' ∧ c ≠ 'İ' ∧ lowerChar c = c

instance (c : Char) : Decidable (IsLower c) := inferInstanceAs (Decidable (_ ∧ _ ∧ _))

theorem lowerChar_eq_self {c : Char} (hcapital : 90 < c.toNat)
    (hnone : ∀ q ∈ lowerRuns, q.covers c.toNat = false) : lowerChar c = c := by
  have hfind : lowerRuns.find? (·.covers c.toNat) = none :=
    Array.find?_eq_none.2 fun q hq => by rw [hnone q hq]; exact Bool.false_ne_true
  rw [lowerChar, hfind]
  split
  · -- Beyond the capital letters of ASCII there is nothing to lower.
    rw [Char.toLower, dif_neg]
    rintro ⟨-, hZ⟩
    exact absurd (UInt32.le_iff_toNat_le.1 hZ) (not_le.2 hcapital)
  · rfl

/-- What a run of the table maps a character to is covered by none. -/
theorem covers_shifted {r q : CaseRun} (hr : r ∈ lowerRuns) (hq : q ∈ lowerRuns) {n k : ℕ}
    (hn : r.covers n = true) (hk : (k : ℤ) = n + r.shift) : q.covers k = false := by
  rw [← Array.mem_toList_iff] at hr hq
  have hcapitals := (lowerRuns_avoid_capitals r hr).1
  have havoids := List.all_eq_true.1 (List.all_eq_true.1 lowerRuns_avoid_runs r hr) q hq
  simp only [CaseRun.avoids, Bool.or_eq_true, Bool.and_eq_true, Nat.blt_eq, Nat.beq_eq] at havoids
  simp only [CaseRun.covers, Bool.and_eq_true, decide_eq_true_eq, beq_iff_eq] at hn
  obtain ⟨⟨hfirst, hlast⟩, hstride⟩ := hn
  rw [← Bool.not_eq_true]
  intro hcovers
  simp only [CaseRun.covers, Bool.and_eq_true, decide_eq_true_eq, beq_iff_eq] at hcovers
  obtain ⟨⟨hfirst', hlast'⟩, hstride'⟩ := hcovers
  rcases havoids with (h | h) | ⟨⟨hq2, hr2⟩, hodd⟩
  · omega
  · omega
  · rw [hq2] at hstride'
    rcases hr2 with hr2 | hsingle
    · rw [hr2] at hstride
      omega
    · omega

theorem isLower_lowerChar {c : Char} (hsigma : c ≠ 'Σ') (hdot : c ≠ 'İ') : IsLower (lowerChar c) := by
  by_cases hascii : c.toNat < 128
  · have hall : ∀ i : Fin 128, IsLower (lowerChar (Char.ofNat i)) := by decide +kernel
    have := hall ⟨c.toNat, hascii⟩
    rwa [Char.ofNat_toNat] at this
  · rw [lowerChar, if_neg hascii]
    split
    case h_1 r hr =>
      have hcovers := Array.find?_some hr
      have hmem := Array.mem_of_find?_eq_some hr
      have hcapitals := lowerRuns_avoid_capitals r (Array.mem_toList_iff.2 hmem)
      have hrange := hcovers
      simp only [CaseRun.covers, Bool.and_eq_true, decide_eq_true_eq] at hrange
      obtain ⟨⟨hfirst, hlast⟩, -⟩ := hrange
      rcases toNat_ofNat ((c.toNat : ℤ) + r.shift).toNat with he | he
      · -- The image is beyond all capital letters, and no run covers it.
        have hk : ((Char.ofNat ((c.toNat : ℤ) + r.shift).toNat).toNat : ℤ) = c.toNat + r.shift := by
          omega
        generalize Char.ofNat ((c.toNat : ℤ) + r.shift).toNat = image at hk
        have hnone : ∀ q ∈ lowerRuns, q.covers image.toNat = false :=
          fun q hq => covers_shifted hmem hq hcovers hk
        have hsame : lowerChar image = image := lowerChar_eq_self (by omega) hnone
        refine ⟨?_, ?_, hsame⟩
        · rintro rfl
          exact absurd hsame (by decide +kernel)
        · rintro rfl
          have : ('İ' : Char).toNat = 0x130 := rfl
          omega
      · have hnul : Char.ofNat ((c.toNat : ℤ) + r.shift).toNat = '\x00' := Char.toNat_inj.1 he
        rw [hnul]
        decide
    case h_2 hnone =>
      have h := lowerChar_eq_self (c := c) (by omega) fun q hq => by
        simpa using Array.find?_eq_none.1 hnone q hq
      exact ⟨hsigma, hdot, h⟩

theorem IsLower.toLower_eq {c : Char} (h : IsLower c) : c.toLower = c := by
  obtain ⟨-, -, h⟩ := h
  rw [lowerChar] at h
  split at h
  · exact h
  · -- Only the capital letters of ASCII have another form here.
    rw [Char.toLower, dif_neg]
    rintro ⟨-, hZ⟩
    have hZ : c.toNat ≤ 90 := UInt32.le_iff_toNat_le.1 hZ
    omega

theorem isLower_of_mem_lowerAfter {before s : List Char} {c : Char} (h : c ∈ lowerAfter before s) :
    IsLower c := by
  induction s generalizing before with
  | nil => cases h
  | cons d s ih =>
    rw [lowerAfter] at h
    rcases List.mem_append.1 h with h | h
    · split at h
      · rw [List.mem_singleton.1 h]
        split <;> decide +kernel
      · split at h
        case isTrue =>
          simp only [List.mem_cons, List.not_mem_nil, or_false] at h
          rcases h with rfl | rfl <;> decide +kernel
        case isFalse hsigma hdot =>
          rw [List.mem_singleton.1 h]
          exact isLower_lowerChar hsigma hdot
    · exact ih h

theorem lowerAfter_eq_self {before s : List Char} (h : ∀ c ∈ s, IsLower c) :
    lowerAfter before s = s := by
  induction s generalizing before with
  | nil => rfl
  | cons c s ih =>
    obtain ⟨hsigma, hdot, hlower⟩ := h c List.mem_cons_self
    rw [lowerAfter, if_neg hsigma, if_neg hdot, hlower, ih fun d hd => h d (List.mem_cons_of_mem _ hd)]
    rfl

end Chars

/-- A text in lower case stays as it is. -/
theorem lower_lower (s : String) : lower (lower s) = lower s := by
  rw [lower, lower, String.toList_ofList,
    Chars.lowerAfter_eq_self fun _ => Chars.isLower_of_mem_lowerAfter]

/-- A text in lower case is spelled like a word in lower case, up to case, only if it
    is that word. -/
theorem lower_eq_of_sameIgnoringCase {s word : String} (hword : ∀ c ∈ word.toList, c.toLower = c)
    (h : sameIgnoringCase (lower s) word = true) : lower s = word := by
  have hlower : ∀ c ∈ (lower s).toList, c.toLower = c := by
    intro c hc
    rw [lower, String.toList_ofList] at hc
    exact (Chars.isLower_of_mem_lowerAfter hc).toLower_eq
  rw [sameIgnoringCase, beq_iff_eq, List.map_congr_left hlower, List.map_congr_left hword,
    List.map_id', List.map_id', String.toList_inj] at h
  exact h

end VideoExport.Text
