import Mathlib
import VideoExport.Proofs.Number.Exact
import VideoExport.Tool.Geometry

/-!
# Sizes that follow

A side that follows from others is even and at least two, whatever numbers it is
reckoned in. So no change of size that asks for a side at all leaves nothing of a
frame.

In exact numbers, a frame that is to stay within a box with its proportions
touches at least one pair of the box's sides. There it has the side of the box, if
that is even, and one more, if it is odd: the nearest even number is looked for
above and below alike.

* `two_le_toNat_evenSide`: a side that follows is no less than two;
* `toNat_evenSide_le_iff`: when it is no more than a side of a box;
* `FrameSize.afterIn_fits_iff`: when a frame stays within its box;
* `FrameSize.byteCount_after_pos_iff`: when a frame holds anything.
-/

namespace VideoExport

open Number

/-! ## Sides -/

/-- A side that follows from others is no less than two. -/
theorem two_le_toNat_evenSide {α : Type} [Quantity α] (x : α) : 2 ≤ (evenSide x).toNat := by
  have hword : UInt32.size = 4294967296 := rfl
  rw [evenSide, UInt32.toNat_ofNat', Nat.mod_eq_of_lt (by omega)]
  omega

theorem evenSide_pos {α : Type} [Quantity α] (x : α) : 0 < evenSide x :=
  UInt32.lt_iff_toNat_lt.2 (Nat.lt_of_lt_of_le Nat.two_pos (two_le_toNat_evenSide x))

/-- Half of a side that is no more than one of a box is rounded to no more than half of the
    next one. -/
theorem two_mul_floor_le {side : ℕ} {x : ℚ} (hx : x ≤ side) :
    2 * ⌊x / 2 + 1 / 2⌋₊ ≤ side + 1 := by
  by_cases hzero : ⌊x / 2 + 1 / 2⌋₊ = 0
  · omega
  · have hfloor : (⌊x / 2 + 1 / 2⌋₊ : ℚ) ≤ x / 2 + 1 / 2 := (Nat.le_floor_iff' hzero).1 le_rfl
    have hcast : (2 * ⌊x / 2 + 1 / 2⌋₊ : ℚ) ≤ side + 1 := by linarith
    exact_mod_cast hcast

/-- In exact numbers a side that follows is twice its half, rounded, or two. -/
theorem toNat_evenSide {side : ℕ} (hside : side < signBit32) {x : ℚ} (hx : x ≤ side) :
    (evenSide x).toNat = max 2 (2 * ⌊x / 2 + 1 / 2⌋₊) := by
  have hword : UInt32.size = 4294967296 := rfl
  have hsign : signBit32 = 2147483648 := rfl
  have hle := two_mul_floor_le hx
  have hnearest : Quantity.nearest signBit32 (x / Quantity.ofNat 2) = ⌊x / 2 + 1 / 2⌋₊ := by
    show min signBit32 ⌊x / Quantity.ofNat 2 + 1 / 2⌋₊ = _
    rw [Quantity.ofNat_rat, Nat.cast_ofNat]
    omega
  rw [evenSide, hnearest, UInt32.toNat_ofNat', Nat.mod_eq_of_lt (by omega)]
  omega

/-- It is no more than one more than a side of a box that it should not exceed. -/
theorem toNat_evenSide_le {side : ℕ} (hpos : 0 < side) (hside : side < signBit32) {x : ℚ}
    (hx : x ≤ side) : (evenSide x).toNat ≤ side + 1 := by
  have hle := two_mul_floor_le hx
  rw [toNat_evenSide hside hx]
  omega

/-- It does not exceed an even side of a box, nor an odd one that it does not reach,
    unless there is no room for two. -/
theorem toNat_evenSide_le_iff {side : ℕ} (hpos : 0 < side) (hside : side < signBit32) {x : ℚ}
    (hx : x ≤ side) : (evenSide x).toNat ≤ side ↔ Even side ∨ side ≠ 1 ∧ x < side := by
  have hle := two_mul_floor_le hx
  rw [toNat_evenSide hside hx]
  rcases Nat.even_or_odd side with heven | ⟨half, rfl⟩
  · obtain ⟨half, rfl⟩ := id heven
    exact iff_of_true (by omega) (.inl heven)
  · -- An odd side is exceeded exactly where the half above it is reached.
    have hreach : half + 1 ≤ ⌊x / 2 + 1 / 2⌋₊ ↔ ((2 * half + 1 : ℕ) : ℚ) ≤ x := by
      rw [Nat.le_floor_iff' (Nat.succ_ne_zero half)]
      push_cast
      constructor <;> intro h <;> linarith
    have hodd : ¬ Even (2 * half + 1) := by simp
    rw [← not_le, ← hreach]
    constructor
    · intro h
      exact .inr ⟨by omega, by omega⟩
    · rintro (heven | ⟨hone, hless⟩)
      · exact absurd heven hodd
      · omega

/-! ## Sizes within a box -/

/-- What a side becomes that is scaled until the frame touches its box: that of the box, or
    what the other side leaves of it. -/
theorem mul_smaller_eq {side : ℚ} (hside : 0 < side) (other boxSide boxOther : ℚ) :
    side * Quantity.smaller (boxSide / side) (boxOther / other) =
      min boxSide (side * (boxOther / other)) := by
  rw [Quantity.smaller_rat, mul_min_of_nonneg _ _ hside.le, mul_div_cancel₀ _ hside.ne']

/-- A side of a frame against that of its box. -/
theorem toNat_scaled_le_iff {side other boxSide : ℕ} (boxOther : ℕ) (hside : 0 < side)
    (hother : 0 < other) (hpos : 0 < boxSide) (hboxSide : boxSide < signBit32) :
    let scaled := evenSide ((side : ℚ) *
      Quantity.smaller ((boxSide : ℚ) / side) ((boxOther : ℚ) / other))
    scaled.toNat ≤ boxSide + 1 ∧
      (scaled.toNat ≤ boxSide ↔
        Even boxSide ∨ boxSide ≠ 1 ∧ boxOther * side < boxSide * other) := by
  intro scaled
  have hside' : (0 : ℚ) < side := by exact_mod_cast hside
  have hother' : (0 : ℚ) < other := by exact_mod_cast hother
  have hle : (side : ℚ) * Quantity.smaller ((boxSide : ℚ) / side) ((boxOther : ℚ) / other) ≤
      boxSide := by
    rw [mul_smaller_eq hside']
    exact min_le_left _ _
  have hlt : (side : ℚ) * Quantity.smaller ((boxSide : ℚ) / side) ((boxOther : ℚ) / other) <
      boxSide ↔ boxOther * side < boxSide * other := by
    rw [mul_smaller_eq hside', min_lt_iff, or_iff_right (lt_irrefl _), ← mul_div_assoc,
      div_lt_iff₀ hother', mul_comm (side : ℚ)]
    exact_mod_cast Iff.rfl
  refine ⟨toNat_evenSide_le hpos hboxSide hle, ?_⟩
  rw [toNat_evenSide_le_iff hpos hboxSide hle, hlt]

/-- The other side is scaled alike. -/
theorem smaller_comm (a b : ℚ) : Quantity.smaller a b = Quantity.smaller b a := by
  rw [Quantity.smaller_rat, Quantity.smaller_rat, min_comm]

theorem toNat_toInt_pos {n : Int32} (h : 0 < n) : 0 < n.toInt.toNat := by
  have hpos := Int32.lt_iff_toInt_lt.1 h
  rw [Int32.toInt_zero] at hpos
  omega

theorem toNat_toInt_lt (n : Int32) : n.toInt.toNat < signBit32 := by
  have hlt := n.toInt_lt
  have hsign : signBit32 = 2147483648 := rfl
  omega

theorem toUInt32_pos {n : Int32} (h : 0 < n) : 0 < n.toUInt32 := by
  rw [UInt32.lt_iff_toNat_lt, Int32.toNat_toUInt32_of_le (Int32.le_of_lt h), ← Int32.toNat_toInt]
  exact toNat_toInt_pos h

namespace FrameSize

variable {size : FrameSize} {box : ScaleBox}

/-- A frame holds anything exactly if both of its sides do. -/
theorem byteCount_pos_iff : 0 < size.byteCount ↔ 0 < size.width ∧ 0 < size.height := by
  rw [UInt32.lt_iff_toNat_lt, UInt32.lt_iff_toNat_lt, byteCount, area]
  simp [Nat.pos_iff_ne_zero]

/-- In exact numbers, the frame that is to stay within a box exceeds none of its sides by more
    than one. It stays within the box exactly if neither side of the box is one, and a side that
    the frame reaches is even. -/
theorem afterIn_fits_iff (hwidth : 0 < size.width) (hheight : 0 < size.height)
    (hboxWidth : 0 < box.width) (hboxHeight : 0 < box.height) (hfit : box.fit = .contain) :
    let fitted := size.afterIn (α := ℚ) box
    let width := box.width.toInt.toNat
    let height := box.height.toInt.toNat
    (0 < fitted.width ∧ 0 < fitted.height) ∧
      (fitted.width.toNat ≤ width + 1 ∧ fitted.height.toNat ≤ height + 1) ∧
      (fitted.width.toNat ≤ width ∧ fitted.height.toNat ≤ height ↔
        (Even width ∨ width ≠ 1 ∧ height * size.width.toNat < width * size.height.toNat) ∧
          (Even height ∨ height ≠ 1 ∧ width * size.height.toNat < height * size.width.toNat)) := by
  intro fitted width height
  have hw : 0 < size.width.toNat := UInt32.lt_iff_toNat_lt.1 hwidth
  have hh : 0 < size.height.toNat := UInt32.lt_iff_toNat_lt.1 hheight
  have hfitted : fitted = sizeWithin (size.width.toNat : ℚ) size.height.toNat width height := by
    show size.afterIn (α := ℚ) box = _
    simp only [afterIn, if_pos hboxWidth, if_pos hboxHeight, hfit, Quantity.ofNat_rat,
      max_eq_right (Nat.succ_le_of_lt hw), max_eq_right (Nat.succ_le_of_lt hh)]
    rfl
  have hfittedWidth := toNat_scaled_le_iff height hw hh (toNat_toInt_pos hboxWidth)
    (toNat_toInt_lt box.width)
  have hfittedHeight := toNat_scaled_le_iff width hh hw (toNat_toInt_pos hboxHeight)
    (toNat_toInt_lt box.height)
  rw [smaller_comm] at hfittedHeight
  rw [hfitted]
  refine ⟨⟨?_, ?_⟩, ⟨hfittedWidth.1, hfittedHeight.1⟩,
    and_congr hfittedWidth.2 hfittedHeight.2⟩
  all_goals exact evenSide_pos _

/-- A wide frame touches its box from the left to the right, where the box is even. -/
theorem afterIn_fits_wide :
    let size : FrameSize := ⟨16, 9⟩
    let box : ScaleBox := ⟨640, 361, .contain⟩
    0 < size.width ∧ 0 < size.height ∧ 0 < box.width ∧ 0 < box.height ∧ box.fit = .contain ∧
      (size.afterIn (α := ℚ) box).width.toNat ≤ 640 ∧
      (size.afterIn (α := ℚ) box).height.toNat ≤ 361 := by
  intro size box
  have hfits := afterIn_fits_iff (show 0 < size.width by decide) (show 0 < size.height by decide)
    (show 0 < box.width by decide) (show 0 < box.height by decide) rfl
  exact ⟨by decide, by decide, by decide, by decide, rfl,
    hfits.2.2.2 ⟨.inl (by decide), .inr ⟨by decide, by decide⟩⟩⟩

/-- A square frame touches an odd box on all sides, and exceeds it, in exact numbers as well as
    in those that are reckoned with. -/
theorem not_fits_odd :
    FrameSize.afterIn (α := ℚ) ⟨2, 2⟩ ⟨5, 5, .contain⟩ = ⟨6, 6⟩ ∧
      FrameSize.after ⟨2, 2⟩ (some ⟨5, 5, .contain⟩) = ⟨6, 6⟩ :=
  ⟨by decide +kernel, by decide +kernel⟩

/-! ## Sizes that hold anything -/

/-- What is asked for, and what follows from it, is not nothing. -/
theorem byteCount_afterIn_pos {α : Type} [Quantity α] (hasked : 0 < box.width ∨ 0 < box.height) :
    0 < (size.afterIn (α := α) box).byteCount := by
  rw [byteCount_pos_iff]
  simp only [afterIn]
  by_cases hwidth : 0 < box.width <;> by_cases hheight : 0 < box.height
  · rw [if_pos hwidth, if_pos hheight]
    cases box.fit with
    | contain => exact ⟨evenSide_pos _, evenSide_pos _⟩
    | stretch | cover => exact ⟨toUInt32_pos hwidth, toUInt32_pos hheight⟩
  · rw [if_pos hwidth, if_neg hheight]
    exact ⟨toUInt32_pos hwidth, evenSide_pos _⟩
  · rw [if_neg hwidth, if_pos hheight]
    exact ⟨evenSide_pos _, toUInt32_pos hheight⟩
  · exact absurd hasked (not_or.2 ⟨hwidth, hheight⟩)

/-- A change of size leaves something of a frame if it asks for a side at all, or if there was
    something before. -/
theorem byteCount_after_pos_iff (size : FrameSize) (resize : Option ScaleBox) :
    0 < (size.after resize).byteCount ↔
      (∃ box, resize = some box ∧ (0 < box.width ∨ 0 < box.height)) ∨ 0 < size.byteCount := by
  cases resize with
  | none => simp [after]
  | some box =>
    rw [after]
    simp only [Option.some.injEq, exists_eq_left']
    by_cases hasked : 0 < box.width ∨ 0 < box.height
    · exact iff_of_true (byteCount_afterIn_pos hasked) (.inl hasked)
    · obtain ⟨hnoWidth, hnoHeight⟩ := not_or.1 hasked
      rw [afterIn, if_neg hnoWidth, if_neg hnoHeight, or_iff_right hasked]

end FrameSize

end VideoExport
