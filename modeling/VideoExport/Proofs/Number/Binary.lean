import Mathlib
import VideoExport.Number.Dyadic

/-!
# Floating-point numbers as words

A floating-point number is a word with three fields: a sign, an exponent and a
mantissa. What arithmetic works on is the unpacked form, in which the implicit
bit of the mantissa is written out. The two say the same of every number that
is held the way words hold them.

* `Dyadic.ofFloat?_eq`: the exact value can be read off the unpacked form;
* `IsCanonical`: the mantissas and exponents that words hold;
* `isCanonical_of_unpack`, `unpack_packed`: a word is unpacked into canonical
  form, and canonical numbers survive being packed.
-/

namespace VideoExport.Number

open Float.Model Float.Model.UnpackedFloat

/-! ## The fields of a word -/

theorem toNat_unpackMantissa (b : BitVec Format.binary64.numBits) :
    (unpackMantissa b).toNat = b.toNat % 2 ^ 52 := by
  rw [unpackMantissa_def, BitVec.extractLsb'_toNat]
  rfl

theorem toNat_unpackExponent (b : BitVec Format.binary64.numBits) :
    (unpackExponent b).toNat = b.toNat / 2 ^ 52 % 2 ^ 11 := by
  rw [unpackExponent_def, BitVec.extractLsb'_toNat, Nat.shiftRight_eq_div_pow]

theorem toNat_unpackSign (b : BitVec Format.binary64.numBits) :
    (unpackSign b).toNat = b.toNat / 2 ^ 63 := by
  have hb : b.toNat < 2 ^ 64 := b.isLt
  rw [unpackSign_def, BitVec.extractLsb'_toNat, Nat.shiftRight_eq_div_pow]
  exact Nat.mod_eq_of_lt (by show b.toNat / 2 ^ 63 < 2; omega)

theorem toNat_append {k n : Nat} (a : BitVec k) (b : BitVec n) :
    (a ++ b).toNat = a.toNat * 2 ^ n + b.toNat := by
  rw [BitVec.toNat_append, ← Nat.shiftLeft_add_eq_or_of_lt b.isLt, Nat.shiftLeft_eq]

/-- The exact value of an unpacked number, unless infinite or undefined. -/
def Dyadic.ofUnpacked? : UnpackedFloat → Option Dyadic
  | .finite s m e _ => some ⟨s == .negative, m, e⟩
  | .zero s => some ⟨s == .negative, 0, -1074⟩
  | .infinity _ | .notANumber => none

/-- The exponent of a word that is full of ones. -/
theorem eq_neg_one_iff (e : BitVec 11) : e = -1#_ ↔ e.toNat = 2047 := by
  rw [← BitVec.toNat_inj]
  rfl

theorem eq_zero_iff {n : Nat} (v : BitVec n) : v = 0#_ ↔ v.toNat = 0 := by
  rw [← BitVec.toNat_inj, BitVec.toNat_zero]

theorem ofBitVec_eq_negative (b : BitVec 1) : (Sign.ofBitVec b == .negative) = (b.toNat == 1) := by
  rw [Sign.ofBitVec]
  have hb : b.toNat < 2 := b.isLt
  by_cases h : b = 0#1
  · rw [h]
    rfl
  · have hne : b.toNat ≠ 0 := fun h' => h ((eq_zero_iff b).2 h')
    have hone : b.toNat = 1 := by omega
    rw [if_neg h, hone]
    rfl

/-- The implicit bit of a word whose exponent is not zero. -/
theorem toNat_implicit_append (m : BitVec 52) : (1#1 ++ m).toNat = m.toNat + 2 ^ 52 := by
  rw [toNat_append, Nat.add_comm]
  rfl

theorem Dyadic.ofFloat?_eq (x : Float) : ofFloat? x = ofUnpacked? x.toModel.unpack := by
  have hm := toNat_unpackMantissa x.toModel.toBits.toBitVec
  have he := toNat_unpackExponent x.toModel.toBits.toBitVec
  have hs := toNat_unpackSign x.toModel.toBits.toBitVec
  have hb : x.toBits.toNat = x.toModel.toBits.toBitVec.toNat := rfl
  have h2 : signBit64 = 2 ^ 63 := rfl
  simp only [ofFloat?, hb, Float.Model.unpack, UnpackedFloat.unpack, h2, Nat.pow_eq]
  rw [← hm, ← he, ← hs]
  simp only [eq_neg_one_iff, eq_zero_iff]
  have hbias : Format.binary64.exponentBias = 1023 := rfl
  split
  · split <;> rfl
  · split
    case isTrue he =>
      split
      case isTrue hm => simp [ofUnpacked?, hm, ofBitVec_eq_negative]
      case isFalse =>
        simp only [ofUnpacked?, ofBitVec_eq_negative, he, hbias]
        rfl
    case isFalse =>
      simp only [ofUnpacked?, ofBitVec_eq_negative, toNat_implicit_append, hbias]
      rfl

/-! ## Canonical numbers -/

/-- A mantissa and an exponent as a word holds them: the mantissa has its full
    length, unless the exponent is the least one. -/
structure IsCanonical (m : Nat) (e : Int) : Prop where
  pos : 0 < m
  lt : m < 2 ^ 53
  full : 2 ^ 52 ≤ m ∨ e = -1074
  least : -1074 ≤ e
  greatest : e ≤ 971

theorem isCanonical_of_unpack {x : Float.Model} {s : Sign} {m : Nat} {e : Int} {h : 0 < m}
    (hx : x.unpack = .finite s m e h) : IsCanonical m e := by
  have hm : (@unpackMantissa Format.binary64 x.toBits.toBitVec).toNat < 2 ^ 52 := BitVec.isLt _
  have he : (@unpackExponent Format.binary64 x.toBits.toBitVec).toNat < 2 ^ 11 := BitVec.isLt _
  have hbias : Format.binary64.exponentBias = 1023 := rfl
  simp only [Float.Model.unpack, UnpackedFloat.unpack, eq_neg_one_iff, eq_zero_iff] at hx
  split at hx
  case isTrue => split at hx <;> cases hx
  case isFalse hones =>
    split at hx
    case isTrue hz =>
      split at hx
      case isTrue => cases hx
      case isFalse hm0 =>
        obtain ⟨-, rfl, rfl⟩ := UnpackedFloat.finite.inj hx
        constructor <;> omega
    case isFalse hz =>
      obtain ⟨-, hm', he'⟩ := UnpackedFloat.finite.inj hx
      rw [toNat_implicit_append] at hm'
      constructor <;> omega

theorem log2_eq_of_full {m : Nat} (h : 2 ^ 52 ≤ m) (hlt : m < 2 ^ 53) : m.log2 = 52 :=
  (Nat.log2_eq_iff (by omega)).2 ⟨h, hlt⟩

/-- The number of a word. -/
def packed (u : UnpackedFloat) : Float := Float.ofModel (Float.Model.pack u)

theorem unpack_packed_zero (s : Sign) : (packed (.zero s)).toModel.unpack = .zero s := by
  cases s <;> rfl

/-- What unpacking makes of the fields of a number that is neither zero nor
    infinite nor undefined. -/
theorem unpack_packComponents {s : Sign} {e : BitVec 11} {m : BitVec 52} {m' : Nat} {e' : Int}
    (hm' : 0 < m') (hones : e.toNat ≠ 2047)
    (h : if e.toNat = 0 then m' = m.toNat ∧ e' = -1074
      else m' = m.toNat + 2 ^ 52 ∧ e' = (e.toNat : Int) - 1075) :
    UnpackedFloat.unpack Format.binary64 (packComponents Format.binary64 s e m) =
      .finite s m' e' hm' := by
  have hbias : Format.binary64.exponentBias = 1023 := rfl
  rw [UnpackedFloat.unpack]
  simp only [unpackMantissa_packComponents, unpackExponent_packComponents,
    unpackSign_packComponents, Sign.ofBitVec_toBitVec, eq_neg_one_iff, eq_zero_iff, hbias]
  rw [if_neg hones]
  split at h
  case isTrue h0 =>
    obtain ⟨rfl, rfl⟩ := h
    rw [if_pos h0, dif_neg hm'.ne', h0]
    rfl
  case isFalse h0 =>
    obtain ⟨rfl, rfl⟩ := h
    rw [if_neg h0]
    congr 1
    exact toNat_implicit_append m

/-- A number in fields: one that is too large is infinite, and the mantissa of
    full length loses its first bit. -/
theorem pack_finite (s : Sign) (m : Nat) (e : Int) (hm : 0 < m) :
    UnpackedFloat.pack Format.binary64 (.finite s m e hm) =
      if 2 ^ 11 ≤ (e + 1075).toNat + 1 then packedInfinity Format.binary64 s
      else packComponents Format.binary64 s
        (if m.log2 = 52 then BitVec.ofNat 11 (e + 1075).toNat else 0#11) (BitVec.ofNat 52 m) := by
  have hb : e + (Format.binary64.exponentBias : Int) +
      (Format.binary64.mantissaBitsWithoutImplicit : Int) = e + 1075 := by
    show e + 1023 + 52 = _
    omega
  have hl : m.log2 + 1 = Format.binary64.mantissaBits ↔ m.log2 = 52 := Nat.succ_inj
  rw [UnpackedFloat.pack]
  simp only [hb, hl]
  split
  · rfl
  · split <;> rfl

/-- A canonical number is what its word says. -/
theorem unpack_packed {s : Sign} {m : Nat} {e : Int} (h : IsCanonical m e) (hm : 0 < m) :
    (packed (.finite s m e hm)).toModel.unpack = .finite s m e hm := by
  obtain ⟨-, hlt, hfull, hge, hle⟩ := h
  show UnpackedFloat.unpack Format.binary64
    (UnpackedFloat.pack Format.binary64 (.finite s m e hm)) = _
  rw [pack_finite, if_neg (by omega)]
  by_cases hf : 2 ^ 52 ≤ m
  · rw [if_pos (log2_eq_of_full hf hlt)]
    have he : (BitVec.ofNat 11 (e + 1075).toNat).toNat = (e + 1075).toNat := by
      rw [BitVec.toNat_ofNat]; omega
    have hm52 : (BitVec.ofNat 52 m).toNat = m - 2 ^ 52 := by rw [BitVec.toNat_ofNat]; omega
    refine unpack_packComponents hm (by omega) ?_
    rw [if_neg (by omega), hm52, he]
    omega
  · have hlog : m.log2 < 52 := (Nat.log2_lt hm.ne').2 (by omega)
    rw [if_neg hlog.ne]
    refine unpack_packComponents hm (by simp) ?_
    rw [if_pos (by simp), BitVec.toNat_ofNat]
    omega

end VideoExport.Number
