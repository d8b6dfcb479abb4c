import VideoExport.Media.Codec
import VideoExport.Number.Dyadic

/-!
# Rate control

How an encoder spends its bits: at constant quality, at a target rate, or with
a constant quantizer. A target rate comes with a ceiling and a buffer that are
never below it.

* `RateControl`: a mode with its value;
* `RateBudget.ofTarget`: target, ceiling and buffer;
* `RateBudget.target_le_ceiling`, `RateBudget.target_le_buffer`.
-/

namespace VideoExport

/-- A way to control the rate, without its value. -/
inductive RateMode
  | crf
  | bitrate
  | qp
  deriving DecidableEq, Repr, Inhabited

/-- The name of a mode. -/
def RateMode.name : RateMode → String
  | crf => "crf"
  | bitrate => "bitrate"
  | qp => "qp"

/-- The mode of a name. -/
def RateMode.named? : String → Option RateMode
  | "crf" => some .crf
  | "bitrate" => some .bitrate
  | "qp" => some .qp
  | _ => none

/-- A way to control the rate, with its value. -/
inductive RateControl
  /-- Constant quality. -/
  | crf (value : UInt8)
  /-- A target rate in kilobits per second. -/
  | bitrate (kbps : UInt32)
  /-- A constant quantizer. -/
  | qp (value : UInt8)
  deriving DecidableEq, Repr, Inhabited

/-- The mode of a rate control. -/
def RateControl.mode : RateControl → RateMode
  | crf _ => .crf
  | bitrate _ => .bitrate
  | qp _ => .qp

/-- A natural number as a word, at most the largest one. -/
def saturated (n : Nat) : UInt32 := UInt32.ofNat (min n (UInt32.size - 1))

theorem toNat_saturated (n : Nat) : (saturated n).toNat = min n (UInt32.size - 1) := by
  have : min n (UInt32.size - 1) < UInt32.size := by have : UInt32.size = 4294967296 := rfl; omega
  exact UInt32.toNat_ofNat_of_lt' this

theorem toNat_max (a b : UInt32) : (max a b).toNat = max a.toNat b.toNat := by
  show (if a ≤ b then b else a).toNat = _
  split
  case isTrue h =>
    rw [UInt32.le_iff_toNat_le] at h
    omega
  case isFalse h =>
    rw [UInt32.le_iff_toNat_le] at h
    omega

/-- Target, ceiling and buffer of a rate in kilobits per second. -/
structure RateBudget where
  target : UInt32
  ceiling : UInt32
  buffer : UInt32
  deriving DecidableEq, Repr

namespace RateBudget

/-- The least target rate. -/
def minTarget : UInt32 := 150

/-- The least buffer. -/
def minBuffer : UInt32 := 300

/-- By how much the ceiling exceeds the target. -/
def ceilingFactor : Float := 1.25

/-- The ceiling of a target before it is compared with that: the product,
    reckoned in floating-point numbers, and rounded. -/
def scaled (target : UInt32) : UInt32 :=
  UInt32.ofNat (Number.nearestWithin (UInt32.size - 1) (target.toFloat * ceilingFactor))

/-- The budget of a requested rate: the target is at least the least one, the
    ceiling a quarter above it but at least the target, and the buffer twice the
    target but at least the least one. -/
def ofTarget (requested : UInt32) : RateBudget :=
  let target := max requested minTarget
  { target
    ceiling := max (scaled target) target
    buffer := max (saturated (2 * target.toNat)) minBuffer }

theorem target_le_ceiling (requested : UInt32) :
    (ofTarget requested).target ≤ (ofTarget requested).ceiling := by
  simp only [ofTarget, UInt32.le_iff_toNat_le, toNat_max (scaled _)]
  exact Nat.le_max_right _ _

theorem target_le_buffer (requested : UInt32) :
    (ofTarget requested).target ≤ (ofTarget requested).buffer := by
  have hword := (max requested minTarget).toNat_lt
  simp only [ofTarget, UInt32.le_iff_toNat_le, toNat_max (saturated _), toNat_saturated, UInt32.size]
  omega

end RateBudget

/-- The rates that sound is encoded at, in kilobits per second. -/
def audioRates : UInt32 × UInt32 := (32, 512)

/-- A rate for sound, moved into the range of such rates. -/
def clampAudioRate (kbps : UInt32) : UInt32 :=
  if kbps < audioRates.1 then audioRates.1
  else if audioRates.2 < kbps then audioRates.2 else kbps

end VideoExport
