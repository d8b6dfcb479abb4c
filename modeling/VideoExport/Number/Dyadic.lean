import VideoExport.Number.Decimal

/-!
# The exact value of a floating-point number

Every finite floating-point number is a whole number times a power of two.
What is rounded or written in decimal starts from this exact value.

* `Dyadic.ofFloat?`: the exact value, unless infinite or undefined;
* `roundHalfUp`, `roundHalfEven`: the whole numbers nearest to a fraction;
* `nearestWithin`, `ceilWithin`: a floating-point number as a whole number
  that does not exceed a limit.
-/

namespace VideoExport.Number

/-- The exact number `magnitude · 2 ^ exponent`, negated or not. -/
structure Dyadic where
  negative : Bool
  magnitude : Nat
  exponent : Int
  deriving DecidableEq, Repr

namespace Dyadic

/-- The exact value of a floating-point number that has one. -/
def ofFloat? (x : Float) : Option Dyadic :=
  let bits : Nat := x.toBits.toNat
  let negative := bits / signBit64 == 1
  let exponent : Nat := bits / Nat.pow 2 52 % Nat.pow 2 11
  let mantissa : Nat := bits % Nat.pow 2 52
  if exponent = 2047 then none
  else if exponent = 0 then some ⟨negative, mantissa, -1074⟩
  else some ⟨negative, mantissa + Nat.pow 2 52, (exponent : Int) - 1075⟩

/-- The numerator of the magnitude, over `denominator`. -/
def numerator (d : Dyadic) : Nat := d.magnitude * Nat.pow 2 d.exponent.toNat

/-- A power of two. -/
def denominator (d : Dyadic) : Nat := Nat.pow 2 (-d.exponent).toNat

theorem denominator_pos (d : Dyadic) : 0 < d.denominator := Nat.two_pow_pos _

end Dyadic

/-- The whole number nearest to `num / den`; a half goes up. -/
def roundHalfUp (num den : Nat) : Nat := (2 * num + den) / (2 * den)

/-- The whole number nearest to `num / den`; a half goes to the even one. -/
def roundHalfEven (num den : Nat) : Nat :=
  let whole := num / den
  let rest := 2 * (num % den)
  if rest < den then whole
  else if den < rest then whole + 1
  else whole + whole % 2

/-- A floating-point number taken to a whole number by `round`, at least zero
    and at most `limit`; what is undefined goes to zero. -/
def wholeWithin (round : Nat → Nat → Nat) (limit : Nat) (x : Float) : Nat :=
  match Dyadic.ofFloat? x with
  | some d => if d.negative then 0 else min limit (round d.numerator d.denominator)
  | none => if x > 0.0 then limit else 0

/-- The nearest whole number, halves up, from zero to `limit`. -/
def nearestWithin (limit : Nat) (x : Float) : Nat := wholeWithin roundHalfUp limit x

/-- The least whole number that is not below, from zero to `limit`. -/
def ceilWithin (limit : Nat) (x : Float) : Nat :=
  wholeWithin (fun num den => (num + den - 1) / den) limit x

/-- Whether a number is a multiple of a whole number. -/
def isMultipleOf (n : Nat) (x : Float) : Bool :=
  match Dyadic.ofFloat? x with
  | some d => d.numerator % (n * d.denominator) == 0
  | none => false

end VideoExport.Number
