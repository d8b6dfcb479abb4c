import VideoExport.Number.Dyadic

/-!
# Shortest digits

The numbers that round to a given floating-point number form an interval. Of
the decimal grids from coarse to fine, the first one with a point in the
interval gives the shortest digits that read back, and of two points the
nearer one is taken.

* `Interval.ofDyadic`: the numbers that round to a floating-point number;
* `shortest`: digits and scale of the shortest decimal in it.
-/

namespace VideoExport.Number

/-- Numbers between `low / den` and `high / den`, around `mid / den`, with the
    ends counted in or not. -/
structure Interval where
  low : Nat
  mid : Nat
  high : Nat
  den : Nat
  closed : Bool

namespace Interval

/-- The numbers that round to a positive one: half-way to its neighbours, the
    ends counted in when its own mantissa is even. Below a power of two the
    neighbours are nearer. -/
def ofDyadic (d : Dyadic) : Interval :=
  let below := if d.magnitude = Nat.pow 2 52 ∧ d.exponent > -1074 then 1 else 2
  let unit := Nat.pow 2 d.exponent.toNat
  { low := (4 * d.magnitude - below) * unit
    mid := 4 * d.magnitude * unit
    high := (4 * d.magnitude + 2) * unit
    den := 4 * d.denominator
    closed := d.magnitude % 2 == 0 }

/-- The interval in units of `10 ^ scale`. -/
def rescale (i : Interval) (scale : Int) : Interval :=
  let up := Nat.pow 10 (-scale).toNat
  { i with
    low := i.low * up, mid := i.mid * up, high := i.high * up
    den := i.den * Nat.pow 10 scale.toNat }

/-- Whether a whole number lies in the interval. -/
def contains (i : Interval) (n : Nat) : Bool :=
  if i.closed then i.low ≤ n * i.den && n * i.den ≤ i.high
  else i.low < n * i.den && n * i.den < i.high

/-- The whole number of the interval that is nearest to its middle, if one of
    the two around the middle lies in it; an exact tie goes to the even one. -/
def wholePoint? (i : Interval) : Option Nat :=
  let below := i.mid / i.den
  let above := below + 1
  let rest := 2 * (i.mid % i.den)
  let nearer := if rest < i.den then below else if i.den < rest then above
    else below + below % 2
  match i.contains below, i.contains above with
  | true, true => some nearer
  | true, false => some below
  | false, true => some above
  | false, false => none

end Interval

/-- The greatest scale worth trying: no grid coarser than the number's size. -/
def scaleAbove (i : Interval) : Int :=
  ((digits i.high).length : Int) - (digits i.den).length + 1

/-- The digits and the scale of the shortest decimal that rounds to a positive
    number. Seventeen digits always suffice, so the last resort is never
    taken. -/
def shortest (d : Dyadic) : Nat × Int :=
  let i := Interval.ofDyadic d
  let top := scaleAbove i
  let found := (List.range 24).findSome? fun (step : Nat) =>
    let scale := top - step
    (i.rescale scale).wholePoint?.map (·, scale)
  found.getD (d.magnitude, d.exponent)

end VideoExport.Number
