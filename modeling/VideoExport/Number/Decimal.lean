import VideoExport.Number.Natural

/-!
# Decimal numerals

A numeral is a decimal fraction with an optional exponent, or one of the words
for what no number is. A numeral is first read as what it says, exactly; only
then is it taken to a floating-point number, rounded once, to the nearest.

* `Numeral.read?`: the numerals, as exact values;
* `Decimal.toFloat`: the nearest floating-point number.
-/

namespace VideoExport.Number

/-- The exact number `digits · 10 ^ scale`, negated or not. -/
structure Decimal where
  negative : Bool
  digits : Nat
  scale : Int
  deriving DecidableEq, Repr

/-- What a numeral denotes. -/
inductive Numeral
  | finite (value : Decimal)
  | infinite (negative : Bool)
  | undefined
  deriving DecidableEq, Repr

namespace Decimal

/-- Numbers from `10 ^ 310` on are infinite, whatever their digits, and those
    below `10 ^ -330` are zero. -/
def scaleRange : Int × Int := (-330, 310)

/-- The nearest floating-point number to the magnitude of a decimal. -/
def magnitudeToFloat (d : Decimal) : Float :=
  let size := (Number.digits d.digits).length + d.scale
  if d.digits = 0 ∨ size < scaleRange.1 then 0.0
  else if size > scaleRange.2 then 1.0 / 0.0
  else Float.ofScientific d.digits (d.scale < 0) d.scale.natAbs

/-- The nearest floating-point number. Zero keeps its sign. -/
def toFloat (d : Decimal) : Float :=
  if d.negative then -d.magnitudeToFloat else d.magnitudeToFloat

end Decimal

namespace Numeral

/-- The nearest floating-point number to what a numeral denotes. -/
def toFloat : Numeral → Float
  | finite d => d.toFloat
  | infinite negative => if negative then -1.0 / 0.0 else 1.0 / 0.0
  | undefined => 0.0 / 0.0

/-- The digits a text starts with, and the rest of it. -/
def spanDigits (s : List Char) : List Char × List Char := s.span Char.isDigit

/-- The exponent that the rest of a numeral gives: none, or a letter E and a
    whole number. -/
def exponent? : List Char → Option Int
  | [] => some 0
  | e :: s =>
    if e = 'e' ∨ e = 'E' then
      match s with
      | '-' :: s => (digitsValue? s).map fun n => -(n : Int)
      | '+' :: s => (digitsValue? s).map fun n => (n : Int)
      | s => (digitsValue? s).map fun n => (n : Int)
    else none

/-- A decimal fraction without its sign: digits with at most one point among
    or beside them, and an exponent. -/
def fraction? (negative : Bool) (s : List Char) : Option Decimal := do
  let (whole, rest) := spanDigits s
  let (places, rest) := match rest with
    | '.' :: rest => spanDigits rest
    | _ => ([], rest)
  let digits ← digitsValue? (whole ++ places)
  let exponent ← exponent? rest
  return ⟨negative, digits, exponent - places.length⟩

/-- A numeral without its sign. -/
def unsigned? (negative : Bool) (s : List Char) : Option Numeral :=
  match s.map Char.toLower with
  | ['n', 'a', 'n'] => some undefined
  | ['i', 'n', 'f'] | ['i', 'n', 'f', 'i', 'n', 'i', 't', 'y'] => some (infinite negative)
  | _ => (fraction? negative s).map finite

/-- What a text denotes, if it is a numeral: an optional sign and a decimal
    fraction, or a word for infinity or for no number, in any case. -/
def read? : List Char → Option Numeral
  | '-' :: s => unsigned? true s
  | '+' :: s => unsigned? false s
  | s => unsigned? false s

end Numeral

/-- The floating-point number of a numeral. -/
def float? (s : String) : Option Float := (Numeral.read? s.toList).map Numeral.toFloat

end VideoExport.Number
