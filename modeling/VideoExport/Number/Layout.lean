import VideoExport.Number.Shortest

/-!
# Layouts of numbers

Three written forms of a floating-point number. The plain form writes the
shortest digits at their places. The data form does so too for numbers of
ordinary size, always with a point, and uses an exponent for the others. The
fixed form rounds the exact value to a number of places.

* `plain`: for messages and arguments;
* `dataForm?`: for documents, which have no word for what is not finite;
* `fixed`: for times and filters, with ties to even.
-/

namespace VideoExport.Number

/-- Zeros. -/
def zeros (n : Nat) : List Char := List.replicate n '0'

/-- The digits of a decimal at their places, without a point if none is
    needed. -/
def positional (ds : List Char) (scale : Int) : List Char :=
  let point := ds.length + scale
  if 0 ≤ scale then ds ++ zeros scale.toNat
  else if 0 < point then ds.take point.toNat ++ '.' :: ds.drop point.toNat
  else ['0', '.'] ++ zeros (-point).toNat ++ ds

/-- The digits of a decimal with a point after the first and an exponent. -/
def scientific (ds : List Char) (scale : Int) : List Char :=
  let exponent := ds.length + scale - 1
  let mantissa := match ds with
    | c :: d :: rest => c :: '.' :: d :: rest
    | short => short
  let sign := if exponent < 0 then '-' else '+'
  mantissa ++ 'e' :: sign :: digits exponent.natAbs

/-- The points of a decimal up to which, and above which, places are written
    out in the data form. -/
def placesRange : Int × Int := (-5, 16)

/-- The data form of a positive decimal. -/
def dataDigits (ds : List Char) (scale : Int) : List Char :=
  let point := ds.length + scale
  if placesRange.1 < point ∧ point ≤ placesRange.2 then
    positional ds scale ++ (if 0 ≤ scale then ['.', '0'] else [])
  else scientific ds scale

/-- The text of a finite number in a layout, with the sign of its zero. -/
def signed (layout : List Char → Int → List Char) (d : Dyadic) : String :=
  let body := if d.magnitude = 0 then layout ['0'] 0
    else let (n, scale) := shortest d; layout (digits n) scale
  String.ofList (if d.negative then '-' :: body else body)

/-- The text of a number in a layout of finite ones. -/
def withWords (layout : Dyadic → String) (x : Float) : String :=
  match Dyadic.ofFloat? x with
  | some d => layout d
  | none => if x > 0.0 then "inf" else if x < 0.0 then "-inf" else "NaN"

/-- The shortest digits that read back, at their places. -/
def plain (x : Float) : String := withWords (signed positional) x

/-- The shortest digits that read back, in the form of data documents. -/
def dataForm? (x : Float) : Option String := (Dyadic.ofFloat? x).map (signed dataDigits)

/-- The exact value rounded to a number of places, ties to even. -/
def fixed (places : Nat) (x : Float) : String :=
  withWords (fun d =>
    let n := roundHalfEven (d.numerator * Nat.pow 10 places) d.denominator
    let whole := text (n / Nat.pow 10 places)
    let rest := Text.padZeros places (text (n % Nat.pow 10 places))
    (if d.negative then "-" else "") ++ whole ++ (if places = 0 then "" else "." ++ rest)) x

end VideoExport.Number
