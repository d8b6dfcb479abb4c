import VideoExport.Datum.Basic
import VideoExport.Number.Decimal
import VideoExport.Number.Hexadecimal
import VideoExport.Timestamp

/-!
# Scalars in TOML

A scalar is a string in one of four kinds of quotes, a number, a truth value,
or a date or time. Each reader here takes a text that begins with a scalar and
gives the scalar and the rest of the text.

* `string?`, `number?`, `moment?`, `word?`: the kinds of scalars;
* `scalar?`: a scalar of any kind;
* `blanks`, `lineEnd?`: what separates one thing from the next.
-/

namespace VideoExport.Toml

/-! ## Characters and line ends -/

/-- Blanks within a line. -/
def isBlank (c : Char) : Bool := c == ' ' || c == '\t'

/-- Characters that comments and strings are made of. -/
def isText (c : Char) : Bool := c == '\t' || (' ' ≤ c && c != '\x7f')

/-- A text without the blanks it starts with. -/
def blanks (s : List Char) : List Char := s.dropWhile isBlank

/-- A text without the comment it starts with. -/
def comment (s : List Char) : List Char :=
  match s with
  | '#' :: s => s.dropWhile isText
  | s => s

/-- What follows a line break. -/
def break? : List Char → Option (List Char)
  | '\n' :: s => some s
  | '\r' :: '\n' :: s => some s
  | _ => none

/-- What follows the end of a line, which may be the end of the text. -/
def end? : List Char → Option (List Char)
  | [] => some []
  | s => break? s

/-- What follows the end of a line on which nothing is left but a comment. -/
def lineEnd? (s : List Char) : Option (List Char) := end? (comment (blanks s))

/-! ## Strings -/

/-- The character that a letter after a backslash stands for. -/
def escaped? : Char → Option Char
  | 'b' => some '\x08'
  | 't' => some '\t'
  | 'n' => some '\n'
  | 'f' => some '\x0c'
  | 'r' => some '\r'
  | '"' => some '"'
  | '\\' => some '\\'
  | _ => none

/-- A text after one more character. -/
def prepend (c : Char) (r : List Char × List Char) : List Char × List Char := (c :: r.1, r.2)

/-- The rest of a string with escapes, on one line. -/
def basic? : List Char → Option (List Char × List Char)
  | [] => none
  | '"' :: s => some ([], s)
  | '\\' :: 'u' :: a :: b :: c :: d :: s => do
    return prepend (← Number.hexChar? 4 [a, b, c, d]) (← basic? s)
  | '\\' :: 'U' :: a :: b :: c :: d :: e :: f :: g :: h :: s => do
    return prepend (← Number.hexChar? 8 [a, b, c, d, e, f, g, h]) (← basic? s)
  | '\\' :: c :: s => do return prepend (← escaped? c) (← basic? s)
  | c :: s => do
    guard (isText c ∧ c ≠ '\\')
    return prepend c (← basic? s)

/-- The rest of a string with escapes, on several lines. A backslash at the end
    of a line takes away all blanks and line breaks up to the next character:
    then they are being `skipped`. Two quotes may come before the last three. -/
def basicLines? : (skipped : Bool) → List Char → Option (List Char × List Char)
  | _, [] => none
  | _, '"' :: '"' :: '"' :: '"' :: '"' :: s => some (['"', '"'], s)
  | _, '"' :: '"' :: '"' :: '"' :: s => some (['"'], s)
  | _, '"' :: '"' :: '"' :: s => some ([], s)
  | _, '\\' :: 'u' :: a :: b :: c :: d :: s => do
    return prepend (← Number.hexChar? 4 [a, b, c, d]) (← basicLines? false s)
  | _, '\\' :: 'U' :: a :: b :: c :: d :: e :: f :: g :: h :: s => do
    return prepend (← Number.hexChar? 8 [a, b, c, d, e, f, g, h]) (← basicLines? false s)
  | _, '\\' :: c :: s =>
    if (break? (blanks (c :: s))).isSome then basicLines? true s
    else do return prepend (← escaped? c) (← basicLines? false s)
  | skipped, '\r' :: '\n' :: s =>
    if skipped then basicLines? true s else (basicLines? false s).map (prepend '\n')
  | skipped, c :: s =>
    if skipped && (isBlank c || c == '\n') then basicLines? true s
    else do
      guard ((isText c ∨ c = '\n') ∧ c ≠ '\\')
      return prepend c (← basicLines? false s)

/-- The rest of a string without escapes, on one line. -/
def literal? : List Char → Option (List Char × List Char)
  | [] => none
  | '\'' :: s => some ([], s)
  | c :: s => do
    guard (isText c)
    return prepend c (← literal? s)

/-- The rest of a string without escapes, on several lines. -/
def literalLines? : List Char → Option (List Char × List Char)
  | [] => none
  | '\'' :: '\'' :: '\'' :: '\'' :: '\'' :: s => some (['\'', '\''], s)
  | '\'' :: '\'' :: '\'' :: '\'' :: s => some (['\''], s)
  | '\'' :: '\'' :: '\'' :: s => some ([], s)
  | '\r' :: '\n' :: s => (literalLines? s).map (prepend '\n')
  | c :: s => do
    guard (isText c ∨ c = '\n')
    return prepend c (← literalLines? s)

/-- A string on one line. -/
def lineString? : List Char → Option (List Char × List Char)
  | '"' :: s => basic? s
  | '\'' :: s => literal? s
  | _ => none

/-- A string. On several lines, a line break right after the quotes is none of
    its own. -/
def string? : List Char → Option (List Char × List Char)
  | '"' :: '"' :: '"' :: s => basicLines? false ((break? s).getD s)
  | '\'' :: '\'' :: '\'' :: s => literalLines? ((break? s).getD s)
  | s => lineString? s

/-! ## Numbers -/

/-- The digits that a text starts with, and the rest of it. A single underscore
    may stand between two digits. -/
def spanDigits (isDigit : Char → Bool) : List Char → List Char × List Char
  | [] => ([], [])
  | '_' :: c :: s => if isDigit c then prepend c (spanDigits isDigit s) else ([], '_' :: c :: s)
  | c :: s => if isDigit c then prepend c (spanDigits isDigit s) else ([], c :: s)

/-- One or more digits. -/
def digits? (isDigit : Char → Bool) : List Char → Option (List Char × List Char)
  | [] => none
  | c :: s => if isDigit c then some (prepend c (spanDigits isDigit s)) else none

/-- A whole number without its sign: it has no leading zeros. -/
def whole? : List Char → Option (List Char × List Char)
  | '0' :: s => some (['0'], s)
  | s => digits? Char.isDigit s

/-- The sign a text starts with: whether there is one, whether it is a minus,
    and the rest. -/
def sign : List Char → Bool × List Char
  | '+' :: s => (false, s)
  | '-' :: s => (true, s)
  | s => (false, s)

/-- The digits after a point, if a text starts with one. -/
def places? : List Char → Option (List Char × List Char)
  | '.' :: s => digits? Char.isDigit s
  | s => some ([], s)

/-- The exponent that a text starts with, if it does. -/
def exponent? : List Char → Option (Option Int × List Char)
  | c :: s =>
    if c = 'e' ∨ c = 'E' then do
      let (negative, s) := sign s
      let (ds, s) ← digits? Char.isDigit s
      let n ← Number.digitsValue? ds
      return (some (if negative then -(n : Int) else n), s)
    else some (none, c :: s)
  | [] => some (none, [])

/-- A whole number that fits into sixty-four bits with its sign. -/
def int? (n : Int) : Option Datum := if Number.isInt64 n then some (.int n) else none

/-- A number with the given base, without a sign. -/
def based? (base : Nat) (s : List Char) : Option (Datum × List Char) := do
  let isDigit c := (Number.hexDigit? c).any fun d => decide (d < base)
  let (ds, s) ← digits? isDigit s
  let n := ds.foldl (fun n c => base * n + (Number.hexDigit? c).getD 0) 0
  return (← int? n, s)

/-- A number in base ten. A fraction has places or an exponent, and may be as
    small as it likes but not too large. -/
def decimal? (negative : Bool) (s : List Char) : Option (Datum × List Char) := do
  let (whole, s) ← whole? s
  let (places, s) ← places? s
  let (exponent, s) ← exponent? s
  let n ← Number.digitsValue? (whole ++ places)
  if places.isEmpty && exponent.isNone then
    return (← int? (if negative then -(n : Int) else n), s)
  else
    let x := Number.Decimal.toFloat ⟨negative, n, exponent.getD 0 - places.length⟩
    guard (x.isFinite ∨ negative)
    return (.float x, s)

/-- A number. -/
def number? : List Char → Option (Datum × List Char)
  | '0' :: 'x' :: s => based? 16 s
  | '0' :: 'o' :: s => based? 8 s
  | '0' :: 'b' :: s => based? 2 s
  | s =>
    let (negative, s) := sign s
    match s with
    | 'i' :: 'n' :: 'f' :: s => some (.float (if negative then -1.0 / 0.0 else 1.0 / 0.0), s)
    | 'n' :: 'a' :: 'n' :: s => some (.float (0.0 / 0.0), s)
    | s => decimal? negative s

/-! ## Dates and times -/

/-- A number of so many digits. -/
def fixed? (width : Nat) (s : List Char) : Option (Nat × List Char) := do
  let ds := s.take width
  guard (ds.length = width)
  return (← Number.digitsValue? ds, s.drop width)

/-- What follows a certain character. -/
def after? (c : Char) : List Char → Option (List Char)
  | [] => none
  | d :: s => if c = d then some s else none

/-- A day. -/
def day? (s : List Char) : Option (List Char) := do
  let (year, s) ← fixed? 4 s
  let (month, s) ← fixed? 2 (← after? '-' s)
  let (day, s) ← fixed? 2 (← after? '-' s)
  guard (Date.isValid ⟨year, month, day⟩)
  return s

/-- Hours and minutes. -/
def hoursMinutes? (s : List Char) : Option (List Char) := do
  let (hours, s) ← fixed? 2 s
  let (minutes, s) ← fixed? 2 (← after? ':' s)
  guard (hours < 24 ∧ minutes < 60)
  return s

/-- A time of day, with seconds and their fractions. -/
def time? (s : List Char) : Option (List Char) := do
  let s ← hoursMinutes? s
  let (seconds, s) ← fixed? 2 (← after? ':' s)
  guard (seconds ≤ 60)
  match s with
  | '.' :: s =>
    guard (s.head?.any Char.isDigit)
    return s.dropWhile Char.isDigit
  | s => return s

/-- A text without the offset it starts with. -/
def offset? : List Char → Option (List Char)
  | 'Z' :: s | 'z' :: s => some s
  | '+' :: s | '-' :: s => hoursMinutes? s
  | s => some s

/-- A date, a time, or both. As data it is a record with no fields that anyone
    asks for. -/
def moment? (s : List Char) : Option (Datum × List Char) :=
  match day? s with
  | some s =>
    match s with
    | c :: t =>
      if c = 'T' ∨ c = 't' ∨ c = ' ' then
        match time? t with
        | some u => (offset? u).map (.map [], ·)
        | none => some (.map [], s)
      else some (.map [], s)
    | [] => some (.map [], [])
  | none => (time? s).map (.map [], ·)

/-! ## Scalars -/

/-- A truth value. -/
def word? : List Char → Option (Datum × List Char)
  | 't' :: 'r' :: 'u' :: 'e' :: s => some (.bool true, s)
  | 'f' :: 'a' :: 'l' :: 's' :: 'e' :: s => some (.bool false, s)
  | _ => none

/-- A scalar. -/
def scalar? (s : List Char) : Option (Datum × List Char) :=
  match s with
  | '"' :: _ | '\'' :: _ => (string? s).map fun (t, s) => (.str (String.ofList t), s)
  | 't' :: _ | 'f' :: _ => word? s
  | _ => (moment? s).or (number? s)

end VideoExport.Toml
