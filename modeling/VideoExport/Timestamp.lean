import VideoExport.Text.Blank
import VideoExport.Number.Natural

/-!
# Timestamps

An instant is written as a date, a time of day and an offset from universal
time, and is kept in universal time. Dates follow the Gregorian calendar, also
before it was introduced. A second may have fractions and may be a leap second.

* `Timestamp.read?`: the instant of a text, with some leniency in blanks;
* `Timestamp.text`: an instant in universal time;
* `Date.ofDayNumber`, `Date.dayNumber`: dates and days since 1970.
-/

namespace VideoExport

/-- A day of the Gregorian calendar. -/
structure Date where
  year : Int
  month : Nat
  day : Nat
  deriving DecidableEq, Repr

namespace Date

/-- Whether a year has a leap day. -/
def isLeapYear (year : Int) : Bool := year % 4 == 0 && (year % 100 != 0 || year % 400 == 0)

/-- The number of days of a month. -/
def monthLength (year : Int) (month : Nat) : Nat :=
  if month = 2 then if isLeapYear year then 29 else 28
  else if month ∈ [4, 6, 9, 11] then 30
  else 31

/-- The years that can be told apart. -/
def yearRange : Int × Int := (-262143, 262142)

/-- Whether there is such a day. -/
def isValid (d : Date) : Bool :=
  yearRange.1 ≤ d.year && d.year ≤ yearRange.2 && 1 ≤ d.month && d.month ≤ 12 &&
    1 ≤ d.day && d.day ≤ monthLength d.year d.month

/-- The number of days from 1970-01-01. Years are counted from March on, so
    that the leap day is the last one. -/
def dayNumber (d : Date) : Int :=
  let y := if d.month ≤ 2 then d.year - 1 else d.year
  let m : Int := ((d.month + 9) % 12 : Nat)
  365 * y + y / 4 - y / 100 + y / 400 + (153 * m + 2) / 5 + d.day - 1 - 719468

/-- The day of a number of days from 1970-01-01. -/
def ofDayNumber (n : Int) : Date :=
  let z := n + 719468
  let era := z / 146097
  let dayOfEra := z % 146097
  let yearOfEra := (dayOfEra - dayOfEra / 1460 + dayOfEra / 36524 - dayOfEra / 146096) / 365
  let dayOfYear := dayOfEra - (365 * yearOfEra + yearOfEra / 4 - yearOfEra / 100)
  let m := (5 * dayOfYear + 2) / 153
  let month := (if m < 10 then m + 3 else m - 9).toNat
  let year := yearOfEra + era * 400
  ⟨if month ≤ 2 then year + 1 else year, month, (dayOfYear - (153 * m + 2) / 5 + 1).toNat⟩

end Date

/-- An instant: seconds since 1970 in universal time, and nanoseconds, which are
    a second or more within a leap second. -/
structure Timestamp where
  seconds : Int
  nanos : Nat
  deriving DecidableEq, Repr, Inhabited

namespace Timestamp

/-! ## Reading -/

/-- A number of one to `width` digits, and what follows. -/
def number? (width : Nat) (s : List Char) : Option (Nat × List Char) :=
  let ds := (s.take width).takeWhile Char.isDigit
  (Number.digitsValue? ds).map (·, s.drop ds.length)

/-- A number after blanks, and what follows. -/
def field? (width : Nat) (s : List Char) : Option (Nat × List Char) :=
  number? width (Text.Chars.trimStart s)

/-- A year, which has more than four digits only after a sign. -/
def year? (s : List Char) : Option (Int × List Char) :=
  match Text.Chars.trimStart s with
  | '-' :: s => (number? s.length s).map fun (n, rest) => (-(n : Int), rest)
  | '+' :: s => (number? s.length s).map fun (n, rest) => ((n : Int), rest)
  | s => (number? 4 s).map fun (n, rest) => ((n : Int), rest)

/-- What follows a mark, before which there may be blanks. -/
def mark? (c : Char) (s : List Char) : Option (List Char) :=
  Text.Chars.after? [c] (Text.Chars.trimStart s)

/-- The nanoseconds of a fraction, and what follows it. More than nine digits
    are skipped. -/
def fraction? : List Char → Option (Nat × List Char)
  | '.' :: s => do
    let (n, rest) ← number? 9 s
    let used := s.length - rest.length
    return (n * Nat.pow 10 (9 - used), rest.dropWhile Char.isDigit)
  | s => some (0, s)

/-- Two digits and what follows them. -/
def twoDigits? : List Char → Option (Nat × List Char)
  | a :: b :: rest => (Number.digitsValue? [a, b]).map (·, rest)
  | _ => none

/-- The seconds of an offset after its sign, and what follows it. -/
def signedOffset? (negative : Bool) (s : List Char) : Option (Int × List Char) := do
  let (hours, rest) ← twoDigits? s
  let (minutes, rest) ← twoDigits? (rest.dropWhile fun c => c == ':' || Text.isBlank c)
  guard (minutes < 60)
  let seconds : Int := (hours * 3600 + minutes * 60 : Nat)
  return (if negative then -seconds else seconds, rest)

/-- The seconds of an offset from universal time, and what follows it. -/
def offset? (s : List Char) : Option (Int × List Char) :=
  if (s.take 3).map Char.toLower = ['u', 't', 'c'] then some (0, s.drop 3)
  else match s with
    | 'Z' :: rest | 'z' :: rest => some (0, rest)
    | '+' :: rest => signedOffset? false rest
    | '-' :: rest | '−' :: rest => signedOffset? true rest
    | _ => none

/-- The seconds of a day. -/
def dayLength : Int := 86400

/-- The instant of a text. -/
def read? (text : String) : Option Timestamp := do
  let (year, s) ← year? text.toList
  let s ← mark? '-' s
  let (month, s) ← field? 2 s
  let s ← mark? '-' s
  let (day, s) ← field? 2 s
  let s ← match s with
    | 'T' :: s | 't' :: s | ' ' :: s => some s
    | _ => none
  let (hour, s) ← field? 2 s
  let s ← mark? ':' s
  let (minute, s) ← field? 2 s
  let s ← mark? ':' s
  let (second, s) ← field? 2 s
  let (nanos, s) ← fraction? s
  let (offset, s) ← offset? (Text.Chars.trimStart s)
  let date : Date := ⟨year, month, day⟩
  guard (date.isValid ∧ hour < 24 ∧ minute < 60 ∧ second ≤ 60 ∧ (Text.Chars.trimStart s).isEmpty)
  guard (-dayLength < offset ∧ offset < dayLength)
  let leap := second = 60
  let time : Int := (hour * 3600 + minute * 60 + (if leap then 59 else second) : Nat)
  let stamp : Timestamp :=
    ⟨date.dayNumber * dayLength + time - offset, nanos + (if leap then 1000000000 else 0)⟩
  guard (Date.ofDayNumber (stamp.seconds / dayLength)).isValid
  return stamp

/-! ## Writing -/

/-- A number of at least so many digits. -/
def padded (width n : Nat) : String := Text.padZeros width (Number.text n)

/-- A year: four digits, or a sign and at least four digits. -/
def yearText (year : Int) : String :=
  if 0 ≤ year ∧ year ≤ 9999 then padded 4 year.toNat
  else (if year < 0 then "-" else "+") ++ padded 4 year.natAbs

/-- The fraction of a second with as few groups of three places as it needs. -/
def fractionText (nanos : Nat) : String :=
  if nanos = 0 then ""
  else if nanos % 1000000 = 0 then "." ++ padded 3 (nanos / 1000000)
  else if nanos % 1000 = 0 then "." ++ padded 6 (nanos / 1000)
  else "." ++ padded 9 nanos

/-- An instant in universal time. -/
def text (t : Timestamp) : String :=
  let date := Date.ofDayNumber (t.seconds / dayLength)
  let time := (t.seconds % dayLength).toNat
  let leap := t.nanos / 1000000000
  yearText date.year ++ "-" ++ padded 2 date.month ++ "-" ++ padded 2 date.day ++ "T" ++
    padded 2 (time / 3600) ++ ":" ++ padded 2 (time / 60 % 60) ++ ":" ++
    padded 2 (time % 60 + leap) ++ fractionText (t.nanos % 1000000000) ++ "Z"

/-- The instant that follows by so many nanoseconds. -/
def after (t : Timestamp) (nanos : Nat) : Timestamp :=
  let total := t.nanos + nanos
  ⟨t.seconds + ((total / 1000000000 : Nat) : Int), total % 1000000000⟩

end Timestamp

end VideoExport
