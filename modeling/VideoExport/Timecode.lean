import VideoExport.Number.Quantity
import VideoExport.Number.Layout
import VideoExport.Text.Blank
import VideoExport.Failure

/-!
# Timecodes

A time is written as a number of seconds, or as minutes and seconds, or as
hours, minutes and seconds between colons. Only the leading field of a time
with colons may be sixty or more.

* `Timecode.read`: the seconds that a text denotes, or what is wrong with it;
* `Timecode.clock`: a number of milliseconds between colons;
* `Timecode.wire`: a number of seconds with three places.
-/

namespace VideoExport.Timecode

open Number

/-- What is wrong with a time. -/
inductive Fault
  | negative
  | unknownForm (text : String)
  | fieldUnreadable (field : String)
  | minutesTooLarge
  | secondsTooLarge
  deriving DecidableEq, Repr

/-- The text of a fault. -/
def Fault.detail : Fault → String
  | negative => "Time cannot be negative"
  | unknownForm text =>
    s!"Invalid time format '{text}'. Supported formats: seconds, MM:SS.ms, HH:MM:SS.ms"
  | fieldUnreadable field => s!"Invalid {field} format"
  | minutesTooLarge => "Minutes must be less than 60"
  | secondsTooLarge => "Seconds must be less than 60"

/-- A fault is a bad argument. -/
def Fault.failure (f : Fault) : Failure := .badArguments f.detail

/-- A field of whole units. -/
def unit (field : String) (s : List Char) : Except Fault Nat :=
  match word? UInt32.size s with
  | some n => .ok n
  | none => .error (.fieldUnreadable field)

variable {α : Type} [Quantity α]

/-- The time that a numeral on its own denotes: finite and not negative. -/
def plainSeconds (n : Numeral) : Except Fault α :=
  match n with
  | .finite d =>
    let x : α := Quantity.ofDecimal d
    if Quantity.isFinite x ∧ ¬ x < Quantity.ofNat 0 then .ok x else .error .negative
  | .infinite _ | .undefined => .error .negative

/-- The field of seconds: a numeral from zero to below sixty. -/
def secondsField (s : List Char) : Except Fault α :=
  match Numeral.read? s with
  | none => .error (.fieldUnreadable "seconds")
  | some (.finite d) =>
    let x : α := Quantity.ofDecimal d
    if Quantity.ofNat 0 ≤ x ∧ x < Quantity.ofNat 60 then .ok x else .error .secondsTooLarge
  | some (.infinite _) | some .undefined => .error .secondsTooLarge

/-- The seconds of a time with hours and minutes. -/
def total (hours minutes : Nat) (seconds : α) : α :=
  Quantity.ofNat hours * Quantity.ofNat 3600 + Quantity.ofNat minutes * Quantity.ofNat 60 + seconds

/-- The seconds that the characters of a time denote. -/
def readChars (s : List Char) : Except Fault α := do
  match Numeral.read? s with
  | some n => plainSeconds n
  | none =>
    match Text.Chars.splitOn ':' s with
    | [m, sec] =>
      let minutes ← unit "minutes" m
      return total 0 minutes (← secondsField sec)
    | [h, m, sec] =>
      let minutes ← unit "minutes" m
      if 60 ≤ minutes then throw .minutesTooLarge
      let hours ← unit "hours" h
      return total hours minutes (← secondsField sec)
    | _ => throw (.unknownForm (String.ofList s))

/-- The seconds that a text denotes; blanks around it do not matter. -/
def read (text : String) : Except Fault Float := readChars (Text.Chars.trim text.toList)

/-- Two digits or more. -/
def twoDigits (n : Nat) : String := Text.padZeros 2 (Number.text n)

/-- A number of milliseconds as a time with minutes, seconds and thousandths,
    and with hours if there are any. -/
def clock (ms : Nat) : String :=
  let hours := ms / 3600000
  let minutes := ms % 3600000 / 60000
  let seconds := ms % 60000 / 1000
  let rest := twoDigits minutes ++ ":" ++ twoDigits seconds ++ "." ++
    Text.padZeros 3 (Number.text (ms % 1000))
  if 0 < hours then twoDigits hours ++ ":" ++ rest else rest

/-- The whole milliseconds nearest to a number of seconds. -/
def millis (seconds : α) : Nat :=
  Quantity.nearest (UInt64.size - 1) (seconds * Quantity.ofNat 1000)

/-- A number of seconds between colons. -/
def display (seconds : α) : String := clock (millis seconds)

/-- A number of seconds with exactly three places. -/
def wire (seconds : Float) : String := fixed 3 seconds

end VideoExport.Timecode
