import VideoExport.Media.Stream

/-!
# SubRip

Subtitles arrive as blocks of lines between blank ones: a line with the times
that a text is shown from and up to, and the lines of the text. What a block
has before its times is skipped, and a block without times is no subtitle.

* `Srt.read`: the subtitles of a text, with their times as they are written;
* `Srt.cues`: the same with times in seconds.
-/

namespace VideoExport

/-- A time as it is written: hours, minutes and seconds. -/
structure ClockTime where
  hours : Number.Numeral
  minutes : Number.Numeral
  seconds : Number.Numeral
  deriving DecidableEq, Repr

/-- The seconds of a time. -/
def ClockTime.toFloat (t : ClockTime) : Float :=
  t.hours.toFloat * 3600.0 + t.minutes.toFloat * 60.0 + t.seconds.toFloat

namespace Srt

open Text.Chars

/-- A text in which a line feed alone ends every line. -/
def unifyLineEnds : List Char → List Char
  | '\r' :: '\n' :: rest => '\n' :: unifyLineEnds rest
  | c :: rest => c :: unifyLineEnds rest
  | [] => []

/-- The pieces of a text between pairs of line feeds. -/
def blocks : List Char → List (List Char)
  | [] => [[]]
  | '\n' :: '\n' :: rest => [] :: blocks rest
  | c :: rest =>
    match blocks rest with
    | [] => [[c]]
    | b :: bs => (c :: b) :: bs

/-- A time between colons; its seconds may have places after a comma. -/
def time? (s : List Char) : Option ClockTime :=
  match splitOn ':' ((trim s).map fun c => if c = ',' then '.' else c) with
  | h :: m :: sec :: _ => do
    return ⟨← Number.Numeral.read? h, ← Number.Numeral.read? m, ← Number.Numeral.read? sec⟩
  | _ => none

/-- What stands between the two times. -/
def arrow : List Char := "-->".toList

/-- The two times of a line. After the second one there may be hints on where
    the text is shown. -/
def times? (line : List Char) : Option (ClockTime × ClockTime) := do
  let (start, stop) ← cutAround? arrow line
  return (← time? start, ← time? ((words stop).headD []))

/-- The subtitle of a block. -/
def cue? (block : List Char) : Option (Cue ClockTime) :=
  match (lines block).dropWhile fun l => (cutAround? arrow l).isNone with
  | [] => none
  | timing :: text => (times? timing).map fun (start, stop) =>
    ⟨start, stop, String.ofList (join '\n' text)⟩

/-- The subtitles of a text. -/
def readChars (s : List Char) : List (Cue ClockTime) :=
  (blocks (unifyLineEnds s)).filterMap cue?

/-- The subtitles of a text. -/
def read (text : String) : List (Cue ClockTime) := readChars text.toList

/-- The subtitles of a text with their times in seconds. -/
def cues (text : String) : List (Cue Float) :=
  (read text).map fun c => ⟨c.start.toFloat, c.stop.toFloat, c.text⟩

end Srt

end VideoExport
