import VideoExport.Media.Codec
import VideoExport.Number.Layout

/-!
# Values of directives

The values that follow flags are small languages of their own: codecs, rates,
tracks and seconds. Reading is lenient in spelling, writing has one form.

* `CodecValue`: a codec by name, or the instruction to copy;
* `Kbps`: a rate in whole kilobits per second;
* `MapTarget`: what a `-map` flag names;
* `seconds?`, `nonBlank?`: times and free text.
-/

namespace VideoExport

/-- The value of a flag that asks for a codec. -/
inductive CodecValue
  | copy
  | named (name : String)
  deriving DecidableEq, Repr, Inhabited

namespace CodecValue

/-- The written form. -/
def text : CodecValue → String
  | copy => "copy"
  | named name => name

/-- The codec that a text asks for; names are kept in lower case. -/
def read? (text : String) : Option CodecValue :=
  (Text.nonBlank? text).map fun name =>
    if Text.sameIgnoringCase name "copy" then copy else named (Text.lower name)

/-- Whether this is the instruction to copy. -/
def isCopy : CodecValue → Bool
  | copy => true
  | named _ => false

end CodecValue

/-- A rate in kilobits per second. -/
structure Kbps where
  kbps : UInt32
  deriving DecidableEq, Repr, Inhabited

namespace Kbps

open Number

/-- The written form. -/
def text (r : Kbps) : String := Number.text r.kbps.toNat ++ "k"

/-- A rate by its number and the factor that its unit stands for. -/
def scaled? (number : List Char) (factor : Float) : Option Kbps := do
  let value := (← Numeral.read? number).toFloat
  guard (value.isFinite && 0.0 < value)
  let kbps := nearestWithin UInt32.size (value * factor)
  guard (1 ≤ kbps ∧ kbps < UInt32.size)
  return ⟨UInt32.ofNat kbps⟩

/-- The rate that a text denotes: a number with a letter for thousands,
    millions or milliards of bits, or a number of bits. -/
def read? (text : String) : Option Kbps :=
  let s := Text.Chars.trim text.toList
  match s.getLast? with
  | some 'k' | some 'K' => scaled? s.dropLast 1.0
  | some 'm' | some 'M' => scaled? s.dropLast 1000.0
  | some 'g' | some 'G' => scaled? s.dropLast 1000000.0
  | _ => scaled? s 0.001

end Kbps

/-- What a flag for tracks names. -/
inductive MapTarget
  /-- The first track of video. -/
  | primaryVideo
  /-- Every track of sound, if there is any. -/
  | allAudio
  /-- Every track of subtitles, if there is any. -/
  | allSubtitles
  /-- The track of an index. -/
  | track (index : UInt64)
  deriving DecidableEq, Repr, Inhabited

namespace MapTarget

/-- The written form. -/
def text : MapTarget → String
  | primaryVideo => "0:v:0"
  | allAudio => "0:a?"
  | allSubtitles => "0:s?"
  | track index => "0:" ++ Number.text index.toNat

/-- The target of a text after its mark for the input. -/
def ofSpec? : String → Option MapTarget
  | "v:0" | "v" => some primaryVideo
  | "a?" | "a" => some allAudio
  | "s?" | "s" => some allSubtitles
  | index => (Number.word64? index).map track

/-- The target that a text names, in the only input there is. -/
def read? (text : String) : Option MapTarget := (Text.after? "0:" (Text.trim text)).bind ofSpec?

end MapTarget

/-- The seconds that a text denotes: finite and not negative. -/
def seconds? (text : String) : Option Float :=
  ((Number.Numeral.read? (Text.Chars.trim text.toList)).map (·.toFloat)).filter fun s =>
    s.isFinite && 0.0 ≤ s

/-- The number that a text denotes. -/
def count? (text : String) : Option UInt32 := Number.word32? (Text.trim text)

end VideoExport
