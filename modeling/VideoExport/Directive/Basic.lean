import VideoExport.Directive.Value
import VideoExport.Timecode

/-!
# Directives

A plan travels as a flat list of tokens: flags, each with its value. What is
understood becomes a directive of its own; anything else is kept word for
word, so that either side may learn new flags first.

* `Directive`: the directives;
* `Directive.lex`: the directives of a list of tokens, never failing;
* `Directive.tokens`: the tokens of a list of directives;
* `Directive.valueOf?`: the value of the first directive of a flag.
-/

namespace VideoExport

/-- The flags that have a meaning. -/
inductive Flag
  | trimStart
  | trimDuration
  | videoCodec
  | audioCodec
  | subtitleCodec
  | videoRate
  | audioRate
  | maxRate
  | bufferSize
  | qp
  | crf
  | speed
  | videoFilter
  | map
  | threads
  | quality
  deriving DecidableEq, Repr, Inhabited

namespace Flag

/-- The written form. -/
def text : Flag → String
  | trimStart => "-ss"
  | trimDuration => "-t"
  | videoCodec => "-c:v"
  | audioCodec => "-c:a"
  | subtitleCodec => "-c:s"
  | videoRate => "-b:v"
  | audioRate => "-b:a"
  | maxRate => "-maxrate"
  | bufferSize => "-bufsize"
  | qp => "-qp"
  | crf => "-crf"
  | speed => "-preset"
  | videoFilter => "-vf"
  | map => "-map"
  | threads => "-threads"
  | quality => "-q:v"

/-- The flag of a token, which is spelled in one way only. -/
def named? : String → Option Flag
  | "-ss" => some trimStart
  | "-t" => some trimDuration
  | "-c:v" => some videoCodec
  | "-c:a" => some audioCodec
  | "-c:s" => some subtitleCodec
  | "-b:v" => some videoRate
  | "-b:a" => some audioRate
  | "-maxrate" => some maxRate
  | "-bufsize" => some bufferSize
  | "-qp" => some qp
  | "-crf" => some crf
  | "-preset" => some speed
  | "-vf" => some videoFilter
  | "-map" => some map
  | "-threads" => some threads
  | "-q:v" => some quality
  | _ => none

theorem named?_text (f : Flag) : named? f.text = some f := by cases f <;> rfl

end Flag

/-- One flag with its value, or tokens that nobody understands. -/
inductive Directive
  | trimStart (seconds : Float)
  | trimDuration (seconds : Float)
  | videoCodec (codec : CodecValue)
  | audioCodec (codec : CodecValue)
  | subtitleCodec (codec : String)
  | videoRate (rate : Kbps)
  | audioRate (rate : Kbps)
  | maxRate (rate : Kbps)
  | bufferSize (rate : Kbps)
  | qp (value : UInt32)
  | crf (value : UInt32)
  | speed (name : String)
  | videoFilter (chain : String)
  | map (target : MapTarget)
  | threads (count : UInt32)
  /-- A quality of the encoder's own; animations take it for the speed of
      choosing a palette. -/
  | quality (value : UInt32)
  | unknown (tokens : List String)
  deriving Inhabited

namespace Directive

/-- The flag of a directive that is understood. -/
def flag? : Directive → Option Flag
  | trimStart _ => some .trimStart
  | trimDuration _ => some .trimDuration
  | videoCodec _ => some .videoCodec
  | audioCodec _ => some .audioCodec
  | subtitleCodec _ => some .subtitleCodec
  | videoRate _ => some .videoRate
  | audioRate _ => some .audioRate
  | maxRate _ => some .maxRate
  | bufferSize _ => some .bufferSize
  | qp _ => some .qp
  | crf _ => some .crf
  | speed _ => some .speed
  | videoFilter _ => some .videoFilter
  | map _ => some .map
  | threads _ => some .threads
  | quality _ => some .quality
  | unknown _ => none

/-- A number as a value. -/
def countText (n : UInt32) : String := Number.text n.toNat

/-- The tokens of a directive: its flag and its value, or what it was. -/
def toTokens : Directive → List String
  | trimStart s => ["-ss", Timecode.wire s]
  | trimDuration s => ["-t", Timecode.wire s]
  | videoCodec c => ["-c:v", c.text]
  | audioCodec c => ["-c:a", c.text]
  | subtitleCodec c => ["-c:s", c]
  | videoRate r => ["-b:v", r.text]
  | audioRate r => ["-b:a", r.text]
  | maxRate r => ["-maxrate", r.text]
  | bufferSize r => ["-bufsize", r.text]
  | qp n => ["-qp", countText n]
  | crf n => ["-crf", countText n]
  | speed name => ["-preset", name]
  | videoFilter chain => ["-vf", chain]
  | map target => ["-map", target.text]
  | threads n => ["-threads", countText n]
  | quality n => ["-q:v", countText n]
  | unknown tokens => tokens

/-- A directive starts with its flag. -/
theorem head?_toTokens {d : Directive} {f : Flag} (h : d.flag? = some f) :
    d.toTokens.head? = some f.text := by
  cases d <;> cases h <;> rfl

/-- The text of a directive's flag; tokens that nobody understands stand for
    themselves. -/
def flagText (d : Directive) : String := d.toTokens.headD ""

/-- The text of a directive's value. -/
def valueText? (d : Directive) : Option String := d.toTokens[1]?

/-- The directive of a flag with the text of its value, if that is one. -/
def ofPair? (flag : Flag) (value : String) : Option Directive :=
  match flag with
  | .trimStart => (seconds? value).map trimStart
  | .trimDuration => (seconds? value).map trimDuration
  | .videoCodec => (CodecValue.read? value).map videoCodec
  | .audioCodec => (CodecValue.read? value).map audioCodec
  | .subtitleCodec => (Text.nonBlank? value).map subtitleCodec
  | .videoRate => (Kbps.read? value).map videoRate
  | .audioRate => (Kbps.read? value).map audioRate
  | .maxRate => (Kbps.read? value).map maxRate
  | .bufferSize => (Kbps.read? value).map bufferSize
  | .qp => (count? value).map qp
  | .crf => (count? value).map crf
  | .speed => (Text.nonBlank? value).map speed
  | .videoFilter => (Text.nonBlank? value).map videoFilter
  | .map => (MapTarget.read? value).map map
  | .threads => (count? value).map threads
  | .quality => (count? value).map quality

/-- A directive that is understood has the flag that it was read with. -/
theorem flag?_of_ofPair? {f : Flag} {value : String} {d : Directive}
    (h : ofPair? f value = some d) : d.flag? = some f := by
  cases f <;> simp only [ofPair?] at h <;> obtain ⟨_, -, rfl⟩ := Option.map_eq_some_iff.1 h <;> rfl

/-- Whether a token looks like a flag, known or not. -/
def looksLikeFlag (token : String) : Bool := Text.startsWith "-" token

/-- The directives of a list of tokens. A flag is never taken for the value of
    another one: a known flag takes any token that is not known, and one that
    is not known takes a token that does not look like a flag. -/
def lex : List String → List Directive
  | [] => []
  | [token] => [unknown [token]]
  | token :: next :: rest =>
    match Flag.named? token, Flag.named? next with
    | some flag, none => (ofPair? flag next).getD (unknown [token, next]) :: lex rest
    | some _, some _ => unknown [token] :: lex (next :: rest)
    | none, _ =>
      if looksLikeFlag token && !looksLikeFlag next then unknown [token, next] :: lex rest
      else unknown [token] :: lex (next :: rest)

/-- The tokens of a list of directives. -/
def tokens (ds : List Directive) : List String := ds.flatMap toTokens

/-- The tokens of a list of directives on one line. -/
def line (ds : List Directive) : String := String.intercalate " " (tokens ds)

/-- The first directive of a flag, by its text. -/
def find? (ds : List Directive) (flag : String) : Option Directive :=
  ds.find? (·.flagText == flag)

/-- Whether a directive of a flag is there. -/
def hasFlag (ds : List Directive) (flag : String) : Bool := (find? ds flag).isSome

/-- The value of the first directive of a flag. -/
def valueOf? (ds : List Directive) (flag : String) : Option String :=
  (find? ds flag).bind valueText?

/-- A known flag and a value that it can take become one directive. -/
theorem lex_pair {flag : Flag} {value : String} {d : Directive} {rest : List String}
    (hv : Flag.named? value = none) (hd : ofPair? flag value = some d) :
    lex (flag.text :: value :: rest) = d :: lex rest := by
  simp [lex, Flag.named?_text, hv, hd]

end Directive

end VideoExport
