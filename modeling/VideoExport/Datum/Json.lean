import VideoExport.Datum.Basic
import VideoExport.Number.Hexadecimal

/-!
# Reading JSON

A text is cut into tokens, and the tokens drive a machine with a stack of the
containers that are still open. Both are total: each token takes characters
away, and each step of the machine takes a token.

A number is its significand, as many digits as fit into sixty-four bits,
scaled by a power of ten. One that is too large, and a string with half of a
surrogate pair, are well written but flawed: they may stand only where nobody
looks.

* `Json.tokens?`: the tokens of a text;
* `Json.read?`: the datum that a text writes.
-/

namespace VideoExport.Json

open Number

/-- A token: a bracket, a brace, a comma, a colon or a simple value. -/
inductive Token
  | openList | closeList | openMap | closeMap | comma | colon
  | value (d : Datum)

/-! ## Numbers -/

/-- The limit of a significand. -/
def significandLimit : Nat := UInt64.size

/-- The value of a character that is a digit. -/
def digitOf (c : Char) : Nat := c.toNat - '0'.toNat

/-- A significand with as many more digits as fit, how many these are, and the
    digits left over. -/
def takeDigits (significand : Nat) : List Char → Nat × Nat × List Char
  | [] => (significand, 0, [])
  | c :: rest =>
    let more := significand * 10 + digitOf c
    if more < significandLimit then
      let (s, n, left) := takeDigits more rest
      (s, n + 1, left)
    else (significand, 0, c :: rest)

/-- A significand times a power of ten, or none if it is too large. -/
def scale? (significand : Nat) (exponent : Int) : Option Float :=
  let x := Float.ofNat significand
  let power (n : Nat) : Float := Float.ofScientific 1 false n
  if significand = 0 then some 0.0
  else if exponent > 308 then none
  else if 0 ≤ exponent then some (x * power exponent.toNat) |>.filter (·.isFinite)
  else if -308 ≤ exponent then some (x / power (-exponent).toNat)
  else if -616 ≤ exponent then some (x / power 308 / power (-exponent - 308).toNat)
  else some 0.0

/-- The greatest exponent that is reckoned with. -/
def exponentLimit : Nat := Number.signBit32

/-- The number with these whole digits, places and exponent. -/
def number (negative : Bool) (whole places : List Char) (exponent : Option Int) : Datum :=
  let (significand, _, skipped) := takeDigits 0 whole
  if places.isEmpty ∧ exponent.isNone ∧ skipped.isEmpty then
    if !negative then .int significand
    else if significand = 0 then .float (-0.0)
    else if significand ≤ Number.signBit64 then .int (-significand)
    else .float (-(Float.ofNat significand))
  else
    let (significand, taken, _) := takeDigits significand places
    let e := exponent.getD 0
    let magnitude? :=
      if e.natAbs < exponentLimit then
        scale? significand (skipped.length - taken + e)
      else if e < 0 ∨ significand = 0 then some 0.0
      else none
    match magnitude? with
    | some x => .float (if negative then -x else x)
    | none => .flawed

/-- A number and what follows it. A whole part of several digits does not
    start with a zero; a point and an exponent need digits after them. -/
def number? (negative : Bool) (s : List Char) : Option (Datum × List Char) := do
  let (whole, rest) := s.span Char.isDigit
  guard (!whole.isEmpty && (whole.length == 1 || whole.head? != some '0'))
  let (places, rest) ← match rest with
    | '.' :: rest =>
      let (places, rest) := rest.span Char.isDigit
      if places.isEmpty then none else some (places, rest)
    | _ => some ([], rest)
  let (exponent, rest) ← match rest with
    | 'e' :: rest | 'E' :: rest =>
      let (minus, rest) := match rest with
        | '-' :: rest => (true, rest)
        | '+' :: rest => (false, rest)
        | _ => (false, rest)
      let (ds, rest) := rest.span Char.isDigit
      (digitsValue? ds).map fun n => (some (if minus then -(n : Int) else n), rest)
    | _ => some (none, rest)
  return (number negative whole places exponent, rest)

/-! ## Strings -/

/-- The code units of a string up to its closing quote, and what follows. -/
def units? : List Char → Option (List Nat × List Char)
  | [] => none
  | '"' :: rest => some ([], rest)
  | '\\' :: 'u' :: a :: b :: c :: d :: rest => do
    let unit ← Number.hexValue? [a, b, c, d]
    let (units, rest) ← units? rest
    return (unit :: units, rest)
  | '\\' :: c :: rest => do
    let unit ← match c with
      | '"' => some 0x22
      | '\\' => some 0x5C
      | '/' => some 0x2F
      | 'b' => some 8
      | 'f' => some 12
      | 'n' => some 10
      | 'r' => some 13
      | 't' => some 9
      | _ => none
    let (units, rest) ← units? rest
    return (unit :: units, rest)
  | c :: rest => do
    guard (0x20 ≤ c.toNat ∧ c ≠ '\\')
    let (units, rest) ← units? rest
    return (c.toNat :: units, rest)

/-- The characters of code units, if surrogates come in pairs only. -/
def chars? : List Nat → Option (List Char)
  | [] => some []
  | u :: rest =>
    if 0xD800 ≤ u ∧ u < 0xDC00 then
      match rest with
      | v :: rest =>
        if 0xDC00 ≤ v ∧ v < 0xE000 then
          (chars? rest).map (Char.ofNat (0x10000 + (u - 0xD800) * 0x400 + (v - 0xDC00)) :: ·)
        else none
      | [] => none
    else if 0xDC00 ≤ u ∧ u < 0xE000 then none
    else (chars? rest).map (Char.ofNat u :: ·)

/-! ## Tokens -/

/-- The first token of a text that does not start with a blank, and what
    follows it. -/
def token? : List Char → Option (Token × List Char)
  | '[' :: rest => some (.openList, rest)
  | ']' :: rest => some (.closeList, rest)
  | '{' :: rest => some (.openMap, rest)
  | '}' :: rest => some (.closeMap, rest)
  | ',' :: rest => some (.comma, rest)
  | ':' :: rest => some (.colon, rest)
  | '"' :: rest => (units? rest).map fun (units, rest) =>
    (.value (((chars? units).map fun cs => .str (String.ofList cs)).getD .flawed), rest)
  | 'n' :: 'u' :: 'l' :: 'l' :: rest => some (.value .null, rest)
  | 't' :: 'r' :: 'u' :: 'e' :: rest => some (.value (.bool true), rest)
  | 'f' :: 'a' :: 'l' :: 's' :: 'e' :: rest => some (.value (.bool false), rest)
  | '-' :: rest => (number? true rest).map fun (d, rest) => (.value d, rest)
  | s => (number? false s).map fun (d, rest) => (.value d, rest)

/-- The tokens of a text, of at most `fuel` characters. -/
def tokensWithin? : (fuel : Nat) → List Char → Option (List Token)
  | _, [] => some []
  | 0, _ => none
  | fuel + 1, c :: s =>
    if c == ' ' || c == '\n' || c == '\t' || c == '\r' then tokensWithin? fuel s
    else do
      let (token, rest) ← token? (c :: s)
      let tokens ← tokensWithin? fuel rest
      return token :: tokens

/-- The tokens of a text. -/
def tokens? (s : List Char) : Option (List Token) := tokensWithin? s.length s

/-! ## Documents -/

/-- A container that is still open: its parts so far, the last one first. -/
inductive Frame
  | list (items : List Datum)
  | map (fields : List (String × Datum)) (name : String)

/-- What may come next: a value, a value or the end of a list, a name or the
    end of a map, a name, a colon, what follows a value, or nothing. -/
inductive Stage
  | value
  | first
  | firstName
  | name
  | colon
  | next
  | done (d : Datum)

/-- Where the reading of a document stands. -/
structure State where
  frames : List Frame
  stage : Stage

namespace State

/-- The document before its first token. -/
def start : State := ⟨[], .value⟩

/-- A complete value at the place where one was expected. -/
def give (frames : List Frame) (d : Datum) : State :=
  match frames with
  | [] => ⟨[], .done d⟩
  | .list items :: frames => ⟨.list (d :: items) :: frames, .next⟩
  | .map fields name :: frames => ⟨.map ((name, d) :: fields) name :: frames, .next⟩

/-- The value of a container at its end. -/
def close : Frame → Datum
  | .list items => .list items.reverse
  | .map fields _ => .map fields.reverse

/-- A token where a value is expected. -/
def beginValue (frames : List Frame) : Token → Option State
  | .value d => some (give frames d)
  | .openList => some ⟨.list [] :: frames, .first⟩
  | .openMap => some ⟨.map [] "" :: frames, .firstName⟩
  | _ => none

/-- One more token. -/
def step (s : State) (token : Token) : Option State :=
  match s.stage, token, s.frames with
  | .first, .closeList, frame :: frames => some (give frames (close frame))
  | .firstName, .closeMap, frame :: frames => some (give frames (close frame))
  | .value, token, frames | .first, token, frames => beginValue frames token
  | .firstName, .value (.str name), .map fields _ :: frames
  | .name, .value (.str name), .map fields _ :: frames =>
    some ⟨.map fields name :: frames, .colon⟩
  | .colon, .colon, frames => some ⟨frames, .value⟩
  | .next, .comma, .list items :: frames => some ⟨.list items :: frames, .value⟩
  | .next, .comma, .map fields name :: frames => some ⟨.map fields name :: frames, .name⟩
  | .next, .closeList, .list items :: frames => some (give frames (close (.list items)))
  | .next, .closeMap, .map fields name :: frames =>
    some (give frames (close (.map fields name)))
  | _, _, _ => none

end State

/-- The datum that a text writes. -/
def read? (text : String) : Option Datum := do
  let tokens ← tokens? text.toList
  let final ← tokens.foldlM State.step State.start
  match final.stage with
  | .done d => some d
  | _ => none

end VideoExport.Json
