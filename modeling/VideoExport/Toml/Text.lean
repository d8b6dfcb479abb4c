import VideoExport.Datum.Basic
import VideoExport.Number.Natural
import VideoExport.Text.Split

/-!
# Writing TOML

Documents of tables are written with a header before each table. A string is
written in the plainest quotes that can hold it.

* `quote`: a string between quotes;
* `text?`: a document of tables with scalars.
-/

namespace VideoExport.Toml

/-! ## Strings -/

/-- The most times that a character comes in a row. -/
def longestRun (c : Char) (s : List Char) : Nat :=
  (s.foldl (fun (longest, run) d =>
    let run := if d = c then run + 1 else 0
    (max longest run, run)) (0, 0)).1

/-- Whether a character can only be written by a number or a letter after a
    backslash. -/
def isControl (c : Char) : Bool := (c < ' ' && c != '\t' && c != '\n') || c == '\x7f'

/-- A number in four digits of base sixteen. -/
def fourDigits (n : Nat) : List Char :=
  (Text.padZeros 4 (String.ofList (Nat.toDigits 16 n))).toList.map Char.toUpper

/-- A character as it is written between double quotes, where line breaks stay
    as they are on several lines. -/
def escape (onLines : Bool) (c : Char) : List Char :=
  match c with
  | '\x08' => ['\\', 'b']
  | '\t' => ['\\', 't']
  | '\n' => if onLines then ['\n'] else ['\\', 'n']
  | '\x0c' => ['\\', 'f']
  | '\r' => ['\\', 'r']
  | '\\' => ['\\', '\\']
  | c => if isControl c then '\\' :: 'u' :: fourDigits c.toNat else [c]

/-- A text as it is written between double quotes. On several lines up to two
    quotes in a row stay as they are: `run` counts those just written. -/
def escapeAll (onLines : Bool) (run : Nat) : List Char → List Char
  | [] => []
  | c :: s =>
    if c = '"' then
      if onLines && run < 2 then '"' :: escapeAll onLines (run + 1) s
      else '\\' :: '"' :: escapeAll onLines 0 s
    else escape onLines c ++ escapeAll onLines 0 s

/-- A string between quotes: double ones on one line if nothing has to be
    escaped; else single ones, then three double ones, then three single ones,
    if they can hold it as it is; else double ones with escapes. -/
def quote (text : String) : String :=
  let s := text.toList
  let isPlain := !s.any isControl
  let broken := s.contains '\n'
  let escapes := s.contains '\\'
  let singles := longestRun '\'' s
  let doubles := longestRun '"' s
  let lines (q body : String) : String := q ++ (if broken then "\n" else "") ++ body ++ q
  let escaped (onLines : Bool) : String := String.ofList (escapeAll onLines 0 s)
  if isPlain && !escapes && doubles = 0 && !broken then "\"" ++ escaped false ++ "\""
  else if isPlain && singles = 0 && !broken then "'" ++ text ++ "'"
  else if isPlain && !escapes && doubles ≤ 2 then lines "\"\"\"" (escaped true)
  else if isPlain && singles ≤ 2 then lines "'''" text
  else if broken then lines "\"\"\"" (escaped true)
  else "\"" ++ escaped false ++ "\""

/-! ## Documents -/

/-- A scalar as it is written, if it can be. -/
def scalarText? : Datum → Option String
  | .bool b => some (if b then "true" else "false")
  | .int n => if Number.isInt64 n then some (Number.intText n) else none
  | .str s => some (quote s)
  | _ => none

/-- The line of a field. A field without a value has none. -/
def fieldText? : String × Datum → Option String
  | (_, .null) => some ""
  | (key, d) => (scalarText? d).map fun t => s!"{key} = {t}\n"

/-- A table of scalars below its header. -/
def tableText? : String × Datum → Option String
  | (name, .map fields) => (fields.mapM fieldText?).map fun ls => s!"[{name}]\n" ++ String.join ls
  | _ => none

/-- A document of tables, with an empty line between them. -/
def text? : Datum → Option String
  | .map tables => (tables.mapM tableText?).map (String.intercalate "\n")
  | _ => none

end VideoExport.Toml
