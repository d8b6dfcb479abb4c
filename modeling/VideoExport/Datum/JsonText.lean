import VideoExport.Datum.Basic

/-!
# Writing JSON

A document is written on one line, or with a line for every item and field,
indented by two spaces for each open container. Numbers that are not finite
have no form of their own and are written as the absence of a value.

* `Datum.compact`, `Datum.pretty`: the two forms.
-/

namespace VideoExport.Json

open Number

/-- A hexadecimal digit. -/
def hexDigit (n : Nat) : Char := if n < 10 then digitChar n else Char.ofNat (n + 87)

/-- A character in a string: quotes, backslashes and controls are escaped. -/
def escape (c : Char) : List Char :=
  if c = '"' then ['\\', '"']
  else if c = '\\' then ['\\', '\\']
  else if c = '\n' then ['\\', 'n']
  else if c = '\r' then ['\\', 'r']
  else if c = '\t' then ['\\', 't']
  else if c.toNat = 8 then ['\\', 'b']
  else if c.toNat = 12 then ['\\', 'f']
  else if c.toNat < 32 then
    ['\\', 'u', '0', '0', hexDigit (c.toNat / 16), hexDigit (c.toNat % 16)]
  else [c]

/-- A string between quotes. -/
def quoted (s : String) : String :=
  String.ofList ('"' :: s.toList.flatMap escape ++ ['"'])

/-- What stands between the parts of containers: before the first part and
    after the last at a depth, after a comma, and after a name. -/
structure Spacing where
  lineBreak : Nat → String
  afterName : String

/-- Nothing between the parts. -/
def Spacing.tight : Spacing := ⟨fun _ => "", ""⟩

/-- A line for every part. -/
def Spacing.lines : Spacing := ⟨fun depth => "\n" ++ "".pushn ' ' (2 * depth), " "⟩

/-- Parts between two brackets. -/
def bracketed (sp : Spacing) (depth : Nat) (left right : String) (parts : List String) : String :=
  if parts.isEmpty then left ++ right
  else left ++ sp.lineBreak (depth + 1) ++
    String.intercalate ("," ++ sp.lineBreak (depth + 1)) parts ++ sp.lineBreak depth ++ right

mutual

/-- The text of a datum inside `depth` containers. -/
def write (sp : Spacing) (depth : Nat) : Datum → String
  | .null | .flawed => "null"
  | .bool b => if b then "true" else "false"
  | .int n => intText n
  | .float x => (dataForm? x).getD "null"
  | .str s | .plain s => quoted s
  | .list items => bracketed sp depth "[" "]" (writeItems sp depth items)
  | .map fields => bracketed sp depth "\x7b" "\x7d" (writeFields sp depth fields)

/-- The texts of the items of a list. -/
def writeItems (sp : Spacing) (depth : Nat) : List Datum → List String
  | [] => []
  | d :: rest => write sp (depth + 1) d :: writeItems sp depth rest

/-- The texts of the fields of a map. -/
def writeFields (sp : Spacing) (depth : Nat) : List (String × Datum) → List String
  | [] => []
  | (name, d) :: rest =>
    (quoted name ++ ":" ++ sp.afterName ++ write sp (depth + 1) d) :: writeFields sp depth rest

end

end VideoExport.Json

namespace VideoExport.Datum

/-- The text of a document on one line. -/
def compact (d : Datum) : String := Json.write .tight 0 d

/-- The text of a document with a line for every part. -/
def pretty (d : Datum) : String := Json.write .lines 0 d

end VideoExport.Datum
