import VideoExport.Number.Layout

/-!
# Data documents

Settings, messages and reports are exchanged as data documents: trees of
lists and named fields over simple values. A document may be written in
several notations; this type is what they share.

* `Datum`: a value of a document;
* `Datum.flawed`: a value that is well written and that no field can take;
* `Datum.plain`: a scalar whose type is left to the field that takes it.
-/

namespace VideoExport

/-- A value of a data document. The fields of a `map` are in written order,
    with repetitions. -/
inductive Datum
  | null
  | bool (b : Bool)
  | int (n : Int)
  | float (x : Float)
  | str (s : String)
  | plain (s : String)
  | flawed
  | list (items : List Datum)
  | map (fields : List (String × Datum))
  deriving Inhabited

namespace Datum

/-- A value or the absence of one. -/
def ofOption {α : Type} (f : α → Datum) : Option α → Datum
  | some a => f a
  | none => null

/-- A list of values. -/
def ofList {α : Type} (f : α → Datum) (l : List α) : Datum := list (l.map f)

/-- A word of eight bits. -/
def word8 (n : UInt8) : Datum := int n.toNat

/-- A word of thirty-two bits. -/
def word32 (n : UInt32) : Datum := int n.toNat

/-- A word of sixty-four bits. -/
def word64 (n : UInt64) : Datum := int n.toNat

/-- The value of the last field of a name. -/
def get? (d : Datum) (name : String) : Option Datum :=
  match d with
  | map fields => (fields.reverse.find? (·.1 == name)).map (·.2)
  | _ => none

/-- The fields that satisfy `p`, and the whole value if it has none. -/
def keepFields (p : String → Bool) : Datum → Datum
  | map fields => map (fields.filter (p ·.1))
  | d => d

/-- The value with one more field. -/
def withField (d : Datum) (name : String) (value : Datum) : Datum :=
  match d with
  | map fields => map (fields ++ [(name, value)])
  | d => d

mutual

/-- The value with repeated fields reduced to the last of them. -/
def lastWins : Datum → Datum
  | list items => list (lastWinsAll items)
  | map fields => map (lastWinsFields fields)
  | d => d

/-- `lastWins` for each of a list of values. -/
def lastWinsAll : List Datum → List Datum
  | [] => []
  | d :: rest => lastWins d :: lastWinsAll rest

/-- `lastWins` for fields: one that comes again later is left out. -/
def lastWinsFields : List (String × Datum) → List (String × Datum)
  | [] => []
  | (name, d) :: rest =>
    let later := lastWinsFields rest
    if later.any (·.1 == name) then later else (name, lastWins d) :: later

end

end Datum

end VideoExport
