import VideoExport.Datum.Basic

/-!
# Tables in TOML

A document is a tree of tables, which it builds line by line. Each table may be
described in one place only, and how it came to be decides what may still be
added to it: a header may describe a table that so far only follows from the
headers of tables within it, and a key with dots may add to tables that came
from such keys.

* `Item`: what a key stands for;
* `Entries.define?`, `Entries.openTable?`, `Entries.openElement?`: the three
  ways in which a line adds to a document;
* `Entries.datum`: a table as data.
-/

namespace VideoExport.Toml

/-- How a table came to be. -/
inductive Origin
  /-- It is the document, or has a header of its own. -/
  | header
  /-- A table within it has a header. -/
  | implied
  /-- A key with dots leads into it. -/
  | dotted
  deriving DecidableEq

/-- What a key stands for: a value, a table, or a list of tables, the last one
    first. -/
inductive Item
  | value (d : Datum)
  | table (origin : Origin) (entries : List (String × Item))
  | tables (elements : List (List (String × Item)))

/-- The keys of a table and what they stand for, in written order. -/
abbrev Entries := List (String × Item)

namespace Entries

/-- What a key stands for. -/
def meaning? (es : Entries) (key : String) : Option Item :=
  (List.find? (·.1 == key) es).map (·.2)

/-- The table with another meaning of a key. -/
def put (es : Entries) (key : String) (item : Item) : Entries :=
  if es.any (·.1 == key) then es.map fun e => if e.1 == key then (key, item) else e
  else es ++ [(key, item)]

/-- A change of the table that keys lead to, from a table of some origin.
    Tables that are not there yet come to be; a list of tables leads into its
    last one. A key with dots does not lead into tables with headers. -/
def alter? (dotted : Bool) (change : Origin → Entries → Option Entries) :
    List String → Origin → Entries → Option Entries
  | [], origin, es => change origin es
  | key :: path, _, es =>
    match es.meaning? key with
    | none =>
      let origin : Origin := if dotted then .dotted else .implied
      (alter? dotted change path origin []).map fun t => es.put key (.table origin t)
    | some (.value _) => none
    | some (.table origin t) =>
      if dotted && origin = .header then none
      else (alter? dotted change path origin t).map fun t => es.put key (.table origin t)
    | some (.tables []) => none
    | some (.tables (t :: ts)) =>
      (alter? dotted change path .header t).map fun t => es.put key (.tables (t :: ts))

/-- The table with a value for a key that leads through others. -/
def define? (path : List String) (key : String) (d : Datum) (es : Entries) : Option Entries :=
  es.alter? true (fun origin es =>
    if (origin = .dotted) ↔ path.isEmpty then none
    else if (es.meaning? key).isSome then none
    else some (es.put key (.value d))) path .header

/-- The document with a header for a table. -/
def openTable? (path : List String) (key : String) (es : Entries) : Option Entries :=
  es.alter? false (fun _ es =>
    match es.meaning? key with
    | none => some (es.put key (.table .header []))
    | some (.table .implied t) => some (es.put key (.table .header t))
    | _ => none) path .header

/-- The document with a header for one more table of a list. -/
def openElement? (path : List String) (key : String) (es : Entries) : Option Entries :=
  es.alter? false (fun _ es =>
    match es.meaning? key with
    | none => some (es.put key (.tables [[]]))
    | some (.tables ts) => some (es.put key (.tables ([] :: ts)))
    | _ => none) path .header

end Entries

mutual

/-- What a key stands for, as data. -/
def Item.datum : Item → Datum
  | .value d => d
  | .table _ es => .map (Entries.fields es)
  | .tables ts => .list (Entries.elements ts).reverse

/-- The keys of a table as fields. -/
def Entries.fields : List (String × Item) → List (String × Datum)
  | [] => []
  | (key, item) :: es => (key, item.datum) :: Entries.fields es

/-- A list of tables as data. -/
def Entries.elements : List (List (String × Item)) → List Datum
  | [] => []
  | t :: ts => .map (Entries.fields t) :: Entries.elements ts

end

/-- A table as data. -/
def Entries.datum (es : Entries) : Datum := .map (Entries.fields es)

end VideoExport.Toml
