import VideoExport.Datum.Basic

/-!
# Taking values from data documents

A *taker* turns a datum into a value of a certain type or refuses it. Numbers
are taken strictly: a whole number may stand where a fraction is asked for,
but not the other way round, and it has to fit its word.

A record is written as a map, where its fields may come in any order and
unknown ones are skipped, or as a list of its fields in their declared order.

* `Datum.fields?`: the fields of a record, refused if one of them is repeated;
* `Fields.required`, `Fields.maybe`, `Fields.orElse`: one field of a record;
* `Datum.choice?`: one of several names;
* `Datum.tagged?`: the name of an alternative beside its content.
-/

namespace VideoExport

/-- What turns a datum into a value or refuses it. -/
abbrev Taker (α : Type) := Datum → Option α

namespace Datum

/-- A number. -/
def float? : Taker Float
  | float x => some x
  | int n => some (Number.Decimal.toFloat ⟨n < 0, n.natAbs, 0⟩)
  | plain s => plainFloat? s
  | _ => none
where
  /-- A number as a scalar without quotes spells it. -/
  plainFloat? (s : String) : Option Float :=
    let bare := Text.after? "+" s
    let unsigned := bare.getD s
    if unsigned ∈ [".inf", ".Inf", ".INF"] then some (1.0 / 0.0)
    else if s ∈ ["-.inf", "-.Inf", "-.INF"] then some (-1.0 / 0.0)
    else if s ∈ [".nan", ".NaN", ".NAN"] then some (0.0 / 0.0)
    else if bare.isSome && (Text.startsWith "+" unsigned || Text.startsWith "-" unsigned) then none
    else (Number.float? unsigned).filter (·.isFinite)

/-- A whole number. -/
def int? : Taker Int
  | int n => some n
  | plain s => plainInt? s.toList
  | _ => none
where
  /-- Digits of a base, each with its value. -/
  based? (base : Nat) (s : List Char) : Option Nat :=
    if s.isEmpty then none
    else s.foldlM (fun n c => do
      let d := if c.isDigit then c.toNat - 48 else c.toLower.toNat - 87
      if (c.isDigit || ('a' ≤ c.toLower && c.toLower ≤ 'f')) && d < base then
        some (base * n + d)
      else none) 0
  /-- A whole number without a sign, as a scalar without quotes spells it:
      with a letter for its base, or without leading zeros. -/
  unsigned? : List Char → Option Nat
    | '0' :: 'x' :: s => based? 16 s
    | '0' :: 'o' :: s => based? 8 s
    | '0' :: 'b' :: s => based? 2 s
    | '0' :: _ :: _ => none
    | s => based? 10 s
  /-- A whole number, with an optional sign. -/
  plainInt? : List Char → Option Int
    | '-' :: s => (unsigned? s).map fun n => -(n : Int)
    | '+' :: s => (unsigned? s).map fun n => (n : Int)
    | s => (unsigned? s).map fun n => (n : Int)

/-- A whole number below `bound`. -/
def below? (bound : Nat) : Taker Nat := fun d =>
  d.int?.bind fun n => if 0 ≤ n ∧ n.toNat < bound then some n.toNat else none

/-- A word of eight bits. -/
def word8? : Taker UInt8 := fun d => (d.below? UInt8.size).map UInt8.ofNat

/-- A word of thirty-two bits. -/
def word32? : Taker UInt32 := fun d => (d.below? UInt32.size).map UInt32.ofNat

/-- A word of sixty-four bits. -/
def word64? : Taker UInt64 := fun d => (d.below? UInt64.size).map UInt64.ofNat

/-- A signed number of sixty-four bits. -/
def int64? : Taker Int := fun d => d.int?.filter Number.isInt64

/-- A truth value. -/
def bool? : Taker Bool
  | bool b => some b
  | plain s =>
    if s ∈ ["true", "True", "TRUE"] then some true
    else if s ∈ ["false", "False", "FALSE"] then some false
    else none
  | _ => none

/-- A text. -/
def str? : Taker String
  | str s | plain s => some s
  | _ => none

/-- Whether this is the absence of a value. -/
def isNull : Datum → Bool
  | null => true
  | plain s => s ∈ ["", "~", "null", "Null", "NULL"]
  | _ => false

/-- A value or the absence of one. -/
def option? {α : Type} (take : Taker α) : Taker (Option α) := fun d =>
  if d.isNull then some none else (take d).map some

/-- A list of values. -/
def list? {α : Type} (take : Taker α) : Taker (List α)
  | list items => items.mapM take
  | plain "" => some []
  | _ => none

/-- One of several names, alone or as the only field of a map that gives it no
    content. -/
def choice? {α : Type} (names : String → Option α) : Taker α
  | str s | plain s => names s
  | map [(s, null)] => names s
  | _ => none

end Datum

/-- The fields of a record, by name. In an `ordered` record they were written
    as a list, from which the last ones may be missing. -/
structure Fields where
  ordered : Bool
  entries : List (String × Datum)

namespace Fields

/-- The value of a field. -/
def find? (fs : Fields) (name : String) : Option Datum :=
  (fs.entries.find? (·.1 == name)).map (·.2)

/-- A field that has to be there. -/
def required {α : Type} (fs : Fields) (name : String) (take : Taker α) : Option α :=
  (fs.find? name).bind take

/-- A field with a value to take when it is missing. -/
def orElse {α : Type} (fs : Fields) (name : String) (take : Taker α) (default : α) : Option α :=
  match fs.find? name with
  | some d => take d
  | none => some default

/-- A field that may be absent; in a list of fields it has a place. -/
def maybe {α : Type} (fs : Fields) (name : String) (take : Taker α) : Option (Option α) :=
  match fs.find? name with
  | some d => Datum.option? take d
  | none => if fs.ordered then none else some none

end Fields

namespace Datum

/-- Whether no name comes twice. -/
def distinctNames : List (String × Datum) → Bool
  | [] => true
  | (name, _) :: rest => !rest.any (·.1 == name) && distinctNames rest

/-- The fields of a record with the given names. -/
def fields? (names : List String) : Taker Fields
  | map entries =>
    let known := entries.filter fun (name, _) => names.contains name
    if distinctNames known then some ⟨false, known⟩ else none
  | list items => if items.length ≤ names.length then some ⟨true, names.zip items⟩ else none
  | plain "" => some ⟨false, []⟩
  | _ => none

/-- The name of an alternative and its content: two fields, or a list of
    the two. -/
def tagged? {α : Type} (tag content : String) (take : String → Taker α) : Taker α
  | map entries => do
    let fs ← fields? [tag, content] (map entries)
    let name ← fs.required tag (choice? some)
    fs.required content (take name)
  | list [name, d] => do take (← choice? some name) d
  | _ => none

mutual

/-- Whether no part of a value is flawed and its nesting is below `depth`. -/
def sound (depth : Nat) : Datum → Bool
  | flawed => false
  | list items => 0 < depth && soundAll (depth - 1) items
  | map fields => 0 < depth && soundFields (depth - 1) fields
  | _ => true

/-- `sound` for each of a list of values. -/
def soundAll (depth : Nat) : List Datum → Bool
  | [] => true
  | d :: rest => sound depth d && soundAll depth rest

/-- `sound` for the value of each field. -/
def soundFields (depth : Nat) : List (String × Datum) → Bool
  | [] => true
  | (_, d) :: rest => sound depth d && soundFields depth rest

end

/-- The deepest nesting of a value that is kept before it is taken. -/
def maxDepth : Nat := 127

/-- The name of an alternative among the fields of a record, and its other
    fields: a map with the name under `tag`, or a list that starts with it. -/
def labelled? {α : Type} (tag : String) (take : String → Taker α) : Taker α := fun d =>
  if sound maxDepth d then
    match d with
    | map entries => do
      let fs ← fields? [tag] (map entries)
      let name ← fs.required tag str?
      take name (map (entries.filter (·.1 != tag)))
    | list (name :: rest) => do take (← str? name) (list rest)
    | _ => none
  else none

end Datum

end VideoExport
