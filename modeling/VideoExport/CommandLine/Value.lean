import VideoExport.CommandLine.Option
import VideoExport.Number.Decimal
import VideoExport.Settings.Document
import VideoExport.Text.Blank

/-!
# Values of options

What the values of options have to be: texts, paths, numbers within bounds, and
sizes.

* `Value.text`, `Value.path`, `Value.word32`, …: the readers;
* `Resize.read`: a size, written as two numbers with an X between them.
-/

namespace VideoExport

namespace Resize

/-- Why a text is no size. -/
inductive Fault
  | unknownForm (text : String)
  | widthUnreadable (text : String)
  | heightUnreadable (text : String)
  | empty
  deriving DecidableEq, Repr

/-- The text of a fault. -/
def Fault.message : Fault → String
  | unknownForm text => s!"expected WIDTHxHEIGHT, got '{text}'"
  | widthUnreadable text => s!"invalid width '{text}'"
  | heightUnreadable text => s!"invalid height '{text}'"
  | empty => "resize dimensions must be positive"

/-- The number of a side; blanks around it do not count. -/
def side (text : String) (fault : Fault) : Except Fault UInt32 :=
  match Number.word32? (Text.trim text) with
  | some n => .ok n
  | none => .error fault

/-- The size that a text writes. -/
def read (text : String) : Except Fault Resize :=
  let isCross (c : Char) : Bool := c == 'x' || c == 'X'
  match Text.Chars.cutAt? isCross (Text.Chars.trim text.toList) with
  | none => .error (.unknownForm text)
  | some (w, h) => do
    let width ← side (String.ofList w) (.widthUnreadable (String.ofList w))
    let height ← side (String.ofList h) (.heightUnreadable (String.ofList h))
    if width = 0 ∨ height = 0 then throw .empty
    return ⟨width, height, .stretch⟩

end Resize

namespace CommandLine.Value

/-- A value that may be missing from the reader of a text. -/
def reading {α : Type} (read : String → Option α) : ValueReader α := fun text =>
  match read text with
  | some a => .ok a
  | none => .error .unreadableValue

/-- Any text. -/
def text : ValueReader String := .ok

/-- A path, which is not empty. -/
def path : ValueReader String := fun text => if text.isEmpty then .error .invalidValue else .ok text

/-- A number. -/
def number : ValueReader Float := reading Number.float?

/-- The index of a track. -/
def index : ValueReader UInt64 := reading Number.word64?

/-- A number of milliseconds. -/
def milliseconds : ValueReader UInt64 := reading Number.word64?

/-- A number of thirty-two bits. It may come with any sign that leaves it one. -/
def word32 : ValueReader UInt32 :=
  reading fun text => do
    let n ← Number.integer? Number.signBit64 Number.signBit64 text.toList
    guard (0 ≤ n ∧ n < (UInt32.size : Int))
    return UInt32.ofNat n.toNat

/-- A quality or a quantizer. -/
def quality : ValueReader UInt8 :=
  reading fun text => (Number.word8? text).filter (· ≤ Settings.maxQuality)

/-- A number of thirty-two bits within bounds. -/
def within (bounds : UInt32 × UInt32) : ValueReader UInt32 :=
  reading fun text => (Number.word32? text).filter fun n => bounds.1 ≤ n && n ≤ bounds.2

/-- A size. -/
def resize : ValueReader Resize := reading fun text => (Resize.read text).toOption

/-- One of the ways to fit. -/
def fit : ValueReader Fit := fun text =>
  match Fit.named? text with
  | some f => .ok f
  | none => .error .invalidValue

end CommandLine.Value

end VideoExport
