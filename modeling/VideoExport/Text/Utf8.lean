/-!
# UTF-8

Text that comes from outside is a sequence of bytes. Reading it never fails as
a whole: every maximal piece that is not a prefix of a character is read as
one gap, and the caller decides what a gap means.

* `Utf8.read`: the characters of a byte sequence, with its gaps;
* `Utf8.text?`: the text of a sequence without gaps;
* `Utf8.lossy`: the text with a replacement character for every gap.
-/

namespace VideoExport

/-- A sequence of bytes. -/
abbrev Bytes := List UInt8

namespace Text.Utf8

/-- A character that has begun: the bits read so far, how many more bytes it
    needs, and the range of the next of them. -/
structure Begun where
  bits : Nat
  owed : Nat
  low : UInt8
  high : UInt8

/-- What the first byte of a character says about it. -/
inductive Lead
  | whole (c : Char)
  | begun (b : Begun)
  | stray

/-- A first byte. The narrower ranges after some of them keep out overlong
    forms, surrogates and code points beyond the last one. -/
def Lead.ofByte (b : UInt8) : Lead :=
  let bits (m : Nat) := b.toNat % m
  if b < 0x80 then .whole (Char.ofNat b.toNat)
  else if b < 0xC2 then .stray
  else if b < 0xE0 then .begun ⟨bits 0x20, 1, 0x80, 0xBF⟩
  else if b == 0xE0 then .begun ⟨0, 2, 0xA0, 0xBF⟩
  else if b == 0xED then .begun ⟨bits 0x10, 2, 0x80, 0x9F⟩
  else if b < 0xF0 then .begun ⟨bits 0x10, 2, 0x80, 0xBF⟩
  else if b == 0xF0 then .begun ⟨0, 3, 0x90, 0xBF⟩
  else if b < 0xF4 then .begun ⟨bits 0x08, 3, 0x80, 0xBF⟩
  else if b == 0xF4 then .begun ⟨bits 0x08, 3, 0x80, 0x8F⟩
  else .stray

/-- The characters read after what has begun; `none` is a gap. -/
def readAfter : Option Begun → Bytes → List (Option Char)
  | none, [] => []
  | some _, [] => [none]
  | begun, b :: bytes =>
    let fresh :=
      match Lead.ofByte b with
      | .whole c => some c :: readAfter none bytes
      | .begun p => readAfter (some p) bytes
      | .stray => none :: readAfter none bytes
    match begun with
    | none => fresh
    | some p =>
      if p.low ≤ b ∧ b ≤ p.high then
        let bits := p.bits * 0x40 + b.toNat % 0x40
        if p.owed ≤ 1 then some (Char.ofNat bits) :: readAfter none bytes
        else readAfter (some ⟨bits, p.owed - 1, 0x80, 0xBF⟩) bytes
      else none :: fresh

/-- The characters of a byte sequence; `none` is a gap. -/
def read (bytes : Bytes) : List (Option Char) := readAfter none bytes

/-- The text of a byte sequence, if it has no gap. -/
def text? (bytes : Bytes) : Option String := do
  let chars ← (read bytes).mapM id
  return String.ofList chars

/-- The text of a byte sequence, with a replacement character for every gap. -/
def lossy (bytes : Bytes) : String :=
  String.ofList ((read bytes).map (·.getD '\uFFFD'))

end Text.Utf8

end VideoExport
