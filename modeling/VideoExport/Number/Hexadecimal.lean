import VideoExport.Number.Natural

/-!
# Hexadecimal numbers

Notations write the number of a character with the digits of base sixteen,
in either case.

* `hexDigit?`: the value of a digit;
* `hexChar?`: the character of a number with a fixed number of digits.
-/

namespace VideoExport.Number

/-- The value of a digit of base sixteen. -/
def hexDigit? (c : Char) : Option Nat :=
  if '0' ≤ c ∧ c ≤ '9' then some (c.toNat - 48)
  else if 'a' ≤ c ∧ c ≤ 'f' then some (c.toNat - 87)
  else if 'A' ≤ c ∧ c ≤ 'F' then some (c.toNat - 55)
  else none

/-- The number that digits of base sixteen write. -/
def hexValue? (s : List Char) : Option Nat :=
  s.foldlM (fun n c => (hexDigit? c).map (16 * n + ·)) 0

/-- The character whose number the first so many characters of a text write. -/
def hexChar? (digits : Nat) (s : List Char) : Option Char := do
  guard (digits ≤ s.length)
  let n ← hexValue? (s.take digits)
  if n.isValidChar then some (Char.ofNat n) else none

end VideoExport.Number
