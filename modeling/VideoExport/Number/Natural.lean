import VideoExport.Text.Split

/-!
# Natural numbers in text

A natural number is written with the digits of base ten and no others. What
reads one accepts leading zeros and, for a word of limited size, one plus
sign; a number that does not fit its word is refused.

* `digitsValue?_digits`: reading the digits of a number gives the number back;
* `word?`: a number below a bound, with an optional plus sign;
* `integer?`: a signed number within bounds.
-/

namespace VideoExport.Number

/-- The value of a digit of base ten. -/
def digitValue? (c : Char) : Option Nat :=
  if '0' ≤ c ∧ c ≤ '9' then some (c.toNat - '0'.toNat) else none

/-- The digit of a value below ten. -/
def digitChar (d : Nat) : Char := Char.ofNat ('0'.toNat + d)

/-- The number that `value` becomes when the digits of a text follow it. -/
def extend? (value : Nat) : List Char → Option Nat
  | [] => some value
  | c :: s => (digitValue? c).bind fun d => extend? (10 * value + d) s

/-- The value of a text of digits that is not empty. -/
def digitsValue? : List Char → Option Nat
  | [] => none
  | s => extend? 0 s

/-- The digits of a number, without leading zeros. -/
def digits (n : Nat) : List Char :=
  if n < 10 then [digitChar n] else digits (n / 10) ++ [digitChar (n % 10)]

theorem digitValue?_digitChar {d : Nat} (h : d < 10) : digitValue? (digitChar d) = some d := by
  match d, h with
  | 0, _ | 1, _ | 2, _ | 3, _ | 4, _ | 5, _ | 6, _ | 7, _ | 8, _ | 9, _ => rfl

theorem extend?_append (value : Nat) (s t : List Char) :
    extend? value (s ++ t) = (extend? value s).bind fun v => extend? v t := by
  induction s generalizing value with
  | nil => rfl
  | cons c s ih =>
    simp only [List.cons_append, extend?]
    cases digitValue? c with
    | none => rfl
    | some d => simp [ih]

theorem digits_ne_nil (n : Nat) : digits n ≠ [] := by
  unfold digits
  split <;> simp

theorem extend?_digits (n : Nat) : extend? 0 (digits n) = some n := by
  induction n using Nat.strongRecOn with
  | _ n ih =>
    unfold digits
    split
    case isTrue h => simp [extend?, digitValue?_digitChar h]
    case isFalse h =>
      have hd : n % 10 < 10 := Nat.mod_lt _ (by omega)
      rw [extend?_append, ih (n / 10) (by omega)]
      simp only [Option.bind_some, extend?, digitValue?_digitChar hd, Option.some.injEq]
      omega

/-- Reading the digits of a number gives the number back. -/
theorem digitsValue?_digits (n : Nat) : digitsValue? (digits n) = some n := by
  cases h : digits n with
  | nil => exact absurd h (digits_ne_nil n)
  | cons c s => rw [digitsValue?, ← h, extend?_digits]; simp

/-- A number below `bound`, with an optional plus sign. -/
def word? (bound : Nat) (s : List Char) : Option Nat :=
  let unsigned := match s with
    | '+' :: rest => rest
    | _ => s
  (digitsValue? unsigned).filter (· < bound)

/-- A number from `-low` up to below `high`, with an optional sign. -/
def integer? (low high : Nat) (s : List Char) : Option Int :=
  match s with
  | '-' :: rest => ((digitsValue? rest).filter (· ≤ low)).map fun n => -(n : Int)
  | _ => (word? high s).map fun n => (n : Int)

/-- The value of the sign among thirty-two bits. -/
def signBit32 : Nat := 2147483648

/-- The value of the sign among sixty-four bits. -/
def signBit64 : Nat := 9223372036854775808

/-- Whether a number fits into sixty-four bits with its sign. -/
def isInt64 (n : Int) : Bool := -(signBit64 : Int) ≤ n && n < signBit64

/-- A number of eight bits. -/
def word8? (s : String) : Option UInt8 := (word? UInt8.size s.toList).map UInt8.ofNat

/-- A number of thirty-two bits. -/
def word32? (s : String) : Option UInt32 := (word? UInt32.size s.toList).map UInt32.ofNat

/-- A number of sixty-four bits. -/
def word64? (s : String) : Option UInt64 := (word? UInt64.size s.toList).map UInt64.ofNat

/-- A signed number of thirty-two bits. -/
def int32? (s : String) : Option Int32 :=
  (integer? signBit32 signBit32 s.toList).map Int32.ofInt

/-- The text of a number. -/
def text (n : Nat) : String := String.ofList (digits n)

/-- The text of a whole number. -/
def intText (n : Int) : String := (if n < 0 then "-" else "") ++ text n.natAbs

end VideoExport.Number
