import VideoExport.Number.Dyadic

/-!
# Quantities

Times and sizes are reckoned in floating-point numbers. The rules for them are
stated over any type of *quantities*, so that they can also be read over exact
numbers, where no step is rounded.

* `Quantity`: what the rules need of a number type;
* the instance for `Float` is the one that runs.
-/

namespace VideoExport.Number

/-- A type of numbers with what the rules for times and sizes need. -/
class Quantity (α : Type) extends Add α, Sub α, Mul α, Div α, LT α, LE α where
  /-- Comparison is decidable. -/
  decLt : ∀ a b : α, Decidable (a < b)
  /-- Comparison is decidable. -/
  decLe : ∀ a b : α, Decidable (a ≤ b)
  /-- The number nearest to a decimal. -/
  ofDecimal : Decimal → α
  /-- Whether a number is finite. -/
  isFinite : α → Bool
  /-- The nearest whole number, halves up, from zero to a limit. -/
  nearest : (limit : Nat) → α → Nat

namespace Quantity

variable {α : Type} [Quantity α]

instance (a b : α) : Decidable (a < b) := decLt a b

instance (a b : α) : Decidable (a ≤ b) := decLe a b

/-- A natural number as a quantity. -/
def ofNat (n : Nat) : α := ofDecimal ⟨false, n, 0⟩

/-- The larger of two numbers, the first one of equals. -/
def larger (a b : α) : α := if a < b then b else a

/-- The smaller of two numbers, the first one of equals. -/
def smaller (a b : α) : α := if b < a then b else a

/-- A number moved into a range. -/
def clamp (low high a : α) : α := if a < low then low else if high < a then high else a

end Quantity

/-- Quantities as they are reckoned: every step rounds. -/
instance : Quantity Float where
  decLt a b := inferInstanceAs (Decidable (a < b))
  decLe a b := inferInstanceAs (Decidable (a ≤ b))
  ofDecimal := Decimal.toFloat
  isFinite := Float.isFinite
  nearest := nearestWithin

end VideoExport.Number
