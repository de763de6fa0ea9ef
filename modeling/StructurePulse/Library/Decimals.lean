import StructurePulse.Library.Rounding
import Mathlib.Data.Int.Log

/-!
# Arithmetic that rounds its results

A `Decimal` computes with rationals and hands every result to its `context`. The same
formula is exact arithmetic under `id` and decimal arithmetic of a fixed precision under
`significant`.
-/

namespace Library
set_option autoImplicit false

/-- `x` with so many significant digits, ties to the even neighbour. -/
def significant (digits : ℕ) (x : ℚ) : ℚ :=
  let places := (digits : ℤ) - 1 - Int.log 10 |x|
  toEven (x * 10 ^ places) / 10 ^ places

/-- The default precision of Python's `decimal`. -/
def defaultContext : ℚ → ℚ := significant 28

structure Decimal (context : ℚ → ℚ) where
  value : ℚ
  deriving DecidableEq

namespace Decimal
variable {context : ℚ → ℚ}

instance : Coe ℚ (Decimal context) := ⟨mk⟩
instance (n : ℕ) : OfNat (Decimal context) n := ⟨⟨n⟩⟩
instance : Neg (Decimal context) := ⟨fun a => ⟨context (-a.value)⟩⟩
instance : Add (Decimal context) := ⟨fun a b => ⟨context (a.value + b.value)⟩⟩
instance : Sub (Decimal context) := ⟨fun a b => ⟨context (a.value - b.value)⟩⟩
instance : Mul (Decimal context) := ⟨fun a b => ⟨context (a.value * b.value)⟩⟩
instance : Div (Decimal context) := ⟨fun a b => ⟨context (a.value / b.value)⟩⟩

@[simp] theorem value_add (a b : Decimal context) :
    (a + b).value = context (a.value + b.value) := rfl

@[simp] theorem value_div (a b : Decimal context) :
    (a / b).value = context (a.value / b.value) := rfl

end Decimal

end Library
