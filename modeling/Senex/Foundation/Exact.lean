import Senex.Foundation.Nearest

/-! # Exact numbers with decimal roundings

The instance of `PyFloat` for laws that hold up to the roundings that the code
declares: every operation is exact and `round(x, digits)` is the decimal one.
-/

namespace Senex

def Exact : Type := ℚ

namespace Exact

instance : Field Exact := inferInstanceAs (Field ℚ)

instance : LinearOrder Exact := inferInstanceAs (LinearOrder ℚ)

instance : IsStrictOrderedRing Exact := inferInstanceAs (IsStrictOrderedRing ℚ)

instance : PyFloat Exact where
  toAdd := inferInstance
  toSub := inferInstance
  toMul := inferInstance
  toDiv := inferInstance
  toNeg := inferInstance
  lit q := q
  ofDouble x := x.value
  lt a b := decide (a < b)
  le a b := decide (a ≤ b)
  round := roundTo
  fixed digits x := fixedText digits (decide (x < 0)) |x|
  not_mem_fixed digits x := not_mem_fixedText (by decide) (by decide) (by decide) _ _ _

open PyFloat

@[simp] theorem lit_zero : (lit 0 : Exact) = 0 := rfl

@[simp] theorem lit_one : (lit 1 : Exact) = 1 := rfl

@[simp] theorem lt_exact (a b : Exact) : lt a b = decide (a < b) := rfl

@[simp] theorem le_exact (a b : Exact) : le a b = decide (a ≤ b) := rfl

theorem maximum_exact (a b : Exact) : maximum a b = max a b := maximum_rat a b

theorem minimum_exact (a b : Exact) : minimum a b = min a b := minimum_rat a b

/-! ## Decimal roundings -/

theorem round_mono (digits : Nat) {a b : Exact} (le : a ≤ b) : PyFloat.round digits a ≤ PyFloat.round digits b := by
  have power : (0 : ℚ) < 10 ^ digits := by positivity
  have units := Double.halfEven_mono (mul_le_mul_of_nonneg_right (show (a : ℚ) ≤ b from le) power.le)
  exact div_le_div_of_nonneg_right (show (_ : ℚ) ≤ _ by exact_mod_cast units) power.le

theorem round_nonneg (digits : Nat) {a : Exact} (nonneg : 0 ≤ a) : 0 ≤ PyFloat.round digits a :=
  Double.roundTo_nonneg digits nonneg

/-- A rounding is at most half a unit too high. -/
theorem round_le (digits : Nat) (a : Exact) : PyFloat.round digits a ≤ a + 1 / 2 / 10 ^ digits := by
  have bound (q : ℚ) : roundTo digits q ≤ q + 1 / 2 / 10 ^ digits := by
    linarith [(abs_le.mp (Double.abs_roundTo_sub_le digits q)).2]
  exact bound a

end Exact

end Senex
