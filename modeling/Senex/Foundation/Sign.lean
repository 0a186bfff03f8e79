import Senex.Foundation.Nearest

/-! # Signs of binary64 numbers

What sums, differences and products keep of being positive and of being a
number, infinities and the undefined number included.
-/

namespace Senex.Double

/-- `0 < x` -/
def positive (x : Double) : Bool := lt (round 0) x

/-- `x <= 0` -/
def nonPositive (x : Double) : Bool := le x (round 0)

theorem positive_iff {x : Double} : x.positive = true ↔ x.isNan = false ∧ 0 < x.value := by
  simp [positive, lt, isNan_round]

theorem nonPositive_iff {x : Double} : x.nonPositive = true ↔ x.isNan = false ∧ x.value ≤ 0 := by
  simp [nonPositive, le, isNan_round]

/-- A number is positive, or not, or undefined. -/
theorem positive_or_nan {x : Double} (more : x.nonPositive = false) : x.positive = true ∨ x = .nan := by
  cases x with
  | nan => exact .inr rfl
  | infinity negative | finite negative m e canonical =>
      left
      apply positive_iff.mpr
      refine ⟨rfl, ?_⟩
      by_contra low
      have none := nonPositive_iff.mpr ⟨rfl, not_lt.mp low⟩
      rw [none] at more
      cases more

theorem nonPositive_of_positive {x : Double} (some : x.positive = true) : x.nonPositive = false := by
  cases none : x.nonPositive with
  | false => rfl
  | true => exact absurd (positive_iff.mp some).2 (not_lt.mpr (nonPositive_iff.mp none).2)

@[simp] theorem positive_nan : positive nan = false := rfl

@[simp] theorem nonPositive_nan : nonPositive nan = false := rfl

/-- A finite number is the rounding of its value. -/
theorem value_round_value {x : Double} (finite : x.isFinite = true) : (round x.value).value = x.value := by
  cases x with
  | nan | infinity => cases finite
  | finite negative m e canonical =>
      have magnitude : (0 : ℚ) ≤ m * 2 ^ e := by positivity
      have exact := ofMagnitude_magnitude negative canonical
      cases negative with
      | false =>
          have shape : round (Double.finite false m e canonical).value = ofMagnitude false (m * 2 ^ e) := by
            simp [round, value, not_lt.mpr magnitude, abs_of_nonneg magnitude]
          rw [shape, exact]
      | true =>
          rcases magnitude.eq_or_lt with zero | more
          · have nothing : (Double.finite true m e canonical).value = 0 := by simp [value, ← zero]
            rw [nothing, value_round_zero]
          · have shape : round (Double.finite true m e canonical).value = ofMagnitude true (m * 2 ^ e) := by
              simp [round, value, more]
            rw [shape, exact]

theorem value_lt_of_finite {x : Double} (finite : x.isFinite = true) : x.value < 2 ^ 1024 := by
  cases x with
  | nan | infinity => cases finite
  | finite negative m e canonical =>
      calc _ ≤ |(Double.finite negative m e canonical).value| := le_abs_self _
        _ = m * 2 ^ e := abs_value rfl
        _ ≤ 2 ^ 1024 - 2 ^ 971 := magnitude_le canonical
        _ < 2 ^ 1024 := sub_lt_self _ (by positivity)

/-! ## The undefined number -/

@[simp] theorem nan_add (x : Double) : nan + x = nan := rfl

@[simp] theorem nan_mul (x : Double) : nan * x = nan := rfl

@[simp] theorem nan_div (x : Double) : nan / x = nan := rfl

@[simp] theorem add_nan (x : Double) : x + nan = nan := by cases x <;> rfl

@[simp] theorem mul_nan (x : Double) : x * nan = nan := by cases x <;> rfl

@[simp] theorem sub_nan (x : Double) : x - nan = nan := by cases x <;> rfl

/-! ## Sums -/

theorem add_positive {a b : Double} (left : a.positive = true) (right : b.positive = true) :
    (a + b).positive = true := by
  obtain ⟨-, above⟩ := positive_iff.mp left
  obtain ⟨-, above'⟩ := positive_iff.mp right
  cases a with
  | nan => cases left
  | infinity negative =>
      cases negative with
      | true => exact absurd above (by norm_num [value])
      | false =>
          cases b with
          | nan => cases right
          | infinity negative' =>
              cases negative' with
              | true => exact absurd above' (by norm_num [value])
              | false => exact left
          | finite => exact left
  | finite s m e canonical =>
      cases b with
      | nan => cases right
      | infinity negative =>
          cases negative with
          | true => exact absurd above' (by norm_num [value])
          | false => exact right
      | finite t n k canonical' =>
          apply positive_iff.mpr
          refine ⟨isNan_add rfl rfl, ?_⟩
          rw [(add_eq_round rfl rfl).1]
          calc (0 : ℚ) < (Double.finite s m e canonical).value := above
            _ = (round (Double.finite s m e canonical).value).value := (value_round_value rfl).symm
            _ ≤ _ := value_round_mono (by linarith)

/-- Nothing and a quantity. -/
theorem zero_add_positive {x : Double} (some : x.positive = true) : (round 0 + x).positive = true := by
  obtain ⟨-, above⟩ := positive_iff.mp some
  cases x with
  | nan => cases some
  | infinity negative => exact some
  | finite negative m e canonical =>
      have zero : (round 0).isFinite = true := rfl
      apply positive_iff.mpr
      refine ⟨isNan_add zero rfl, ?_⟩
      rw [(add_eq_round zero rfl).1, value_round_zero, zero_add, value_round_value rfl]
      exact above

/-! ## Differences -/

theorem sub_zero (x : Double) : x - round 0 = x := by
  cases x with
  | nan => rfl
  | infinity negative => rfl
  | finite negative m e canonical => exact sub_zero_eq rfl

/-- What is left of a finite number has a bound. -/
theorem sub_bounded {a b : Double} (left : a.isFinite = true) (some : b.positive = true) :
    a - b = .infinity true ∨ (a - b).isFinite = true ∨ (a - b).positive = false := by
  cases b with
  | nan => cases some
  | infinity negative =>
      cases a with
      | nan | infinity => cases left
      | finite s m e canonical =>
          cases negative with
          | false => exact .inl rfl
          | true => exact absurd (positive_iff.mp some).2 (by norm_num [value])
  | finite t n k canonical' =>
      have opposite : (-Double.finite t n k canonical').isFinite = true := rfl
      have below : (a - Double.finite t n k canonical').value ≤ a.value := by
        show (a + -Double.finite t n k canonical').value ≤ a.value
        rw [(add_eq_round left opposite).1, value_neg]
        calc _ ≤ (round a.value).value := value_round_mono (by linarith [(positive_iff.mp some).2])
          _ = a.value := value_round_value left
      right
      cases difference : (a - Double.finite t n k canonical').positive with
      | false => exact .inr rfl
      | true =>
          left
          obtain ⟨number, above⟩ := positive_iff.mp difference
          apply finite_of_value number
          · have top : (0 : ℚ) < 2 ^ 1024 := by positivity
            exact (neg_neg_of_pos top).trans above
          · exact below.trans_lt (value_lt_of_finite left)

/-! ## Products -/

theorem mul_number {a b : Double} (finite : a.isFinite = true) (some : a.positive = true)
    (number : b.isNan = false) : (a * b).isNan = false := by
  cases a with
  | nan | infinity => cases finite
  | finite s m e canonical =>
      cases b with
      | nan => cases number
      | finite t n k canonical' => exact isNan_ofMagnitude _ _
      | infinity t =>
          have magnitude : (Double.finite s m e canonical).magnitude ≠ 0 := by
            intro zero
            rw [← abs_value rfl, abs_eq_zero] at zero
            exact (positive_iff.mp some).2.ne' zero
          show (if (Double.finite s m e canonical).magnitude = 0 then nan
            else infinity (xor s t)).isNan = false
          rw [if_neg magnitude]
          rfl

/-- A part of infinitely much is infinite, if it is something. -/
theorem infinity_mul_positive {x : Double} (some : (infinity false * x).positive = true) :
    infinity false * x = infinity false := by
  cases x with
  | nan => cases some
  | infinity negative =>
      cases negative with
      | false => rfl
      | true =>
          change (infinity true).positive = true at some
          exact absurd (positive_iff.mp some).2 (by norm_num [value])
  | finite t n k canonical =>
      have shape : infinity false * Double.finite t n k canonical =
          if (Double.finite t n k canonical).magnitude = 0 then nan else infinity (xor false t) := rfl
      rw [shape] at some ⊢
      split at some
      · cases some
      · rename_i nonzero
        rw [if_neg nonzero]
        cases t with
        | false => rfl
        | true => exact absurd (positive_iff.mp some).2 (by norm_num [value])

/-! ## Bounds -/

open PyFloat

theorem maximum_zero (x : Double) : maximum (lit 0) x = if x.positive then x else round 0 := rfl

theorem positive_maximum_zero (x : Double) : (maximum (lit 0) x).positive = x.positive := by
  rw [maximum_zero]
  cases some : x.positive with
  | true => exact some
  | false => exact lt_self (round 0)

theorem isNan_maximum_zero (x : Double) : (maximum (lit 0) x).isNan = false := by
  rw [maximum_zero]
  cases some : x.positive with
  | true => exact (positive_iff.mp some).1
  | false => rfl

theorem isNan_minimum_one (x : Double) : (PyFloat.minimum (lit 1) x).isNan = false := by
  unfold PyFloat.minimum
  split
  · rename_i less
    change lt x (round 1) = true at less
    cases x with
    | nan => cases less
    | infinity | finite => rfl
  · exact isNan_round 1

theorem nonPositive_maximum_zero (x : Double) : (maximum (lit 0) x).nonPositive = !x.positive := by
  rw [maximum_zero]
  cases some : x.positive with
  | true => exact nonPositive_of_positive some
  | false => exact nonPositive_iff.mpr ⟨rfl, value_round_zero.le⟩

/-- What is more than a billionth is positive. -/
theorem positive_of_more {x : Double} (number : x.isNan = false)
    (more : PyFloat.le x (lit (1 / 1000000000)) = false) : x.positive = true := by
  apply positive_iff.mpr
  refine ⟨number, ?_⟩
  have least : 0 ≤ (round (1 / 1000000000)).value := by
    rw [← value_round_zero]
    exact value_round_mono (by norm_num)
  change le x (round (1 / 1000000000)) = false at more
  simp only [le, number, isNan_round, Bool.not_false, Bool.true_and, decide_eq_false_iff_not, not_le] at more
  exact least.trans_lt more

end Senex.Double
