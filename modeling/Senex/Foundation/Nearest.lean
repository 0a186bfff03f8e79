import Mathlib.Tactic.Linarith
import Senex.Foundation.Float

/-! # Nearest numbers

Rounding goes to a nearest number, so what lies close to a float is rounded to
one as close.  Sums of floats and `round(x, digits)` are bounded through it.
-/

namespace Senex.Double

/-- No integer is nearer. -/
theorem halfEven_nearest (q : ℚ) (k : Int) : |(halfEven q : ℚ) - q| ≤ |(k : ℚ) - q| := by
  have floor_le := Int.floor_le q
  have lt_floor := Int.lt_floor_add_one q
  have sides : (k : ℚ) ≤ ⌊q⌋ ∨ ((⌊q⌋ : ℚ) + 1) ≤ k := by
    rcases lt_or_ge ⌊q⌋ k with above | below
    · right
      exact_mod_cast above
    · left
      exact_mod_cast below
  have apart : min (q - ⌊q⌋) (⌊q⌋ + 1 - q) ≤ |(k : ℚ) - q| := by
    rcases sides with below | above
    · apply (min_le_left _ _).trans
      rw [abs_of_nonpos (by linarith)]
      linarith
    · apply (min_le_right _ _).trans
      rw [abs_of_nonneg (by linarith)]
      linarith
  refine le_trans ?_ apart
  simp only [halfEven]
  split_ifs with low high
  · rw [abs_of_nonpos (by linarith), le_min_iff]
    constructor <;> linarith
  · push_cast
    rw [abs_of_nonneg (by linarith), le_min_iff]
    constructor <;> linarith
  · have middle : q - ⌊q⌋ = 1 / 2 := le_antisymm (not_lt.mp high) (not_lt.mp low)
    have parity : ⌊q⌋ % 2 = 0 ∨ ⌊q⌋ % 2 = 1 := by omega
    rcases parity with even | odd
    · rw [even, add_zero, abs_of_nonpos (by linarith), le_min_iff]
      constructor <;> linarith
    · rw [odd]
      push_cast
      rw [abs_of_nonneg (by linarith), le_min_iff]
      constructor <;> linarith

theorem abs_halfEven_sub_le (q : ℚ) : |(halfEven q : ℚ) - q| ≤ 1 / 2 := by
  rcases le_total (q - ⌊q⌋) (1 / 2) with near | far
  · apply (halfEven_nearest q ⌊q⌋).trans
    rw [abs_of_nonpos (by linarith [Int.floor_le q])]
    linarith
  · apply (halfEven_nearest q (⌊q⌋ + 1)).trans
    push_cast
    rw [abs_of_nonneg (by linarith [Int.lt_floor_add_one q])]
    linarith

/-- No number is nearer to a magnitude than what it is rounded to. -/
theorem rounded_nearest {q : ℚ} (positive : 0 < q) {m : Nat} {e : Int} (canonical : Canonical m e) :
    |rounded q - q| ≤ |(m : ℚ) * 2 ^ e - q| := by
  obtain ⟨-, -, high⟩ := scale_bounds positive
  have power : (0 : ℚ) < 2 ^ scale q := by positivity
  have multiple (k : Int) : |rounded q - q| ≤ |(k : ℚ) * 2 ^ scale q - q| := by
    have near := mul_le_mul_of_nonneg_right (halfEven_nearest (q / 2 ^ scale q) k) power.le
    have scaled (r : ℚ) : |r - q / 2 ^ scale q| * 2 ^ scale q = |r * 2 ^ scale q - q| := by
      rw [← abs_of_pos power, ← abs_mul, abs_of_pos power, sub_mul, div_mul_cancel₀ _ power.ne']
    rw [scaled, scaled] at near
    exact near
  by_cases coarse : scale q ≤ e
  · have shape : (m : ℚ) * 2 ^ e = ((m * 2 ^ (e - scale q).toNat : Nat) : Int) * 2 ^ scale q := by
      have split : e = ((e - scale q).toNat : Int) + scale q := by omega
      rw [split, zpow_add₀ (by norm_num), zpow_natCast, ← split]
      push_cast
      ring
    rw [shape]
    exact multiple _
  · have least : (2 : ℚ) ^ 52 ≤ q / 2 ^ scale q := by
      apply high.resolve_left
      have := canonical.2.1
      omega
    have below : (m : ℚ) * 2 ^ e ≤ 2 ^ 52 * 2 ^ scale q := by
      have m_le : (m : ℚ) ≤ 2 ^ 53 := by exact_mod_cast canonical.1.le
      calc (m : ℚ) * 2 ^ e ≤ 2 ^ 53 * 2 ^ e := mul_le_mul_of_nonneg_right m_le (by positivity)
        _ = 2 ^ 52 * 2 ^ (e + 1) := by
            rw [zpow_add₀ (by norm_num)]
            ring
        _ ≤ 2 ^ 52 * 2 ^ scale q := by
            apply mul_le_mul_of_nonneg_left _ (by positivity)
            exact zpow_le_zpow_right₀ (by norm_num) (by omega)
    have under : (2 : ℚ) ^ 52 * 2 ^ scale q ≤ q := by
      rw [le_div_iff₀ power] at least
      exact least
    have near := multiple (2 ^ 52)
    rw [Int.cast_pow, Int.cast_ofNat] at near
    rw [abs_of_nonpos (by linarith : (2 : ℚ) ^ 52 * 2 ^ scale q - q ≤ 0)] at near
    rw [abs_of_nonpos (by linarith : (m : ℚ) * 2 ^ e - q ≤ 0)]
    linarith

/-! ## Finite numbers -/

theorem isNan_eq_false {x : Double} (finite : x.isFinite = true) : x.isNan = false := by
  cases x with
  | nan | infinity => cases finite
  | finite => rfl

theorem isNan_ofMagnitude (negative : Bool) (q : ℚ) : (ofMagnitude negative q).isNan = false := by
  rcases isFinite_or_infinity negative q with finite | infinite
  · exact isNan_eq_false finite
  · rw [infinite]
    rfl

theorem isNan_round (q : ℚ) : (round q).isNan = false := isNan_ofMagnitude _ _

/-- A sum of finite numbers is a number. -/
theorem isNan_add {a b : Double} (left : a.isFinite = true) (right : b.isFinite = true) : (a + b).isNan = false := by
  cases a with
  | nan | infinity => cases left
  | finite s m e canonical =>
      cases b with
      | nan | infinity => cases right
      | finite t n k canonical' => exact isNan_ofMagnitude _ _

theorem lt_iff {a b : Double} (left : a.isFinite = true) (right : b.isFinite = true) :
    lt a b = true ↔ a.value < b.value := by
  simp [lt, isNan_eq_false left, isNan_eq_false right]

theorem lt_self (x : Double) : lt x x = false := by simp [lt]

/-- The least of finite numbers. -/
theorem value_minimum_le {first : Double} {rest : List Double} (finite : ∀ x ∈ first :: rest, x.isFinite = true)
    {x : Double} (member : x ∈ first :: rest) : (minimum first rest).value ≤ x.value := by
  unfold minimum
  induction rest generalizing first x with
  | nil => exact (congrArg value (List.mem_singleton.mp member)).ge
  | cons y rest ih =>
      obtain ⟨one, two, others⟩ : first.isFinite = true ∧ y.isFinite = true ∧ ∀ z ∈ rest, z.isFinite = true := by
        simpa using finite
      rw [List.foldl_cons]
      split
      · rename_i less
        have below := (lt_iff two one).mp less
        have bound {z : Double} (inside : z ∈ y :: rest) := ih (List.forall_mem_cons.mpr ⟨two, others⟩) inside
        rcases List.mem_cons.mp member with rfl | later
        · exact (bound (.head _)).trans below.le
        · exact bound later
      · rename_i notLess
        have above : first.value ≤ y.value := not_lt.mp fun less => notLess ((lt_iff two one).mpr less)
        have bound {z : Double} (inside : z ∈ first :: rest) := ih (List.forall_mem_cons.mpr ⟨one, others⟩) inside
        rcases List.mem_cons.mp member with rfl | later
        · exact bound (.head _)
        · rcases List.mem_cons.mp later with rfl | last
          · exact (bound (.head _)).trans above
          · exact bound (.tail _ last)

theorem le_iff {a b : Double} (left : a.isFinite = true) (right : b.isFinite = true) :
    le a b = true ↔ a.value ≤ b.value := by
  simp [le, isNan_eq_false left, isNan_eq_false right]

/-! ## Rounding next to a float -/

theorem abs_value {y : Double} (finite : y.isFinite = true) : |y.value| = y.magnitude := by
  cases y with
  | nan | infinity => cases finite
  | finite negative m e canonical =>
      have nonneg : (0 : ℚ) ≤ m * 2 ^ e := by positivity
      cases negative
      · simp [value, magnitude, abs_of_nonneg nonneg]
      · simp [value, magnitude, abs_of_nonneg nonneg]

theorem magnitude_le {m : Nat} {e : Int} (canonical : Canonical m e) :
    (m : ℚ) * 2 ^ e ≤ 2 ^ 1024 - 2 ^ 971 := by
  obtain ⟨below, -, most, -⟩ := canonical
  have m_le : (m : ℚ) ≤ 2 ^ 53 - 1 := by
    have : m + 1 ≤ 2 ^ 53 := below
    have cast : (m : ℚ) + 1 ≤ 2 ^ 53 := by exact_mod_cast this
    linarith
  calc (m : ℚ) * 2 ^ e ≤ (2 ^ 53 - 1) * 2 ^ (971 : Int) := by
        apply mul_le_mul m_le (zpow_le_zpow_right₀ (by norm_num) most) (by positivity)
        norm_num
    _ = 2 ^ 1024 - 2 ^ 971 := by
        rw [zpow_ofNat, sub_mul, ← pow_add]
        norm_num

theorem value_zero : (ofMagnitude false 0).value = 0 := by simp [ofMagnitude, value]

@[simp] theorem value_round_zero : (round 0).value = 0 := by simp [round, value_zero]

/-- The finite case of `value_ofMagnitude`. -/
theorem finite_of_rounded {q : ℚ} (positive : 0 < q) (small : rounded q < 2 ^ 1024) (negative : Bool) :
    (ofMagnitude negative q).isFinite = true ∧ (ofMagnitude false q).value = rounded q := by
  have exact : (ofMagnitude false q).value = rounded q := by
    rw [value_ofMagnitude positive, min_eq_left small.le]
  refine ⟨?_, exact⟩
  rcases isFinite_or_infinity negative q with finite | infinite
  · exact finite
  · exfalso
    have other : (ofMagnitude true q).value = -(ofMagnitude false q).value := value_ofMagnitude_true q
    cases negative with
    | false =>
        rw [infinite] at exact
        rw [← exact] at small
        simp [value] at small
    | true =>
        rw [infinite, exact] at other
        simp only [value, if_true, neg_inj] at other
        rw [← other] at small
        exact lt_irrefl _ small

/-- What lies close to a float is rounded to a float as close. -/
theorem round_near {q δ : ℚ} {y : Double} (finite : y.isFinite = true) (near : |y.value - q| ≤ δ)
    (small : δ ≤ 1) : (round q).isFinite = true ∧ |(round q).value - q| ≤ δ := by
  have nonneg : 0 ≤ δ := (abs_nonneg _).trans near
  rcases eq_or_ne q 0 with rfl | nonzero
  · refine ⟨rfl, ?_⟩
    simpa [round, value_zero] using nonneg
  · have positive : 0 < |q| := abs_pos.mpr nonzero
    have close : |y.magnitude - abs q| ≤ δ := by
      rw [← abs_value finite]
      exact (abs_abs_sub_abs_le _ _).trans near
    obtain ⟨rounded_near, below⟩ : |rounded |q| - abs q| ≤ δ ∧ rounded |q| < 2 ^ 1024 := by
      cases y with
      | nan | infinity => cases finite
      | finite negative m e canonical =>
          have best := (rounded_nearest positive canonical).trans close
          refine ⟨best, ?_⟩
          have most := magnitude_le canonical
          simp only [magnitude] at close
          have gap : (2 : ℚ) ^ 1 < 2 ^ 971 := pow_lt_pow_right₀ (by norm_num) (by norm_num)
          have above := (abs_le.mp best).2
          have under := (abs_le.mp close).1
          generalize (2 : ℚ) ^ 1024 = top at most ⊢
          generalize (2 : ℚ) ^ 971 = unit at most gap
          linarith
    obtain ⟨isFinite, exact⟩ := finite_of_rounded positive below (decide (q < 0))
    refine ⟨isFinite, ?_⟩
    unfold round
    by_cases negative : q < 0
    · have abs_q : |q| = -q := abs_of_neg negative
      simp only [negative, decide_true, value_ofMagnitude_true, exact]
      rw [abs_q] at rounded_near ⊢
      rw [← abs_neg]
      convert rounded_near using 2
      ring
    · have abs_q : |q| = q := abs_of_nonneg (not_lt.mp negative)
      simp only [negative, decide_false, exact]
      rw [abs_q] at rounded_near ⊢
      exact rounded_near

/-- The value of a finite sum is that of the rounded exact sum. -/
theorem add_eq_round {a b : Double} (left : a.isFinite = true) (right : b.isFinite = true) :
    (a + b).value = (round (a.value + b.value)).value ∧
      (a + b).isFinite = (round (a.value + b.value)).isFinite := by
  have shape : a + b = ofMagnitude (if a.value + b.value = 0 then a.isNegative && b.isNegative
      else decide (a.value + b.value < 0)) |a.value + b.value| := by
    cases a with
    | nan | infinity => cases left
    | finite s m e canonical =>
        cases b with
        | nan | infinity => cases right
        | finite t n k canonical' => rfl
  rw [shape]
  by_cases zero : a.value + b.value = 0
  · rw [if_pos zero, zero, abs_zero]
    constructor
    · cases (a.isNegative && b.isNegative)
      · simp [round, value_zero]
      · simp [round, value_zero, value_ofMagnitude_true]
    · cases (a.isNegative && b.isNegative) <;> rfl
  · rw [if_neg zero]
    exact ⟨rfl, rfl⟩

/-- A sum close to a float is finite and as close to it. -/
theorem add_near {a b y : Double} {δ : ℚ} (left : a.isFinite = true) (right : b.isFinite = true)
    (finite : y.isFinite = true) (near : |y.value - (a.value + b.value)| ≤ δ) (small : δ ≤ 1) :
    (a + b).isFinite = true ∧ |(a + b).value - (a.value + b.value)| ≤ δ := by
  obtain ⟨value_eq, finite_eq⟩ := add_eq_round left right
  rw [value_eq, finite_eq]
  exact round_near finite near small

theorem value_neg (a : Double) : (-a).value = -a.value := by
  show (neg a).value = -a.value
  cases a with
  | nan => simp [neg, value]
  | infinity negative => cases negative <;> simp [neg, value]
  | finite negative m e canonical => cases negative <;> simp [neg, value]

theorem isFinite_neg (a : Double) : (-a).isFinite = a.isFinite := by
  show (neg a).isFinite = a.isFinite
  cases a <;> rfl

theorem absolute_value {x : Double} (finite : x.isFinite = true) :
    (PyFloat.absolute x).isFinite = true ∧ (PyFloat.absolute x).value = |x.value| := by
  have zero : (PyFloat.lit 0 : Double).isFinite = true ∧ (PyFloat.lit 0 : Double).value = 0 :=
    ⟨rfl, value_round_zero⟩
  have less_iff := lt_iff finite zero.1
  rw [zero.2] at less_iff
  have shape : PyFloat.absolute x = if lt x (PyFloat.lit 0) then -x else x := rfl
  rw [shape]
  split
  · rename_i less
    rw [isFinite_neg, value_neg, abs_of_neg (less_iff.mp less)]
    exact ⟨finite, rfl⟩
  · rename_i notLess
    rw [abs_of_nonneg (not_lt.mp fun less => notLess (less_iff.mpr less))]
    exact ⟨finite, rfl⟩

theorem sub_near {a b y : Double} {δ : ℚ} (left : a.isFinite = true) (right : b.isFinite = true)
    (finite : y.isFinite = true) (near : |y.value - (a.value - b.value)| ≤ δ) (small : δ ≤ 1) :
    (a - b).isFinite = true ∧ |(a - b).value - (a.value - b.value)| ≤ δ := by
  have added := @add_near a (-b) y δ left (by rw [isFinite_neg]; exact right) finite
  rw [value_neg, ← sub_eq_add_neg] at added
  exact added near small

/-- Taking zero away changes nothing, not even the sign of a zero. -/
theorem sub_zero_eq {x : Double} (isFinite : x.isFinite = true) : x - round 0 = x := by
  cases x with
  | nan | infinity => cases isFinite
  | finite negative m e canonical =>
      have power : (0 : ℚ) < 2 ^ e := by positivity
      have zero : (neg (round 0)).value = 0 ∧ (neg (round 0)).isNegative = true :=
        ⟨(value_neg (round 0)).trans (by rw [value_round_zero, neg_zero]), rfl⟩
      have shape : Double.finite negative m e canonical - round 0 =
          ofMagnitude (if (Double.finite negative m e canonical).value + (neg (round 0)).value = 0 then
            negative && (neg (round 0)).isNegative
            else decide ((Double.finite negative m e canonical).value + (neg (round 0)).value < 0))
            |(Double.finite negative m e canonical).value + (neg (round 0)).value| := rfl
      rw [shape, zero.1, zero.2, add_zero, Bool.and_true, abs_value rfl]
      rcases Nat.eq_zero_or_pos m with rfl | positive
      · have nothing : (Double.finite negative 0 e canonical).value = 0 := by cases negative <;> simp [value]
        rw [if_pos nothing]
        exact ofMagnitude_magnitude negative canonical
      · have magnitude_pos : (0 : ℚ) < m * 2 ^ e := by positivity
        have something : (Double.finite negative m e canonical).value ≠ 0 := by
          cases negative
          · exact magnitude_pos.ne'
          · exact (neg_neg_of_pos magnitude_pos).ne
        have sign : decide ((Double.finite negative m e canonical).value < 0) = negative := by
          cases negative
          · exact decide_eq_false (not_lt.mpr magnitude_pos.le)
          · exact decide_eq_true (neg_neg_of_pos magnitude_pos)
        rw [if_neg something, sign]
        exact ofMagnitude_magnitude negative canonical

/-! ## `round(x, digits)` -/

theorem abs_roundTo_sub_le (digits : Nat) (x : ℚ) : |roundTo digits x - x| ≤ 1 / 2 / 10 ^ digits := by
  have power : (0 : ℚ) < 10 ^ digits := by positivity
  have scaled : roundTo digits x - x = (halfEven (x * 10 ^ digits) - x * 10 ^ digits) / 10 ^ digits := by
    rw [roundTo, sub_div, mul_div_cancel_right₀ _ power.ne']
  rw [scaled, abs_div, abs_of_pos power]
  exact div_le_div_of_nonneg_right (abs_halfEven_sub_le _) power.le

theorem roundTo_nonneg (digits : Nat) {x : ℚ} (nonneg : 0 ≤ x) : 0 ≤ roundTo digits x := by
  have mono := halfEven_mono (mul_nonneg nonneg (by positivity : (0 : ℚ) ≤ 10 ^ digits))
  have zero := halfEven_natCast 0
  push_cast at zero
  rw [zero] at mono
  apply div_nonneg _ (by positivity)
  exact_mod_cast mono

theorem isFinite_ofMagnitude (negative : Bool) (q : ℚ) :
    (ofMagnitude negative q).isFinite = (ofMagnitude false q).isFinite := by
  simp only [ofMagnitude]
  split_ifs <;> rfl

theorem isFinite_round {q : ℚ} {n : Nat} (small : n < 2 ^ 53) (bound : |q| ≤ n) : (round q).isFinite = true := by
  rw [round, isFinite_ofMagnitude]
  rcases isFinite_or_infinity false |q| with finite | infinite
  · exact finite
  · have mono := value_ofMagnitude_mono (abs_nonneg q) bound
    rw [infinite, value_natCast small] at mono
    have small' : (n : ℚ) < 2 ^ 1024 := by
      have below : (n : ℚ) < 2 ^ 53 := by exact_mod_cast small
      exact below.trans (pow_lt_pow_right₀ (by norm_num) (by norm_num))
    exact absurd mono (not_le.mpr small')

/-- Rounding keeps the sign, and rounds the magnitude. -/
theorem roundDigits_eq {x : Double} (finite : x.isFinite = true) (digits : Nat) :
    (roundDigits digits x).isFinite = (round (roundTo digits x.magnitude)).isFinite ∧
      (roundDigits digits x).value =
        if x.isNegative then -(round (roundTo digits x.magnitude)).value
        else (round (roundTo digits x.magnitude)).value := by
  have nonneg : 0 ≤ x.magnitude := by
    rw [← abs_value finite]
    exact abs_nonneg _
  have shape : round (roundTo digits x.magnitude) = ofMagnitude false (roundTo digits x.magnitude) := by
    have above := roundTo_nonneg digits nonneg
    rw [round, abs_of_nonneg above]
    simp [not_lt.mpr above]
  rw [shape]
  cases x with
  | nan | infinity => cases finite
  | finite negative m e canonical =>
      refine ⟨isFinite_ofMagnitude _ _, ?_⟩
      cases negative
      · rfl
      · exact value_ofMagnitude_true _

theorem value_eq {x : Double} (finite : x.isFinite = true) :
    x.value = if x.isNegative then -x.magnitude else x.magnitude := by
  cases x with
  | nan | infinity => cases finite
  | finite negative m e canonical => cases negative <;> rfl

/-- Above zero a value is that of one number. -/
theorem eq_of_value_eq {x y : Double} (finite : x.isFinite = true) (finite' : y.isFinite = true)
    (positive : 0 < x.value) (same : x.value = y.value) : x = y := by
  have unsignedOf {z : Double} (finite : z.isFinite = true) (positive : 0 < z.value) :
      z = ofMagnitude false z.value := by
    cases z with
    | nan | infinity => cases finite
    | finite negative m e canonical =>
        cases negative with
        | false => exact (ofMagnitude_magnitude false canonical).symm
        | true =>
            have nonneg : (0 : ℚ) ≤ m * 2 ^ e := by positivity
            simp only [value, if_true] at positive
            linarith
  rw [unsignedOf finite positive, unsignedOf finite' (same ▸ positive), same]

/-- A finite number without its sign. -/
def unsigned : Double → Double
  | .finite _ m e canonical => .finite false m e canonical
  | x => x

theorem unsigned_finite {x : Double} (finite : x.isFinite = true) :
    x.unsigned.isFinite = true ∧ x.unsigned.value = x.magnitude := by
  cases x with
  | nan | infinity => cases finite
  | finite negative m e canonical => exact ⟨rfl, rfl⟩

/-- A finite number is rounded to a finite one nearby. -/
theorem roundDigits_near {x : Double} (finite : x.isFinite = true) (digits : Nat) :
    (roundDigits digits x).isFinite = true ∧
      |(roundDigits digits x).value - x.value| ≤ 1 / 10 ^ digits := by
  have power : (1 : ℚ) ≤ 10 ^ digits := one_le_pow₀ (by norm_num)
  have half : (1 : ℚ) / 2 / 10 ^ digits ≤ 1 := by
    rw [div_le_iff₀ (by positivity)]
    linarith
  have decimal := abs_roundTo_sub_le digits x.magnitude
  obtain ⟨unsignedFinite, unsignedValue⟩ := unsigned_finite finite
  have close : |x.unsigned.value - roundTo digits x.magnitude| ≤ 1 / 2 / 10 ^ digits := by
    rw [unsignedValue, abs_sub_comm]
    exact decimal
  obtain ⟨roundFinite, roundNear⟩ := round_near unsignedFinite close half
  obtain ⟨finite_eq, value_eq'⟩ := roundDigits_eq finite digits
  refine ⟨finite_eq.trans roundFinite, ?_⟩
  have magnitudes : |(round (roundTo digits x.magnitude)).value - x.magnitude| ≤ 1 / 10 ^ digits := by
    calc |(round (roundTo digits x.magnitude)).value - x.magnitude|
        ≤ |(round (roundTo digits x.magnitude)).value - roundTo digits x.magnitude| +
          |roundTo digits x.magnitude - x.magnitude| := abs_sub_le _ _ _
      _ ≤ 1 / 2 / 10 ^ digits + 1 / 2 / 10 ^ digits := add_le_add roundNear decimal
      _ = 1 / 10 ^ digits := by ring
  rw [value_eq', value_eq finite]
  cases x.isNegative
  · exact magnitudes
  · simp only [if_true]
    rw [← abs_neg]
    convert magnitudes using 2
    ring

/-- What is rounded down to zero: at most half a unit. -/
theorem halfEven_pos_iff (q : ℚ) : 0 < halfEven q ↔ 1 / 2 < q := by
  constructor
  · intro positive
    by_contra small
    have mono := halfEven_mono (not_lt.mp small)
    have half : halfEven (1 / 2) = 0 := by norm_num [halfEven]
    omega
  · intro large
    have near := (abs_le.mp (abs_halfEven_sub_le q)).1
    have positive : (0 : ℚ) < halfEven q := by linarith
    exact_mod_cast positive

/-- A magnitude of some size is not rounded to zero. -/
theorem value_ofMagnitude_pos {q : ℚ} (large : 2 ^ (-1074 : Int) ≤ q) :
    0 < (ofMagnitude false q).value := by
  have least := ofMagnitude_magnitude false (by decide : Canonical 1 (-1074))
  rw [Nat.cast_one, one_mul] at least
  have mono := value_ofMagnitude_mono (by positivity) large
  rw [least] at mono
  refine lt_of_lt_of_le ?_ mono
  simp only [value, Bool.false_eq_true, if_false]
  positivity

theorem roundTo_round_pos_iff (digits : Nat) (few : digits ≤ 20) {x : ℚ} (nonneg : 0 ≤ x) :
    0 < (round (roundTo digits x)).value ↔ 1 / 2 / 10 ^ digits < x := by
  have power : (0 : ℚ) < 10 ^ digits := by positivity
  have above := roundTo_nonneg digits nonneg
  have shape : round (roundTo digits x) = ofMagnitude false (roundTo digits x) := by
    rw [round, abs_of_nonneg above]
    simp [not_lt.mpr above]
  have unit : 0 < halfEven (x * 10 ^ digits) ↔ 1 / 2 / 10 ^ digits < x := by
    rw [halfEven_pos_iff, div_lt_iff₀ power]
  rw [shape, ← unit]
  constructor
  · intro positive
    by_contra none
    have zero : roundTo digits x = 0 := by
      apply le_antisymm _ above
      apply div_nonpos_of_nonpos_of_nonneg _ power.le
      exact_mod_cast not_lt.mp none
    rw [zero, value_zero] at positive
    exact lt_irrefl _ positive
  · intro units
    apply value_ofMagnitude_pos
    have one : (1 : ℚ) ≤ halfEven (x * 10 ^ digits) := by exact_mod_cast units
    calc (2 : ℚ) ^ (-1074 : Int) ≤ 1 / 10 ^ 20 := by
          rw [zpow_neg, ← one_div]
          apply one_div_le_one_div_of_le (by positivity)
          calc (10 : ℚ) ^ 20 ≤ 2 ^ (100 : Int) := by norm_num
            _ ≤ 2 ^ (1074 : Int) := zpow_le_zpow_right₀ (by norm_num) (by norm_num)
      _ ≤ 1 / 10 ^ digits := by
          apply one_div_le_one_div_of_le power
          exact pow_le_pow_right₀ (by norm_num) few
      _ ≤ roundTo digits x := div_le_div_of_nonneg_right one power.le

/-- What a rounding leaves positive. -/
theorem roundDigits_pos_iff {x : Double} (finite : x.isFinite = true) {digits : Nat}
    (few : digits ≤ 20) : 0 < (roundDigits digits x).value ↔ 1 / 2 / 10 ^ digits < x.value := by
  have nonneg : 0 ≤ x.magnitude := by
    rw [← abs_value finite]
    exact abs_nonneg _
  have unit : (0 : ℚ) < 1 / 2 / 10 ^ digits := by positivity
  have iff := roundTo_round_pos_iff digits few nonneg
  have below : 0 ≤ (round (roundTo digits x.magnitude)).value := by
    have := value_round_mono (roundTo_nonneg digits nonneg)
    simpa [round, value_zero] using this
  rw [(roundDigits_eq finite digits).2, value_eq finite]
  cases x.isNegative
  · exact iff
  · simp only [if_true]
    constructor
    · intro positive
      linarith
    · intro large
      linarith

/-- What a rounding leaves negative. -/
theorem roundDigits_neg_iff {x : Double} (finite : x.isFinite = true) {digits : Nat}
    (few : digits ≤ 20) : (roundDigits digits x).value < 0 ↔ x.value < -(1 / 2 / 10 ^ digits) := by
  have nonneg : 0 ≤ x.magnitude := by
    rw [← abs_value finite]
    exact abs_nonneg _
  have unit : (0 : ℚ) < 1 / 2 / 10 ^ digits := by positivity
  have iff := roundTo_round_pos_iff digits few nonneg
  have below : 0 ≤ (round (roundTo digits x.magnitude)).value := by
    have := value_round_mono (roundTo_nonneg digits nonneg)
    simpa [round, value_zero] using this
  rw [(roundDigits_eq finite digits).2, value_eq finite]
  cases x.isNegative
  · simp only [Bool.false_eq_true, if_false]
    constructor
    · intro negative
      linarith
    · intro large
      linarith
  · simp only [if_true, neg_lt_zero, neg_lt_neg_iff]
    exact iff

/-! ## Where rounding passes a number -/

/-- An even integer is reached from half below it on. -/
theorem le_halfEven_iff {k : Int} (even : k % 2 = 0) (x : ℚ) : k ≤ halfEven x ↔ (k : ℚ) - 1 / 2 ≤ x := by
  constructor
  · intro le
    by_contra short
    have floor_le : ⌊x⌋ ≤ k - 1 := by
      have below : x < k := by linarith
      have := Int.floor_lt.mpr below
      omega
    rcases floor_le.lt_or_eq with less | same
    · have bound := (halfEven_bounds x).2
      omega
    · have value : (⌊x⌋ : ℚ) = k - 1 := by exact_mod_cast same
      have down : x - ⌊x⌋ < 1 / 2 := by linarith
      have eq : halfEven x = ⌊x⌋ := by simp only [halfEven, down, if_true]
      omega
  · intro reached
    have tie : halfEven ((k : ℚ) - 1 / 2) = k := by
      have floor_eq : ⌊(k : ℚ) - 1 / 2⌋ = k - 1 := by
        rw [Int.floor_eq_iff]
        push_cast
        constructor <;> linarith
      have half : (k : ℚ) - 1 / 2 - (k - 1 : Int) = 1 / 2 := by
        push_cast
        ring
      simp only [halfEven, floor_eq, half, lt_irrefl, if_false]
      omega
    rw [← tie]
    exact halfEven_mono reached

/-- Above half the way to a number the rounding has reached it. -/
theorem le_value_round {m : Nat} {e : Int} (canonical : Canonical m e) (inner : 2 ^ 52 < m) {q : ℚ}
    (above : ((m : ℚ) - 1 / 2) * 2 ^ e < q) : (m : ℚ) * 2 ^ e ≤ (round q).value := by
  have power : (0 : ℚ) < 2 ^ e := by positivity
  have exact : (round ((m : ℚ) * 2 ^ e)).value = m * 2 ^ e := by
    have shape := ofMagnitude_magnitude false canonical
    have nonneg : (0 : ℚ) ≤ m * 2 ^ e := by positivity
    rw [round, abs_of_nonneg nonneg, decide_eq_false (not_lt.mpr nonneg), shape]
    rfl
  rcases le_or_gt ((m : ℚ) * 2 ^ e) q with reached | below
  · calc (m : ℚ) * 2 ^ e = (round ((m : ℚ) * 2 ^ e)).value := exact.symm
      _ ≤ (round q).value := value_round_mono reached
  · have large : (2 : ℚ) ^ 52 + 1 ≤ m := by exact_mod_cast inner
    have small : (m : ℚ) < 2 ^ 53 := by exact_mod_cast canonical.1
    have low : (2 : ℚ) ^ (52 + e) ≤ q := by
      rw [zpow_add₀ (by norm_num)]
      refine le_trans ?_ above.le
      apply mul_le_mul_of_nonneg_right _ power.le
      have base : (2 : ℚ) ^ (52 : Int) = 4503599627370496 := by norm_num
      rw [base]
      linarith
    have high : q < (2 : ℚ) ^ (52 + e + 1) := by
      refine below.trans ?_
      rw [add_assoc, add_comm e 1, ← add_assoc, zpow_add₀ (by norm_num)]
      apply mul_lt_mul_of_pos_right _ power
      norm_num at small ⊢
      linarith
    have positive : 0 < q := lt_of_lt_of_le (by positivity) low
    have scale_eq : scale q = e := by
      have log_eq : Int.log 2 q = 52 + e := by
        apply le_antisymm
        · have := (Int.lt_zpow_iff_log_lt (b := 2) (by decide) positive).mp (by exact_mod_cast high)
          omega
        · exact (Int.zpow_le_iff_le_log (b := 2) (by decide) positive).mp (by exact_mod_cast low)
      rw [scale, log_eq]
      have least := canonical.2.1
      omega
    have reached : (m : Int) ≤ halfEven (q / 2 ^ e) := by
      have near := abs_le.mp (abs_halfEven_sub_le (q / 2 ^ e))
      have ratio : (m : ℚ) - 1 / 2 < q / 2 ^ e := by rwa [lt_div_iff₀ power]
      have cast : (m : ℚ) - 1 < halfEven (q / 2 ^ e) := by linarith [near.1]
      have int_cast : (m : Int) - 1 < halfEven (q / 2 ^ e) := by exact_mod_cast cast
      omega
    have reached_cast : (m : ℚ) ≤ halfEven (q / 2 ^ e) := by exact_mod_cast reached
    rw [round, abs_of_pos positive, decide_eq_false (not_lt.mpr positive.le), value_ofMagnitude positive]
    refine le_min ?_ ((magnitude_le canonical).trans (by norm_num))
    rw [rounded, scale_eq]
    exact mul_le_mul_of_nonneg_right reached_cast power.le

/-- A number below the infinite ones is finite. -/
theorem finite_of_value {x : Double} (number : x.isNan = false) (low : -2 ^ 1024 < x.value)
    (high : x.value < 2 ^ 1024) : x.isFinite = true := by
  cases x with
  | nan => cases number
  | infinity negative => cases negative <;> simp [value] at low high
  | finite => rfl

theorem finite_round {q : ℚ} {n : Nat} (nonneg : 0 ≤ q) (le : q ≤ n) (small : n < 2 ^ 53) :
    (round q).isFinite = true ∧ 0 ≤ (round q).value ∧ (round q).value ≤ n := by
  have zero := value_round_zero
  have top : (round (n : ℚ)).value = n := by
    have nonneg : (0 : ℚ) ≤ n := by positivity
    rw [round, abs_of_nonneg nonneg, decide_eq_false (not_lt.mpr nonneg), value_natCast small]
  have low := value_round_mono nonneg
  have high := value_round_mono le
  rw [zero] at low
  rw [top] at high
  have cast : (n : ℚ) < 2 ^ 53 := by exact_mod_cast small
  refine ⟨finite_of_value (isNan_round q) ?_ ?_, low, high⟩
  · exact lt_of_lt_of_le (by norm_num) low
  · exact (high.trans_lt cast).trans_le (pow_le_pow_right₀ (by norm_num) (by norm_num))

/-- The value of a finite product is that of the rounded exact product. -/
theorem mul_eq_round {a b : Double} (left : a.isFinite = true) (right : b.isFinite = true)
    (nonneg : 0 ≤ a.value) (nonneg' : 0 ≤ b.value) :
    (a * b).value = (round (a.value * b.value)).value ∧ (a * b).isNan = false := by
  have shape : a * b = ofMagnitude (xor a.isNegative b.isNegative) (a.magnitude * b.magnitude) := by
    cases a with
    | nan | infinity => cases left
    | finite s m e canonical =>
        cases b with
        | nan | infinity => cases right
        | finite t n k canonical' => rfl
  have product : 0 ≤ a.value * b.value := mul_nonneg nonneg nonneg'
  refine ⟨?_, shape ▸ isNan_ofMagnitude _ _⟩
  rw [shape, round, abs_of_nonneg product, decide_eq_false (not_lt.mpr product), ← abs_value left, ← abs_value right,
    abs_of_nonneg nonneg, abs_of_nonneg nonneg']
  cases sign : xor a.isNegative b.isNegative with
  | false => rfl
  | true =>
      -- One of the factors is a negative zero.
      have zero : a.value * b.value = 0 := by
        have first := value_eq left
        have second := value_eq right
        rw [← abs_value left, abs_of_nonneg nonneg] at first
        rw [← abs_value right, abs_of_nonneg nonneg'] at second
        cases negative : a.isNegative with
        | true =>
            rw [negative, if_pos rfl] at first
            have : a.value = 0 := by linarith
            rw [this, zero_mul]
        | false =>
            have other : b.isNegative = true := by simpa [negative] using sign
            rw [other, if_pos rfl] at second
            have : b.value = 0 := by linarith
            rw [this, mul_zero]
      rw [zero, value_ofMagnitude_true, value_zero, neg_zero]

/-- `round(x, digits)` of a number that is not negative. -/
theorem value_roundDigits {x : Double} (finite : x.isFinite = true) (nonneg : 0 ≤ x.value) (digits : Nat) :
    (roundDigits digits x).value = (round (roundTo digits x.value)).value := by
  have eq := (roundDigits_eq finite digits).2
  have value := value_eq finite
  have magnitude := abs_value finite
  rw [abs_of_nonneg nonneg] at magnitude
  rw [eq, ← magnitude]
  cases negative : x.isNegative with
  | false => rfl
  | true =>
      rw [negative, if_pos rfl, ← magnitude] at value
      have zero : x.value = 0 := by linarith
      have rounds : roundTo digits 0 = 0 := by simp [roundTo, halfEven]
      rw [if_pos rfl, zero, rounds, value_round_zero, neg_zero]

end Senex.Double
