import Senex.Foundation.Sign

/-! # Floats between two powers of two

From `2 ^ 30` to `2 ^ 31` floats stand at one distance, `2 ^ -22`, and a whole number may be taken away
before or after rounding.  `lt_round_sub_iff` compares there as the exact numbers do.
-/

namespace Senex.Double

theorem halfEven_add_two_mul (q : ℚ) (k : Int) : halfEven (q + (2 * k : Int)) = halfEven q + 2 * k := by
  have floor : ⌊q + (2 * k : Int)⌋ = ⌊q⌋ + 2 * k := Int.floor_add_intCast q (2 * k)
  have rest : q + (2 * k : Int) - ((⌊q⌋ + 2 * k : Int) : ℚ) = q - ⌊q⌋ := by push_cast; ring
  simp only [halfEven, floor, rest]
  split_ifs <;> omega

/-- Between two powers of two floats stand at one distance. -/
theorem value_round_binade {q : ℚ} (low : 2 ^ 30 ≤ q) (high : q < 2 ^ 31) :
    (round q).value = halfEven (q * 2 ^ 22) / 2 ^ 22 := by
  have positive : 0 < q := by linarith
  have log : Int.log 2 q = 30 := by
    have upper : Int.log 2 q < 31 := (Int.lt_zpow_iff_log_lt (by decide) positive).mp (by exact_mod_cast high)
    have lower : 30 ≤ Int.log 2 q := (Int.zpow_le_iff_le_log (by decide) positive).mp (by exact_mod_cast low)
    omega
  have scaled : scale q = -22 := by
    rw [scale, log]
    decide
  have shape : round q = ofMagnitude false q := by
    rw [round, abs_of_pos positive, decide_eq_false positive.not_gt]
  have parts : rounded q = halfEven (q * 2 ^ 22) / 2 ^ 22 := by
    have split : q / 2 ^ (-22 : Int) = q * 2 ^ 22 := by
      rw [zpow_neg, div_inv_eq_mul]
      rfl
    rw [rounded, scaled, split, zpow_neg, ← div_eq_mul_inv]
    rfl
  have small : rounded q ≤ 2 ^ 1024 := by
    have near := (abs_le.mp (abs_halfEven_sub_le (q * 2 ^ 22))).2
    have huge : (2 : ℚ) ^ 32 ≤ 2 ^ 1024 := pow_le_pow_right₀ (by norm_num) (by norm_num)
    have below : q * 2 ^ 22 ≤ 2 ^ 31 * 2 ^ 22 := mul_le_mul_of_nonneg_right high.le (by positivity)
    have room : (2 : ℚ) ^ 31 * 2 ^ 22 + 1 / 2 ≤ 2 ^ 32 * 2 ^ 22 := by norm_num
    refine le_trans ?_ huge
    rw [parts, div_le_iff₀ (by positivity)]
    exact (sub_le_iff_le_add'.mp near).trans ((add_le_add_left below _).trans room)
  rw [shape, value_ofMagnitude positive, min_eq_left small, parts]

theorem value_round_of_canonical {m : Nat} {e : Int} (canonical : Canonical m e) :
    (round ((m : ℚ) * 2 ^ e)).value = m * 2 ^ e := by
  have same := value_round_value (x := .finite false m e canonical) rfl
  simpa only [value, Bool.false_eq_true, if_false] using same

theorem isFinite_binade {q : ℚ} (low : 2 ^ 30 ≤ q) (high : q < 2 ^ 31) : (round q).isFinite = true := by
  apply isFinite_round (n := 2 ^ 31) (by norm_num)
  rw [abs_of_nonneg (by linarith)]
  exact_mod_cast high.le

/-- Microseconds that lie there compare as floats as they do themselves. -/
theorem lt_round_sub_iff {l s : ℚ} {e : Nat} (low : 2 ^ 30 ≤ l) (lower : 2 ^ 30 ≤ s) (high : l < 2 ^ 31)
    (higher : s < 2 ^ 31) (whole : l + e < s → l + e + 1 / 1000000 ≤ s) :
    (round l).value < (round ((round s).value - e)).value ↔ l + e < s := by
  have left := value_round_binade low high
  have right := value_round_binade lower higher
  have shift : halfEven ((l + e) * 2 ^ 22) = halfEven (l * 2 ^ 22) + 2 * (e * 2 ^ 21) := by
    rw [← halfEven_add_two_mul]
    congr 1
    push_cast
    ring
  constructor
  · intro less
    by_contra notLess
    have le : halfEven (s * 2 ^ 22) ≤ halfEven (l * 2 ^ 22) + 2 * (e * 2 ^ 21) := by
      rw [← shift]
      apply halfEven_mono
      have := not_lt.mp notLess
      nlinarith
    have back : (round s).value - e ≤ (round l).value := by
      rw [left, right, div_sub' (by positivity), div_le_div_iff_of_pos_right (by positivity)]
      have cast : (halfEven (s * 2 ^ 22) : ℚ) ≤ halfEven (l * 2 ^ 22) + 2 * (e * 2 ^ 21) := by exact_mod_cast le
      linarith
    have again : (round (round l).value).value = (round l).value := value_round_value (isFinite_binade low high)
    have mono := value_round_mono back
    rw [again] at mono
    exact absurd less mono.not_gt
  · intro less
    have apart : halfEven (l * 2 ^ 22) + 2 * (e * 2 ^ 21) + 1 ≤ halfEven (s * 2 ^ 22) := by
      have near := (abs_le.mp (abs_halfEven_sub_le ((l + e) * 2 ^ 22))).2
      have near' := (abs_le.mp (abs_halfEven_sub_le (s * 2 ^ 22))).1
      rw [shift] at near
      have gap := whole less
      have strict : ((halfEven (l * 2 ^ 22) + 2 * (e * 2 ^ 21) : Int) : ℚ) < halfEven (s * 2 ^ 22) := by
        have wide : (l + e) * 2 ^ 22 + 4 ≤ s * 2 ^ 22 := by nlinarith
        generalize ((halfEven (l * 2 ^ 22) + 2 * (e * 2 ^ 21) : Int) : ℚ) = a at near ⊢
        generalize (halfEven (s * 2 ^ 22) : ℚ) = b at near' ⊢
        generalize (l + e) * 2 ^ 22 = x at near wide
        generalize s * 2 ^ 22 = y at near' wide
        linarith
      exact_mod_cast strict
    have least : 2 ^ 52 ≤ halfEven (l * 2 ^ 22) := by
      rw [← halfEven_two_pow]
      apply halfEven_mono
      calc (2 : ℚ) ^ 52 = 2 ^ 30 * 2 ^ 22 := by norm_num
        _ ≤ l * 2 ^ 22 := mul_le_mul_of_nonneg_right low (by positivity)
    have most : halfEven (l * 2 ^ 22) + 1 < 2 ^ 53 := by
      have near := (abs_le.mp (abs_halfEven_sub_le (l * 2 ^ 22))).2
      have room : l * 2 ^ 22 + 4 ≤ 2 ^ 31 * 2 ^ 22 := by
        have nonneg : (0 : ℚ) ≤ e := Nat.cast_nonneg e
        have gap := whole less
        nlinarith
      have strict : ((halfEven (l * 2 ^ 22) + 1 : Int) : ℚ) < 2 ^ 31 * 2 ^ 22 := by
        push_cast
        generalize (halfEven (l * 2 ^ 22) : ℚ) = a at near ⊢
        generalize l * 2 ^ 22 = x at near room
        generalize (2 : ℚ) ^ 31 * 2 ^ 22 = y at room ⊢
        linarith
      exact_mod_cast strict
    obtain ⟨m, m_eq⟩ : ∃ m : Nat, halfEven (l * 2 ^ 22) + 1 = m := Int.eq_ofNat_of_zero_le (by omega)
    have canonical : Canonical m (-22) := by
      refine ⟨?_, by decide, by decide, .inl ?_⟩
      · exact_mod_cast m_eq ▸ most
      · have below := least.trans (Int.le_add_one le_rfl)
        rw [m_eq] at below
        exact_mod_cast below
    have next := value_round_of_canonical canonical
    have step : (m : ℚ) * 2 ^ (-22 : Int) = (halfEven (l * 2 ^ 22) + 1) / 2 ^ 22 := by
      have cast : (m : ℚ) = halfEven (l * 2 ^ 22) + 1 := by
        exact_mod_cast congrArg (Int.cast : Int → ℚ) m_eq.symm
      rw [cast, zpow_neg, ← div_eq_mul_inv]
      rfl
    have above : (m : ℚ) * 2 ^ (-22 : Int) ≤ (round s).value - e := by
      rw [step, right, div_sub' (by positivity), div_le_div_iff_of_pos_right (by positivity)]
      have cast : (halfEven (l * 2 ^ 22) : ℚ) + 2 * (e * 2 ^ 21) + 1 ≤ halfEven (s * 2 ^ 22) := by
        exact_mod_cast apart
      generalize (halfEven (l * 2 ^ 22) : ℚ) = a at cast ⊢
      generalize (halfEven (s * 2 ^ 22) : ℚ) = b at cast ⊢
      linarith
    have below : (round l).value < (m : ℚ) * 2 ^ (-22 : Int) := by
      rw [step, left]
      exact div_lt_div_of_pos_right (lt_add_one _) (by positivity)
    have mono := value_round_mono above
    rw [next] at mono
    exact below.trans_le mono

end Senex.Double
