import Mathlib.Data.Int.Log
import Mathlib.Data.Rat.Floor
import Mathlib.Algebra.Order.Field.Power
import Mathlib.Algebra.Order.Floor.Semifield
import Mathlib.Tactic.FieldSimp
import Mathlib.Tactic.NormNum
import Mathlib.Tactic.Positivity
import Mathlib.Tactic.Ring
import Senex.Foundation.Decimal

/-! # Binary64 numbers

The numbers of JavaScript and the floats of Python.  A finite number keeps its sign,
significand and exponent in the one form that the format has for it, so that equal
values are equal numbers.  `ofMagnitude_magnitude` says that a number is the rounding of
its own magnitude, `ofMagnitude_shortest` that its shortest decimal reads back as the number,
`value_round_mono` that rounding is monotone.
-/

namespace Senex

/-- The one form of a finite magnitude `mantissa * 2 ^ exponent`. -/
def Double.Canonical (mantissa : Nat) (exponent : Int) : Prop :=
  mantissa < 2 ^ 53 ∧ -1074 ≤ exponent ∧ exponent ≤ 971 ∧ (2 ^ 52 ≤ mantissa ∨ exponent = -1074)

instance (mantissa : Nat) (exponent : Int) : Decidable (Double.Canonical mantissa exponent) :=
  inferInstanceAs (Decidable (_ ∧ _))

inductive Double where
  | nan
  | infinity (negative : Bool)
  | finite (negative : Bool) (mantissa : Nat) (exponent : Int)
      (canonical : Double.Canonical mantissa exponent)
  deriving DecidableEq

namespace Double

/-! ## Rounding -/

/-- The nearest integer, the even one of two. -/
def halfEven (q : ℚ) : Int :=
  let k := ⌊q⌋
  if q - k < 1 / 2 then k
  else if 1 / 2 < q - k then k + 1
  else k + k % 2

@[simp] theorem halfEven_natCast (n : Nat) : halfEven (n : ℚ) = n := by
  simp [halfEven]

/-- The exponent of the numbers around a magnitude. -/
def scale (q : ℚ) : Int := max (Int.log 2 q - 52) (-1074)

/-- The number nearest to a magnitude under a sign, the even one of two. -/
def ofMagnitude (negative : Bool) (q : ℚ) : Double :=
  if q = 0 then .finite negative 0 (-1074) (by decide)
  else
    let e := scale q
    let m := (halfEven (q / 2 ^ e)).toNat
    if h : Canonical m e then .finite negative m e h
    -- The significand has been rounded up to a power of two.
    else if h : Canonical (m / 2) (e + 1) then .finite negative (m / 2) (e + 1) h
    else .infinity negative

/-- The number nearest to a value. -/
def round (q : ℚ) : Double := ofMagnitude (decide (q < 0)) |q|

def isFinite : Double → Bool
  | .finite .. => true
  | _ => false

def isNegative : Double → Bool
  | .nan => false
  | .infinity negative => negative
  | .finite negative .. => negative

/-- The magnitude of a finite number. -/
def magnitude : Double → ℚ
  | .finite _ m e _ => m * 2 ^ e
  | _ => 0

/-- The value of a finite number; infinities stand beyond them all. -/
def value : Double → ℚ
  | .nan => 0
  | .infinity negative => if negative then -2 ^ 1024 else 2 ^ 1024
  | .finite negative m e _ => if negative then -(m * 2 ^ e) else m * 2 ^ e

private theorem scale_canonical {m : Nat} {e : Int} (canonical : Canonical m e) (positive : 0 < m) :
    scale ((m : ℚ) * 2 ^ e) = e := by
  obtain ⟨below, least, -, normal⟩ := canonical
  have power : (0 : ℚ) < 2 ^ e := by positivity
  have magnitude : (0 : ℚ) < (m : ℚ) * 2 ^ e := by positivity
  have upper : Int.log 2 ((m : ℚ) * 2 ^ e) < 53 + e := by
    apply (Int.lt_zpow_iff_log_lt (by decide) magnitude).mp
    rw [zpow_add₀ (by simp)]
    apply mul_lt_mul_of_pos_right _ power
    exact_mod_cast below
  rcases normal with high | subnormal
  · have lower : 52 + e ≤ Int.log 2 ((m : ℚ) * 2 ^ e) := by
      apply (Int.zpow_le_iff_le_log (by decide) magnitude).mp
      rw [Nat.cast_ofNat, zpow_add₀ (by simp)]
      apply mul_le_mul_of_nonneg_right _ power.le
      exact_mod_cast high
    simp only [scale]
    omega
  · simp only [scale]
    omega

/-- A finite number is the rounding of its magnitude. -/
theorem ofMagnitude_magnitude (negative : Bool) {m : Nat} {e : Int} (canonical : Canonical m e) :
    ofMagnitude negative (m * 2 ^ e) = .finite negative m e canonical := by
  rcases Nat.eq_zero_or_pos m with rfl | positive
  · have least : e = -1074 := canonical.2.2.2.resolve_left (by decide)
    subst least
    simp [ofMagnitude]
  · have nonzero : (m : ℚ) * 2 ^ e ≠ 0 := by positivity
    have significand : (m : ℚ) * 2 ^ e / 2 ^ e = m := mul_div_cancel_right₀ _ (by positivity)
    simp [ofMagnitude, nonzero, scale_canonical canonical positive, significand, canonical]

/-! ## Rounding is monotone -/

theorem halfEven_two_pow (n : Nat) : halfEven (2 ^ n) = 2 ^ n := by
  have exact := halfEven_natCast (2 ^ n)
  push_cast at exact
  exact exact

theorem halfEven_bounds (q : ℚ) : ⌊q⌋ ≤ halfEven q ∧ halfEven q ≤ ⌊q⌋ + 1 := by
  simp only [halfEven]
  split_ifs <;> omega

theorem halfEven_mono {p q : ℚ} (le : p ≤ q) : halfEven p ≤ halfEven q := by
  rcases (Int.floor_le_floor le).lt_or_eq with apart | same
  · have below := (halfEven_bounds p).2
    have above := (halfEven_bounds q).1
    omega
  · simp only [halfEven]
    rw [same]
    have gap : p - ⌊q⌋ ≤ q - ⌊q⌋ := sub_le_sub_right le _
    split_ifs <;> first | omega | (exfalso; linarith)

/-- What a magnitude is rounded to where no magnitude is too large. -/
def rounded (q : ℚ) : ℚ := halfEven (q / 2 ^ scale q) * 2 ^ scale q

theorem scale_bounds {q : ℚ} (positive : 0 < q) :
    -1074 ≤ scale q ∧ q / 2 ^ scale q < 2 ^ 53 ∧ (scale q = -1074 ∨ 2 ^ 52 ≤ q / 2 ^ scale q) := by
  have power (e : Int) : (0 : ℚ) < 2 ^ e := by positivity
  have upper : q < 2 ^ (Int.log 2 q + 1) := by exact_mod_cast Int.lt_zpow_succ_log_self (b := 2) (by decide) q
  have lower : (2 : ℚ) ^ Int.log 2 q ≤ q := by exact_mod_cast Int.zpow_log_le_self (b := 2) (by decide) positive
  refine ⟨le_max_right _ _, ?_, ?_⟩
  · rw [div_lt_iff₀ (power _), ← zpow_natCast, ← zpow_add₀ (by norm_num)]
    apply upper.trans_le
    apply zpow_le_zpow_right₀ (by norm_num)
    have := le_max_left (Int.log 2 q - 52) (-1074)
    simp only [scale]
    push_cast
    omega
  · by_cases least : Int.log 2 q - 52 ≤ -1074
    · exact Or.inl (max_eq_right least)
    · have exact : scale q = Int.log 2 q - 52 := max_eq_left (by omega)
      right
      rw [exact, le_div_iff₀ (power _), ← zpow_natCast, ← zpow_add₀ (by norm_num)]
      refine le_trans (le_of_eq ?_) lower
      congr 1
      push_cast
      omega

theorem rounded_mono {p q : ℚ} (positive : 0 < p) (le : p ≤ q) : rounded p ≤ rounded q := by
  have power (e : Int) : (0 : ℚ) < 2 ^ e := by positivity
  have scales : scale p ≤ scale q := max_le_max (by have := Int.log_mono_right (b := 2) positive le; omega) le_rfl
  rcases scales.lt_or_eq with apart | same
  · obtain ⟨least, below, -⟩ := scale_bounds positive
    obtain ⟨-, -, above⟩ := scale_bounds (positive.trans_le le)
    have above : (2 : ℚ) ^ 52 ≤ q / 2 ^ scale q := above.resolve_left (by omega)
    have top : halfEven (p / 2 ^ scale p) ≤ 2 ^ 53 := by
      have := halfEven_mono below.le
      rwa [halfEven_two_pow] at this
    have bottom : 2 ^ 52 ≤ halfEven (q / 2 ^ scale q) := by
      have := halfEven_mono above
      rwa [halfEven_two_pow] at this
    calc rounded p ≤ 2 ^ 53 * 2 ^ scale p := by
          apply mul_le_mul_of_nonneg_right _ (power _).le
          exact_mod_cast top
      _ = 2 ^ 52 * 2 ^ (scale p + 1) := by
          rw [zpow_add₀ (by norm_num)]
          ring
      _ ≤ 2 ^ 52 * 2 ^ scale q := by
          apply mul_le_mul_of_nonneg_left _ (by positivity)
          exact zpow_le_zpow_right₀ (by norm_num) (by omega)
      _ ≤ rounded q := by
          apply mul_le_mul_of_nonneg_right _ (power _).le
          exact_mod_cast bottom
  · rw [rounded, rounded, same]
    apply mul_le_mul_of_nonneg_right _ (power _).le
    have := halfEven_mono (div_le_div_of_nonneg_right le (power (scale q)).le)
    exact_mod_cast this

private theorem finite_lt {m : Nat} {e : Int} (canonical : Canonical m e) : (m : ℚ) * 2 ^ e < 2 ^ 1024 := by
  obtain ⟨below, -, most, -⟩ := canonical
  have m_lt : (m : ℚ) < 2 ^ 53 := by exact_mod_cast below
  calc (m : ℚ) * 2 ^ e < 2 ^ 53 * 2 ^ e := mul_lt_mul_of_pos_right m_lt (by positivity)
    _ ≤ 2 ^ 53 * 2 ^ (971 : Int) := by
      apply mul_le_mul_of_nonneg_left _ (by positivity)
      exact zpow_le_zpow_right₀ (by norm_num) most
    _ = 2 ^ 1024 := by rw [zpow_ofNat, ← pow_add]

/-- The value of a rounded magnitude. -/
theorem value_ofMagnitude {q : ℚ} (positive : 0 < q) :
    (ofMagnitude false q).value = min (rounded q) (2 ^ 1024) := by
  obtain ⟨least, below, high⟩ := scale_bounds positive
  have ratio : 0 ≤ q / 2 ^ scale q := by positivity
  obtain ⟨m, m_eq⟩ : ∃ m : Nat, halfEven (q / 2 ^ scale q) = m := by
    apply Int.eq_ofNat_of_zero_le
    have := halfEven_mono ratio
    have zero := halfEven_natCast 0
    push_cast at zero
    rwa [zero] at this
  have m_le : m ≤ 2 ^ 53 := by
    have := halfEven_mono below.le
    rw [halfEven_two_pow, m_eq] at this
    exact_mod_cast this
  have normal : scale q = -1074 ∨ 2 ^ 52 ≤ m := by
    apply high.imp_right
    intro above
    have := halfEven_mono above
    rw [halfEven_two_pow, m_eq] at this
    exact_mod_cast this
  have rounded_eq : rounded q = m * 2 ^ scale q := by
    rw [rounded, m_eq]
    push_cast
    rfl
  rw [rounded_eq]
  simp only [ofMagnitude, positive.ne', if_false, m_eq, Int.toNat_natCast]
  split
  · rename_i canonical
    rw [min_eq_left (finite_lt canonical).le]
    simp [value]
  · rename_i notCanonical
    have carried : m = 2 ^ 53 ∨ 971 < scale q := by
      by_contra neither
      apply notCanonical
      rw [not_or] at neither
      refine ⟨by omega, least, by omega, ?_⟩
      exact normal.symm
    split
    · rename_i canonical
      have full : m = 2 ^ 53 := carried.resolve_right (by have := canonical.2.2.1; omega)
      have same : (m : ℚ) * 2 ^ scale q = ((m / 2 : ℕ) : ℚ) * 2 ^ (scale q + 1) := by
        rw [full, zpow_add₀ (by norm_num)]
        norm_num
        ring
      rw [same, min_eq_left (finite_lt canonical).le]
      simp [value]
    · rename_i tooLarge
      have large : (2 : ℚ) ^ 1024 ≤ m * 2 ^ scale q := by
        rcases carried with full | far
        · have last : 971 ≤ scale q := by
            by_contra early
            apply tooLarge
            rw [full]
            exact ⟨by norm_num, by omega, by omega, Or.inl (by norm_num)⟩
          calc (2 : ℚ) ^ 1024 = 2 ^ 53 * 2 ^ (971 : Int) := by rw [zpow_ofNat, ← pow_add]
            _ ≤ 2 ^ 53 * 2 ^ scale q := by
              apply mul_le_mul_of_nonneg_left _ (by positivity)
              exact zpow_le_zpow_right₀ (by norm_num) last
            _ = m * 2 ^ scale q := by
              rw [full]
              norm_num
        · have m_ge : (2 : ℚ) ^ 52 ≤ m := by exact_mod_cast normal.resolve_left (by omega)
          calc (2 : ℚ) ^ 1024 = 2 ^ 52 * 2 ^ (972 : Int) := by rw [zpow_ofNat, ← pow_add]
            _ ≤ 2 ^ 52 * 2 ^ scale q := by
              apply mul_le_mul_of_nonneg_left _ (by positivity)
              exact zpow_le_zpow_right₀ (by norm_num) (by omega)
            _ ≤ m * 2 ^ scale q := mul_le_mul_of_nonneg_right m_ge (by positivity)
      rw [min_eq_right large]
      simp [value]

theorem value_ofMagnitude_true (q : ℚ) : (ofMagnitude true q).value = -(ofMagnitude false q).value := by
  simp only [ofMagnitude]
  split_ifs <;> simp [value]

theorem value_ofMagnitude_nonneg (q : ℚ) : 0 ≤ (ofMagnitude false q).value := by
  simp only [ofMagnitude]
  split_ifs <;> simp only [value, Bool.false_eq_true, if_false] <;> positivity

theorem value_ofMagnitude_mono {p q : ℚ} (nonneg : 0 ≤ p) (le : p ≤ q) :
    (ofMagnitude false p).value ≤ (ofMagnitude false q).value := by
  rcases nonneg.eq_or_lt with rfl | positive
  · have zero : (ofMagnitude false 0).value = 0 := by simp [ofMagnitude, value]
    rw [zero]
    exact value_ofMagnitude_nonneg q
  · rw [value_ofMagnitude positive, value_ofMagnitude (positive.trans_le le)]
    exact min_le_min_right _ (rounded_mono positive le)

/-- A larger number is not rounded to a smaller one. -/
theorem value_round_mono {p q : ℚ} (le : p ≤ q) : (round p).value ≤ (round q).value := by
  unfold round
  by_cases p_neg : p < 0
  · by_cases q_neg : q < 0
    · simp only [p_neg, q_neg, decide_true, value_ofMagnitude_true, neg_le_neg_iff]
      apply value_ofMagnitude_mono (abs_nonneg q)
      rw [abs_of_neg p_neg, abs_of_neg q_neg]
      exact neg_le_neg le
    · simp only [p_neg, q_neg, decide_true, decide_false, value_ofMagnitude_true]
      exact (neg_nonpos.mpr (value_ofMagnitude_nonneg _)).trans (value_ofMagnitude_nonneg _)
  · have q_nonneg : ¬ q < 0 := not_lt.mpr ((not_lt.mp p_neg).trans le)
    simp only [p_neg, q_nonneg, decide_false]
    apply value_ofMagnitude_mono (abs_nonneg p)
    rwa [abs_of_nonneg (not_lt.mp p_neg), abs_of_nonneg (not_lt.mp q_nonneg)]

/-- Integers below `2 ^ 53` are numbers. -/
theorem value_natCast {n : Nat} (small : n < 2 ^ 53) : (ofMagnitude false n).value = n := by
  rcases Nat.eq_zero_or_pos n with rfl | positive
  · simp [ofMagnitude, value]
  · have nonzero : (0 : ℚ) < n := by exact_mod_cast positive
    have whole : ∃ k : Nat, scale n = -k := by
      have low : Int.log 2 (n : ℚ) < 53 := by
        apply (Int.lt_zpow_iff_log_lt (by decide) nonzero).mp
        exact_mod_cast small
      refine ⟨(-scale n).toNat, ?_⟩
      simp only [scale]
      omega
    obtain ⟨k, scale_eq⟩ := whole
    have exact : rounded n = n := by
      have scaled : (n : ℚ) / 2 ^ scale n = (n * 2 ^ k : ℕ) := by
        rw [scale_eq, zpow_neg, zpow_natCast, div_inv_eq_mul]
        push_cast
        rfl
      rw [rounded, scaled, halfEven_natCast, scale_eq, zpow_neg, zpow_natCast]
      push_cast
      field_simp
    have below : (n : ℚ) ≤ 2 ^ 1024 := by
      have small' : (n : ℚ) < 2 ^ 53 := by exact_mod_cast small
      exact small'.le.trans (pow_le_pow_right₀ (by norm_num) (by norm_num))
    rw [value_ofMagnitude nonzero, exact, min_eq_left below]

theorem isFinite_or_infinity (negative : Bool) (q : ℚ) :
    (ofMagnitude negative q).isFinite = true ∨ ofMagnitude negative q = .infinity negative := by
  simp only [ofMagnitude]
  split_ifs <;> simp [isFinite]

theorem isFinite_natCast {n : Nat} (small : n < 2 ^ 53) : (ofMagnitude false n).isFinite = true := by
  rcases isFinite_or_infinity false n with finite | infinite
  · exact finite
  · have exact := value_natCast small
    rw [infinite] at exact
    have large : (2 : ℚ) ^ 1024 = n := by simpa [value] using exact
    have small' : (n : ℚ) < 2 ^ 53 := by exact_mod_cast small
    have below : (n : ℚ) < 2 ^ 1024 := small'.trans (pow_lt_pow_right₀ (by norm_num) (by norm_num))
    exact absurd large below.ne'

/-- An integer from `2 ^ 53` on is not rounded to one below. -/
theorem le_value_natCast {n : Nat} (large : 2 ^ 53 ≤ n) : 2 ^ 53 ≤ (ofMagnitude false n).value := by
  have power : ofMagnitude false ((2 ^ 52 : ℕ) * 2 ^ (1 : Int)) = .finite false (2 ^ 52) 1 (by decide) :=
    ofMagnitude_magnitude false _
  have mono : (ofMagnitude false ((2 ^ 52 : ℕ) * 2 ^ (1 : Int))).value ≤ (ofMagnitude false n).value := by
    apply value_ofMagnitude_mono (by positivity)
    have large' : ((2 ^ 53 : ℕ) : ℚ) ≤ n := by exact_mod_cast large
    refine le_trans (le_of_eq ?_) large'
    norm_num
  rw [power] at mono
  refine le_trans (le_of_eq ?_) mono
  norm_num [value]

/-! ## Comparison and arithmetic -/

def isNan : Double → Bool
  | .nan => true
  | _ => false

def lt (a b : Double) : Bool := !a.isNan && !b.isNan && decide (a.value < b.value)

def le (a b : Double) : Bool := !a.isNan && !b.isNan && decide (a.value ≤ b.value)

/-- `==`, under which the two zeros are equal. -/
def eq (a b : Double) : Bool := !a.isNan && !b.isNan && decide (a.value = b.value)

theorem eq_self {a : Double} (finite : a.isFinite = true) : a.eq a = true := by
  cases a <;> simp_all [eq, isNan, isFinite]

/-- `int(x)` of a finite number: the part before the point. -/
def trunc (x : Double) : Int := if x.isNegative then -⌊x.magnitude⌋ else ⌊x.magnitude⌋

/-- `min` of some numbers: a later one replaces an earlier one only if it is smaller. -/
def minimum (first : Double) (rest : List Double) : Double :=
  rest.foldl (fun least x => if x.lt least then x else least) first

theorem minimum_mem (first : Double) (rest : List Double) : minimum first rest ∈ first :: rest := by
  unfold minimum
  induction rest generalizing first with
  | nil => simp
  | cons x rest ih =>
      rw [List.foldl_cons]
      split
      · exact List.mem_cons_of_mem _ (ih x)
      · rcases List.mem_cons.mp (ih first) with same | later
        · rw [same]
          exact List.mem_cons_self
        · exact List.mem_cons_of_mem _ (List.mem_cons_of_mem _ later)

/-- `math.isclose` -/
def isClose (relTol absTol a b : Double) : Bool :=
  a.eq b || (a.isFinite && b.isFinite &&
    let diff := round |b.value - a.value|
    diff.le (round |relTol.value * b.value|) || diff.le (round |relTol.value * a.value|) ||
      diff.le absTol)

theorem isClose_self (relTol absTol : Double) {a : Double} (finite : a.isFinite = true) :
    isClose relTol absTol a a = true := by
  simp [isClose, eq_self finite]

/-! ## Shortest decimals -/

/-- `digits * 10 ^ power`. -/
def decimalValue (d : Nat × Int) : ℚ := d.1 * 10 ^ d.2

/-- The two decimals of `k` digits around a magnitude, the nearer one first. -/
def candidates (q : ℚ) (k : Nat) : List (Nat × Int) :=
  let power := Int.log 10 q + 1 - k
  let below := ⌊q / 10 ^ power⌋
  let near := halfEven (q / 10 ^ power)
  [(near.toNat, power), ((2 * below + 1 - near).toNat, power)]

/-- The decimal that equals a magnitude. -/
def exactDecimal (m : Nat) (e : Int) : Nat × Int :=
  if 0 ≤ e then (m * 2 ^ e.toNat, 0) else (m * 5 ^ (-e).toNat, e)

def trimZeros : Nat → Nat × Int → Nat × Int
  | 0, d => d
  | fuel + 1, d => if d.1 ≠ 0 ∧ d.1 % 10 = 0 then trimZeros fuel (d.1 / 10, d.2 + 1) else d

/-- The shortest decimal that is rounded to a magnitude, the nearest one of those, without
    trailing zeros. -/
def shortest (m : Nat) (e : Int) : Nat × Int :=
  let reads (d : Nat × Int) : Bool := ofMagnitude false (decimalValue d) = ofMagnitude false (m * 2 ^ e)
  -- Seventeen digits always suffice; the exact decimal is there to close the search.
  let d := ((List.range 17).findSome? fun k => (candidates (m * 2 ^ e) (k + 1)).find? reads).getD
    (exactDecimal m e)
  trimZeros (d.1.log2 + 1) d

theorem decimalValue_exactDecimal (m : Nat) (e : Int) : decimalValue (exactDecimal m e) = m * 2 ^ e := by
  unfold exactDecimal decimalValue
  split
  · rename_i whole
    lift e to Nat using whole
    simp
  · rename_i fraction
    obtain ⟨n, rfl⟩ : ∃ n : Nat, e = -n := ⟨e.natAbs, by omega⟩
    have ten : (10 : ℚ) = 5 * 2 := by norm_num
    have five : (5 : ℚ) ^ n ≠ 0 := by positivity
    have two : (2 : ℚ) ^ n ≠ 0 := by positivity
    simp only [neg_neg, Int.toNat_natCast, zpow_neg, zpow_natCast, ten, mul_pow]
    push_cast
    field_simp

theorem decimalValue_trimZeros (fuel : Nat) (d : Nat × Int) :
    decimalValue (trimZeros fuel d) = decimalValue d := by
  induction fuel generalizing d with
  | zero => rfl
  | succ fuel ih =>
      rw [trimZeros]
      split
      · rename_i trailing
        rw [ih]
        have whole : d.1 = 10 * (d.1 / 10) := by omega
        have power : (10 : ℚ) ^ (d.2 + 1) = 10 ^ d.2 * 10 := zpow_add_one₀ (by norm_num) _
        simp only [decimalValue, power]
        conv_rhs => rw [whole]
        push_cast
        ring
      · rfl

private def withSign (negative : Bool) : Double → Double
  | .nan => .nan
  | .infinity _ => .infinity negative
  | .finite _ m e canonical => .finite negative m e canonical

private theorem withSign_ofMagnitude (negative : Bool) (q : ℚ) :
    withSign negative (ofMagnitude false q) = ofMagnitude negative q := by
  simp only [ofMagnitude]
  split_ifs <;> rfl

private theorem ofMagnitude_decimalValue (m : Nat) (e : Int) :
    ofMagnitude false (decimalValue (shortest m e)) = ofMagnitude false (m * 2 ^ e) := by
  rw [shortest, decimalValue_trimZeros]
  cases search : (List.range 17).findSome? fun k => (candidates (m * 2 ^ e) (k + 1)).find? fun d =>
      decide (ofMagnitude false (decimalValue d) = ofMagnitude false (m * 2 ^ e)) with
  | none => simp only [Option.getD_none, decimalValue_exactDecimal]
  | some d =>
      obtain ⟨k, -, found⟩ := List.exists_of_findSome?_eq_some search
      have reads := List.find?_some found
      exact of_decide_eq_true reads

/-- The shortest decimal reads back as the number. -/
theorem ofMagnitude_shortest (negative : Bool) {m : Nat} {e : Int} (canonical : Canonical m e) :
    ofMagnitude negative (decimalValue (shortest m e)) = .finite negative m e canonical := by
  rw [← ofMagnitude_magnitude negative canonical, ← withSign_ofMagnitude negative,
    ofMagnitude_decimalValue, withSign_ofMagnitude]

theorem shortest_pos {m : Nat} {e : Int} (canonical : Canonical m e) (positive : 0 < m) :
    0 < (shortest m e).1 := by
  apply Nat.pos_of_ne_zero
  intro zero
  have reads := ofMagnitude_shortest false canonical
  simp only [decimalValue, zero, Nat.cast_zero, zero_mul, ofMagnitude, if_true, finite.injEq] at reads
  omega

end Double

end Senex
