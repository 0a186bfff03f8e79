import Senex.Scoring.Spacing
import Mathlib

/-! # The win-rate gates

`authoritative_score.py` counts the wins and losses of a cohort and compares the win rate, as a percentage
rounded to two digits, with the threshold of a gate.  A rate that is less than half a digit below the
threshold is rounded up to it.
-/

namespace Senex.Scoring

open Text Settlement

/-- `MIN_GLOBAL_N` -/
def minGlobalN : Nat := 100

/-- `MIN_DIRECTION_N` -/
def minDirectionN : Nat := 30

/-- `LONG_MIN_WIN_RATE_PCT` -/
def longMinWinRatePct : Nat := 50

/-- `SHORT_MIN_WIN_RATE_PCT` -/
def shortMinWinRatePct : Nat := 55

/-- `GLOBAL_MIN_WIN_RATE_PCT` -/
def globalMinWinRatePct : Nat := 52

structure Bucket where
  (verified wins losses : Nat)
  winRatePct : Double

/-- `round((wins / n * 100.0) if n else 0.0, 2)` -/
def winRatePct (wins n : Nat) : Double :=
  Double.roundDigits 2 (if n = 0 then .round 0 else .round ((wins : ℚ) / n) * .round 100)

/-- `_bucket` -/
def bucket (rows : List ScoreRow) : Bucket :=
  let wins := rows.countP fun row => decide (row.outcome = some (txt "WIN"))
  let losses := rows.countP fun row => decide (row.outcome = some (txt "LOSS"))
  { verified := wins + losses, wins, losses, winRatePct := winRatePct wins (wins + losses) }

structure GateResult where
  pass : Bool
  gateSemantics : Text
  (uncertaintyAdjusted edgeEvidence : Bool)
  statisticalEvidenceGate : Text
  winRatePct : Double
  n : Nat
  thresholdPct : Double
  minN : Nat
  nSource : Text

/-- `_gate` -/
def gate (bucket : Bucket) (minN : Nat) (thresholdPct : Double) : GateResult where
  pass := decide (minN ≤ bucket.verified) && thresholdPct.le bucket.winRatePct
  gateSemantics := txt "OPERATIONAL_POINT_ESTIMATE"
  uncertaintyAdjusted := false
  edgeEvidence := false
  statisticalEvidenceGate := txt "quality.gates.wilson_lower_95"
  winRatePct := bucket.winRatePct
  n := bucket.verified
  thresholdPct := thresholdPct
  minN := minN
  nSource := txt "INDEPENDENT_NONOVERLAP_1H"

/-- The gates of `_score_symbol`. -/
inductive GateName where
  | long1h
  | short1h
  | global1h
deriving DecidableEq, Repr

namespace GateName

def minN : GateName → Nat
  | .long1h | .short1h => minDirectionN
  | .global1h => minGlobalN

def thresholdPct : GateName → Nat
  | .long1h => longMinWinRatePct
  | .short1h => shortMinWinRatePct
  | .global1h => globalMinWinRatePct

/-- The rows of a cohort that a gate counts. -/
def rows (cohort : List ScoreRow) : GateName → List ScoreRow
  | .long1h => cohort.filter fun row => decide (upper row.prediction = txt "LONG")
  | .short1h => cohort.filter fun row => decide (upper row.prediction = txt "SHORT")
  | .global1h => cohort

/-- The gate of a cohort. -/
def result (cohort : List ScoreRow) (g : GateName) : GateResult :=
  gate (bucket (g.rows cohort)) g.minN (.round g.thresholdPct)

/-- Mantissa and exponent of the least float rate that is rounded up to the threshold. -/
def leastRate : GateName → Nat × Int
  | .long1h => (9006298534815519, -54)
  | .short1h => (4953509230144809, -53)
  | .global1h => (4683293252502579, -53)

/-- The rates above this one are rounded up to the threshold: half a digit less than the threshold, up to
    the rounding of the rate itself. -/
def boundary (g : GateName) : ℚ := ((g.leastRate.1 : ℚ) - 1 / 2) * 2 ^ g.leastRate.2

end GateName

/-! ## The percentage -/

/-- The percentage of a rate before it is rounded to two digits. -/
def percentage (rate : ℚ) : Double := .round rate * .round 100

theorem value_hundred : (Double.round 100).value = 100 := by decide +kernel

theorem value_percentage {rate : ℚ} (nonneg : 0 ≤ rate) (le_one : rate ≤ 1) :
    (percentage rate).value = (Double.round ((Double.round rate).value * 100)).value ∧
      (percentage rate).isFinite = true ∧ 0 ≤ (percentage rate).value := by
  obtain ⟨finite, low, high⟩ := @Double.finite_round rate 1 nonneg (by simpa using le_one) (by norm_num)
  obtain ⟨value, number⟩ := @Double.mul_eq_round (.round rate) (.round 100) finite (by decide +kernel) low
    (by rw [value_hundred]; norm_num)
  rw [value_hundred] at value
  obtain ⟨_, low', high'⟩ := @Double.finite_round ((Double.round rate).value * 100) 100 (by positivity)
    (by push_cast at high ⊢; linarith) (by norm_num)
  rw [← value] at low' high'
  refine ⟨value, Double.finite_of_value number ?_ ?_, low'⟩
  · exact lt_of_lt_of_le (by norm_num) low'
  · refine high'.trans_lt (lt_of_lt_of_le ?_ (pow_le_pow_right₀ (by norm_num) (by norm_num : 7 ≤ 1024)))
    norm_num

/-- Two digits are rounded up to an integer from half a digit below it. -/
theorem le_roundDigits_iff {x : Double} (finite : x.isFinite = true) (nonneg : 0 ≤ x.value) {k : Nat}
    (small : k < 2 ^ 53) (below : (Double.round ((k : ℚ) - 1 / 100)).value < k) :
    (k : ℚ) ≤ (Double.roundDigits 2 x).value ↔ (k : ℚ) - 1 / 200 ≤ x.value := by
  have whole : (Double.round (k : ℚ)).value = k := by
    have nonneg : (0 : ℚ) ≤ k := by positivity
    rw [Double.round, abs_of_nonneg nonneg, decide_eq_false (not_lt.mpr nonneg), Double.value_natCast small]
  have reached : (k : ℚ) ≤ (Double.roundDigits 2 x).value ↔ (100 * k : Int) ≤ Double.halfEven (x.value * 10 ^ 2) := by
    rw [Double.value_roundDigits finite nonneg, roundTo]
    generalize Double.halfEven (x.value * 10 ^ 2) = units
    constructor
    · intro le
      by_contra short
      have cast : (units : ℚ) ≤ 100 * k - 1 := by
        have less : units ≤ 100 * k - 1 := by omega
        exact_mod_cast less
      have mono := @Double.value_round_mono ((units : ℚ) / 10 ^ 2) (k - 1 / 100) (by norm_num; linarith)
      linarith
    · intro enough
      have cast : (100 * k : ℚ) ≤ units := by exact_mod_cast enough
      calc (k : ℚ) = (Double.round (k : ℚ)).value := whole.symm
        _ ≤ (Double.round ((units : ℚ) / 10 ^ 2)).value := Double.value_round_mono (by norm_num; linarith)
  rw [reached, Double.le_halfEven_iff (by omega)]
  push_cast
  constructor <;> intro <;> linarith

namespace GateName

/-- What the binary64 numbers around the threshold of a gate are. -/
theorem around_threshold (g : GateName) :
    (Double.round g.boundary).value ≤ ((g.leastRate.1 : ℚ) - 1) * 2 ^ g.leastRate.2 ∧
      (g.thresholdPct : ℚ) - 1 / 200 ≤ (Double.round ((g.leastRate.1 : ℚ) * 2 ^ g.leastRate.2 * 100)).value ∧
      (Double.round (((g.leastRate.1 : ℚ) - 1) * 2 ^ g.leastRate.2 * 100)).value < (g.thresholdPct : ℚ) - 1 / 200 ∧
      (Double.round ((g.thresholdPct : ℚ) - 1 / 100)).value < g.thresholdPct ∧
      (Double.round g.thresholdPct).value = g.thresholdPct ∧ g.boundary < (g.thresholdPct : ℚ) / 100 := by
  cases g <;> decide +kernel

theorem boundary_down (g : GateName) :
    (Double.round g.boundary).value ≤ ((g.leastRate.1 : ℚ) - 1) * 2 ^ g.leastRate.2 :=
  g.around_threshold.1

/-- Between two neighbouring floats, the percentage passes half a digit below the threshold. -/
theorem percentage_up (g : GateName) :
    (g.thresholdPct : ℚ) - 1 / 200 ≤ (Double.round ((g.leastRate.1 : ℚ) * 2 ^ g.leastRate.2 * 100)).value :=
  g.around_threshold.2.1

theorem percentage_down (g : GateName) :
    (Double.round (((g.leastRate.1 : ℚ) - 1) * 2 ^ g.leastRate.2 * 100)).value < (g.thresholdPct : ℚ) - 1 / 200 :=
  g.around_threshold.2.2.1

theorem digit_down (g : GateName) : (Double.round ((g.thresholdPct : ℚ) - 1 / 100)).value < g.thresholdPct :=
  g.around_threshold.2.2.2.1

theorem leastRate_canonical (g : GateName) :
    Double.Canonical g.leastRate.1 g.leastRate.2 ∧ 2 ^ 52 < g.leastRate.1 := by
  cases g <;> decide

/-- A rate reaches the threshold exactly above the boundary. -/
theorem le_percentage_iff (g : GateName) {rate : ℚ} (nonneg : 0 ≤ rate) (le_one : rate ≤ 1) :
    (g.thresholdPct : ℚ) - 1 / 200 ≤ (percentage rate).value ↔ g.boundary < rate := by
  rw [(value_percentage nonneg le_one).1]
  constructor
  · intro le
    by_contra short
    have down := (Double.value_round_mono (not_lt.mp short)).trans g.boundary_down
    have mono := @Double.value_round_mono ((Double.round rate).value * 100)
      (((g.leastRate.1 : ℚ) - 1) * 2 ^ g.leastRate.2 * 100) (by linarith)
    exact absurd (le.trans mono) (not_le.mpr g.percentage_down)
  · intro above
    have up := Double.le_value_round g.leastRate_canonical.1 g.leastRate_canonical.2 above
    refine g.percentage_up.trans (Double.value_round_mono ?_)
    linarith

end GateName

/-! ## The gate -/

/-- A row that the proof gate lets through. -/
abbrev QualifiedRow := {r : ScoreRow // r.Qualified}

/-- Every qualified row is a win or a loss. -/
theorem outcome_of_qualified {r : ScoreRow} (qualified : r.Qualified) :
    r.outcome = some (txt "WIN") ∨ r.outcome = some (txt "LOSS") := by
  simp only [ScoreRow.Qualified, isProofQualified, Py.return_false_or] at qualified
  obtain ⟨settled, _⟩ := qualified
  rw [Bool.not_eq_true', Bool.not_eq_false] at settled
  cases outcome : r.outcome with
  | none =>
      rw [outcome] at settled
      cases settled
  | some text =>
      rw [outcome] at settled
      simpa [validOutcomes] using settled

theorem verified_eq_length {rows : List ScoreRow} (qualified : ∀ r ∈ rows, r.Qualified) :
    (bucket rows).verified = rows.length := by
  have losses : rows.countP (fun row => decide (row.outcome = some (txt "LOSS"))) =
      rows.countP fun row => ! decide (row.outcome = some (txt "WIN")) := by
    apply List.countP_congr
    intro r member
    rcases outcome_of_qualified (qualified r member) with outcome | outcome <;> rw [outcome] <;> decide
  have split := List.length_eq_countP_add_countP
    (fun row : ScoreRow => decide (row.outcome = some (txt "WIN"))) (l := rows)
  simp only [bucket, losses, split]
  simp

theorem wins_le_verified (rows : List ScoreRow) : (bucket rows).wins ≤ (bucket rows).verified := Nat.le_add_right _ _

namespace GateName

/-- A percentage in two digits has reached the threshold. -/
theorem le_winRatePct_iff (g : GateName) {wins n : Nat} (some_rows : n ≠ 0) (few : wins ≤ n) :
    (Double.round g.thresholdPct).le (winRatePct wins n) = true ↔ g.boundary < (wins : ℚ) / n := by
  have positive : (0 : ℚ) < n := by exact_mod_cast Nat.pos_of_ne_zero some_rows
  have nonneg : (0 : ℚ) ≤ (wins : ℚ) / n := by positivity
  have le_one : (wins : ℚ) / n ≤ 1 := by
    rw [div_le_one positive]
    exact_mod_cast few
  obtain ⟨_, finite, percentage_nonneg⟩ := value_percentage nonneg le_one
  have rate_eq : winRatePct wins n = Double.roundDigits 2 (percentage ((wins : ℚ) / n)) := by
    rw [winRatePct, if_neg some_rows, percentage]
  have threshold : (Double.round g.thresholdPct).value = g.thresholdPct := g.around_threshold.2.2.2.2.1
  have small : g.thresholdPct < 2 ^ 53 := by cases g <;> decide
  rw [rate_eq, Double.le, Double.isNan_round, Double.isNan_eq_false (Double.roundDigits_near finite 2).1, threshold,
    ← g.le_percentage_iff nonneg le_one, ← le_roundDigits_iff finite percentage_nonneg small g.digit_down]
  simp

theorem pass_iff (g : GateName) (cohort : List ScoreRow) : (g.result cohort).pass = true ↔
    g.minN ≤ (bucket (g.rows cohort)).verified ∧
      g.boundary < ((bucket (g.rows cohort)).wins : ℚ) / (bucket (g.rows cohort)).verified := by
  have least : 0 < g.minN := by cases g <;> decide
  rw [result, gate, Bool.and_eq_true, decide_eq_true_eq]
  apply and_congr_right
  intro enough
  have some_rows : (bucket (g.rows cohort)).verified ≠ 0 := by omega
  exact g.le_winRatePct_iff some_rows (wins_le_verified _)

/-- The rates that reach the threshold are above the boundary. -/
theorem boundary_lt (g : GateName) : g.boundary < (g.thresholdPct : ℚ) / 100 := g.around_threshold.2.2.2.2.2

/-- What a gate is for: enough rows, and the threshold percentage of them wins. -/
def Exact (g : GateName) (cohort : List ScoreRow) : Prop :=
  (g.result cohort).pass = true ↔ g.minN ≤ (g.rows cohort).length ∧
    g.thresholdPct * (g.rows cohort).length ≤ 100 * (bucket (g.rows cohort)).wins

/-- The rows that a gate counts are rows of the cohort. -/
theorem mem_of_mem_rows {g : GateName} {cohort : List ScoreRow} {r : ScoreRow} (member : r ∈ g.rows cohort) :
    r ∈ cohort := by
  cases g with
  | long1h | short1h => exact List.mem_of_mem_filter member
  | global1h => exact member

/-- A gate is exact except for the rates between its boundary and its threshold. -/
theorem exact_iff (g : GateName) (cohort : List QualifiedRow) : g.Exact (cohort.map Subtype.val) ↔
    ¬ (g.minN ≤ (g.rows (cohort.map Subtype.val)).length ∧
      g.boundary * (g.rows (cohort.map Subtype.val)).length < (bucket (g.rows (cohort.map Subtype.val))).wins ∧
      100 * (bucket (g.rows (cohort.map Subtype.val))).wins <
        g.thresholdPct * (g.rows (cohort.map Subtype.val)).length) := by
  have least : 0 < g.minN := by cases g <;> decide
  have qualified : ∀ r ∈ g.rows (cohort.map Subtype.val), r.Qualified := by
    intro r member
    obtain ⟨row, _, rfl⟩ := List.mem_map.mp (mem_of_mem_rows member)
    exact row.property
  have counted := verified_eq_length qualified
  rw [Exact, pass_iff, counted]
  generalize (g.rows (cohort.map Subtype.val)).length = n
  generalize (bucket (g.rows (cohort.map Subtype.val))).wins = wins
  by_cases enough : g.minN ≤ n
  · have positive : (0 : ℚ) < n := by exact_mod_cast least.trans_le enough
    -- A rate that has the threshold is above the boundary.
    have forward : g.thresholdPct * n ≤ 100 * wins → g.boundary * n < wins := by
      intro exact_pass
      have cast : (g.thresholdPct : ℚ) * n ≤ 100 * wins := by exact_mod_cast exact_pass
      have below := mul_lt_mul_of_pos_right g.boundary_lt positive
      linarith
    rw [lt_div_iff₀ positive]
    simp only [enough, true_and, not_and, not_lt]
    exact ⟨fun exact above => exact.mp above, fun rounds => ⟨rounds, forward⟩⟩
  · simp [enough]

end GateName

/-! 417 wins of 802 rows are less than 52 percent of them, and 52.0 in two digits. -/

def wonRow : QualifiedRow where
  val := beforeRow
  property := by
    unfold ScoreRow.Qualified
    decide +kernel

def lostRow : QualifiedRow where
  val := movedRow 2 "2038-01-19T03:14:08.000013+00:00" "LOSS" 90
    2147484548000 2147484540000 2147487248000 2147487240000
  property := by
    unfold ScoreRow.Qualified
    decide +kernel

/-- So many wins, and so many losses. -/
def wonAndLost (won lost : Nat) : List QualifiedRow := List.replicate won wonRow ++ List.replicate lost lostRow

private theorem wins_wonAndLost (won lost : Nat) :
    (bucket ((wonAndLost won lost).map Subtype.val)).wins = won := by
  have counted : decide (wonRow.val.outcome = some (txt "WIN")) = true := rfl
  have other : decide (lostRow.val.outcome = some (txt "WIN")) = false := by decide
  simp [bucket, wonAndLost, List.countP_append, List.countP_replicate, counted, other]

private theorem length_wonAndLost (won lost : Nat) :
    ((wonAndLost won lost).map Subtype.val).length = won + lost := by
  simp [wonAndLost]

private theorem verified_wonAndLost (won lost : Nat) :
    (bucket ((wonAndLost won lost).map Subtype.val)).verified = won + lost := by
  rw [verified_eq_length, length_wonAndLost]
  intro r member
  obtain ⟨row, _, rfl⟩ := List.mem_map.mp member
  exact row.property

theorem not_exact_802 : ¬ GateName.global1h.Exact ((wonAndLost 417 385).map Subtype.val) := by
  intro exact
  have above : GateName.global1h.boundary < ((417 : Nat) : ℚ) / ((417 + 385 : Nat) : ℚ) := by decide +kernel
  have passes := (GateName.global1h.pass_iff ((wonAndLost 417 385).map Subtype.val)).mpr (by
    rw [GateName.rows, verified_wonAndLost, wins_wonAndLost]
    exact ⟨by decide, above⟩)
  have enough := (exact.mp passes).2
  rw [GateName.rows, wins_wonAndLost, length_wonAndLost] at enough
  exact absurd enough (by decide)

end Senex.Scoring
