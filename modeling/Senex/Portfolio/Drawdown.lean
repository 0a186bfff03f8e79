import Senex.Foundation.Exact
import Senex.Foundation.Falls
import Senex.Foundation.TextOrder
import Senex.Portfolio.LiveGate

/-! # The drawdown that the gate reads

The analytics find the largest fall in money, and report the percentage of the first fall of that
size.  Another fall can be larger in percent, so the gate can pass with it (`drawdownExact_iff`).
-/

namespace Senex.Portfolio.PortfolioAnalytics

open Text

/-! ## The order of the trades -/

/-- The trades in the order of their exit times. -/
def byExit (trades : List ClosedTrade) : List ClosedTrade := sortedBy (fun t => Datetime.orderKey t.exit) trades

/-- Exit times that are all written as `isoformat()` of UTC times stand in the order of the texts. -/
theorem byExitTs_eq_byExit {trades : List ClosedTrade} (written : ∀ t ∈ trades, t.exitTs = Datetime.isoformat t.exit) :
    byExitTs trades = byExit trades := by
  refine sortedBy_congr fun a first b second => ?_
  rw [written a first, written b second, ← not_lt, ← not_lt, Datetime.isoformat_lt_iff]

/-! ## The loop over the equity curve -/

/-- What the loop holds after a part of the curve. -/
structure Drawdown.Holds (front : List ℚ) (d : Drawdown) : Prop where
  peak : IsGreatest {x | x ∈ front} d.peak
  positive : 0 < d.peak
  fall : ∃ a b, LargestFall front a b ∧ d.maxDdUsd = a - b ∧ d.maxDdPct = 100 * (a - b) / a

theorem Drawdown.Holds.step {front : List ℚ} {d : Drawdown} (holds : d.Holds front) (v : ℚ) :
    (d.step v).Holds (front ++ [v]) := by
  have higher : (if v > d.peak then v else d.peak) = max d.peak v := by
    rcases lt_or_ge d.peak v with less | le
    · rw [if_pos less, max_eq_right less.le]
    · rw [if_neg (not_lt.mpr le), max_eq_left le]
  have peak : IsGreatest {x | x ∈ front ++ [v]} (max d.peak v) := isGreatest_concat holds.peak
  have positive : 0 < max d.peak v := lt_max_of_lt_left holds.positive
  obtain ⟨a, b, largest, usd, pct⟩ := holds.fall
  simp only [Drawdown.step, higher, usd, if_pos positive]
  split
  · rename_i further
    exact ⟨peak, positive, _, v, largest.replace peak further, rfl, by ring⟩
  · rename_i nearer
    exact ⟨peak, positive, a, b, largest.keep peak (not_lt.mp nearer), rfl, pct⟩

theorem Drawdown.Holds.foldl {front : List ℚ} {d : Drawdown} (holds : d.Holds front) (rest : List ℚ) :
    (rest.foldl Drawdown.step d).Holds (front ++ rest) := by
  induction rest generalizing front d with
  | nil => simpa using holds
  | cons v rest ih =>
      have next := ih (holds.step v)
      rwa [List.append_assoc] at next

/-- The loop returns the largest fall in money and the percentage of the first fall of that size. -/
theorem maxDrawdown_spec {curve : List ℚ} {start : ℚ} (starts : curve.head? = some start) (positive : 0 < start) :
    ∃ a b, LargestFall curve a b ∧ maxDrawdown curve = (100 * (a - b) / a, a - b) := by
  have single : (⟨start, 0, 0⟩ : Drawdown).Holds [start] := by
    refine ⟨?_, positive, start, start, largestFall_singleton start, by simp, by simp⟩
    simp [IsGreatest, upperBounds]
  cases curve with
  | nil => simp at starts
  | cons first rest =>
      obtain rfl : first = start := by simpa using starts
      cases rest with
      | nil => exact ⟨first, first, largestFall_singleton first, by simp [maxDrawdown]⟩
      | cons second rest =>
          obtain ⟨a, b, largest, usd, pct⟩ := (single.foldl (second :: rest)).fall
          exact ⟨a, b, largest, by rw [maxDrawdown, usd, pct]⟩

/-! ## What the gate reads -/

theorem roundTo_mono (digits : Nat) {a b : ℚ} (le : a ≤ b) : roundTo digits a ≤ roundTo digits b :=
  Exact.round_mono digits (show (a : Exact) ≤ b from le)

/-- The drawdown of a report is that of an equity curve, and the gate's condition passes with it only
if no fall of the curve reached the limit. -/
structure DrawdownExact (report : AnalyticsReport) (curve : List ℚ) : Prop where
  usd : ∃ d, IsGreatest (falls curve) d ∧ report.maxDrawdownUsd = roundTo 2 d
  pct : ∃ p, IsGreatest (pctFalls curve) p ∧ report.maxDrawdownPct = roundTo 2 p
  gate : ∀ spell now score shadow selfTest,
    LiveGate.DrawdownPasses (LiveGate.evaluate unlockConditions spell now ⟨score, some report, shadow, selfTest⟩) →
      ∀ p ∈ pctFalls curve, p < 10

/-- In the order of the exit texts the first of the largest falls in money tells the largest falls, in money and
in percent, of the curve in the order of the exit times, to two decimals. -/
def FirstFallTells (byText byTime : List ℚ) : Prop :=
  ∃ a b, LargestFall byText a b ∧
    (∃ d, IsGreatest (falls byTime) d ∧ roundTo 2 (a - b) = roundTo 2 d) ∧
    ∃ p, IsGreatest (pctFalls byTime) p ∧ roundTo 2 (100 * (a - b) / a) = roundTo 2 p

theorem head?_equityCurve (cfg : AnalyticsConfig) (pnls : List ℚ) :
    (equityCurve cfg pnls).head? = some cfg.startingEquityUsd := by
  cases pnls <;> simp [equityCurve]

theorem compute_drawdown (sqrt : ℚ → ℚ) (cfg : AnalyticsConfig) (now : Text) (trades : List ClosedTrade) :
    (compute sqrt cfg now trades).maxDrawdownPct =
      roundTo 2 (maxDrawdown (equityCurve cfg (pnlsOf (byExitTs trades)))).1 ∧
    (compute sqrt cfg now trades).maxDrawdownUsd =
      roundTo 2 (maxDrawdown (equityCurve cfg (pnlsOf (byExitTs trades)))).2 := by
  rcases eq_or_ne trades [] with rfl | some
  · have zero : roundTo 2 0 = 0 := by decide +kernel
    simp [compute, emptyReport, byExitTs, sortedBy, pnlsOf, equityCurve, maxDrawdown, zero]
  · simp [compute, some]

/-- The reported drawdown is that of the trades in the order of their exit times exactly where the first of the
largest falls in money tells it. -/
theorem drawdownExact_iff (sqrt : ℚ → ℚ) (cfg : AnalyticsConfig) (positive : 0 < cfg.startingEquityUsd) (now : Text)
    (trades : List ClosedTrade) :
    DrawdownExact (compute sqrt cfg now trades) (equityCurve cfg (pnlsOf (byExit trades))) ↔
      FirstFallTells (equityCurve cfg (pnlsOf (byExitTs trades))) (equityCurve cfg (pnlsOf (byExit trades))) := by
  obtain ⟨shownPct, shownUsd⟩ := compute_drawdown sqrt cfg now trades
  obtain ⟨a, b, largest, found⟩ := maxDrawdown_spec (head?_equityCurve cfg (pnlsOf (byExitTs trades))) positive
  rw [found] at shownPct shownUsd
  constructor
  · intro exactly
    obtain ⟨d, greatest, usd⟩ := exactly.usd
    obtain ⟨p, highest, pct⟩ := exactly.pct
    exact ⟨a, b, largest, ⟨d, greatest, shownUsd.symm.trans usd⟩, p, highest, shownPct.symm.trans pct⟩
  · intro ⟨c, e, other, ⟨d, greatest, usd⟩, p, highest, pct⟩
    obtain ⟨rfl, rfl⟩ := largest.unique other
    refine ⟨⟨d, greatest, shownUsd.trans usd⟩, ⟨p, highest, shownPct.trans pct⟩, ?_⟩
    intro spell now score shadow selfTest passes q member
    have below : roundTo 2 p < 10 := by
      have shown := (LiveGate.drawdownPasses_iff spell now _).mp passes
      rw [← pct, ← shownPct]
      exact shown
    by_contra reached
    have ten : roundTo 2 10 = 10 := by decide +kernel
    have high : roundTo 2 10 ≤ roundTo 2 p := roundTo_mono 2 ((not_lt.mp reached).trans (highest.2 member))
    rw [ten] at high
    exact absurd below (not_lt.mpr high)

/-- The drawdown in money of trades as the engine writes them is exact. -/
theorem maxDrawdownUsd_of_written (sqrt : ℚ → ℚ) (cfg : AnalyticsConfig) (positive : 0 < cfg.startingEquityUsd) (now : Text)
    {trades : List ClosedTrade} (written : ∀ t ∈ trades, t.exitTs = Datetime.isoformat t.exit) :
    ∃ d, IsGreatest (falls (equityCurve cfg (pnlsOf (byExit trades)))) d ∧
      (compute sqrt cfg now trades).maxDrawdownUsd = roundTo 2 d := by
  obtain ⟨-, shownUsd⟩ := compute_drawdown sqrt cfg now trades
  obtain ⟨a, b, largest, found⟩ := maxDrawdown_spec (head?_equityCurve cfg (pnlsOf (byExitTs trades))) positive
  rw [found] at shownUsd
  rw [← byExitTs_eq_byExit written]
  exact ⟨a - b, largest.largest, shownUsd⟩

/-! A fall of a fifth, and later a smaller one of more money. -/

theorem parseTs_isoformat (c : Civil) : parseTs (Datetime.isoformat c) = .ok (some c) := by
  have some : Datetime.isoformat c ≠ [] := by
    intro empty
    have read := Datetime.fromIsoformat_isoformat c
    rw [empty] at read
    cases read
  simp [parseTs, some, spellZone_eq_self (Datetime.not_mem_isoformat c), Datetime.fromIsoformat_isoformat,
    Datetime.toUtc]

def writtenTrade (exit : Civil) (pnl : ℚ) : ClosedTrade where
  exitTs := Datetime.isoformat exit
  exit
  realizedPnlUsd := pnl
  totalFeesUsd := 0
  holdingTimeS := 60
  maeBps := 0
  mfeBps := 0
  direction := txt "LONG"
  exitReason := txt "STOP"
  exitTs_reads := parseTs_isoformat exit

def threeTrades : List ClosedTrade := [
  writtenTrade ⟨2026, 1, 1, 0, 0, 0, 0, by decide⟩ (-20),
  writtenTrade ⟨2026, 1, 2, 0, 0, 0, 0, by decide⟩ 920,
  writtenTrade ⟨2026, 1, 3, 0, 0, 0, 0, by decide⟩ (-30)]

theorem drawdownExact_iff_three : (0 : ℚ) < (⟨100, 35040, 5⟩ : AnalyticsConfig).startingEquityUsd ∧
    (DrawdownExact (compute id ⟨100, 35040, 5⟩ (txt "2026-01-04T00:00:00+00:00") threeTrades)
        (equityCurve ⟨100, 35040, 5⟩ (pnlsOf (byExit threeTrades))) ↔
      FirstFallTells (equityCurve ⟨100, 35040, 5⟩ (pnlsOf (byExitTs threeTrades)))
        (equityCurve ⟨100, 35040, 5⟩ (pnlsOf (byExit threeTrades)))) :=
  ⟨by norm_num, drawdownExact_iff id ⟨100, 35040, 5⟩ (by norm_num) _ threeTrades⟩

/-- From 100 the equity falls to 80, rises to 1000 and falls to 970: three percent are reported. -/
theorem not_drawdownExact_three :
    ¬DrawdownExact (compute id { startingEquityUsd := 100 } (txt "2026-01-04T00:00:00+00:00") threeTrades)
      (equityCurve { startingEquityUsd := 100 } (pnlsOf (byExit threeTrades))) := by
  intro exactly
  obtain ⟨p, highest, pct⟩ := exactly.pct
  have curve : equityCurve { startingEquityUsd := 100 } (pnlsOf (byExit threeTrades)) = [100, 80, 1000, 970] := by
    decide +kernel
  have shown : (compute id { startingEquityUsd := 100 } (txt "2026-01-04T00:00:00+00:00") threeTrades).maxDrawdownPct =
      3 := by
    rw [(compute_drawdown _ _ _ _).1]
    decide +kernel
  have fifth : (20 : ℚ) ∈ pctFalls [100, 80, 1000, 970] := by
    exact ⟨100, 80, ⟨0, 1, by decide, rfl, rfl⟩, by norm_num⟩
  rw [curve] at highest
  have high : roundTo 2 20 ≤ roundTo 2 p := roundTo_mono 2 (highest.2 fifth)
  have twenty : roundTo 2 20 = 20 := by decide +kernel
  rw [← pct, shown, twenty] at high
  norm_num at high

end Senex.Portfolio.PortfolioAnalytics
