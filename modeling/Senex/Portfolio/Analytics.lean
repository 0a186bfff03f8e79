import Senex.Foundation.Dict
import Senex.Foundation.Nearest
import Senex.Foundation.Sorting
import Senex.Portfolio.ClosedJournal

/-! # Portfolio analytics

`PortfolioAnalytics.compute` in exact arithmetic, with `math.sqrt` as a parameter.  A metric can
be infinite.  The trades are sorted by the texts of their exit times.
-/

namespace Senex.Portfolio

open Text

/-- What the analytics read of a closed trade, with the exit time that its text stands for. -/
structure ClosedTrade where
  exitTs : Text
  exit : Civil
  realizedPnlUsd : ℚ
  totalFeesUsd : ℚ
  holdingTimeS : ℚ
  maeBps : ℚ
  mfeBps : ℚ
  direction : Text
  exitReason : Text
  exitTs_reads : parseTs exitTs = .ok (some exit)

structure AnalyticsConfig where
  startingEquityUsd : ℚ := 10000
  tradesPerYear : ℚ := 35040
  minTradesForMetrics : Nat := 5

/-- A number or `float("inf")`. -/
inductive Metric where
  | finite (q : ℚ)
  | infinite
  deriving DecidableEq

def Metric.round (digits : Nat) : Metric → Metric
  | .finite q => .finite (roundTo digits q)
  | .infinite => .infinite

/-- `sum(xs) / len(xs) if xs else 0.0` -/
def mean (xs : List ℚ) : ℚ := if xs = [] then 0 else xs.sum / xs.length

structure DirectionStats where
  n : Nat
  winRatePct : ℚ
  totalPnlUsd : ℚ
  avgPnlUsd : ℚ
  profitFactor : Metric

structure AnalyticsReport where
  nTrades : Nat
  sufficientData : Bool
  reason : Option Text
  startingEquityUsd : ℚ
  endingEquityUsd : ℚ
  totalPnlUsd : ℚ
  totalFeesUsd : ℚ
  netPnlUsd : ℚ
  totalReturnPct : ℚ
  winRatePct : ℚ
  nWins : Nat
  nLosses : Nat
  avgWinUsd : ℚ
  avgLossUsd : ℚ
  winLossRatio : Metric
  sharpe : ℚ
  sortino : Metric
  profitFactor : Metric
  expectancyUsd : ℚ
  recoveryFactor : Metric
  calmar : Metric
  kellyFraction : ℚ
  maxDrawdownPct : ℚ
  maxDrawdownUsd : ℚ
  avgHoldingTimeS : ℚ
  avgMaeBps : ℚ
  avgMfeBps : ℚ
  equityCurve : List ℚ
  byDirection : List (Text × DirectionStats)
  byExitReason : List (Text × (Nat × ℚ))
  computedAt : Text

namespace PortfolioAnalytics

/-! ## The metrics -/

/-- `sum((r - mean_r) ** 2 for r in rets) / (len(rets) - 1)` -/
def variance (rets : List ℚ) : ℚ := (rets.map fun r => (r - mean rets) ^ 2).sum / (rets.length - 1)

def sharpe (sqrt : ℚ → ℚ) (cfg : AnalyticsConfig) (rets : List ℚ) : ℚ :=
  if rets.length < 2 then 0
  else
    let std := sqrt (variance rets)
    if std = 0 then 0 else mean rets / std * sqrt cfg.tradesPerYear

def sortino (sqrt : ℚ → ℚ) (cfg : AnalyticsConfig) (rets : List ℚ) : Metric :=
  let unbounded : Metric := if mean rets > 0 then .infinite else .finite 0
  let downside := rets.filter (· < 0)
  if rets.length < 2 then .finite 0
  else if downside = [] then unbounded
  else
    let downsideStd := sqrt ((downside.map (· ^ 2)).sum / rets.length)
    if downsideStd = 0 then unbounded else .finite (mean rets / downsideStd * sqrt cfg.tradesPerYear)

def profitFactor (wins losses : List ℚ) : Metric :=
  if |losses.sum| = 0 then (if wins.sum > 0 then .infinite else .finite 0) else .finite (wins.sum / |losses.sum|)

def expectancy (wins losses : List ℚ) (n : Nat) : ℚ :=
  if n = 0 then 0 else wins.length / n * mean wins + losses.length / n * mean losses

/-- The running peak, the largest fall from it, and its percentage when it was found. -/
structure Drawdown where
  peak : ℚ
  maxDdUsd : ℚ
  maxDdPct : ℚ

/-- The body of the loop over the equity curve. -/
def Drawdown.step (d : Drawdown) (eq : ℚ) : Drawdown :=
  let peak := if eq > d.peak then eq else d.peak
  let ddUsd := peak - eq
  if ddUsd > d.maxDdUsd then ⟨peak, ddUsd, if peak > 0 then ddUsd / peak * 100 else 0⟩ else { d with peak }

/-- `_max_drawdown`: in percent and in money. -/
def maxDrawdown : List ℚ → ℚ × ℚ
  | first :: second :: rest =>
      let d := (second :: rest).foldl Drawdown.step ⟨first, 0, 0⟩
      (d.maxDdPct, d.maxDdUsd)
  | _ => (0, 0)

def recoveryFactor (pnls : List ℚ) (maxDdUsd : ℚ) : Metric :=
  if maxDdUsd = 0 then (if pnls.sum > 0 then .infinite else .finite 0) else .finite (pnls.sum / maxDdUsd)

def calmar (cfg : AnalyticsConfig) (rets : List ℚ) (maxDdPct : ℚ) : Metric :=
  if maxDdPct = 0 then (if rets.sum > 0 then .infinite else .finite 0)
  else .finite (mean rets * cfg.tradesPerYear * 100 / maxDdPct)

def kelly (wins losses : List ℚ) : ℚ :=
  let n := wins.length + losses.length
  let winRate : ℚ := wins.length / n
  let avgLoss := |mean losses|
  let sure : ℚ := if winRate > 0 then 1 else 0
  if n = 0 then 0
  else if losses = [] then sure
  else if avgLoss = 0 then sure
  else
    let ratio := mean wins / avgLoss
    if ratio = 0 then 0 else max 0 (min 1 (winRate - (1 - winRate) / ratio))

/-! ## The report -/

/-- The starting equity and the equity after each trade. -/
def equityCurve (cfg : AnalyticsConfig) (pnls : List ℚ) : List ℚ := pnls.scanl (· + ·) cfg.startingEquityUsd

/-- `sorted(trades, key=lambda t: t.get("exit_ts") or "")` -/
def byExitTs (trades : List ClosedTrade) : List ClosedTrade := sortedBy ClosedTrade.exitTs trades

def pnlsOf (trades : List ClosedTrade) : List ℚ := trades.map ClosedTrade.realizedPnlUsd

def directionStats (trades : List ClosedTrade) (direction : Text) : DirectionStats :=
  let sub := pnlsOf (trades.filter fun t => upper t.direction = direction)
  let subWins := sub.filter (· > 0)
  let subLosses := sub.filter (· < 0)
  { n := sub.length
    winRatePct := if sub = [] then 0 else roundTo 2 (subWins.length / sub.length * 100)
    totalPnlUsd := roundTo 2 sub.sum
    avgPnlUsd := if sub = [] then 0 else roundTo 2 (sub.sum / sub.length)
    profitFactor := Metric.round 2
      (if subLosses ≠ [] ∧ subLosses.sum ≠ 0 then .finite (subWins.sum / |subLosses.sum|)
      else if subWins ≠ [] then .infinite
      else .finite 0) }

/-- The trades and their P&L under each reason for the exit. -/
def exitReasons (trades : List ClosedTrade) : Dict Text (Nat × ℚ) :=
  trades.foldl (fun byReason t =>
    let reason := if t.exitReason = [] then txt "UNKNOWN" else t.exitReason
    let entry := (byReason.get? reason).getD (0, 0)
    byReason.set reason (entry.1 + 1, entry.2 + t.realizedPnlUsd)) Dict.empty

def emptyReport (reason now : Text) : AnalyticsReport where
  nTrades := 0
  sufficientData := false
  reason := some reason
  startingEquityUsd := 0
  endingEquityUsd := 0
  totalPnlUsd := 0
  totalFeesUsd := 0
  netPnlUsd := 0
  totalReturnPct := 0
  winRatePct := 0
  nWins := 0
  nLosses := 0
  avgWinUsd := 0
  avgLossUsd := 0
  winLossRatio := .finite 0
  sharpe := 0
  sortino := .finite 0
  profitFactor := .finite 0
  expectancyUsd := 0
  recoveryFactor := .finite 0
  calmar := .finite 0
  kellyFraction := 0
  maxDrawdownPct := 0
  maxDrawdownUsd := 0
  avgHoldingTimeS := 0
  avgMaeBps := 0
  avgMfeBps := 0
  equityCurve := []
  byDirection := []
  byExitReason := []
  computedAt := now

def compute (sqrt : ℚ → ℚ) (cfg : AnalyticsConfig) (now : Text) (trades : List ClosedTrade) : AnalyticsReport :=
  if trades = [] then emptyReport (txt "no_trades") now
  else
    let n := trades.length
    let trades := byExitTs trades
    let pnls := pnlsOf trades
    let wins := pnls.filter (· > 0)
    let losses := pnls.filter (· < 0)
    let curve := equityCurve cfg pnls
    let rets := (pnls.zip curve).map fun entry => entry.1 / (if entry.2 ≠ 0 then entry.2 else 1)
    let drawdown := maxDrawdown curve
    { nTrades := n
      sufficientData := decide (cfg.minTradesForMetrics ≤ n)
      reason := none
      startingEquityUsd := cfg.startingEquityUsd
      endingEquityUsd := roundTo 2 (curve.getLast?.getD 0)
      totalPnlUsd := roundTo 2 pnls.sum
      totalFeesUsd := roundTo 2 (trades.map ClosedTrade.totalFeesUsd).sum
      netPnlUsd := roundTo 2 pnls.sum
      totalReturnPct := roundTo 2 (pnls.sum / cfg.startingEquityUsd * 100)
      winRatePct := roundTo 2 (wins.length / n * 100)
      nWins := wins.length
      nLosses := losses.length
      avgWinUsd := roundTo 2 (mean wins)
      avgLossUsd := roundTo 2 (mean losses)
      winLossRatio := if mean losses ≠ 0 then .finite (roundTo 3 (mean wins / |mean losses|)) else .infinite
      sharpe := roundTo 3 (sharpe sqrt cfg rets)
      sortino := (sortino sqrt cfg rets).round 3
      profitFactor := (profitFactor wins losses).round 3
      expectancyUsd := roundTo 2 (expectancy wins losses n)
      recoveryFactor := (recoveryFactor pnls drawdown.2).round 3
      calmar := (calmar cfg rets drawdown.1).round 3
      kellyFraction := roundTo 4 (kelly wins losses)
      maxDrawdownPct := roundTo 2 drawdown.1
      maxDrawdownUsd := roundTo 2 drawdown.2
      avgHoldingTimeS := roundTo 1 ((trades.map ClosedTrade.holdingTimeS).sum / n)
      avgMaeBps := roundTo 2 ((trades.map ClosedTrade.maeBps).sum / n)
      avgMfeBps := roundTo 2 ((trades.map ClosedTrade.mfeBps).sum / n)
      equityCurve := (curve.drop (curve.length - 100)).map (roundTo 2)
      byDirection := [txt "LONG", txt "SHORT"].map fun direction => (direction, directionStats trades direction)
      byExitReason := (exitReasons trades).items.map fun entry => (entry.1, (entry.2.1, roundTo 2 entry.2.2))
      computedAt := now }

end PortfolioAnalytics

end Senex.Portfolio
