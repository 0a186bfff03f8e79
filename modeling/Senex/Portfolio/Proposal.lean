import Senex.Portfolio.ExecutionEngine
import Senex.Portfolio.RiskKernel

/-! # Proposals and the exposure state

`build_proposal` and `recompute_state` of `portfolio_engine.py`.  The edge
contract and the label of the meta-labeler are inputs, as they are read; the
rationale, a text that nothing reads, is left out.
-/

namespace Senex.Portfolio

open Text PyFloat

structure PortfolioConfig (F : Type) where
  startingEquityUsd : F
  baseRiskPct : F
  maxRiskPctPerTrade : F
  maxConcurrent : Int
  maxGrossExposurePct : F
  maxNetExposurePct : F
  heatMaxPct : F
  fixedStopPct : F
  fixedTargetPct : F
  volStopMultiplier : F
  minStopPct : F
  maxStopPct : F
  shortOnlyPaperMode : Bool

/-- The members of a prediction that the portfolio reads. -/
structure Prediction (F : Type) where
  prediction : Text
  symbol : Text
  priceNow : F
  confidence : F
  id : Option Text

structure EdgeContract (F : Type) where
  semantics : Text
  target : Text
  method : Text
  artifactSha256 : Text
  costModelSha256 : Text
  horizonSeconds : Int
  economicEdgeNetBps : F
  ci95LowNetBps : F
  executionCostBps : F

/-- The answer of the meta-labeler. -/
structure MetaLabel (F : Type) where
  takeTrade : Bool
  confidenceMult : F

structure TradeProposal (F : Type) where
  symbol : Text
  direction : Direction
  sizeUsd : F
  sizeQty : F
  entryPrice : F
  stopPrice : F
  targetPrice : F
  riskPerUnit : F
  riskUsd : F
  confidence : F
  ev : F
  predictionId : Option Text

structure PortfolioState (F : Type) where
  equity : F
  cash : F
  openPositions : List (Text × Position F)
  grossExposureUsd : F
  netExposureUsd : F
  portfolioHeatPct : F
  openCount : Nat

/-- `str.upper`, on the characters that fold into an ASCII letter. -/
def upperUnit (c : Nat) : Nat := if 97 ≤ c ∧ c ≤ 122 then c - 32 else if c = 0x17F then 83 else c

def pyUpper (t : Text) : Text := t.map upperUnit

/-- The direction of a prediction, when it is one to trade on. -/
def Direction.parse (t : Text) : Option Direction :=
  if pyUpper t = txt "LONG" then some .long
  else if pyUpper t = txt "SHORT" then some .short
  else none

section
variable {F : Type} [PyFloat F]

/-- `DEFAULTS` -/
def PortfolioConfig.defaults (F : Type) [PyFloat F] : PortfolioConfig F where
  startingEquityUsd := lit 10000
  baseRiskPct := lit (5 / 1000)
  maxRiskPctPerTrade := lit (20 / 1000)
  maxConcurrent := 3
  maxGrossExposurePct := lit (150 / 100)
  maxNetExposurePct := lit 1
  heatMaxPct := lit (45 / 1000)
  fixedStopPct := lit (20 / 1000)
  fixedTargetPct := lit (40 / 1000)
  volStopMultiplier := lit (150 / 100)
  minStopPct := lit (5 / 1000)
  maxStopPct := lit (60 / 1000)
  shortOnlyPaperMode := false

/-- `math.isfinite` -/
def isFinite (x : F) : Bool := isZero (x - x)

def validSha256 (value : Text) : Bool :=
  value.length == 64 && value.all fun c => isDigit c || (decide (97 ≤ c) && decide (c ≤ 102))

/-- `_validated_net_edge_contract` -/
def validatedNetEdgeContract (contract : EdgeContract F) : Option (EdgeContract F) :=
  let method := strip contract.method
  let artifactSha256 := pyLower (strip contract.artifactSha256)
  let costModelSha256 := pyLower (strip contract.costModelSha256)
  let edge := contract.economicEdgeNetBps
  let low := contract.ci95LowNetBps
  let cost := contract.executionCostBps
  if contract.semantics = txt "VALIDATED_OOS_NET_EDGE" ∧ contract.target = txt "NET_RETURN_1H" ∧
      contract.horizonSeconds = 3600 ∧ method ≠ [] ∧ validSha256 artifactSha256 ∧
      validSha256 costModelSha256 ∧ isFinite edge ∧ isFinite low ∧ isFinite cost ∧
      ¬le edge (lit 0) ∧ ¬le low (lit 0) ∧ ¬lt edge low ∧ ¬lt cost (lit 0) then
    some { contract with method, artifactSha256, costModelSha256 }
  else none

/-- The stop distance as a fraction of the price. -/
def stopPctOf (cfg : PortfolioConfig F) (volPct : Option F) : F :=
  let volStop := volPct.getD (lit 0) * cfg.volStopMultiplier
  let stopPct := maximum volStop cfg.fixedStopPct
  maximum cfg.minStopPct (minimum cfg.maxStopPct stopPct)

def stopPriceOf (direction : Direction) (priceNow stopPct : F) : F :=
  match direction with
  | .long => priceNow * (lit 1 - stopPct)
  | .short => priceNow * (lit 1 + stopPct)

def targetPriceOf (direction : Direction) (priceNow targetPct : F) : F :=
  match direction with
  | .long => priceNow * (lit 1 + targetPct)
  | .short => priceNow * (lit 1 - targetPct)

def riskPerUnitOf (direction : Direction) (priceNow stopPrice : F) : F :=
  match direction with
  | .long => priceNow - stopPrice
  | .short => stopPrice - priceNow

def riskPctOf (cfg : PortfolioConfig F) : F := minimum cfg.baseRiskPct cfg.maxRiskPctPerTrade

/-- An amount with the sign of its direction. -/
def Direction.signed (direction : Direction) (amount : F) : F :=
  match direction with
  | .long => amount
  | .short => -amount

/-- `build_proposal`, on a label that is `none` where the meta-labeler fails. -/
def buildProposal (cfg : PortfolioConfig F) (state : PortfolioState F) (prediction : Prediction F)
    (volPct : Option F) (edge : Direction → Option (EdgeContract F))
    (label : Option (MetaLabel F)) : Option (TradeProposal F) := do
  let direction ← Direction.parse prediction.prediction
  guard ¬(direction = .long ∧ cfg.shortOnlyPaperMode)
  let priceNow := prediction.priceNow
  guard ¬le priceNow (lit 0)
  let contract ← (edge direction).bind validatedNetEdgeContract
  guard ¬cfg.maxConcurrent ≤ state.openCount
  guard ¬(state.openPositions.any fun entry => entry.1 == prediction.symbol)
  let stopPrice := stopPriceOf direction priceNow (stopPctOf cfg volPct)
  let targetPrice := targetPriceOf direction priceNow cfg.fixedTargetPct
  let riskPerUnit := riskPerUnitOf direction priceNow stopPrice
  guard ¬le riskPerUnit (lit 0)
  guard (label.all (·.takeTrade))
  let confidence := match label with
    | some label => prediction.confidence * label.confidenceMult
    | none => prediction.confidence
  let riskUsd := riskPctOf cfg * state.equity
  let sizeQty := riskUsd / riskPerUnit
  let sizeUsd := sizeQty * priceNow
  guard ¬(le sizeQty (lit 0) || le sizeUsd (lit 1))
  let newGross := state.grossExposureUsd + sizeUsd
  let newNet := state.netExposureUsd + direction.signed sizeUsd
  let newHeat := state.portfolioHeatPct + riskUsd / state.equity
  guard ¬lt (cfg.maxGrossExposurePct * state.equity) newGross
  guard ¬lt (cfg.maxNetExposurePct * state.equity) (absolute newNet)
  guard ¬lt cfg.heatMaxPct newHeat
  return {
    symbol := prediction.symbol
    direction := direction
    sizeUsd := round 2 sizeUsd
    sizeQty := round 6 sizeQty
    entryPrice := round 6 priceNow
    stopPrice := round 6 stopPrice
    targetPrice := round 6 targetPrice
    riskPerUnit := round 6 riskPerUnit
    riskUsd := round 2 riskUsd
    confidence := round 4 confidence
    ev := round 8 (contract.economicEdgeNetBps / lit 10000)
    predictionId := prediction.id }

/-- The sums of the loop over the open positions. -/
structure Exposure (F : Type) where
  gross : F
  net : F
  heat : F
  equity : F
  openCount : Nat

/-- One turn of the loop. -/
def Exposure.include (startingEquity : F) (lastPrices : Dict Text F) (x : Exposure F)
    (entry : Text × Position F) : Exposure F :=
  let p := entry.2
  let last := (lastPrices.get? entry.1).getD p.avgEntryPrice
  let notional := p.qty * last
  { gross := x.gross + notional
    net := x.net + p.direction.signed notional
    heat := x.heat + p.riskUsd / maximum startingEquity (lit 1)
    equity := match p.direction with
      | .long => x.equity + last * p.qty
      | .short => x.equity - last * p.qty
    openCount := x.openCount + 1 }

/-- `recompute_state`, on the open positions -/
def recomputeState (openPositions : List (Text × Position F)) (cash startingEquity : F)
    (lastPrices : Dict Text F) : PortfolioState F :=
  let x := openPositions.foldl (Exposure.include startingEquity lastPrices)
    ⟨lit 0, lit 0, lit 0, cash, 0⟩
  { equity := round 2 x.equity
    cash := round 2 cash
    openPositions := openPositions
    grossExposureUsd := round 2 x.gross
    netExposureUsd := round 2 x.net
    portfolioHeatPct := round 4 x.heat
    openCount := x.openCount }

end

end Senex.Portfolio
