import Senex.Portfolio.ExecutionEngine

/-! # The fill simulator

`FillSimulator.simulate_fill` of `execution_fidelity.py` for marketable orders,
which are the only ones that the engine sends to it.  The square root is an input,
as the numbers are a parameter; the estimate keeps what moves the engine's books.
-/

namespace Senex

/-- `math.sqrt`; the root of a negative number raises and is not asked for.  The integer root of 64
more binary digits, with its remainder as a last one, rounds as the root does. -/
def Double.sqrt : Double → Double
  | .finite negative m e canonical =>
      if m = 0 then .finite negative m e canonical
      else
        let even := if e % 2 = 0 then (m, e) else (2 * m, e - 1)
        let extended := even.1 * 2 ^ 128
        let root := Nat.sqrt extended
        let sticky := if root * root = extended then 0 else 1
        Double.round (((2 * root + sticky : Nat) : ℚ) * 2 ^ (even.2 / 2 - 65))
  | x => x

end Senex

namespace Senex.Portfolio

open Text PyFloat

structure BookLevel (F : Type) where
  price : F
  size : F

structure BookSnapshot (F : Type) where
  bids : List (BookLevel F)
  asks : List (BookLevel F)
  lastTradePrice : F
  toxicFlowScore : F

structure SimulatorConfig (F : Type) where
  impactCoeff : F
  advAssumedUsd : F
  adverseSelectionToxic : F
  adverseSelectionNormal : F
  takerFeeBps : F
  maxLevelsToWalk : Nat
  maxEffectiveSlippageBps : F

/-- What a walk through the book has left to take and has taken. -/
structure Walk (F : Type) where
  remaining : F
  cumPxTimesQty : F
  cumQty : F

section
variable {F : Type} [PyFloat F]

/-- `DEFAULTS` -/
def SimulatorConfig.defaults (F : Type) [PyFloat F] : SimulatorConfig F where
  impactCoeff := lit (10 / 100)
  advAssumedUsd := lit 50000000
  adverseSelectionToxic := lit (25 / 10)
  adverseSelectionNormal := lit 1
  takerFeeBps := lit 5
  maxLevelsToWalk := 8
  maxEffectiveSlippageBps := lit 10000

namespace BookSnapshot

/-- The side that a marketable order takes from. -/
def levels (book : BookSnapshot F) : Direction → List (BookLevel F)
  | .long => book.asks
  | .short => book.bids

def mid (book : BookSnapshot F) : F :=
  match book.bids, book.asks with
  | bid :: _, ask :: _ => (bid.price + ask.price) / lit 2
  | _, _ => if isZero book.lastTradePrice then lit 0 else book.lastTradePrice

end BookSnapshot

namespace Walk

def start (notionalUsd : F) : Walk F := ⟨notionalUsd, lit 0, lit 0⟩

/-- One level of the walk. -/
def take (w : Walk F) (level : BookLevel F) : Walk F :=
  let takeNotional := minimum w.remaining (level.price * level.size)
  let takeQty := if lt (lit 0) level.price then takeNotional / level.price else lit 0
  ⟨w.remaining - takeNotional, w.cumPxTimesQty + level.price * takeQty, w.cumQty + takeQty⟩

/-- The levels one after another, until nothing remains to take. -/
def through (w : Walk F) : List (BookLevel F) → Walk F
  | [] => w
  | level :: levels => if le w.remaining (lit 0) then w else (w.take level).through levels

end Walk

/-- `walk_book`: the average price and the quantity. -/
def walkBook (direction : Direction) (notionalUsd : F) (book : BookSnapshot F) (maxLevels : Nat) : F × F :=
  let w := (Walk.start notionalUsd).through ((book.levels direction).take maxLevels)
  if le w.cumQty (lit 0) then (lit 0, lit 0) else (w.cumPxTimesQty / w.cumQty, w.cumQty)

/-- `estimate_market_impact` -/
def estimateMarketImpact (sqrt : F → F) (orderNotionalUsd advUsd impactCoeff : F) : F :=
  if le advUsd (lit 0) || le orderNotionalUsd (lit 0) then lit 0
  else impactCoeff * sqrt (orderNotionalUsd / advUsd) * lit 10000

/-- `_adverse_selection_multiplier` -/
def adverseSelectionMultiplier (cfg : SimulatorConfig F) (toxicFlowScore : F) : F :=
  let toxicScore := maximum (lit 0) (minimum (lit 1) toxicFlowScore)
  cfg.adverseSelectionNormal + (cfg.adverseSelectionToxic - cfg.adverseSelectionNormal) * toxicScore

def FillEstimate.noFill : FillEstimate F := ⟨lit 0, lit 0, lit 0⟩

/-- How far the fills of an order are from the middle of the book. -/
def slippageBps (sqrt : F → F) (cfg : SimulatorConfig F) (notionalUsd : F) (book : BookSnapshot F)
    (toxicFlowScore : Option F) (vwap : F) : F :=
  let rawSlipBps := absolute (vwap - book.mid) / book.mid * lit 10000
  let impactBps := estimateMarketImpact sqrt notionalUsd cfg.advAssumedUsd cfg.impactCoeff
  (rawSlipBps + impactBps) *
    adverseSelectionMultiplier cfg (toxicFlowScore.getD book.toxicFlowScore)

/-- `simulate_fill` of a marketable order. -/
def simulateFill (sqrt : F → F) (cfg : SimulatorConfig F) (direction : Direction) (notionalUsd : F)
    (book : BookSnapshot F) (toxicFlowScore : Option F) : FillEstimate F :=
  if le notionalUsd (lit 0) then FillEstimate.noFill
  else if book.bids.isEmpty && book.asks.isEmpty then FillEstimate.noFill
  else if le book.mid (lit 0) then FillEstimate.noFill
  else
    let (vwap, qty) := walkBook direction notionalUsd book cfg.maxLevelsToWalk
    if le qty (lit 0) then FillEstimate.noFill
    else
      let slippage := slippageBps sqrt cfg notionalUsd book toxicFlowScore vwap
      let effectiveVwap := slippedPrice direction book.mid slippage
      if le effectiveVwap (lit 0) then FillEstimate.noFill
      else if le cfg.maxEffectiveSlippageBps slippage then FillEstimate.noFill
      else
        let feeUsd := qty * effectiveVwap * cfg.takerFeeBps / lit 10000
        ⟨round 8 qty, round 6 effectiveVwap, round 4 feeUsd⟩

/-- `submit` with a book snapshot or without one, the simulator being on. -/
def Engine.submitOn (e : Engine F) (sqrt : F → F) (cfg : SimulatorConfig F) (p : OrderProposal F)
    (sizeScale lastPrice : F) (book : Option (BookSnapshot F)) (toxicFlowScore : Option F)
    (inputs : SubmitInputs F) : Engine F × Order F :=
  let o := e.newOrder p sizeScale lastPrice inputs.limitSlippage inputs.orderId
  e.submit p sizeScale lastPrice { inputs with
    estimate := book.map fun book =>
      simulateFill sqrt cfg p.direction (o.remainingQty * lastPrice) book toxicFlowScore }

end

end Senex.Portfolio
