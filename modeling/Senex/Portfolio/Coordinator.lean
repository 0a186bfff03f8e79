import Senex.Portfolio.Proposal

/-! # The portfolio coordinator

`ingest_prediction` and `on_tick` of `coordinator.py`, each finishing before the
next one starts: what they make of the execution engine, the risk kernel and the
last prices.  The observers' answers, the clock and the draws are inputs of a
call.
-/

namespace Senex.Portfolio

open Text PyFloat

structure CoordinatorConfig (F : Type) where
  portfolio : PortfolioConfig F
  risk : RiskConfig F
  engine : EngineConfig F

structure Coordinator (F : Type) where
  engine : Engine F
  kernel : KernelState F
  lastPrices : Dict Text F

/-- The arguments of `ingest_prediction`, with what it reads besides them. -/
structure Ingest (F : Type) where
  prediction : Prediction F
  lastPrice : Option F
  volPct : Option F
  edge : Direction → Option (EdgeContract F)
  label : Option (MetaLabel F)
  microstructure : Option (F → Text → Option (MicroReport F))
  now : Civil
  submit : Engine.SubmitInputs F

/-- The arguments of `on_tick`, with what it reads besides them. -/
structure Tick (F : Type) where
  symbol : Text
  price : F
  ts : Text
  random : F
  now : Civil

inductive CoordinatorCall (F : Type) where
  | ingest (input : Ingest F)
  | tick (input : Tick F)

section
variable {F : Type} [PyFloat F]

def Coordinator.start (cfg : CoordinatorConfig F) (now : Civil) : Coordinator F :=
  ⟨Engine.start cfg.engine, KernelState.fresh now cfg.risk.startingEquityUsd, Dict.empty⟩

namespace Ingest

/-- `last_price or float(prediction.get("price_now") or 0)` -/
def refPrice (input : Ingest F) : F :=
  match input.lastPrice with
  | some price => if isZero price then input.prediction.priceNow else price
  | none => input.prediction.priceNow

/-- Whether the prediction has a direction and a price to go on with. -/
def usable (input : Ingest F) : Bool :=
  (Direction.parse input.prediction.prediction).isSome && !le input.refPrice (lit 0)

end Ingest

namespace Coordinator

/-- The last price and the volatility regime that a prediction brings. -/
def observe (c : Coordinator F) (cfg : CoordinatorConfig F) (input : Ingest F) : Coordinator F :=
  { c with
    lastPrices := c.lastPrices.set input.prediction.symbol input.refPrice
    kernel := match input.volPct with
      | some volPct => c.kernel.updateVolRegime cfg.risk volPct
      | none => c.kernel }

/-- `_refresh_portfolio_state` -/
def portfolioState (c : Coordinator F) (cfg : CoordinatorConfig F) : PortfolioState F :=
  recomputeState (c.engine.positions.items.filter fun entry => entry.2.status == .opened)
    c.engine.cash cfg.portfolio.startingEquityUsd c.lastPrices

def propose (c : Coordinator F) (cfg : CoordinatorConfig F) (input : Ingest F) :
    Option (TradeProposal F) :=
  buildProposal cfg.portfolio (c.portfolioState cfg) input.prediction input.volPct input.edge input.label

/-- The members of the proposal that the risk kernel reads. -/
def riskProposal (p : TradeProposal F) : RiskProposal F :=
  ⟨p.confidence, p.entryPrice, p.direction.text, p.predictionId⟩

/-- The members of the proposal that the execution engine reads. -/
def orderProposal (p : TradeProposal F) : OrderProposal F :=
  ⟨p.symbol, p.direction, p.sizeQty, p.riskUsd, p.predictionId⟩

/-- `submit`, and the stop and the target of whatever is filled. -/
def place (c : Coordinator F) (input : Ingest F) (p : TradeProposal F) (sizeScale : F) : Coordinator F :=
  let (engine, order) := c.engine.submit (orderProposal p) sizeScale input.refPrice input.submit
  { c with
    engine :=
      if lt (lit 0) order.filledQty then
        engine.setStopTarget input.prediction.symbol p.stopPrice p.targetPrice
      else engine }

/-- A proposal before the risk kernel. -/
def decide (c : Coordinator F) (cfg : CoordinatorConfig F) (input : Ingest F) (p : TradeProposal F) :
    Coordinator F :=
  match c.kernel.evaluate cfg.risk input.now (riskProposal p) input.microstructure with
  | (kernel, .error _) => { c with kernel }
  | (kernel, .ok decision) =>
      if decision.approved then { c with kernel }.place input p decision.sizeScale else { c with kernel }

/-- The proposal that a prediction leads to, if it does. -/
def proposed (c : Coordinator F) (cfg : CoordinatorConfig F) (input : Ingest F) :
    Option (TradeProposal F) :=
  if input.usable then (c.observe cfg input).propose cfg input else none

/-- `ingest_prediction` -/
def ingest (c : Coordinator F) (cfg : CoordinatorConfig F) (input : Ingest F) : Coordinator F :=
  if input.usable then
    let c := c.observe cfg input
    match c.propose cfg input with
    | none => c
    | some p => c.decide cfg input p
  else c

/-- `on_tick` -/
def onTick (c : Coordinator F) (cfg : CoordinatorConfig F) (input : Tick F) : Coordinator F :=
  let lastPrices := c.lastPrices.set input.symbol input.price
  let (engine, closed) :=
    c.engine.checkExits input.symbol input.price input.ts c.kernel.killSwitchActive input.random
  { engine
    lastPrices
    kernel := match closed with
      | none => c.kernel
      | some pos =>
          (c.kernel.recordPnl cfg.risk input.now pos.realizedPnl (engine.equity lastPrices)).1 }

def step (cfg : CoordinatorConfig F) (c : Coordinator F) : CoordinatorCall F → Coordinator F
  | .ingest input => c.ingest cfg input
  | .tick input => c.onTick cfg input

end Coordinator

end

end Senex.Portfolio
