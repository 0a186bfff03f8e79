import Senex.Foundation.Dict
import Senex.Foundation.Float
import Senex.Foundation.PyValue
import Senex.Foundation.Transition

/-! # The paper execution engine

`ExecutionEngine` of `execution_engine.py` in paper mode.  The draws of its
generator, the clock, the new ids and the estimate of the fill simulator are
inputs; the numbers are a parameter.
-/

namespace Senex.Portfolio

open Text PyFloat

inductive Direction where
  | long
  | short
  deriving Repr, DecidableEq

def Direction.text : Direction → Text
  | .long => txt "LONG"
  | .short => txt "SHORT"

inductive OrderStatus where
  | new
  | submitted
  | partialFill
  | filled
  | canceled
  | rejected
  deriving Repr, DecidableEq

inductive PositionStatus where
  | opened
  | closed
  deriving Repr, DecidableEq

inductive ExitReason where
  | stop
  | target
  | timeStop
  | manual
  | killSwitch
  deriving Repr, DecidableEq

def ExitReason.text : ExitReason → Text
  | .stop => txt "STOP"
  | .target => txt "TARGET"
  | .timeStop => txt "TIME_STOP"
  | .manual => txt "MANUAL"
  | .killSwitch => txt "KILL_SWITCH"

structure EngineConfig (F : Type) where
  baseSlippageBps : F
  rngSlippageBps : F
  exitSlippageBps : F
  minFillPct : F
  bookDepthAssumedUsd : F
  maxRetries : Nat
  retryPriceImprovementBps : F
  takerFeeBps : F
  makerFeeBps : F
  useTakerByDefault : Bool
  defaultTimeStopMinutes : Int
  startingCash : F

/-- `DEFAULTS` -/
def EngineConfig.defaults (F : Type) [PyFloat F] : EngineConfig F where
  baseSlippageBps := lit 2
  rngSlippageBps := lit 4
  exitSlippageBps := lit 3
  minFillPct := lit (30 / 100)
  bookDepthAssumedUsd := lit 5000
  maxRetries := 2
  retryPriceImprovementBps := lit 1
  takerFeeBps := lit 5
  makerFeeBps := lit 2
  useTakerByDefault := true
  defaultTimeStopMinutes := 60
  startingCash := lit 10000

structure Order (F : Type) where
  orderId : Text
  symbol : Text
  direction : Direction
  orderedQty : F
  filledQty : F
  avgFillPrice : F
  limitPrice : F
  status : OrderStatus
  retries : Nat
  proposalId : Option Text
  totalFees : F
  riskUsd : F

structure Position (F : Type) where
  positionId : Text
  symbol : Text
  direction : Direction
  qty : F
  avgEntryPrice : F
  entryTs : Text
  stopPrice : F
  targetPrice : F
  timeStopMinutes : Int
  status : PositionStatus
  exitPrice : F
  exitTs : Text
  exitReason : Option ExitReason
  realizedPnl : F
  feesPaid : F
  riskUsd : F
  maePrice : F
  mfePrice : F
  proposalId : Option Text
  orderIds : List Text
  deriving DecidableEq

structure Engine (F : Type) where
  cfg : EngineConfig F
  /-- The number of orders under `orders`. -/
  orders : Nat
  orderCountOffset : Nat
  closedPositionCountOffset : Nat
  historicalClosedTradeIds : List Text
  positions : Dict Text (Position F)
  closedPositions : List (Position F)
  cash : F
  startingCash : F

/-- The members of an approved proposal that `submit` reads. -/
structure OrderProposal (F : Type) where
  symbol : Text
  direction : Direction
  sizeQty : F
  riskUsd : F
  predictionId : Option Text

/-- The draws of one attempt to fill. -/
structure FillDraw (F : Type) where
  noise : F
  slippage : F

/-- The estimate of the fill simulator, as far as it moves the books. -/
structure FillEstimate (F : Type) where
  expectedQty : F
  expectedVwapPrice : F
  expectedFeeUsd : F

section
variable {F : Type} [PyFloat F]

/-- `Random.uniform`, by the draw of `random()` behind it. -/
def uniformOf (a b random : F) : F := a + (b - a) * random

/-- `not x` of a number. -/
def isZero (x : F) : Bool := le x (lit 0) && le (lit 0) x

def Engine.start (cfg : EngineConfig F) : Engine F where
  cfg := cfg
  orders := 0
  orderCountOffset := 0
  closedPositionCountOffset := 0
  historicalClosedTradeIds := []
  positions := Dict.empty
  closedPositions := []
  cash := cfg.startingCash
  startingCash := cfg.startingCash

namespace Order

def remainingQty (o : Order F) : F := maximum (lit 0) (o.orderedQty - o.filledQty)

/-- The order behind a fill: fees, filled quantity and average price. -/
def addFill (o : Order F) (qty price fee : F) : Order F :=
  let newQty := o.filledQty + qty
  { o with
    totalFees := o.totalFees + fee
    avgFillPrice :=
      if lt (lit 0) newQty then (o.avgFillPrice * o.filledQty + price * qty) / newQty else price
    filledQty := newQty }

end Order

/-- The price at which a marketable order trades, worse by its slippage. -/
def slippedPrice (direction : Direction) (price slipBps : F) : F :=
  match direction with
  | .long => price * (lit 1 + slipBps / lit 10000)
  | .short => price * (lit 1 - slipBps / lit 10000)

namespace Engine

/-! ## Fills -/

def entrySlippage (cfg : EngineConfig F) (random : F) : F :=
  uniformOf cfg.baseSlippageBps (cfg.baseSlippageBps + cfg.rngSlippageBps) random

/-- The order that `submit` makes of a proposal of some size. -/
def newOrder (e : Engine F) (p : OrderProposal F) (sizeScale lastPrice random : F) (orderId : Text) :
    Order F where
  orderId := orderId
  symbol := p.symbol
  direction := p.direction
  orderedQty := round 8 (p.sizeQty * sizeScale)
  filledQty := lit 0
  avgFillPrice := lit 0
  limitPrice := round 6 (slippedPrice p.direction lastPrice (entrySlippage e.cfg random))
  status := .submitted
  retries := 0
  proposalId := p.predictionId
  totalFees := lit 0
  riskUsd := p.riskUsd * sizeScale

/-- The quantity that an attempt fills. -/
def fillQty (cfg : EngineConfig F) (o : Order F) (lastPrice : F) (bookDepthUsd : Option F) (noise : F) : F :=
  let remaining := o.remainingQty
  let notional := remaining * lastPrice
  let depth := match bookDepthUsd with
    | some depth => if isZero depth then cfg.bookDepthAssumedUsd else depth
    | none => cfg.bookDepthAssumedUsd
  let fillPct := if lt (lit 0) notional then minimum (lit 1) (depth / notional) else lit 0
  let fillPct := maximum cfg.minFillPct fillPct
  let fillPct := fillPct * uniformOf (lit (85 / 100)) (lit 1) noise
  remaining * minimum (lit 1) fillPct

def feeBps (cfg : EngineConfig F) : F := if cfg.useTakerByDefault then cfg.takerFeeBps else cfg.makerFeeBps

/-- The order behind an attempt that leaves a residual. -/
def retried (cfg : EngineConfig F) (o : Order F) (attempt : Nat) : Order F :=
  let improvement := cfg.retryPriceImprovementBps / lit 10000
  { o with
    status := .partialFill
    retries := attempt + 1
    limitPrice := match o.direction with
      | .long => o.limitPrice * (lit 1 + improvement)
      | .short => o.limitPrice * (lit 1 - improvement) }

/-- The attempts of `_try_fill` from `attempt` on: the order, the cash, and whether it is filled. -/
def attempts (cfg : EngineConfig F) (lastPrice : F) (bookDepthUsd : Option F)
    (draws : Nat → FillDraw F) : Nat → Nat → Order F → F → Order F × F × Bool
  | 0, _, o, cash => (o, cash, false)
  | left + 1, attempt, o, cash =>
      if le o.remainingQty (lit 0) then (o, cash, false)
      else
        let qty := fillQty cfg o lastPrice bookDepthUsd (draws attempt).noise
        if le qty (lit 0) then attempts cfg lastPrice bookDepthUsd draws left (attempt + 1) o cash
        else
          let price := slippedPrice o.direction lastPrice (entrySlippage cfg (draws attempt).slippage)
          let fee := qty * price * feeBps cfg / lit 10000
          let o := o.addFill qty price fee
          let cash := cash - fee
          if le o.remainingQty (lit (1 / 1000000000)) then ({ o with status := .filled }, cash, true)
          else
            attempts cfg lastPrice bookDepthUsd draws left (attempt + 1) (retried cfg o attempt) cash

/-! ## Positions -/

/-- The position of a filled order. -/
def positionOf (cfg : EngineConfig F) (o : Order F) (positionId now : Text) : Position F where
  positionId := positionId
  symbol := o.symbol
  direction := o.direction
  qty := o.filledQty
  avgEntryPrice := o.avgFillPrice
  entryTs := now
  stopPrice := lit 0
  targetPrice := lit 0
  timeStopMinutes := cfg.defaultTimeStopMinutes
  status := .opened
  exitPrice := lit 0
  exitTs := []
  exitReason := none
  realizedPnl := lit 0
  feesPaid := o.totalFees
  riskUsd := if lt (lit 0) o.orderedQty then o.riskUsd * o.filledQty / o.orderedQty else lit 0
  maePrice := lit 0
  mfePrice := lit 0
  proposalId := o.proposalId
  orderIds := [o.orderId]

/-- The open position under a symbol. -/
def openPosition (e : Engine F) (symbol : Text) : Option (Position F) :=
  (e.positions.get? symbol).filter fun p => p.status == .opened

/-- `_open_or_add_position` -/
def openOrAddPosition (e : Engine F) (o : Order F) (positionId now : Text) : Engine F :=
  if le o.filledQty (lit 0) then e
  else if (e.openPosition o.symbol).isSome then e
  else
    let pos := positionOf e.cfg o positionId now
    { e with
      positions := e.positions.set o.symbol pos
      cash := match pos.direction with
        | .short => e.cash + pos.qty * pos.avgEntryPrice
        | .long => e.cash - pos.qty * pos.avgEntryPrice }

/-- `_try_fill` -/
def tryFill (e : Engine F) (o : Order F) (lastPrice : F) (bookDepthUsd : Option F)
    (draws : Nat → FillDraw F) (positionId now : Text) : Engine F × Order F :=
  let (o, cash, filled) :=
    attempts e.cfg lastPrice bookDepthUsd draws (e.cfg.maxRetries + 1) 0 o e.cash
  let e := { e with cash := cash }
  if filled then (e.openOrAddPosition o positionId now, o)
  else if lt (lit 0) o.remainingQty then
    let o := { o with status := .canceled }
    (if lt (lit 0) o.filledQty then e.openOrAddPosition o positionId now else e, o)
  else (e, o)

/-- `_try_fill_high_fidelity`, by the estimate of the fill simulator. -/
def tryFillHighFidelity (e : Engine F) (o : Order F) (lastPrice : F) (estimate : FillEstimate F)
    (positionId now : Text) : Engine F × Order F :=
  if le (o.remainingQty * lastPrice) (lit 0) then (e, o)
  else if le estimate.expectedQty (lit 0) then (e, { o with status := .canceled })
  else
    let o := o.addFill estimate.expectedQty estimate.expectedVwapPrice estimate.expectedFeeUsd
    let e := { e with cash := e.cash - estimate.expectedFeeUsd }
    if le o.remainingQty (lit (1 / 1000000000)) then
      let o := { o with status := .filled }
      (e.openOrAddPosition o positionId now, o)
    else
      let o := { o with status := .canceled }
      (if lt (lit 0) o.filledQty then e.openOrAddPosition o positionId now else e, o)

/-- What `submit` draws and is given besides the proposal and the price. -/
structure SubmitInputs (F : Type) where
  orderId : Text
  positionId : Text
  now : Text
  limitSlippage : F
  bookDepthUsd : Option F
  draws : Nat → FillDraw F
  /-- The estimate on the book snapshot, when there is one. -/
  estimate : Option (FillEstimate F)

/-- `_make_rejected_order` -/
def rejectedOrder (p : OrderProposal F) (orderId : Text) : Order F :=
  ⟨orderId, p.symbol, p.direction, lit 0, lit 0, lit 0, lit 0, .rejected, 0, p.predictionId, lit 0, lit 0⟩

/-- `submit` -/
def submit (e : Engine F) (p : OrderProposal F) (sizeScale lastPrice : F) (inputs : SubmitInputs F) :
    Engine F × Order F :=
  let counted := { e with orders := e.orders + 1 }
  if le (p.sizeQty * sizeScale) (lit 0) then (counted, rejectedOrder p inputs.orderId)
  else
    let o := e.newOrder p sizeScale lastPrice inputs.limitSlippage inputs.orderId
    match inputs.estimate with
    | some estimate => counted.tryFillHighFidelity o lastPrice estimate inputs.positionId inputs.now
    | none => counted.tryFill o lastPrice inputs.bookDepthUsd inputs.draws inputs.positionId inputs.now

/-- `set_stop_target` without a time stop. -/
def setStopTarget (e : Engine F) (symbol : Text) (stopPrice targetPrice : F) : Engine F :=
  match e.openPosition symbol with
  | none => e
  | some pos => { e with positions := e.positions.set symbol { pos with
      stopPrice := stopPrice
      targetPrice := targetPrice
      maePrice := pos.avgEntryPrice
      mfePrice := pos.avgEntryPrice } }

/-! ## Exits -/

/-- The position with its excursions up to the tick. -/
def withExcursions (pos : Position F) (tickPrice : F) : Position F :=
  let mae := if isZero pos.maePrice then tickPrice else pos.maePrice
  let mfe := if isZero pos.mfePrice then tickPrice else pos.mfePrice
  match pos.direction with
  | .long => { pos with maePrice := minimum mae tickPrice, mfePrice := maximum mfe tickPrice }
  | .short => { pos with maePrice := maximum mae tickPrice, mfePrice := minimum mfe tickPrice }

/-- Why a tick closes the position. -/
def exitReasonOf (pos : Position F) (tickPrice : F) (tickTs : Text) (killSwitchActive : Bool) :
    Option ExitReason :=
  let level : Option ExitReason :=
    if killSwitchActive then some .killSwitch
    else match pos.direction with
      | .long =>
          if le tickPrice pos.stopPrice && lt (lit 0) pos.stopPrice then some .stop
          else if le pos.targetPrice tickPrice && lt (lit 0) pos.targetPrice then some .target
          else none
      | .short =>
          if le pos.stopPrice tickPrice && lt (lit 0) pos.stopPrice then some .stop
          else if le tickPrice pos.targetPrice && lt (lit 0) pos.targetPrice then some .target
          else none
  match level, elapsedMicros pos.entryTs tickTs with
  | some reason, _ => some reason
  | none, some micros => if pos.timeStopMinutes * 60000000 ≤ micros then some .timeStop else none
  | none, none => none

/-- The tick's price, worse by the slippage of the exit. -/
def exitPriceOf (cfg : EngineConfig F) (direction : Direction) (tickPrice random : F) : F :=
  let exitSlip := uniformOf (lit 0) cfg.exitSlippageBps random
  match direction with
  | .long => tickPrice * (lit 1 - exitSlip / lit 10000)
  | .short => tickPrice * (lit 1 + exitSlip / lit 10000)

def exitFeeOf (cfg : EngineConfig F) (pos : Position F) (exitPrice : F) : F :=
  pos.qty * exitPrice * cfg.takerFeeBps / lit 10000

def realizedGross (pos : Position F) (exitPrice : F) : F :=
  match pos.direction with
  | .long => (exitPrice - pos.avgEntryPrice) * pos.qty
  | .short => (pos.avgEntryPrice - exitPrice) * pos.qty

/-- The position as its exit leaves it. -/
def closedAs (cfg : EngineConfig F) (pos : Position F) (exitPrice : F) (tickTs : Text)
    (reason : ExitReason) : Position F :=
  let exitFee := exitFeeOf cfg pos exitPrice
  { pos with
    exitPrice := exitPrice
    exitTs := tickTs
    exitReason := some reason
    status := .closed
    realizedPnl := round 2 (realizedGross pos exitPrice - exitFee - pos.feesPaid)
    feesPaid := round 4 (pos.feesPaid + exitFee) }

/-- `check_exits`: the position it closes, if one. -/
def checkExits (e : Engine F) (symbol : Text) (tickPrice : F) (tickTs : Text)
    (killSwitchActive : Bool) (random : F) : Engine F × Option (Position F) :=
  match e.openPosition symbol with
  | none => (e, none)
  | some pos =>
      let pos := withExcursions pos tickPrice
      match exitReasonOf pos tickPrice tickTs killSwitchActive with
      | none => ({ e with positions := e.positions.set symbol pos }, none)
      | some reason =>
          let exitPrice := exitPriceOf e.cfg pos.direction tickPrice random
          let exitFee := exitFeeOf e.cfg pos exitPrice
          let closed := closedAs e.cfg pos exitPrice tickTs reason
          let cash := match pos.direction with
            | .long => e.cash + pos.qty * exitPrice
            | .short => e.cash - pos.qty * exitPrice
          ({ e with
              cash := cash - exitFee
              closedPositions := e.closedPositions ++ [closed]
              positions := e.positions.erase symbol }, some closed)

/-- `equity`, before its rounding. -/
def exactEquity (e : Engine F) (lastPrices : Dict Text F) : F :=
  e.positions.items.foldl (fun eq entry =>
    if entry.2.status = .opened then
      let last := (lastPrices.get? entry.1).getD entry.2.avgEntryPrice
      match entry.2.direction with
      | .long => eq + entry.2.qty * last
      | .short => eq - entry.2.qty * last
    else eq) e.cash

/-- `equity` -/
def equity (e : Engine F) (lastPrices : Dict Text F) : F := round 2 (e.exactEquity lastPrices)

end Engine

end

end Senex.Portfolio
