import Senex.Foundation.Digits
import Senex.Foundation.Float
import Senex.Foundation.Stamp
import Senex.MarketData.Klines
import Senex.Simulator.Execution

/-! # The Binance simulation lane

`BinanceSimLane` of `binance_sim_lane.py`: one simulated position that follows the
predictions.  The numbers are a parameter.  What only the public projection shows
is left out, the labels and the last signal, and so is the text of the state file:
its write is an input, which may raise.
-/

namespace Senex.Simulator

open Text

/-! ## The prediction -/

/-- `_parse_ts`; `none` where it raises. -/
def parseTs : PyValue → Option Double
  | .int n =>
      let result := Double.round n
      if result.isFinite then some result else none
  | .float x => if x.isFinite then some x else none
  | .str t =>
      if strip t = [] then none
      else
        match Datetime.fromIsoformat (spellZone (strip t)) with
        | some ⟨civil, some offset⟩ => (Datetime.toUtc civil offset).map Datetime.timestamp
        | _ => none
  | _ => none

/-- `_iso_from_epoch` -/
def isoFromEpoch (value : Double) : Py Text :=
  let fraction := Double.round (value.value - ⌊value.value⌋) * Double.round 1000000
  let micros := ⌊value.value⌋ * 1000000 + Double.halfEven fraction.value + MarketData.epochMicros
  orRaise ((if micros < 0 then none else Datetime.ofMicros micros.toNat).map Datetime.stamp) .valueError
    (txt "year is out of range")

/-- `_normalize_symbol`; the text of a list or of a `dict` is no symbol. -/
def normalizeSymbol (value : PyValue) : Option Text :=
  value.textOrEmpty.map fun t => strip ((upper t).filter fun c => c != 47 && c != 45)

/-- `_finite_positive` -/
def finitePositive (value : PyValue) : Py (Option Double) := do
  match ← attempt PyError.isTypeOrValue value.number with
  | none => return none
  | some number => return if !number.isFinite || decide (number.value ≤ 0) then none else some number

/-- `int(prediction.get("id") or 0)` -/
def predictionNumber (prediction : PyValue) : Py Int :=
  let id := prediction.get (txt "id")
  if id.truthy then
    match id with
    | .str t => (PyValue.str (toAscii t)).toInt
    | id => id.toInt
  else .ok 0

def directionOf (prediction : PyValue) : Option Side :=
  sideOf ((prediction.get (txt "prediction")).textOrEmpty.map upper)

/-! ## The lane -/

structure LanePosition (F : Type) where
  positionId : Text
  direction : Side
  referencePrice : F
  entryPrice : F
  qty : F
  notionalUsdt : F
  stopPrice : F
  targetPrice : F
  openedAt : Text
  openedEpoch : F
  entryFeeUsdt : F

structure ClosedTrade (F : Type) extends LanePosition F where
  exitReferencePrice : F
  exitPrice : F
  closedAt : Text
  exitReason : ExitReason
  grossPnlUsdt : F
  exitFeeUsdt : F
  netPnlUsdt : F
  cashAfterUsdt : F

structure BinanceSimLane (F : Type) where
  loadError : Bool
  startingBankrollUsdt : F
  cashUsdt : F
  feesPaidUsdt : F
  realizedPnlUsdt : F
  totalSimulatedOrders : Nat
  closedTrades : List (ClosedTrade F)
  openPosition : Option (LanePosition F)
  lastMarkPrice : Option F
  updatedAt : Option Text
  /-- No member of the source: all the trades that were closed. -/
  history : List (ClosedTrade F)

/-- The `action` of an answer, with its `reason`. -/
inductive LaneAction where
  | blocked
  | ignored (reason : Text)
  | opened
  | closed (reason : ExitReason)
  | held
  deriving DecidableEq

namespace BinanceSimLane

variable {F : Type} [PyFloat F]

open PyFloat

def maxNotionalPct : F := lit (25 / 100)
def entrySlippageBps : F := lit 2
def exitSlippageBps : F := lit 3
def takerFeeBps : F := lit 5
def timeStopSeconds : F := lit 3600
@[irreducible] def maxClosedTrades : Nat := 500

/-- `_fresh_state` -/
def fresh (startingBankrollUsdt : F) : BinanceSimLane F where
  loadError := false
  startingBankrollUsdt
  cashUsdt := startingBankrollUsdt
  feesPaidUsdt := lit 0
  realizedPnlUsdt := lit 0
  totalSimulatedOrders := 0
  closedTrades := []
  openPosition := none
  lastMarkPrice := none
  updatedAt := none
  history := []

/-- `_directional_pnl` -/
def directionalPnl (position : LanePosition F) (markPrice : F) : F :=
  match position.direction with
  | .long => position.qty * (markPrice - position.entryPrice)
  | .short => position.qty * (position.entryPrice - markPrice)

/-- The fee on the leg of that quantity at that price. -/
def legFee (qty price : F) : F := absolute (qty * price) * takerFeeBps / lit 10000

/-- `_equity`; the last mark price is a checked one. -/
def equity (lane : BinanceSimLane F) : F :=
  match lane.openPosition, lane.lastMarkPrice with
  | some position, some mark =>
      lane.cashUsdt + directionalPnl position mark - legFee position.qty mark
  | _, _ => lane.cashUsdt

/-- The sign of the entry slippage; that of the exit is the other one. -/
def entrySign : Side → F
  | .long => lit 1
  | .short => lit (-1)

def exitSign : Side → F
  | .long => lit (-1)
  | .short => lit 1

/-- `_open` -/
def openTrade (lane : BinanceSimLane F) (direction : Side) (referencePrice : F) (eventTs : Double)
    (eventAt : Text) (prediction : PyValue) (persist : Py Unit) : BinanceSimLane F × Py LaneAction :=
  let equityBefore := lane.equity
  if le equityBefore (lit 0) then (lane, .ok (.ignored (txt "NO_EQUITY")))
  else
    let notional := minimum (equityBefore * maxNotionalPct) (maximum (lit 0) lane.cashUsdt)
    if le notional (lit 0) then (lane, .ok (.ignored (txt "NO_CASH")))
    else
      let entryPrice := referencePrice * (lit 1 + entrySign direction * entrySlippageBps / lit 10000)
      let entryFee := notional * takerFeeBps / lit 10000
      let away (pct : ℚ) : F := match direction with
        | .long => entryPrice * (lit 1 - lit pct)
        | .short => entryPrice * (lit 1 + lit pct)
      match predictionNumber prediction with
      | .error raised => (lane, .error raised)
      | .ok number =>
          let position : LanePosition F := {
            positionId := txt "sim-" ++ Senex.intText eventTs.trunc ++ 45 :: Senex.intText number
            direction
            referencePrice
            entryPrice
            qty := notional / entryPrice
            notionalUsdt := notional
            stopPrice := away (2 / 100)
            targetPrice := away (-4 / 100)
            openedAt := eventAt
            openedEpoch := ofDouble eventTs
            entryFeeUsdt := entryFee }
          ({ lane with
            cashUsdt := lane.cashUsdt - entryFee
            feesPaidUsdt := lane.feesPaidUsdt + entryFee
            totalSimulatedOrders := lane.totalSimulatedOrders + 1
            openPosition := some position
            updatedAt := some eventAt }, persist.map fun _ => .opened)

/-- The trade of a close, as it is kept. -/
def tradeOf (lane : BinanceSimLane F) (position : LanePosition F) (referencePrice : F) (eventAt : Text)
    (reason : ExitReason) : ClosedTrade F :=
  let exitPrice := referencePrice * (lit 1 + exitSign position.direction * exitSlippageBps / lit 10000)
  let grossPnl := directionalPnl position exitPrice
  let exitFee := legFee position.qty exitPrice
  { position with
    exitReferencePrice := referencePrice
    exitPrice
    closedAt := eventAt
    exitReason := reason
    grossPnlUsdt := grossPnl
    exitFeeUsdt := exitFee
    netPnlUsdt := grossPnl - position.entryFeeUsdt - exitFee
    cashAfterUsdt := lane.cashUsdt + grossPnl - exitFee }

/-- `trades[-MAX_CLOSED_TRADES:]` -/
def lastTrades (trades : List (ClosedTrade F)) : List (ClosedTrade F) :=
  trades.drop (trades.length - maxClosedTrades)

/-- `_close` -/
def closeTrade (lane : BinanceSimLane F) (position : LanePosition F) (referencePrice : F) (eventAt : Text)
    (reason : ExitReason) (persist : Py Unit) : BinanceSimLane F × Py LaneAction :=
  let trade := lane.tradeOf position referencePrice eventAt reason
  ({ lane with
    cashUsdt := trade.cashAfterUsdt
    feesPaidUsdt := lane.feesPaidUsdt + trade.exitFeeUsdt
    realizedPnlUsdt := trade.cashAfterUsdt - lane.startingBankrollUsdt
    closedTrades := lastTrades (lane.closedTrades ++ [trade])
    openPosition := none
    updatedAt := some eventAt
    history := lane.history ++ [trade] }, persist.map fun _ => .closed reason)

/-- `_exit_reason` -/
def exitReason (position : LanePosition F) (mark eventTs : F) : Option ExitReason :=
  let (stopped, reached) := match position.direction with
    | .long => (le mark position.stopPrice, le position.targetPrice mark)
    | .short => (le position.stopPrice mark, le mark position.targetPrice)
  if stopped then some .stop
  else if reached then some .target
  else if le timeStopSeconds (eventTs - position.openedEpoch) then some .timeStop
  else none

/-- A write of the state behind a change of it. -/
def touch (lane : BinanceSimLane F) (eventAt : Text) (persist : Py Unit) (action : LaneAction) :
    BinanceSimLane F × Py LaneAction :=
  ({ lane with updatedAt := some eventAt }, persist.map fun _ => action)

/-- What `on_prediction` does with a prediction of a price and a time. -/
def onObservation (lane : BinanceSimLane F) (direction : Option Side) (referencePrice : F)
    (eventTs : Double) (prediction : PyValue) (persist : Py Unit) : BinanceSimLane F × Py LaneAction :=
  let lane := { lane with lastMarkPrice := some referencePrice }
  match isoFromEpoch eventTs with
  | .error raised => (lane, .error raised)
  | .ok eventAt =>
      match lane.openPosition with
      | some position =>
          match exitReason position referencePrice (ofDouble eventTs) with
          | some reason => lane.closeTrade position referencePrice eventAt reason persist
          | none => lane.touch eventAt persist .held
      | none =>
          match direction with
          | none => lane.touch eventAt persist (.ignored (txt "NON_DIRECTIONAL_SIGNAL"))
          | some direction =>
              lane.openTrade direction referencePrice eventTs eventAt prediction persist

/-- `on_prediction` -/
def onPrediction (lane : BinanceSimLane F) (prediction : PyValue) (persist : Py Unit) :
    BinanceSimLane F × Py LaneAction :=
  if lane.loadError then (lane, .ok .blocked)
  else if !prediction.isDict then (lane, .ok (.ignored (txt "INVALID_PREDICTION")))
  else if normalizeSymbol (prediction.get (txt "symbol")) ≠ some (txt "BTCUSDT") then
    (lane, .ok (.ignored (txt "NON_BTC_SYMBOL")))
  else
    match finitePositive (prediction.get (txt "price_now")) with
    | .error raised => (lane, .error raised)
    | .ok none => (lane, .ok (.ignored (txt "INVALID_REFERENCE_PRICE")))
    | .ok (some referencePrice) =>
        let ts := prediction.get (txt "ts")
        match parseTs (if ts.truthy then ts else prediction.get (txt "timestamp")) with
        | none => (lane, .ok (.ignored (txt "INVALID_TIMESTAMP")))
        | some eventTs =>
            lane.onObservation (directionOf prediction) (ofDouble referencePrice) eventTs prediction persist

/-- One call, with what the write of its state comes to. -/
def step (lane : BinanceSimLane F) (call : PyValue × Py Unit) : BinanceSimLane F :=
  (lane.onPrediction call.1 call.2).1

end BinanceSimLane

end Senex.Simulator
