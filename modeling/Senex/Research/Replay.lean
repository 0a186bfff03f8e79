import Senex.Paper.Ledger

/-! # The research replay

The replay contracts and `replay.py`: a strategy is fed closed candles, its
orders wait for later candles, and each candle first settles the waiting orders
and then takes the strategy's new intents.  The report's JSON form and its digest
are left out.
-/

namespace Senex.Research

open Text Paper

/-! ## Contracts -/

section
variable {D : Type} [Decimal D]

/-- `max(a, b)`, the first where they are equal. -/
def larger (a b : D) : D := if Decimal.lt a b then b else a

/-- `min(a, b)`, the first where they are equal. -/
def smaller (a b : D) : D := if Decimal.lt b a then b else a

/-- A candle with the checks of `__post_init__`. -/
structure Candle (D : Type) [Decimal D] where
  timestamp : Text
  «open» : D
  high : D
  low : D
  close : D
  volume : D
  high_covers : Decimal.lt high (larger «open» close) = false
  low_covers : Decimal.lt (smaller «open» close) low = false
  ordered : Decimal.lt high low = false

/-- `Candle(...)` -/
def Candle.construct (timestamp «open» high low close volume : PyArg) : Py (Candle D) := do
  let timestamp ← normalizeTimestamp timestamp
  let «open» ← asDecimal «open» (txt "open") .positive
  let high ← asDecimal high (txt "high") .positive
  let low ← asDecimal low (txt "low") .positive
  let close ← asDecimal close (txt "close") .positive
  let volume ← asDecimal volume (txt "volume") .nonNegative
  if covered : Decimal.lt high (larger «open» close) = false then
    if floored : Decimal.lt (smaller «open» close) low = false then
      if ordered : Decimal.lt high low = false then
        return ⟨timestamp, «open», high, low, close, volume, covered, floored, ordered⟩
      else raise .replayContractError (txt "high must be greater than or equal to low")
    else raise .replayContractError (txt "low must be at most open and close")
  else raise .replayContractError (txt "high must be at least open and close")

/-- `order_type`, with the `limit_price` that limit orders alone have. -/
inductive OrderType (D : Type) where
  | market
  | limit (limitPrice : D)

structure OrderIntent (D : Type) [Decimal D] where
  side : Side
  orderType : OrderType D
  quantity : D
  expiresAfterBars : Option Nat
  tag : Text
  quantity_positive : Bound.positive.admits quantity = true
  expires_positive : ∀ bars ∈ expiresAfterBars, 0 < bars

structure CancelIntent where
  orderId : Text
  tag : Text
  orderId_filled : strip orderId ≠ []

structure CostProfile (D : Type) where
  feeBps : D
  spreadBps : D
  slippageBps : D

structure PortfolioSnapshot (D : Type) where
  cash : D
  inventoryQty : D
  averageEntryPrice : D
  realizedPnl : D
  unrealizedPnl : D
  equity : D
  totalFees : D
  totalSpreadCost : D
  totalSlippageCost : D
  turnover : D

structure PendingOrder (D : Type) where
  orderId : Text
  side : Side
  orderType : OrderType D
  quantity : D
  submittedIndex : Nat
  submittedTimestamp : Text
  expiresAfterBars : Option Nat
  tag : Text
  barsWaited : Nat

structure Fill (D : Type) where
  orderId : Text
  timestamp : Text
  side : Side
  orderType : OrderType D
  quantity : D
  price : D
  notional : D
  fee : D
  spreadCost : D
  slippageCost : D
  realizedPnl : D
  tag : Text

/-- The `side` of a rejection: that of the order, or `cancel`. -/
inductive RejectedSide where
  | order (side : Side)
  | cancel

structure Rejection (D : Type) where
  orderId : Text
  timestamp : Text
  reason : Text
  side : RejectedSide
  quantity : D
  tag : Text

structure ExpiredOrder where
  orderId : Text
  timestamp : Text
  reason : Text
  barsWaited : Text
  tag : Text

structure CancelledOrder where
  orderId : Text
  timestamp : Text
  reason : Text
  tag : Text

structure ReplayConfig (D : Type) [Decimal D] where
  startingCash : D
  maxInventory : D
  maxFillQty : D
  costs : CostProfile D
  defaultOrderTtl : Option Nat
  startingCash_positive : Bound.positive.admits startingCash = true
  maxInventory_positive : Bound.positive.admits maxInventory = true
  maxFillQty_positive : Bound.positive.admits maxFillQty = true
  ttl_positive : ∀ ttl ∈ defaultOrderTtl, 0 < ttl

/-- `Decimal(text)` of a literal. -/
def literal (text : Text) : Py D :=
  match Decimal.parse text with
  | .finite d => .ok d
  | _ => raise .decimalSignal (txt "InvalidOperation")

/-! ## Strategies -/

/-- One element of what a strategy returns. -/
inductive Intent (D : Type) [Decimal D] where
  | order (intent : OrderIntent D)
  | cancel (intent : CancelIntent)
  /-- A value of another type. -/
  | other

/-- What `on_candle` returns. -/
inductive Answer (D : Type) [Decimal D] where
  | none
  /-- `tuple(...)` of it raises. -/
  | failing (raised : Raised)
  | values (intents : List (Intent D))

/-- A strategy, with what it remembers between candles.  A failure is the name of
the exception's class with its message. -/
structure Strategy (M D : Type) [Decimal D] where
  strategyId : Text
  onCandle : M → Candle D → PortfolioSnapshot D → List (PendingOrder D) →
    Except (Text × Text) (M × Answer D)

/-! ## The ledger's figures -/

/-- `average_entry_price` -/
def averageEntryPrice (l : Ledger D) : Py D :=
  if Decimal.eq l.inventoryQty Decimal.zero then .ok Decimal.zero
  else Decimal.div l.inventoryCostBasis l.inventoryQty

/-- `snapshot` -/
def snapshot (l : Ledger D) (markPrice : PyArg) : Py (PortfolioSnapshot D) := do
  let mark ← asDecimal markPrice (txt "mark_price") .positive
  let averageEntryPrice ← averageEntryPrice l
  let value ← Decimal.mul l.inventoryQty mark
  let unrealizedPnl ← Decimal.sub value l.inventoryCostBasis
  let equity ← Decimal.add l.cash value
  return {
    cash := l.cash
    inventoryQty := l.inventoryQty
    averageEntryPrice
    realizedPnl := l.realizedPnl
    unrealizedPnl
    equity
    totalFees := l.totalFees
    totalSpreadCost := l.totalSpreadCost
    totalSlippageCost := l.totalSlippageCost
    turnover := l.turnover }

/-! ## Fills -/

/-- The price at which a candle fills an order, if it does. -/
def fillPrice (order : PendingOrder D) (candle : Candle D) : Option D :=
  match order.orderType with
  | .market => some candle.open
  | .limit limitPrice =>
      match order.side with
      | .buy =>
          if Decimal.le candle.low limitPrice then
            some (if Decimal.lt candle.open limitPrice then candle.open else limitPrice)
          else none
      | .sell =>
          if Decimal.le limitPrice candle.high then
            some (if Decimal.lt limitPrice candle.open then candle.open else limitPrice)
          else none

/-- The spread and slippage costs of a fill: a limit order pays neither. -/
def surcharges (orderType : OrderType D) (notional : D) (costs : CostProfile D) : Py (D × D) :=
  match orderType with
  | .market => do
      let bps ← literal (txt "10000")
      let spread ← Decimal.div (← Decimal.mul notional costs.spreadBps) bps
      let spreadCost ← Decimal.div spread (← literal (txt "2"))
      let slippageCost ← Decimal.div (← Decimal.mul notional costs.slippageBps) bps
      return (spreadCost, slippageCost)
  | .limit _ => .ok (Decimal.zero, Decimal.zero)

/-- `_execute_fill` -/
def executeFill (order : PendingOrder D) (candle : Candle D) (price : D) (ledger : Ledger D)
    (costs : CostProfile D) : Py (Ledger D × Fill D) := do
  let quantity := order.quantity
  let notional ← Decimal.mul quantity price
  let fee ← Decimal.div (← Decimal.mul notional costs.feeBps) (← literal (txt "10000"))
  let (spreadCost, slippageCost) ← surcharges order.orderType notional costs
  let operate := match order.side with
    | .buy => ledger.buy
    | .sell => ledger.sell
  let (ledger, operation) ← operate (objectArg quantity) (objectArg price) (objectArg fee)
    (objectArg spreadCost) (objectArg slippageCost)
  return (ledger, {
    orderId := order.orderId
    timestamp := candle.timestamp
    side := order.side
    orderType := order.orderType
    quantity := operation.quantity
    price := operation.price
    notional := operation.notional
    fee := operation.fee
    spreadCost := operation.spreadCost
    slippageCost := operation.slippageCost
    realizedPnl := operation.realizedPnl
    tag := order.tag })

/-! ## One candle -/

/-- What a candle makes of a waiting order. -/
inductive Settled (D : Type) where
  | still (order : PendingOrder D)
  | filled (ledger : Ledger D) (fill : Fill D)
  | rejected (rejection : Rejection D)
  | expired (note : ExpiredOrder)

/-- One turn of the loop over `pending`. -/
def settle (costs : CostProfile D) (index : Nat) (candle : Candle D) (ledger : Ledger D)
    (order : PendingOrder D) : Py (Settled D) :=
  if index ≤ order.submittedIndex then .ok (.still order)
  else
    match fillPrice order candle with
    | some price =>
        match executeFill order candle price ledger costs with
        | .ok (ledger, fill) => .ok (.filled ledger fill)
        | .error e =>
            if e.error.isValueError then
              .ok (.rejected ⟨order.orderId, candle.timestamp, e.message, .order order.side,
                order.quantity, order.tag⟩)
            else .error e
    | none =>
        let waited := index - order.submittedIndex
        if order.expiresAfterBars.any (· ≤ waited) then
          .ok (.expired ⟨order.orderId, candle.timestamp, txt "ttl_elapsed_without_fill",
            ofNat waited, order.tag⟩)
        else .ok (.still { order with barsWaited := waited })

structure EquityPoint (D : Type) where
  timestamp : Text
  close : D
  cash : D
  inventoryQty : D
  equity : D
  drawdownPct : D

/-- The variables of the run between two candles.  `pending` is `still_pending` while
the waiting orders are gone through. -/
structure Books (M D : Type) where
  ledger : Ledger D
  pending : List (PendingOrder D)
  fills : List (Fill D)
  rejections : List (Rejection D)
  expiredOrders : List ExpiredOrder
  cancelledOrders : List CancelledOrder
  equityCurve : List (EquityPoint D)
  orderSequence : Nat
  peakEquity : D
  maxDrawdownPct : D
  barsInMarket : Nat
  memory : M
  /-- No variable of the source: the orders as they were submitted. -/
  submitted : List (PendingOrder D)

variable {M : Type}

def Books.book (b : Books M D) : Settled D → Books M D
  | .still order => { b with pending := b.pending ++ [order] }
  | .filled ledger fill => { b with ledger, fills := b.fills ++ [fill] }
  | .rejected rejection => { b with rejections := b.rejections ++ [rejection] }
  | .expired note => { b with expiredOrders := b.expiredOrders ++ [note] }

/-- The loop over `pending`. -/
def Books.settleAll (b : Books M D) (costs : CostProfile D) (index : Nat) (candle : Candle D) :
    Py (Books M D) :=
  b.pending.foldlM (fun b order => return b.book (← settle costs index candle b.ledger order))
    { b with pending := [] }

/-- The drawdown of an equity from its peak, in percent. -/
def drawdownPct (peak equity : D) : Py D :=
  if Decimal.lt Decimal.zero peak then do
    let fraction ← Decimal.div (← Decimal.sub peak equity) peak
    Decimal.mul fraction (← literal (txt "100"))
  else .ok Decimal.zero

/-- The figures of the close. -/
def Books.mark (b : Books M D) (candle : Candle D) (snapshot : PortfolioSnapshot D) :
    Py (Books M D) := do
  let peakEquity := larger b.peakEquity snapshot.equity
  let drawdown ← drawdownPct peakEquity snapshot.equity
  return { b with
    peakEquity
    maxDrawdownPct := larger b.maxDrawdownPct drawdown
    barsInMarket := if Decimal.lt Decimal.zero snapshot.inventoryQty then b.barsInMarket + 1
      else b.barsInMarket
    equityCurve := b.equityCurve ++ [⟨candle.timestamp, candle.close, snapshot.cash,
      snapshot.inventoryQty, snapshot.equity, drawdown⟩] }

/-- `f"{strategy_id}-{order_sequence:06d}"` -/
def orderIdOf (strategyId : Text) (sequence : Nat) : Text :=
  strategyId ++ 45 :: zeroPadded 6 sequence

/-- A cancellation takes effect on the orders open at that moment. -/
def Books.cancel (b : Books M D) (candle : Candle D) (intent : CancelIntent) : Books M D :=
  match b.pending.find? (fun item => item.orderId == intent.orderId) with
  | none => { b with
      rejections := b.rejections ++ [⟨intent.orderId, candle.timestamp,
        txt "cancel_target_not_open", .cancel, Decimal.zero, intent.tag⟩] }
  | some item => { b with
      pending := b.pending.filter (fun item => item.orderId != intent.orderId)
      cancelledOrders := b.cancelledOrders ++ [⟨intent.orderId, candle.timestamp,
        txt "strategy_cancelled", if intent.tag = [] then item.tag else intent.tag⟩] }

def Books.submit (b : Books M D) (strategyId : Text) (defaultOrderTtl : Option Nat) (index : Nat)
    (candle : Candle D) (intent : OrderIntent D) : Books M D :=
  let orderSequence := b.orderSequence + 1
  let order : PendingOrder D := {
    orderId := orderIdOf strategyId orderSequence
    side := intent.side
    orderType := intent.orderType
    quantity := intent.quantity
    submittedIndex := index
    submittedTimestamp := candle.timestamp
    expiresAfterBars := intent.expiresAfterBars.orElse fun _ => defaultOrderTtl
    tag := intent.tag
    barsWaited := 0 }
  { b with orderSequence, pending := b.pending ++ [order], submitted := b.submitted ++ [order] }

/-- One turn of the loop over `intents`. -/
def Books.take (strategyId : Text) (defaultOrderTtl : Option Nat) (index : Nat) (candle : Candle D)
    (b : Books M D) : Intent D → Py (Books M D)
  | .cancel intent => .ok (b.cancel candle intent)
  | .order intent => .ok (b.submit strategyId defaultOrderTtl index candle intent)
  | .other => raise .replayError
      (txt "strategy returned a value other than OrderIntent or CancelIntent")

/-- `tuple(intents)`, with `None` for none. -/
def Answer.intents : Answer D → Py (List (Intent D))
  | .none => .ok []
  | .failing raised =>
      rewrap (· == .typeError) .replayError
        (fun _ => txt "strategy must return a sequence of OrderIntent objects") (.error raised)
  | .values intents => .ok intents

/-- `on_candle`, with any exception of it as a `ReplayError`. -/
def Strategy.ask (strategy : Strategy M D) (memory : M) (candle : Candle D)
    (snapshot : PortfolioSnapshot D) (pending : List (PendingOrder D)) : Py (M × Answer D) :=
  match strategy.onCandle memory candle snapshot pending with
  | .ok answered => .ok answered
  | .error (className, message) => raise .replayError (txt "strategy failed at " ++
      candle.timestamp ++ txt ": " ++ className ++ txt ": " ++ message)

/-- One turn of the loop over the candles. -/
def Books.step (strategy : Strategy M D) (config : ReplayConfig D) (b : Books M D) (index : Nat)
    (candle : Candle D) : Py (Books M D) := do
  let settled ← b.settleAll config.costs index candle
  let snapshot ← snapshot settled.ledger (objectArg candle.close)
  let marked ← settled.mark candle snapshot
  let (memory, answer) ← strategy.ask marked.memory candle snapshot marked.pending
  (← answer.intents).foldlM
    (Books.take strategy.strategyId config.defaultOrderTtl index candle) { marked with memory }

/-! ## The run -/

/-- `_validate_inputs`: there are candles, and their timestamps increase. -/
def validateInputs : List (Candle D) → Py Unit
  | [] => raise .replayError (txt "at least one candle is required")
  | bars => guardNot (!decide (bars.IsChain fun a b => a.timestamp < b.timestamp)) .replayError
      (txt "candle timestamps must be strictly increasing")

/-- `_candle_payload`, its keys in canonical order. -/
def candlePayload (candle : Candle D) : Json := .obj [
  (txt "close", .str (Decimal.str candle.close)),
  (txt "high", .str (Decimal.str candle.high)),
  (txt "low", .str (Decimal.str candle.low)),
  (txt "open", .str (Decimal.str candle.open)),
  (txt "timestamp", .str candle.timestamp),
  (txt "volume", .str (Decimal.str candle.volume))]

def isHexDigit (c : Nat) : Bool := isDigit c || (decide (97 ≤ c) && decide (c ≤ 102))

def sourceDigest (bars : List (Candle D)) : Option Text → Py Text
  | none => digest (.arr (bars.map candlePayload))
  | some given => do
      let digest := lower given
      guardNot (digest.length != 64 || !digest.all isHexDigit) .replayError
        (txt "source_sha256 must be a 64-character hexadecimal digest")
      return digest

def Books.start (ledger : Ledger D) (config : ReplayConfig D) (memory : M) : Books M D :=
  ⟨ledger, [], [], [], [], [], [], 0, config.startingCash, Decimal.zero, 0, memory, []⟩

/-- The loop over the candles from the one of that index on. -/
def Books.loop (strategy : Strategy M D) (config : ReplayConfig D) (b : Books M D) (index : Nat) :
    List (Candle D) → Py (Books M D)
  | [] => .ok b
  | candle :: bars => do (← b.step strategy config index candle).loop strategy config (index + 1) bars

/-- `metrics`, as far as they are amounts: the counts are the lengths of the report's lists. -/
structure Metrics (D : Type) where
  startingCash : D
  endingEquity : D
  netPnl : D
  returnPct : D
  maxDrawdownPct : D
  ending : PortfolioSnapshot D
  barsInMarket : Nat
  timeInMarketPct : D

def metricsOf (b : Books M D) (config : ReplayConfig D) (bars : Nat) (ending : PortfolioSnapshot D) :
    Py (Metrics D) := do
  let hundred ← literal (txt "100")
  let netPnl ← Decimal.sub ending.equity config.startingCash
  let returnPct ← Decimal.mul (← Decimal.div netPnl config.startingCash) hundred
  let exposure ← Decimal.div (← literal (ofNat b.barsInMarket)) (← literal (ofNat bars))
  let timeInMarketPct ← Decimal.mul exposure hundred
  return ⟨config.startingCash, ending.equity, netPnl, returnPct, b.maxDrawdownPct, ending,
    b.barsInMarket, timeInMarketPct⟩

structure RunReport (D : Type) where
  strategyId : Text
  sourceSha256 : Text
  sourceRows : Nat
  timestampStart : Text
  timestampEnd : Text
  fills : List (Fill D)
  rejections : List (Rejection D)
  expiredOrders : List ExpiredOrder
  cancelledOrders : List CancelledOrder
  pendingOrders : List (PendingOrder D)
  equityCurve : List (EquityPoint D)
  metrics : Metrics D

/-- What `run` returns of the books behind the last candle. -/
def Books.report (b : Books M D) (strategy : Strategy M D) (config : ReplayConfig D)
    (source : Text) (bars : List (Candle D)) (first last : Candle D) : Py (RunReport D) := do
  let ending ← snapshot b.ledger (objectArg last.close)
  let metrics ← metricsOf b config bars.length ending
  return {
    strategyId := strategy.strategyId
    sourceSha256 := source
    sourceRows := bars.length
    timestampStart := first.timestamp
    timestampEnd := last.timestamp
    fills := b.fills
    rejections := b.rejections
    expiredOrders := b.expiredOrders
    cancelledOrders := b.cancelledOrders
    pendingOrders := b.pending
    equityCurve := b.equityCurve
    metrics }

/-- The books behind the last candle. -/
def replayed (bars : List (Candle D)) (strategy : Strategy M D) (memory : M) (config : ReplayConfig D) :
    Py (Books M D) := do
  let ledger ← Ledger.construct (objectArg config.startingCash) (objectArg config.maxInventory)
    (objectArg config.maxFillQty)
  (Books.start ledger config memory).loop strategy config 0 bars

/-- `Replay.run` -/
def Replay.run (bars : List (Candle D)) (strategy : Strategy M D) (memory : M)
    (config : ReplayConfig D) (sourceSha256 : Option Text) : Py (RunReport D) := do
  validateInputs bars
  let source ← sourceDigest bars sourceSha256
  let books ← replayed bars strategy memory config
  match bars.head?, bars.getLast? with
  | some first, some last => books.report strategy config source bars first last
  | _, _ => raise .replayError (txt "at least one candle is required")

end

end Senex.Research
