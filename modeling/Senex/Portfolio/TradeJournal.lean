import Senex.Portfolio.ClosedJournal
import Senex.Portfolio.ExecutionEngine

/-! # The journal's writer

`_handle_open` and `_build_record` of `trade_journal.py`: the row that a closed
position is recorded as.
-/

namespace Senex.Portfolio

open Text PyFloat

/-- What the journal remembers of an open position. -/
structure PendingEntry where
  positionId : Text
  symbol : Text
  direction : Direction
  entryTs : Text
  entryPrice : Double
  qty : Double
  proposalId : Option Text

/-- `_handle_open` -/
def handleOpen (pos : Position Double) : PendingEntry :=
  ⟨pos.positionId, pos.symbol, pos.direction, pos.entryTs, pos.avgEntryPrice, pos.qty, pos.proposalId⟩

/-- The exit event, as far as the record falls back on it. -/
structure ExitEvent where
  ts : Text
  exitPrice : Double
  exitReason : Text

/-- The ids and the time that the record draws. -/
structure RecordDraws where
  journalId : Text
  positionId : Text
  createdAt : Text

/-- `x or y` of two numbers. -/
def orNumber (x y : Double) : Double := if isZero x then y else x

/-- `s or t` of two texts. -/
def orText (s t : Text) : Text := if s = [] then t else s

def optionText : Option Text → PyValue
  | some t => .str t
  | none => .none

/-- `round(x, digits)`, or the `0` of a branch without a number. -/
def amount (digits : Nat) : Option Double → PyValue
  | some x => .float (round digits x)
  | none => .int 0

/-- The event that `submit` begins the audit trail of an order with. -/
structure NewOrderEvent where
  ts : Text
  orderedQty : Double
  limitPrice : Double
  sizeScale : Double

def NewOrderEvent.toValue (e : NewOrderEvent) : PyValue := .ofMembers [
  (txt "ts", .str e.ts),
  (txt "event", .str (txt "NEW")),
  (txt "ordered_qty", .float e.orderedQty),
  (txt "limit_price", .float e.limitPrice),
  (txt "size_scale", .float e.sizeScale)]

/-- `value or 0` -/
def orZero (value : PyValue) : PyValue := if value.truthy then value else .int 0

/-- The largest slippage and latency of the fills in an audit trail. -/
def fillFigures (auditTrail : List PyValue) : Py (Double × Int) :=
  auditTrail.foldlM (fun (figures : Double × Int) (evt : PyValue) =>
    if (evt.get (txt "event")).eqText (txt "FILL") then do
      let slip ← (orZero (evt.get (txt "slippage_bps"))).toFloat
      let latency ← (orZero (evt.get (txt "latency_ms"))).toInt
      return (maximum figures.1 slip, max figures.2 latency)
    else .ok figures) (lit 0, 0)

/-- `int((exit - entry).total_seconds())`, or 0. -/
def holdingTime (entryTs exitTs : Text) : Int :=
  if entryTs = [] ∨ exitTs = [] then 0
  else
    match elapsedMicros entryTs exitTs with
    | some micros => (Double.round (micros / 1000000)).trunc
    | none => 0

/-- The excursion to a price, in basis points of the entry. -/
def excursionBps (direction : Direction) (entryPrice price : Double) : Option Double :=
  if lt (lit 0) entryPrice then
    some (match direction with
      | .long => (price - entryPrice) / entryPrice * lit 10000
      | .short => (entryPrice - price) / entryPrice * lit 10000)
  else none

/-- The entry's half of the fees. -/
def entryFeeOf (totalFees : Double) : Option Double :=
  if lt (lit 0) totalFees then some (totalFees / lit 2) else none

/-- The P&L in percent of the risk. -/
def pnlPctOf (realizedPnl riskUsd : Double) : Double :=
  if lt (lit 0) riskUsd then realizedPnl / riskUsd * lit 100 else lit 0

/-- `_build_record` -/
def buildRecord (draws : RecordDraws) (entry : PendingEntry) (pos : Position Double)
    (auditTrail : List PyValue) (event : ExitEvent) : Py PyValue := do
  let entryTs := orText entry.entryTs pos.entryTs
  let exitTs := orText pos.exitTs event.ts
  let entryPrice := orNumber entry.entryPrice (lit 0)
  let exitPrice := orNumber pos.exitPrice (orNumber event.exitPrice (lit 0))
  let qty := orNumber entry.qty (lit 0)
  let realizedPnl := orNumber pos.realizedPnl (lit 0)
  let riskUsd := orNumber pos.riskUsd (lit 0)
  let maePrice := orNumber pos.maePrice entryPrice
  let mfePrice := orNumber pos.mfePrice entryPrice
  let (entrySlipBps, entryLatencyMs) ← fillFigures auditTrail
  let totalFees := orNumber pos.feesPaid (lit 0)
  let entryFee := entryFeeOf totalFees
  let exitFee := totalFees - entryFee.getD (lit 0)
  return .ofMembers [
    (txt "journal_id", .str draws.journalId),
    (txt "trade_id", .str (orText entry.positionId (orText pos.positionId draws.positionId))),
    (txt "prediction_id", optionText (entry.proposalId.or pos.proposalId)),
    (txt "symbol", .str (orText entry.symbol pos.symbol)),
    (txt "direction", .str entry.direction.text),
    (txt "entry_ts", .str entryTs),
    (txt "exit_ts", .str exitTs),
    (txt "holding_time_s", .int (holdingTime entryTs exitTs)),
    (txt "entry_price", .float (round 6 entryPrice)),
    (txt "exit_price", .float (round 6 exitPrice)),
    (txt "qty", .float (round 8 qty)),
    (txt "notional_usd", .float (round 2 (qty * entryPrice))),
    (txt "realized_pnl_usd", .float (round 2 realizedPnl)),
    (txt "realized_pnl_pct", .float (round 2 (pnlPctOf realizedPnl riskUsd))),
    (txt "risk_usd", .float (round 2 riskUsd)),
    (txt "entry_fee_usd", amount 4 entryFee),
    (txt "exit_fee_usd", .float (round 4 exitFee)),
    (txt "total_fees_usd", .float (round 4 totalFees)),
    (txt "spread_bps_entry", .float (round 2 (entrySlipBps * lit 2))),
    (txt "slippage_bps_entry", .float (round 2 entrySlipBps)),
    (txt "slippage_bps_exit", .float (round 2 (lit 0))),
    (txt "mae_price", .float (round 6 maePrice)),
    (txt "mfe_price", .float (round 6 mfePrice)),
    (txt "mae_bps", amount 2 (excursionBps entry.direction entryPrice maePrice)),
    (txt "mfe_bps", amount 2 (excursionBps entry.direction entryPrice mfePrice)),
    (txt "exit_reason", .str (orText ((pos.exitReason.map ExitReason.text).getD []) event.exitReason)),
    (txt "execution_latency_ms_entry", .int entryLatencyMs),
    (txt "execution_latency_ms_exit", .int 0),
    (txt "audit_trail", .list auditTrail),
    (txt "created_at", .str draws.createdAt)]

end Senex.Portfolio
