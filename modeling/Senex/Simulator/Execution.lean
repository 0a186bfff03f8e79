import Senex.Foundation.Dict
import Senex.Foundation.PyValue
import Senex.Foundation.Float
import Senex.Foundation.Transition

/-! # The execution simulator

`ExecutionSimulator` of `execution_simulator.py`, over exact rationals.
`execute` runs without interruption to its simulated latency and again from
there to its end, so it is two functions: its checks, and the fill of what they
let through.  The draws of the generator, the clock and the order ids are
inputs.
-/

namespace Senex.Simulator

open Text

inductive Side where
  | long
  | short
  deriving Repr, DecidableEq

inductive Status where
  | opened
  | closed
  deriving Repr, DecidableEq

inductive ExitReason where
  | stop
  | target
  | timeStop
  | manual
  deriving Repr, DecidableEq

structure Position where
  symbol : Text
  side : Side
  qty : ℚ
  entryPrice : ℚ
  entryTs : Text
  stopPrice : ℚ
  targetPrice : ℚ
  timeStopMinutes : ℚ := 30
  signalId : Text := []
  status : Status := .opened
  exitPrice : ℚ := 0
  exitTs : Text := []
  exitReason : Option ExitReason := none
  realizedPnl : ℚ := 0
  feesPaid : ℚ := 0
  deriving DecidableEq

/-- A signal with the members of its payload that `execute` reads. -/
structure Signal where
  symbol : Text
  eventId : Text
  traceId : Option Text
  action : Option Text
  sizingUsd : Option ℚ

structure MarketTick where
  symbol : Text
  ts : Text
  price : Option ℚ

structure Orderbook where
  bids : List (ℚ × ℚ)
  asks : List (ℚ × ℚ)

/-- `depth_notional` with its default number of levels. -/
def Orderbook.depthNotional (b : Orderbook) : ℚ :=
  ((b.bids.take 5).map fun l => l.1 * l.2).sum + ((b.asks.take 5).map fun l => l.1 * l.2).sum

/-- The fields that no call assigns. -/
structure Parameters where
  baseSlippageBps : ℚ := 2
  rngSlippageBps : ℚ := 4
  exitSlippageBps : ℚ := 3
  takerFeeBps : ℚ := 10
  assumedDepthUsd : ℚ := 5000
  stopPct : ℚ := 2 / 100
  targetPct : ℚ := 4 / 100
  paperBankrollUsd : ℚ := 10000

structure ExecutionSimulator extends Parameters where
  positions : Dict Text Position := Dict.empty
  closed : List Position := []
  cash : ℚ := 10000
  startingCash : ℚ := 10000
  feesCumulative : ℚ := 0
  /-- `_peak_equity`, which the first `risk_state` sets. -/
  peakEquity : Option ℚ := none

namespace ExecutionSimulator

/-- `__post_init__` -/
def postInit (sim : ExecutionSimulator) : ExecutionSimulator :=
  if sim.cash = 10000 ∧ sim.startingCash = 10000 then
    { sim with cash := sim.paperBankrollUsd, startingCash := sim.paperBankrollUsd }
  else sim

/-- A simulator as it is constructed. -/
def construct (parameters : Parameters) (cash : ℚ) : ExecutionSimulator :=
  postInit { parameters with cash := cash, startingCash := cash }

/-- `_fee_usd` -/
def feeUsd (sim : ExecutionSimulator) (notional : ℚ) : ℚ := |notional| * sim.takerFeeBps / 10000

/-- `_depth_usd` -/
def depthUsd (sim : ExecutionSimulator) (book : Option Orderbook) : ℚ × Text :=
  match book with
  | some book => (book.depthNotional, txt "book_observed")
  | none => (sim.assumedDepthUsd, txt "assumed")

end ExecutionSimulator

/-- `Random.uniform`, by the draw of `random()` behind it. -/
def uniform (a b random : ℚ) : ℚ := a + (b - a) * random

/-- The last six units of the trace id or, without one, of the event id. -/
def shortTrace (signal : Signal) : Text :=
  let tail := match signal.traceId with
    | some (c :: rest) => c :: rest
    | _ => if signal.eventId = [] then txt "notrace" else signal.eventId
  tail.drop (tail.length - 6)

/-! ## Answers -/

structure Filled where
  direction : Side
  qty : ℚ
  notionalUsd : ℚ
  fillPrice : ℚ
  slippageBps : ℚ
  latencyMs : Int
  fillPct : ℚ
  depthSource : Text
  feeUsd : ℚ
  feesCumulative : ℚ
  status : Text
  cashAfter : ℚ
  bankrollStart : ℚ
  stop : ℚ
  target : ℚ

structure Exited where
  directionExit : Side
  qty : ℚ
  fillPrice : ℚ
  slippageBps : ℚ
  feeUsd : ℚ
  feesCumulative : ℚ
  reason : ExitReason
  grossPnl : ℚ
  realizedPnl : ℚ
  cashAfter : ℚ

inductive Payload where
  | skipped (reason : Text)
  | rejected (reason : Text)
  | missed (reason : Text) (depthUsd : ℚ) (depthSource : Text) (sizingUsd fillPct : ℚ)
  | unaffordable (reason : Text) (sizingUsd cashAvailable : ℚ)
  | filled (f : Filled)
  | exited (e : Exited)

structure ExecutionSim where
  symbol : Text
  traceId : Text
  orderId : Text
  payload : Payload

/-! ## Entries -/

/-- What `execute` holds across its latency. -/
structure Pending where
  signal : Signal
  side : Side
  price : ℚ
  sizingUsd : ℚ
  book : Option Orderbook
  latency : Int

/-- Where the checks of `execute` end: in an answer or at its latency. -/
inductive Checked where
  | answered (answer : ExecutionSim)
  | suspended (pending : Pending)

def sideOf (action : Option Text) : Option Side :=
  if action = some (txt "LONG") then some .long
  else if action = some (txt "SHORT") then some .short
  else none

/-- The answer of `execute` to a signal. -/
def answerTo (signal : Signal) (orderId : Text) (payload : Payload) : ExecutionSim :=
  ⟨signal.symbol, txt "exec-" ++ shortTrace signal, orderId, payload⟩

namespace ExecutionSimulator

/-- `symbol in positions and positions[symbol].status == "OPEN"` -/
def isOpen (sim : ExecutionSimulator) (symbol : Text) : Bool :=
  match sim.positions.get? symbol with
  | some p => p.status == .opened
  | none => false

/-- `execute` up to its simulated latency. -/
def executeChecks (sim : ExecutionSimulator) (signal : Signal) (tick : Option MarketTick)
    (book : Option Orderbook) (latency : Int) (orderId : Text) : Checked :=
  match sideOf signal.action with
  | none => .answered (answerTo signal orderId
      (.skipped (txt "action=" ++ signal.action.getD (txt "None"))))
  | some side =>
      let sizingUsd := signal.sizingUsd.getD 0
      match tick with
      | none => .answered (answerTo signal orderId (.rejected (txt "no_sizing_or_tick")))
      | some tick =>
          let price := tick.price.getD 0
          if sizingUsd ≤ 0 then
            .answered (answerTo signal orderId (.rejected (txt "no_sizing_or_tick")))
          else if price ≤ 0 then
            .answered (answerTo signal orderId (.rejected (txt "invalid_price")))
          else if sim.isOpen signal.symbol then
            .answered (answerTo signal orderId (.rejected (txt "position_already_open")))
          else .suspended ⟨signal, side, price, sizingUsd, book, latency⟩

/-- The price of a marketable limit order that pays the spread edge. -/
def entryPrice (sim : ExecutionSimulator) (side : Side) (price random : ℚ) : ℚ :=
  let slipBps := sim.baseSlippageBps + uniform 0 sim.rngSlippageBps random
  match side with
  | .long => price * (1 + slipBps / 10000)
  | .short => price * (1 - slipBps / 10000)

/-- The part of the sizing that the depth fills. -/
def fillPct (sim : ExecutionSimulator) (sizingUsd : ℚ) (book : Option Orderbook) : ℚ :=
  let depthUsd := (sim.depthUsd book).1
  if 0 < sizingUsd ∧ 0 < depthUsd then min 1 (depthUsd / sizingUsd) else 0

def fillNotional (sim : ExecutionSimulator) (p : Pending) : ℚ :=
  p.sizingUsd * sim.fillPct p.sizingUsd p.book

/-- The position that a fill opens. -/
def entry (sim : ExecutionSimulator) (p : Pending) (random : ℚ) (now : Text) : Position :=
  let fillPrice := sim.entryPrice p.side p.price random
  let fillNotional := sim.fillNotional p
  { symbol := p.signal.symbol
    side := p.side
    qty := fillNotional / fillPrice
    entryPrice := fillPrice
    entryTs := now
    stopPrice := match p.side with
      | .long => fillPrice * (1 - sim.stopPct)
      | .short => fillPrice * (1 + sim.stopPct)
    targetPrice := match p.side with
      | .long => fillPrice * (1 + sim.targetPct)
      | .short => fillPrice * (1 - sim.targetPct)
    signalId := p.signal.eventId
    feesPaid := sim.feeUsd fillNotional }

/-- The position is entered and paid for. -/
def enter (sim : ExecutionSimulator) (p : Pending) (random : ℚ) (now : Text) : ExecutionSimulator :=
  let entryFee := sim.feeUsd (sim.fillNotional p)
  { sim with
    positions := sim.positions.set p.signal.symbol (sim.entry p random now)
    cash := sim.cash - (sim.fillNotional p + entryFee)
    feesCumulative := sim.feesCumulative + entryFee }

def filled (sim : ExecutionSimulator) (p : Pending) (random : ℚ) (now : Text) : Filled :=
  let entered := sim.enter p random now
  let position := sim.entry p random now
  let fillPct := sim.fillPct p.sizingUsd p.book
  { direction := p.side
    qty := roundTo 6 position.qty
    notionalUsd := roundTo 2 (sim.fillNotional p)
    fillPrice := roundTo 4 position.entryPrice
    slippageBps := roundTo 2 (sim.baseSlippageBps + uniform 0 sim.rngSlippageBps random)
    latencyMs := p.latency
    fillPct := roundTo 3 fillPct
    depthSource := (sim.depthUsd p.book).2
    feeUsd := roundTo 4 position.feesPaid
    feesCumulative := roundTo 4 entered.feesCumulative
    status := if 1 ≤ fillPct then txt "FILLED" else txt "PARTIAL_FILL"
    cashAfter := roundTo 2 entered.cash
    bankrollStart := roundTo 2 sim.startingCash
    stop := roundTo 4 position.stopPrice
    target := roundTo 4 position.targetPrice }

/-- Whether the depth and the cash suffice to enter. -/
def affords (sim : ExecutionSimulator) (p : Pending) : Bool :=
  decide (1 ≤ sim.fillNotional p) &&
    decide (sim.fillNotional p + sim.feeUsd (sim.fillNotional p) ≤ sim.cash)

/-- `execute` from its simulated latency on. -/
def executeFill (sim : ExecutionSimulator) (p : Pending) (random : ℚ) (now orderId : Text) :
    Py (ExecutionSim × ExecutionSimulator) :=
  let fillNotional := sim.fillNotional p
  if fillNotional < 1 then
    .ok (answerTo p.signal orderId (.missed (txt "insufficient_depth")
      (roundTo 2 (sim.depthUsd p.book).1) (sim.depthUsd p.book).2 (roundTo 2 p.sizingUsd)
      (roundTo 3 (sim.fillPct p.sizingUsd p.book))), sim)
  else if sim.entryPrice p.side p.price random = 0 then
    raise .zeroDivisionError (txt "float division by zero")
  else if sim.cash < fillNotional + sim.feeUsd fillNotional then
    .ok (answerTo p.signal orderId (.unaffordable (txt "insufficient_paper_cash")
      (roundTo 2 p.sizingUsd) (roundTo 2 sim.cash)), sim)
  else
    .ok (answerTo p.signal orderId (.filled (sim.filled p random now)), sim.enter p random now)

/-- Whether a suspended execution goes on to enter its position. -/
def fills (sim : ExecutionSimulator) (p : Pending) (random : ℚ) : Bool :=
  sim.affords p && sim.entryPrice p.side p.price random != 0

/-- The simulator after `executeFill`; one that raises leaves it as it was. -/
def afterFill (sim : ExecutionSimulator) (p : Pending) (random : ℚ) (now orderId : Text) :
    ExecutionSimulator :=
  match sim.executeFill p random now orderId with
  | .ok (_, after) => after
  | .error _ => sim

theorem afterFill_eq (sim : ExecutionSimulator) (p : Pending) (random : ℚ) (now orderId : Text) :
    sim.afterFill p random now orderId =
      if sim.fills p random then sim.enter p random now else sim := by
  unfold afterFill executeFill fills affords
  by_cases small : sim.fillNotional p < 1
  · simp [small]
  · by_cases zero : sim.entryPrice p.side p.price random = 0
    · simp [small, zero, raise]
    · by_cases poor : sim.cash < sim.fillNotional p + sim.feeUsd (sim.fillNotional p)
      · simp [small, zero, poor]
      · simp [zero, poor, not_lt.mp small, not_lt.mp poor, not_lt.mpr (not_lt.mp small)]

/-! ## Exits -/

/-- Why a tick closes the position. -/
def exitReason (p : Position) (price : ℚ) (ts : Text) : Option ExitReason :=
  let level : Option ExitReason := match p.side with
    | .long =>
        if price ≤ p.stopPrice then some .stop
        else if p.targetPrice ≤ price then some .target
        else none
    | .short =>
        if p.stopPrice ≤ price then some .stop
        else if price ≤ p.targetPrice then some .target
        else none
  match level, elapsedMicros p.entryTs ts with
  | some reason, _ => some reason
  | none, some micros => if p.timeStopMinutes ≤ (micros : ℚ) / 60000000 then some .timeStop else none
  | none, none => none

/-- The tick's price, worse by the slippage of the exit. -/
def exitPrice (sim : ExecutionSimulator) (side : Side) (price random : ℚ) : ℚ :=
  let slipBps := uniform 0 sim.exitSlippageBps random
  match side with
  | .long => price * (1 - slipBps / 10000)
  | .short => price * (1 + slipBps / 10000)

def grossPnl (p : Position) (exitPrice : ℚ) : ℚ :=
  match p.side with
  | .long => (exitPrice - p.entryPrice) * p.qty
  | .short => (p.entryPrice - exitPrice) * p.qty

/-- The position as an exit leaves it. -/
def closing (sim : ExecutionSimulator) (p : Position) (exitPrice : ℚ) (ts : Text)
    (reason : ExitReason) : Position :=
  let exitFee := sim.feeUsd (exitPrice * p.qty)
  { p with
    exitPrice := exitPrice
    exitTs := ts
    exitReason := some reason
    status := .closed
    realizedPnl := grossPnl p exitPrice - exitFee - p.feesPaid
    feesPaid := roundTo 6 (p.feesPaid + exitFee) }

/-- The position under the symbol is closed and its exit notional credited. -/
def exit (sim : ExecutionSimulator) (sym : Text) (p : Position) (exitPrice : ℚ) (ts : Text)
    (reason : ExitReason) : ExecutionSimulator :=
  let exitNotional := exitPrice * p.qty
  let exitFee := sim.feeUsd exitNotional
  { sim with
    cash := sim.cash + (exitNotional - exitFee)
    feesCumulative := sim.feesCumulative + exitFee
    closed := sim.closed ++ [sim.closing p exitPrice ts reason]
    positions := sim.positions.erase sym }

def exited (sim : ExecutionSimulator) (sym : Text) (p : Position) (random exitPrice : ℚ) (ts : Text)
    (reason : ExitReason) : Exited :=
  let after := sim.exit sym p exitPrice ts reason
  { directionExit := p.side
    qty := roundTo 6 p.qty
    fillPrice := roundTo 4 exitPrice
    slippageBps := roundTo 2 (uniform 0 sim.exitSlippageBps random)
    feeUsd := roundTo 4 (sim.feeUsd (exitPrice * p.qty))
    feesCumulative := roundTo 4 after.feesCumulative
    reason := reason
    grossPnl := roundTo 2 (grossPnl p exitPrice)
    realizedPnl := roundTo 2 (sim.closing p exitPrice ts reason).realizedPnl
    cashAfter := roundTo 2 after.cash }

/-- The open position of the tick's symbol that the tick closes, and why. -/
def exiting (sim : ExecutionSimulator) (tick : MarketTick) : Option (Position × ExitReason) :=
  match sim.positions.get? tick.symbol with
  | none => none
  | some p =>
      if p.status ≠ .opened then none
      else (exitReason p (tick.price.getD 0) tick.ts).map fun reason => (p, reason)

/-- `monitor_exits` -/
def monitorExits (sim : ExecutionSimulator) (tick : MarketTick) (random : ℚ) (orderId : Text) :
    List ExecutionSim × ExecutionSimulator :=
  match sim.exiting tick with
  | none => ([], sim)
  | some (p, reason) =>
      let exitPrice := sim.exitPrice p.side (tick.price.getD 0) random
      let trace := if p.signalId = [] then txt "notrace" else p.signalId
      ([⟨tick.symbol, txt "exit-" ++ trace.drop (trace.length - 6), orderId,
          .exited (sim.exited tick.symbol p random exitPrice tick.ts reason)⟩],
        sim.exit tick.symbol p exitPrice tick.ts reason)

/-! ## Risk state -/

/-- The positions that `risk_state` counts. -/
def openPositions (sim : ExecutionSimulator) : List Position :=
  sim.positions.values.filter fun p => p.status == .opened

def markOf (lastPrices : Dict Text ℚ) (p : Position) : ℚ :=
  (lastPrices.get? p.symbol).getD p.entryPrice

def grossExposure (sim : ExecutionSimulator) : ℚ :=
  (sim.openPositions.map fun p => p.qty * p.entryPrice).sum

def unrealizedPnl (sim : ExecutionSimulator) (lastPrices : Dict Text ℚ) : ℚ :=
  (sim.openPositions.map fun p => grossPnl p (markOf lastPrices p)).sum

def realizedPnl (sim : ExecutionSimulator) : ℚ := (sim.closed.map Position.realizedPnl).sum

/-- The equity that `risk_state` computes, before its display rounding. -/
def equity (sim : ExecutionSimulator) (lastPrices : Dict Text ℚ) : ℚ :=
  sim.cash + sim.grossExposure + sim.unrealizedPnl lastPrices

structure RiskState where
  cash : ℚ
  grossExposure : ℚ
  equity : ℚ
  unrealizedPnl : ℚ
  realizedPnl : ℚ
  feesPaid : ℚ
  openPositions : Nat
  closedPositions : Nat
  winRate : ℚ
  drawdownPct : ℚ
  returnPct : ℚ
  startingUsd : ℚ
  currentUsd : ℚ

/-- `risk_state` -/
def riskState (sim : ExecutionSimulator) (lastPrices : Dict Text ℚ) :
    RiskState × ExecutionSimulator :=
  let equity := sim.equity lastPrices
  let before := sim.peakEquity.getD sim.startingCash
  let peak := if before < equity then equity else before
  ({ cash := roundTo 2 sim.cash
     grossExposure := roundTo 2 sim.grossExposure
     equity := roundTo 2 equity
     unrealizedPnl := roundTo 2 (sim.unrealizedPnl lastPrices)
     realizedPnl := roundTo 2 sim.realizedPnl
     feesPaid := roundTo 4 sim.feesCumulative
     openPositions := sim.openPositions.length
     closedPositions := sim.closed.length
     winRate :=
      if sim.closed = [] then 0
      else (sim.closed.filter fun p => decide (0 < p.realizedPnl)).length / sim.closed.length * 100
     drawdownPct := roundTo 2 (if 0 < peak ∧ equity < peak then (peak - equity) / peak * 100 else 0)
     returnPct :=
      if 0 < sim.startingCash then
        roundTo 4 ((equity - sim.startingCash) / sim.startingCash * 100)
      else 0
     startingUsd := roundTo 2 sim.startingCash
     currentUsd := roundTo 2 equity },
    { sim with peakEquity := some peak })

end ExecutionSimulator

end Senex.Simulator
