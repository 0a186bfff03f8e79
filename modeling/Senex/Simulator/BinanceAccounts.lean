import Senex.Foundation.Total
import Senex.Foundation.Transition
import Senex.Simulator.BinanceLane

/-! # The books of the Binance simulation lane

Before the roundings of its floats, the lane accounts for every fee and every gain: cash,
fees and realized gains are those of the closes and of the entry of the open position.
-/

namespace Senex.Simulator

open Text BinanceSimLane

/-! ## What a call does -/

/-- The amounts of the lane and its position are those of another one. -/
structure SameBooks (lane after : BinanceSimLane ℚ) : Prop where
  starting : after.startingBankrollUsdt = lane.startingBankrollUsdt
  cash : after.cashUsdt = lane.cashUsdt
  fees : after.feesPaidUsdt = lane.feesPaidUsdt
  realized : after.realizedPnlUsdt = lane.realizedPnlUsdt
  orders : after.totalSimulatedOrders = lane.totalSimulatedOrders
  closed : after.closedTrades = lane.closedTrades
  position : after.openPosition = lane.openPosition
  history : after.history = lane.history

/-- An entry: its fee is paid from the cash. -/
structure Opens (lane after : BinanceSimLane ℚ) (position : LanePosition ℚ) : Prop where
  flat : lane.openPosition = none
  held : after.openPosition = some position
  starting : after.startingBankrollUsdt = lane.startingBankrollUsdt
  cash : after.cashUsdt = lane.cashUsdt - position.entryFeeUsdt
  fees : after.feesPaidUsdt = lane.feesPaidUsdt + position.entryFeeUsdt
  realized : after.realizedPnlUsdt = lane.realizedPnlUsdt
  orders : after.totalSimulatedOrders = lane.totalSimulatedOrders + 1
  closed : after.closedTrades = lane.closedTrades
  history : after.history = lane.history

/-- An exit: its gain less its fee goes to the cash. -/
structure Closes (lane after : BinanceSimLane ℚ) (trade : ClosedTrade ℚ) : Prop where
  held : lane.openPosition = some trade.toLanePosition
  flat : after.openPosition = none
  net : trade.netPnlUsdt = trade.grossPnlUsdt - trade.entryFeeUsdt - trade.exitFeeUsdt
  starting : after.startingBankrollUsdt = lane.startingBankrollUsdt
  cash : after.cashUsdt = lane.cashUsdt + trade.grossPnlUsdt - trade.exitFeeUsdt
  fees : after.feesPaidUsdt = lane.feesPaidUsdt + trade.exitFeeUsdt
  realized : after.realizedPnlUsdt = after.cashUsdt - lane.startingBankrollUsdt
  orders : after.totalSimulatedOrders = lane.totalSimulatedOrders
  closed : after.closedTrades = lastTrades (lane.closedTrades ++ [trade])
  history : after.history = lane.history ++ [trade]

/-- Everything that a call can do to the books of the lane. -/
inductive Moves (lane after : BinanceSimLane ℚ) : Prop
  | rests (same : SameBooks lane after) : Moves lane after
  | opens (position : LanePosition ℚ) (entry : Opens lane after position) : Moves lane after
  | closes (trade : ClosedTrade ℚ) (exit : Closes lane after trade) : Moves lane after

theorem SameBooks.refl (lane : BinanceSimLane ℚ) : SameBooks lane lane :=
  ⟨rfl, rfl, rfl, rfl, rfl, rfl, rfl, rfl⟩

theorem openTrade_moves (lane : BinanceSimLane ℚ) (flat : lane.openPosition = none) (direction : Side)
    (referencePrice : ℚ) (eventTs : Double) (eventAt : Text) (prediction : PyValue) (persist : Py Unit) :
    Moves lane (lane.openTrade direction referencePrice eventTs eventAt prediction persist).1 := by
  unfold openTrade
  dsimp only
  split
  · exact .rests (.refl lane)
  split
  · exact .rests (.refl lane)
  split
  · exact .rests (.refl lane)
  · exact .opens _ ⟨flat, rfl, rfl, rfl, rfl, rfl, rfl, rfl, rfl⟩

theorem closeTrade_moves (lane : BinanceSimLane ℚ) {position : LanePosition ℚ}
    (held : lane.openPosition = some position) (referencePrice : ℚ) (eventAt : Text) (reason : ExitReason)
    (persist : Py Unit) :
    Closes lane (lane.closeTrade position referencePrice eventAt reason persist).1
      (lane.tradeOf position referencePrice eventAt reason) :=
  ⟨held, rfl, rfl, rfl, rfl, rfl, rfl, rfl, rfl, rfl⟩

/-- A lane marked to a new price moves as it would have before. -/
theorem Moves.marked {lane after : BinanceSimLane ℚ} {price : ℚ}
    (moves : Moves { lane with lastMarkPrice := some price } after) : Moves lane after := by
  cases moves with
  | rests same =>
      exact .rests ⟨same.starting, same.cash, same.fees, same.realized, same.orders, same.closed,
        same.position, same.history⟩
  | opens position entry =>
      exact .opens position ⟨entry.flat, entry.held, entry.starting, entry.cash, entry.fees,
        entry.realized, entry.orders, entry.closed, entry.history⟩
  | closes trade exit =>
      exact .closes trade ⟨exit.held, exit.flat, exit.net, exit.starting, exit.cash, exit.fees,
        exit.realized, exit.orders, exit.closed, exit.history⟩

theorem onObservation_moves (lane : BinanceSimLane ℚ) (direction : Option Side) (referencePrice : ℚ)
    (eventTs : Double) (prediction : PyValue) (persist : Py Unit) :
    Moves lane (lane.onObservation direction referencePrice eventTs prediction persist).1 := by
  apply @Moves.marked _ _ referencePrice
  unfold onObservation
  dsimp only
  split
  · exact .rests (.refl _)
  split
  · rename_i position held
    split
    · rename_i reason _
      exact .closes _ (closeTrade_moves { lane with lastMarkPrice := some referencePrice } held
        referencePrice _ reason persist)
    · exact .rests ⟨rfl, rfl, rfl, rfl, rfl, rfl, rfl, rfl⟩
  · rename_i flat
    split
    · exact .rests ⟨rfl, rfl, rfl, rfl, rfl, rfl, rfl, rfl⟩
    · exact openTrade_moves { lane with lastMarkPrice := some referencePrice } flat _ _ _ _ _ _

theorem step_moves (lane : BinanceSimLane ℚ) (call : PyValue × Py Unit) : Moves lane (BinanceSimLane.step lane call) := by
  unfold BinanceSimLane.step onPrediction
  split
  · exact .rests (.refl lane)
  split
  · exact .rests (.refl lane)
  split
  · exact .rests (.refl lane)
  split
  · exact .rests (.refl lane)
  · exact .rests (.refl lane)
  dsimp only
  split
  · exact .rests (.refl lane)
  · exact onObservation_moves lane _ _ _ _ _

/-! ## The books -/

/-- The entry fee of the open position. -/
def openFee (lane : BinanceSimLane ℚ) : ℚ := (lane.openPosition.map LanePosition.entryFeeUsdt).getD 0

/-- The fees of both legs of a close. -/
def ClosedTrade.fees (trade : ClosedTrade ℚ) : ℚ := trade.entryFeeUsdt + trade.exitFeeUsdt

def wins (trades : List (ClosedTrade ℚ)) : Nat := trades.countP fun trade => decide (0 < trade.netPnlUsdt)

def losses (trades : List (ClosedTrade ℚ)) : Nat := trades.countP fun trade => decide (trade.netPnlUsdt ≤ 0)

/-- What the lane accounts for. -/
structure LaneBooked (lane : BinanceSimLane ℚ) : Prop where
  cash : lane.cashUsdt =
    lane.startingBankrollUsdt + total ClosedTrade.netPnlUsdt lane.history - openFee lane
  fees : lane.feesPaidUsdt = total ClosedTrade.fees lane.history + openFee lane
  realized : lane.realizedPnlUsdt = total ClosedTrade.netPnlUsdt lane.history
  single : lane.totalSimulatedOrders = lane.history.length + lane.openPosition.toList.length
  kept : lane.closedTrades = lastTrades lane.history

theorem lastTrades_concat (trades : List (ClosedTrade ℚ)) (trade : ClosedTrade ℚ) :
    lastTrades (lastTrades trades ++ [trade]) = lastTrades (trades ++ [trade]) := by
  unfold lastTrades
  rw [← List.drop_append_of_le_length (by simp), List.drop_drop]
  congr 1
  simp only [List.length_drop, List.length_append, List.length_singleton]
  omega

theorem LaneBooked.step {lane : BinanceSimLane ℚ} (booked : LaneBooked lane) (call : PyValue × Py Unit) :
    LaneBooked (BinanceSimLane.step lane call) := by
  generalize same : BinanceSimLane.step lane call = after
  have moves := step_moves lane call
  rw [same] at moves
  obtain ⟨cash, fees, realized, single, kept⟩ := booked
  cases moves with
  | rests rest =>
      have fee : openFee after = openFee lane := by rw [openFee, rest.position, openFee]
      exact ⟨by rw [rest.cash, rest.starting, rest.history, fee]; exact cash,
        by rw [rest.fees, rest.history, fee]; exact fees,
        by rw [rest.realized, rest.history]; exact realized,
        by rw [rest.orders, rest.history, rest.position]; exact single,
        by rw [rest.closed, rest.history]; exact kept⟩
  | opens position entry =>
      have none : openFee lane = 0 := by rw [openFee, entry.flat]; rfl
      have fee : openFee after = position.entryFeeUsdt := by rw [openFee, entry.held]; rfl
      refine ⟨?_, ?_, ?_, ?_, ?_⟩
      · rw [entry.cash, entry.starting, entry.history, fee, cash, none]
        ring
      · rw [entry.fees, entry.history, fee, fees, none]
        ring
      · rw [entry.realized, entry.history]
        exact realized
      · rw [entry.orders, entry.history, entry.held, single, entry.flat]
        rfl
      · rw [entry.closed, entry.history]
        exact kept
  | closes trade exit =>
      have fee : openFee lane = trade.entryFeeUsdt := by rw [openFee, exit.held]; rfl
      have none : openFee after = 0 := by rw [openFee, exit.flat]; rfl
      have balance : after.cashUsdt =
          lane.startingBankrollUsdt + total ClosedTrade.netPnlUsdt after.history := by
        rw [exit.cash, exit.history, total_append, total_cons, total_nil, exit.net, cash, fee]
        ring
      refine ⟨?_, ?_, ?_, ?_, ?_⟩
      · rw [balance, exit.starting, none]
        ring
      · rw [exit.fees, exit.history, total_append, total_cons, total_nil, ClosedTrade.fees, fees, fee,
          none]
        ring
      · rw [exit.realized, balance]
        ring
      · rw [exit.orders, exit.history, exit.flat, single, exit.held]
        simp
      · rw [exit.closed, exit.history, kept]
        exact lastTrades_concat lane.history trade

theorem LaneBooked.fresh (bankroll : ℚ) : LaneBooked (BinanceSimLane.fresh bankroll) := by
  constructor <;> simp [BinanceSimLane.fresh, openFee, lastTrades]

theorem wins_add_losses (trades : List (ClosedTrade ℚ)) : wins trades + losses trades = trades.length := by
  rw [wins, losses, List.length_eq_countP_add_countP (fun trade => decide (0 < trade.netPnlUsdt))]
  congr 2
  funext trade
  simp

theorem LaneBooked.run {lane : BinanceSimLane ℚ} (booked : LaneBooked lane)
    (calls : List (PyValue × Py Unit)) : LaneBooked (Senex.run BinanceSimLane.step lane calls) :=
  run_invariant_of_step (fun _ call kept => kept.step call) booked calls

def entering : PyValue := .ofMembers [(txt "symbol", .str (txt "BTCUSDT")), (txt "prediction", .str (txt "LONG")),
  (txt "price_now", .int 100), (txt "ts", .int 1000)]

def leaving : PyValue := .ofMembers [(txt "symbol", .str (txt "BTCUSDT")), (txt "prediction", .str (txt "FLAT")),
  (txt "price_now", .int 100), (txt "ts", .int 5000)]


/-- A prediction for BTC at 100 comes to an observation. -/
theorem step_eq_observation {lane : BinanceSimLane ℚ} {prediction : PyValue} {side : Option Side} {time : Double}
    (loaded : lane.loadError = false) (dict : prediction.isDict = true)
    (symbol : normalizeSymbol (prediction.get (txt "symbol")) = some (txt "BTCUSDT"))
    (price : finitePositive (prediction.get (txt "price_now")) = .ok (some (Double.round 100)))
    (given : (prediction.get (txt "ts")).truthy = true) (timed : parseTs (prediction.get (txt "ts")) = some time)
    (directed : directionOf prediction = side) :
    BinanceSimLane.step lane (prediction, .ok ()) = (lane.onObservation side 100 time prediction (.ok ())).1 := by
  have hundred : (PyFloat.ofDouble (Double.round 100) : ℚ) = 100 := by decide +kernel
  simp [BinanceSimLane.step, onPrediction, loaded, dict, symbol, price, given, timed, directed, hundred]

/-- The times of the two predictions are in the calendar. -/
theorem isoFromEpoch_isOk : (isoFromEpoch (Double.round 1000)).isOk = true ∧
    (isoFromEpoch (Double.round 5000)).isOk = true := by decide +kernel

/-- A lane that can enter. -/
structure Ready (lane : BinanceSimLane ℚ) : Prop where
  loaded : lane.loadError = false
  flat : lane.openPosition = none
  funded : 0 < lane.cashUsdt

/-- A lane that holds a quarter of its cash, less the fee, since a thousand seconds. -/
structure Long (lane : BinanceSimLane ℚ) (cash : ℚ) : Prop where
  loaded : lane.loadError = false
  charged : lane.cashUsdt = cash * (1 - 1 / 4 * (5 / 10000))
  held : ∃ position, lane.openPosition = some position ∧ position.direction = .long ∧
    position.qty = cash / 4 / (5001 / 50) ∧ position.entryPrice = 5001 / 50 ∧
    position.stopPrice = 5001 / 50 * (98 / 100) ∧ position.targetPrice = 5001 / 50 * (104 / 100) ∧
    position.openedEpoch = 1000

theorem Ready.enter {lane : BinanceSimLane ℚ} (ready : Ready lane) :
    Long (BinanceSimLane.step lane (entering, .ok ())) lane.cashUsdt ∧
      (BinanceSimLane.step lane (entering, .ok ())).history = lane.history := by
  have observed : BinanceSimLane.step lane (entering, .ok ()) =
      (lane.onObservation (some .long) 100 (Double.round 1000) entering (.ok ())).1 :=
    step_eq_observation ready.loaded rfl (by decide +kernel) (by decide +kernel) (by decide +kernel)
      (by decide +kernel) (by decide +kernel)
  have stamped := isoFromEpoch_isOk.1
  cases stamp : isoFromEpoch (Double.round 1000) with
  | error e =>
      rw [stamp] at stamped
      cases stamped
  | ok eventAt =>
      have epoch : (PyFloat.ofDouble (Double.round 1000) : ℚ) = 1000 := by decide +kernel
      have number : predictionNumber entering = .ok 0 := by decide +kernel
      have quarter : min (lane.cashUsdt * (25 / 100)) (max 0 lane.cashUsdt) = lane.cashUsdt / 4 := by
        rw [max_eq_right ready.funded.le, min_eq_left (by linarith [ready.funded])]
        ring
      have invested : ¬lane.cashUsdt / 4 ≤ 0 := by linarith [ready.funded]
      have entry : (100 : ℚ) * (1 + entrySign Side.long * entrySlippageBps / 10000) = 5001 / 50 := by
        decide +kernel
      rw [observed]
      simp only [onObservation, stamp, ready.flat, openTrade, equity, PyFloat.le_rat, PyFloat.lit_rat,
        decide_eq_true_eq, not_le.mpr ready.funded, if_false, PyFloat.minimum_rat, PyFloat.maximum_rat,
        maxNotionalPct, quarter, invested, number, entry, epoch]
      refine ⟨⟨ready.loaded, ?_, _, rfl, rfl, rfl, rfl, ?_, ?_, rfl⟩, trivial⟩
      · simp only [takerFeeBps, PyFloat.lit_rat]
        ring
      · norm_num
      · norm_num

theorem Long.leave {lane : BinanceSimLane ℚ} {cash : ℚ} (long : Long lane cash) (positive : 0 < cash) :
    Ready (BinanceSimLane.step lane (leaving, .ok ())) ∧
      (BinanceSimLane.step lane (leaving, .ok ())).history.length = lane.history.length + 1 := by
  have observed : BinanceSimLane.step lane (leaving, .ok ()) =
      (lane.onObservation none 100 (Double.round 5000) leaving (.ok ())).1 :=
    step_eq_observation long.loaded rfl (by decide +kernel) (by decide +kernel) (by decide +kernel)
      (by decide +kernel) (by decide +kernel)
  have stamped := isoFromEpoch_isOk.2
  obtain ⟨position, held, direction, qty, entry, stop, target, opened⟩ := long.held
  cases stamp : isoFromEpoch (Double.round 5000) with
  | error e =>
      rw [stamp] at stamped
      cases stamped
  | ok eventAt =>
      have epoch : (PyFloat.ofDouble (Double.round 5000) : ℚ) = 5000 := by decide +kernel
      have reason : exitReason position (100 : ℚ) 5000 = some .timeStop := by
        simp only [exitReason, direction, stop, target, opened, PyFloat.le_rat, timeStopSeconds,
          PyFloat.lit_rat]
        norm_num
      have exit : (100 : ℚ) * (1 + exitSign Side.long * exitSlippageBps / 10000) = 9997 / 100 := by
        decide +kernel
      have closing (other : BinanceSimLane ℚ) (same : other.cashUsdt = lane.cashUsdt) :
          (other.tradeOf position 100 eventAt .timeStop).cashAfterUsdt =
            cash * (1 - 1 / 4 * (5 / 10000) - 5 / 40008 - 9997 / 40008 * (5 / 10000)) := by
        have fee : PyFloat.absolute (cash / 4 / (5001 / 50) * (9997 / 100)) =
            cash / 4 / (5001 / 50) * (9997 / 100) := by
          have gain : ¬cash / 4 / (5001 / 50) * (9997 / 100) < 0 := not_lt.mpr (by positivity)
          simp [PyFloat.absolute, gain]
        simp only [tradeOf, direction, exit, directionalPnl, legFee, fee, takerFeeBps, PyFloat.lit_rat, qty,
          entry, same, long.charged]
        ring
      rw [observed]
      simp only [onObservation, stamp, held, epoch, reason, closeTrade]
      refine ⟨⟨long.loaded, rfl, ?_⟩, by simp⟩
      exact lt_of_lt_of_eq (by positivity) (closing _ rfl).symm

/-- A lane can go through any number of closes. -/
theorem exists_closes (count : Nat) : ∃ calls,
    Ready (run BinanceSimLane.step (BinanceSimLane.fresh (100 : ℚ)) calls) ∧
      (run BinanceSimLane.step (BinanceSimLane.fresh (100 : ℚ)) calls).history.length = count := by
  induction count with
  | zero => exact ⟨[], ⟨rfl, rfl, by norm_num [BinanceSimLane.fresh]⟩, rfl⟩
  | succ count ih =>
      obtain ⟨calls, ready, closes⟩ := ih
      obtain ⟨long, same⟩ := ready.enter
      obtain ⟨again, more⟩ := long.leave ready.funded
      refine ⟨calls ++ [(entering, .ok ()), (leaving, .ok ())], ?_⟩
      rw [run_append]
      refine ⟨again, ?_⟩
      rw [same, closes] at more
      exact more

end Senex.Simulator
