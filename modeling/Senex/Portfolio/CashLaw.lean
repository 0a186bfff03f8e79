import Senex.Foundation.Total
import Senex.Portfolio.ExecutionEngine

/-! # Cash of the execution engine

Before the roundings, cash with what the open positions were entered for is the
starting cash less the entry fees of the open positions and with the realized
P&L of the closed ones.  A fill charges its fee before there is a position, so
an order keeps what it has paid until its position takes the fees over.
-/

namespace Senex.Portfolio

open PyFloat Engine

/-! ## Attempts -/

/-- What the attempts leave: the fees are paid out of the cash, and whatever has been filled is
either the whole order or leaves a residual. -/
structure Attempted (o : Order ℚ) (cash : ℚ) (result : Order ℚ × ℚ × Bool) : Prop where
  paid : result.2.1 + result.1.totalFees = cash + o.totalFees
  same : result.1.symbol = o.symbol ∧ result.1.direction = o.direction
  more : o.filledQty ≤ result.1.filledQty
  filled : result.2.2 = true → 0 < result.1.filledQty
  residual : result.2.2 = false → 0 < result.1.filledQty → 0 < result.1.remainingQty
  unfilled : ¬ 0 < result.1.filledQty → result.1.totalFees = o.totalFees

namespace Attempted

theorem rfl' {o : Order ℚ} {cash : ℚ} (residual : 0 < o.filledQty → 0 < o.remainingQty) :
    Attempted o cash (o, cash, false) :=
  ⟨rfl, ⟨rfl, rfl⟩, le_refl _, by simp, fun _ => residual, fun _ => rfl⟩

/-- A fill behind which the whole order is filled. -/
theorem full {o : Order ℚ} {cash qty price fee : ℚ} (nonneg : 0 ≤ o.filledQty) (positive : 0 < qty) :
    Attempted o cash ({ o.addFill qty price fee with status := .filled }, cash - fee, true) := by
  have filled : 0 < o.filledQty + qty := by linarith
  refine ⟨?_, ⟨rfl, rfl⟩, ?_, fun _ => filled, by simp, fun none => absurd filled none⟩
  · simp only [Order.addFill]
    linarith
  · simp only [Order.addFill]
    linarith

/-- A fill before further attempts. -/
theorem after {cfg : EngineConfig ℚ} {o : Order ℚ} {attempt : Nat} {cash qty price fee : ℚ}
    {result : Order ℚ × ℚ × Bool} (nonneg : 0 ≤ o.filledQty) (positive : 0 < qty)
    (rest : Attempted (retried cfg (o.addFill qty price fee) attempt) (cash - fee) result) :
    Attempted o cash result := by
  have more : o.filledQty + qty ≤ result.1.filledQty := rest.more
  have filled : 0 < result.1.filledQty := by linarith
  refine ⟨?_, rest.same, by linarith, rest.filled, rest.residual, fun none => absurd filled none⟩
  have paid := rest.paid
  simp only [retried, Order.addFill] at paid
  linarith

end Attempted

theorem attempted {cfg : EngineConfig ℚ} {lastPrice : ℚ} {bookDepthUsd : Option ℚ}
    {draws : Nat → FillDraw ℚ} (left attempt : Nat) {o : Order ℚ} (cash : ℚ)
    (nonneg : 0 ≤ o.filledQty) (residual : 0 < o.filledQty → 0 < o.remainingQty) :
    Attempted o cash (attempts cfg lastPrice bookDepthUsd draws left attempt o cash) := by
  induction left generalizing attempt o cash with
  | zero => exact Attempted.rfl' residual
  | succ left ih =>
      unfold attempts
      split
      · exact Attempted.rfl' residual
      · dsimp only
        split
        · exact ih (attempt + 1) cash nonneg residual
        · rename_i positive
          simp only [le_rat, lit_rat, decide_eq_true_eq, not_le] at positive
          split
          · exact Attempted.full nonneg positive
          · rename_i residual'
            simp only [le_rat, lit_rat, decide_eq_true_eq, not_le] at residual'
            apply Attempted.after nonneg positive
            apply ih
            · simp only [retried, Order.addFill]
              linarith
            · intro _
              have least : (0 : ℚ) < 1 / 1000000000 := by norm_num
              exact least.trans residual'

/-! ## The law -/

def entryValue (p : Position ℚ) : ℚ := p.qty * p.avgEntryPrice

/-- What a position adds to the equity when it is marked at a price. -/
def signedValue (p : Position ℚ) (price : ℚ) : ℚ :=
  match p.direction with
  | .long => p.qty * price
  | .short => -(p.qty * price)

/-- The entry value of the open positions of a direction. -/
def entryValueOf (direction : Direction) (e : Engine ℚ) : ℚ :=
  total (fun p => if p.direction = direction then entryValue p else 0) e.positions.values

def openFees (e : Engine ℚ) : ℚ := total Position.feesPaid e.positions.values

def realizedPnl (e : Engine ℚ) : ℚ := total Position.realizedPnl e.closedPositions

/-- The mark of a position: the last price of its symbol, or its entry price. -/
def markOf (lastPrices : Dict Text ℚ) (p : Position ℚ) : ℚ :=
  (lastPrices.get? p.symbol).getD p.avgEntryPrice

/-- What the open positions have gained at the last prices, each at its entry where there is none. -/
def unrealizedPnl (e : Engine ℚ) (lastPrices : Dict Text ℚ) : ℚ :=
  total (fun p => realizedGross p (markOf lastPrices p)) e.positions.values

/-- The entries under `positions` are open and stand under their own symbols. -/
def Filed (e : Engine ℚ) : Prop := e.positions.Every fun key p => p.symbol = key ∧ p.status = .opened

/-- The conservation law of cash. -/
structure CashConserved (e : Engine ℚ) : Prop where
  cash : e.cash + entryValueOf .long e - entryValueOf .short e =
    e.startingCash - openFees e + realizedPnl e
  equity (lastPrices : Dict Text ℚ) : e.equity lastPrices =
    e.startingCash - openFees e + realizedPnl e + unrealizedPnl e lastPrices

/-- What the law comes down to. -/
structure Balanced (e : Engine ℚ) : Prop where
  filed : Filed e
  cash : e.cash + total (fun p => signedValue p p.avgEntryPrice + p.feesPaid) e.positions.values =
    e.startingCash + realizedPnl e

namespace Balanced

variable {e : Engine ℚ}

theorem openPosition_eq (filed : Filed e) (symbol : Text) :
    e.openPosition symbol = e.positions.get? symbol := by
  unfold openPosition
  cases found : e.positions.get? symbol with
  | none => rfl
  | some p => simp [Option.filter, (filed.get? found).2]

theorem start (cfg : EngineConfig ℚ) : Balanced (Engine.start cfg) :=
  ⟨Dict.every_empty _, by simp [Engine.start, realizedPnl]⟩

/-- A filled order opens its position under a free symbol, and its fees have left the cash. -/
theorem openPosition (filed : Filed e) {o : Order ℚ} (filled : 0 < o.filledQty)
    (vacant : e.positions.get? o.symbol = none)
    (before : e.cash + o.totalFees +
      total (fun p => signedValue p p.avgEntryPrice + p.feesPaid) e.positions.values =
        e.startingCash + realizedPnl e) (positionId now : Text) :
    Balanced (e.openOrAddPosition o positionId now) := by
  have none : (e.openPosition o.symbol).isSome = false := by simp [openPosition_eq filed, vacant]
  unfold openOrAddPosition
  rw [if_neg (by simpa using filled), if_neg (by simp [none])]
  refine ⟨filed.set ⟨rfl, rfl⟩, ?_⟩
  dsimp only
  rw [total_set_absent _ _ vacant]
  simp only [realizedPnl, signedValue, positionOf] at before ⊢
  cases o.direction <;> dsimp only <;> linarith

/-- The total that the law compares does not see the cash or the orders. -/
theorem of_cash (balanced : Balanced e) {cash fees : ℚ} (paid : cash + fees = e.cash) :
    cash + fees + total (fun p => signedValue p p.avgEntryPrice + p.feesPaid) e.positions.values =
      e.startingCash + realizedPnl e := by
  rw [paid]
  exact balanced.cash

theorem tryFill (balanced : Balanced e) {o : Order ℚ} (lastPrice : ℚ) (bookDepthUsd : Option ℚ)
    (draws : Nat → FillDraw ℚ) (positionId now : Text) (new : o.filledQty = 0 ∧ o.totalFees = 0)
    (vacant : e.positions.get? o.symbol = none) :
    Balanced (e.tryFill o lastPrice bookDepthUsd draws positionId now).1 := by
  have result := @attempted e.cfg lastPrice bookDepthUsd draws (e.cfg.maxRetries + 1) 0 o e.cash
    (le_of_eq new.1.symm) (by simp [new.1])
  unfold Engine.tryFill
  generalize attempts e.cfg lastPrice bookDepthUsd draws (e.cfg.maxRetries + 1) 0 o e.cash = out at result
  obtain ⟨o', cash, filled⟩ := out
  have symbol : o'.symbol = o.symbol := result.same.1
  have paid : cash + o'.totalFees = e.cash := by
    have paid := result.paid
    rw [new.2, add_zero] at paid
    exact paid
  have opens (o'' : Order ℚ) (symbol : o''.symbol = o.symbol) (fees : o''.totalFees = o'.totalFees)
      (positive : 0 < o''.filledQty) :
      Balanced ({ e with cash := cash }.openOrAddPosition o'' positionId now) := by
    refine Balanced.openPosition (e := { e with cash := cash }) balanced.filed positive ?_ ?_ positionId now
    · rw [symbol]
      exact vacant
    · rw [fees]
      exact balanced.of_cash paid
  have stays (unfilled : ¬ 0 < o'.filledQty) : Balanced { e with cash := cash } := by
    have free : o'.totalFees = 0 := (result.unfilled unfilled).trans new.2
    refine ⟨balanced.filed, ?_⟩
    have law := balanced.of_cash paid
    rw [free, add_zero] at law
    exact law
  dsimp only
  split
  · rename_i done
    exact opens o' symbol rfl (result.filled done)
  · rename_i notDone
    rw [Bool.not_eq_true] at notDone
    split
    · dsimp only
      split
      · rename_i positive
        exact opens _ symbol rfl (by simpa using positive)
      · rename_i unfilled
        exact stays (by simpa using unfilled)
    · rename_i none
      refine stays fun positive => ?_
      simp only [lt_rat, lit_rat, decide_eq_true_eq] at none
      exact none (result.residual notDone positive)

theorem tryFillHighFidelity (balanced : Balanced e) {o : Order ℚ} (lastPrice : ℚ)
    (estimate : FillEstimate ℚ) (positionId now : Text) (new : o.filledQty = 0 ∧ o.totalFees = 0)
    (vacant : e.positions.get? o.symbol = none) :
    Balanced (e.tryFillHighFidelity o lastPrice estimate positionId now).1 := by
  unfold Engine.tryFillHighFidelity
  split
  · exact balanced
  · split
    · exact balanced
    · rename_i some
      simp only [le_rat, lit_rat, decide_eq_true_eq, not_le] at some
      have positive : 0 < o.filledQty + estimate.expectedQty := by
        rw [new.1, zero_add]
        exact some
      have opens (o' : Order ℚ) (symbol : o'.symbol = o.symbol)
          (filled : o'.filledQty = o.filledQty + estimate.expectedQty)
          (fees : o'.totalFees = o.totalFees + estimate.expectedFeeUsd) :
          Balanced ({ e with cash := e.cash - estimate.expectedFeeUsd }.openOrAddPosition o' positionId
            now) := by
        refine Balanced.openPosition (e := { e with cash := e.cash - estimate.expectedFeeUsd })
          balanced.filed (by rw [filled]; exact positive) ?_ ?_ positionId now
        · rw [symbol]
          exact vacant
        · apply balanced.of_cash
          rw [fees, new.2]
          dsimp only
          linarith
      dsimp only
      split
      · exact opens _ rfl rfl rfl
      · rw [if_pos (by simpa [Order.addFill] using positive)]
        exact opens _ rfl rfl rfl

theorem submit (balanced : Balanced e) (p : OrderProposal ℚ) (sizeScale lastPrice : ℚ)
    (inputs : SubmitInputs ℚ) (vacant : e.positions.get? p.symbol = none) :
    Balanced (e.submit p sizeScale lastPrice inputs).1 := by
  have counted : Balanced { e with orders := e.orders + 1 } := ⟨balanced.filed, balanced.cash⟩
  unfold Engine.submit
  dsimp only
  split
  · exact counted
  · split
    · exact counted.tryFillHighFidelity _ _ _ _ ⟨rfl, rfl⟩ vacant
    · exact counted.tryFill _ _ _ _ _ ⟨rfl, rfl⟩ vacant

/-- A change of the open position under a symbol that leaves its books as they are. -/
theorem update (balanced : Balanced e) {symbol : Text} {p q : Position ℚ}
    (held : e.positions.get? symbol = some p)
    (same : q.symbol = p.symbol ∧ q.status = p.status ∧ q.direction = p.direction ∧ q.qty = p.qty ∧
      q.avgEntryPrice = p.avgEntryPrice ∧ q.feesPaid = p.feesPaid) :
    Balanced { e with positions := e.positions.set symbol q } := by
  obtain ⟨symbol', status, direction, qty, price, fees⟩ := same
  have filed := balanced.filed.get? held
  refine ⟨balanced.filed.set ⟨symbol'.trans filed.1, status.trans filed.2⟩, ?_⟩
  have value : signedValue q q.avgEntryPrice + q.feesPaid =
      signedValue p p.avgEntryPrice + p.feesPaid := by
    simp only [signedValue, direction, qty, price, fees]
  have law := balanced.cash
  dsimp only
  rw [total_set_present _ _ held, value]
  simp only [realizedPnl] at law ⊢
  linarith

theorem setStopTarget (balanced : Balanced e) (symbol : Text) (stopPrice targetPrice : ℚ) :
    Balanced (e.setStopTarget symbol stopPrice targetPrice) := by
  unfold Engine.setStopTarget
  rw [openPosition_eq balanced.filed]
  split
  · exact balanced
  · rename_i held
    exact balanced.update held ⟨rfl, rfl, rfl, rfl, rfl, rfl⟩

theorem withExcursions_same (p : Position ℚ) (tickPrice : ℚ) :
    (withExcursions p tickPrice).symbol = p.symbol ∧ (withExcursions p tickPrice).status = p.status ∧
    (withExcursions p tickPrice).direction = p.direction ∧ (withExcursions p tickPrice).qty = p.qty ∧
    (withExcursions p tickPrice).avgEntryPrice = p.avgEntryPrice ∧
    (withExcursions p tickPrice).feesPaid = p.feesPaid := by
  unfold withExcursions
  dsimp only
  split <;> exact ⟨rfl, rfl, rfl, rfl, rfl, rfl⟩

theorem checkExits (balanced : Balanced e) (symbol : Text) (tickPrice : ℚ) (tickTs : Text)
    (killSwitchActive : Bool) (random : ℚ) :
    Balanced (e.checkExits symbol tickPrice tickTs killSwitchActive random).1 := by
  unfold Engine.checkExits
  rw [openPosition_eq balanced.filed]
  split
  · exact balanced
  · rename_i p held
    have same := withExcursions_same p tickPrice
    dsimp only
    split
    · exact balanced.update held same
    · rename_i reason _
      obtain ⟨-, -, direction, qty, price, fees⟩ := same
      generalize withExcursions p tickPrice = q at direction qty price fees
      refine ⟨balanced.filed.erase, ?_⟩
      have law := balanced.cash
      dsimp only
      rw [total_erase _ held]
      simp only [realizedPnl, total_append, total_cons, total_nil, closedAs, round_rat, realizedGross,
        signedValue, direction, qty, price, fees] at law ⊢
      cases p.direction <;> dsimp only <;> linarith

theorem exactEquity_eq (filed : Filed e) (lastPrices : Dict Text ℚ) :
    e.exactEquity lastPrices = e.cash + total (fun p => signedValue p (markOf lastPrices p)) e.positions.values := by
  have fold (items : List (Text × Position ℚ)) (cash : ℚ)
      (each : ∀ entry ∈ items, entry.2.symbol = entry.1 ∧ entry.2.status = .opened) :
      items.foldl (fun eq entry =>
        if entry.2.status = .opened then
          let last := (lastPrices.get? entry.1).getD entry.2.avgEntryPrice
          match entry.2.direction with
          | .long => eq + entry.2.qty * last
          | .short => eq - entry.2.qty * last
        else eq) cash =
        cash + total (fun p => signedValue p (markOf lastPrices p)) (items.map Prod.snd) := by
    induction items generalizing cash with
    | nil => simp
    | cons entry items ih =>
        obtain ⟨symbol, status⟩ := each entry List.mem_cons_self
        rw [List.foldl_cons, ih _ fun other member => each other (List.mem_cons_of_mem _ member)]
        simp only [status, if_true, List.map_cons, total_cons, signedValue, markOf, symbol]
        cases entry.2.direction <;> dsimp only <;> ring
  exact fold e.positions.items e.cash filed

/-- The law in the terms of cash, fees and P&L. -/
theorem conserved (balanced : Balanced e) : CashConserved e := by
  have law := balanced.cash
  rw [total_add] at law
  refine ⟨?_, fun lastPrices => ?_⟩
  · have parts : total (fun p => signedValue p p.avgEntryPrice) e.positions.values =
        entryValueOf .long e - entryValueOf .short e := by
      rw [entryValueOf, entryValueOf, ← total_sub]
      apply total_congr
      intro p _
      cases direction : p.direction <;> simp [signedValue, entryValue, direction]
    rw [parts] at law
    simp only [openFees]
    linarith
  · have gains : total (fun p => signedValue p (markOf lastPrices p)) e.positions.values =
        total (fun p => signedValue p p.avgEntryPrice) e.positions.values + unrealizedPnl e lastPrices := by
      rw [unrealizedPnl, ← total_add]
      apply total_congr
      intro p _
      cases direction : p.direction <;> simp only [signedValue, realizedGross, direction] <;> ring
    rw [Engine.equity, round_rat, exactEquity_eq balanced.filed, gains]
    simp only [openFees]
    linarith

end Balanced

/-! ## Whole runs -/

inductive EngineCall where
  | submit (p : OrderProposal ℚ) (sizeScale lastPrice : ℚ) (inputs : SubmitInputs ℚ)
  | setStopTarget (symbol : Text) (stopPrice targetPrice : ℚ)
  | checkExits (symbol : Text) (tickPrice : ℚ) (tickTs : Text) (killSwitchActive : Bool) (random : ℚ)

/-- The engine behind a call. -/
def Engine.after (e : Engine ℚ) : EngineCall → Engine ℚ
  | .submit p sizeScale lastPrice inputs => (e.submit p sizeScale lastPrice inputs).1
  | .setStopTarget symbol stopPrice targetPrice => e.setStopTarget symbol stopPrice targetPrice
  | .checkExits symbol tickPrice tickTs killSwitchActive random =>
      (e.checkExits symbol tickPrice tickTs killSwitchActive random).1

/-- A symbol is only opened while it has no open position. -/
def Vacant (e : Engine ℚ) : EngineCall → Prop
  | .submit p .. => e.openPosition p.symbol = none
  | _ => True

/-- Cash is conserved in every state of a run that opens symbols only while they have no position. -/
theorem cashConserved (cfg : EngineConfig ℚ) (calls : List EngineCall)
    (vacant : Allowed Engine.after Vacant (Engine.start cfg) calls) :
    ∀ first rest, calls = first ++ rest →
      CashConserved (run Engine.after (Engine.start cfg) first) := by
  rintro first rest rfl
  apply Balanced.conserved
  refine @run_invariant _ _ _ _ Balanced ?_ _ (Balanced.start cfg) _ ((allowed_append _ first rest).mp vacant).1
  intro e call balanced free
  cases call with
  | submit p sizeScale lastPrice inputs =>
      apply balanced.submit
      rw [← Balanced.openPosition_eq balanced.filed]
      exact free
  | setStopTarget symbol stopPrice targetPrice => exact balanced.setStopTarget symbol stopPrice targetPrice
  | checkExits symbol tickPrice tickTs killSwitchActive random =>
      exact balanced.checkExits symbol tickPrice tickTs killSwitchActive random

/-- A LONG by the attempts and, behind its exit, a SHORT by an estimate that is left open. -/
def longThenShort : List EngineCall :=
  let inputs : SubmitInputs ℚ :=
    ⟨txt "ord-1", txt "pos-1", [], 1 / 2, none, fun _ => ⟨1 / 2, 1 / 2⟩, none⟩
  [.submit ⟨txt "ETH/USDT", .long, 2, 50, none⟩ 1 1000 inputs,
    .setStopTarget (txt "ETH/USDT") 980 1040,
    .checkExits (txt "ETH/USDT") 1050 [] false (1 / 2),
    .submit ⟨txt "ETH/USDT", .short, 3, 50, none⟩ 1 1000
      { inputs with positionId := txt "pos-2", estimate := some ⟨2, 999, 1⟩ }]

theorem cashConserved_longThenShort :
    CashConserved (run Engine.after (Engine.start (EngineConfig.defaults ℚ)) longThenShort) := by
  refine cashConserved (EngineConfig.defaults ℚ) longThenShort ⟨rfl, trivial, trivial, ?_, trivial⟩
    longThenShort [] (List.append_nil _).symm
  show Engine.openPosition _ _ = none
  decide +kernel

end Senex.Portfolio
