import Senex.Paper.Accounts
import Senex.Paper.Freeze

/-! # The replay ledger

`Ledger` of `accounting.py`, the account of the research replay, and its
simulation of the paper engine: over exact rationals it accepts every fill that
the engine has applied and comes to the same figures.
-/

namespace Senex.Paper

open Text

section
variable {D : Type} [Decimal D]

structure Ledger (D : Type) where
  startingCash : D
  maxInventory : D
  maxFillQty : D
  cash : D
  inventoryQty : D
  inventoryCostBasis : D
  realizedPnl : D
  totalFees : D
  totalSpreadCost : D
  totalSlippageCost : D
  turnover : D

structure LedgerOperation (D : Type) where
  quantity : D
  price : D
  notional : D
  fee : D
  spreadCost : D
  slippageCost : D
  allocatedCostBasis : D
  realizedPnl : D

/-- `Ledger(...)` -/
def Ledger.construct (startingCash maxInventory maxFillQty : PyArg) : Py (Ledger D) := do
  let startingCash ← asDecimal startingCash (txt "starting_cash") .positive
  let maxInventory ← asDecimal maxInventory (txt "max_inventory") .positive
  let maxFillQty ← asDecimal maxFillQty (txt "max_fill_qty") .positive
  return {
    startingCash, maxInventory, maxFillQty
    cash := startingCash
    inventoryQty := Decimal.zero
    inventoryCostBasis := Decimal.zero
    realizedPnl := Decimal.zero
    totalFees := Decimal.zero
    totalSpreadCost := Decimal.zero
    totalSlippageCost := Decimal.zero
    turnover := Decimal.zero }

/-- What `_operation_values` returns. -/
structure OperationValues (D : Type) where
  qty : D
  px : D
  notional : D
  fee : D
  spread : D
  slip : D

def Ledger.operationValues (l : Ledger D) (quantity price fee spreadCost slippageCost : PyArg) :
    Py (OperationValues D) := do
  let qty ← asDecimal quantity (txt "quantity") .positive
  let px ← asDecimal price (txt "price") .positive
  let fee ← asDecimal fee (txt "fee") .nonNegative
  let spread ← asDecimal spreadCost (txt "spread_cost") .nonNegative
  let slip ← asDecimal slippageCost (txt "slippage_cost") .nonNegative
  guardNot (Decimal.lt l.maxFillQty qty) .valueError (txt "quantity exceeds max_fill_qty")
  return ⟨qty, px, ← Decimal.mul qty px, fee, spread, slip⟩

/-- The costs and the turnover of one operation. -/
def Ledger.addCosts (l : Ledger D) (v : OperationValues D) : Py (Ledger D) := do
  let totalFees ← Decimal.add l.totalFees v.fee
  let totalSpreadCost ← Decimal.add l.totalSpreadCost v.spread
  let totalSlippageCost ← Decimal.add l.totalSlippageCost v.slip
  let turnover ← Decimal.add l.turnover v.notional
  return { l with totalFees, totalSpreadCost, totalSlippageCost, turnover }

/-- `buy` -/
def Ledger.buy (l : Ledger D) (quantity price fee spreadCost slippageCost : PyArg) :
    Py (Ledger D × LedgerOperation D) := do
  let v ← l.operationValues quantity price fee spreadCost slippageCost
  let inventoryQty ← Decimal.add l.inventoryQty v.qty
  guardNot (Decimal.lt l.maxInventory inventoryQty) .valueError
    (txt "buy would exceed max_inventory")
  let totalCosts ← Decimal.add (← Decimal.add v.fee v.spread) v.slip
  let debit ← Decimal.add v.notional totalCosts
  guardNot (Decimal.lt l.cash debit) .valueError
    (txt "insufficient cash for buy including modeled costs")
  let cash ← Decimal.sub l.cash debit
  let inventoryCostBasis ← Decimal.add l.inventoryCostBasis debit
  let l ← { l with cash, inventoryQty, inventoryCostBasis }.addCosts v
  return (l, ⟨v.qty, v.px, v.notional, v.fee, v.spread, v.slip, Decimal.zero, Decimal.zero⟩)

/-- The basis that leaves with the units sold. -/
def Ledger.allocatedBasis (l : Ledger D) (qty : D) : Py D :=
  if Decimal.eq qty l.inventoryQty then .ok l.inventoryCostBasis
  else do Decimal.div (← Decimal.mul l.inventoryCostBasis qty) l.inventoryQty

/-- `sell` -/
def Ledger.sell (l : Ledger D) (quantity price fee spreadCost slippageCost : PyArg) :
    Py (Ledger D × LedgerOperation D) := do
  let v ← l.operationValues quantity price fee spreadCost slippageCost
  guardNot (Decimal.lt l.inventoryQty v.qty) .valueError (txt "sell would create a short position")
  let totalCosts ← Decimal.add (← Decimal.add v.fee v.spread) v.slip
  guardNot (Decimal.lt v.notional totalCosts) .valueError (txt "sale costs exceed gross proceeds")
  let netProceeds ← Decimal.sub v.notional totalCosts
  let cash ← Decimal.add l.cash netProceeds
  guardNot (Decimal.lt cash Decimal.zero) .valueError (txt "sale would create negative cash")
  let allocated ← l.allocatedBasis v.qty
  let realized ← Decimal.sub netProceeds allocated
  let inventoryQty ← Decimal.sub l.inventoryQty v.qty
  let basis ← Decimal.sub l.inventoryCostBasis allocated
  let inventoryCostBasis := if Decimal.eq inventoryQty Decimal.zero then Decimal.zero else basis
  let realizedPnl ← Decimal.add l.realizedPnl realized
  let l ← { l with cash, inventoryQty, inventoryCostBasis, realizedPnl }.addCosts v
  return (l, ⟨v.qty, v.px, v.notional, v.fee, v.spread, v.slip, allocated, realized⟩)

/-- The operation that a fill of the engine is for the ledger. -/
def Ledger.applyFill (l : Ledger D) (fill : FillEvent D) : Py (Ledger D × LedgerOperation D) :=
  match fill.side with
  | .buy => l.buy (objectArg fill.quantity) (objectArg fill.price) (objectArg fill.fee)
      (objectArg fill.spreadCost) (objectArg fill.slippageCost)
  | .sell => l.sell (objectArg fill.quantity) (objectArg fill.price) (objectArg fill.fee)
      (objectArg fill.spreadCost) (objectArg fill.slippageCost)

/-- Fills fed to a ledger in order. -/
def Ledger.feed (l : Ledger D) : List (FillEvent D) → Py (Ledger D)
  | [] => .ok l
  | fill :: fills => do
      let applied ← l.applyFill fill
      applied.1.feed fills

theorem Ledger.feed_append {l after : Ledger D} {xs ys : List (FillEvent D)} :
    l.feed (xs ++ ys) = .ok after ↔ ∃ mid, l.feed xs = .ok mid ∧ mid.feed ys = .ok after := by
  induction xs generalizing l with
  | nil => simp [feed]
  | cons x xs ih =>
      simp only [List.cons_append, feed, Py.bind_eq_ok, ih]
      constructor
      · rintro ⟨applied, first, mid, front, back⟩
        exact ⟨mid, ⟨applied, first, front⟩, back⟩
      · rintro ⟨mid, ⟨applied, first, front⟩, back⟩
        exact ⟨applied, first, mid, front, back⟩

/-- The figures that an engine and a ledger both keep. -/
structure Ledger.Agrees (l : Ledger D) (state : PaperState D) : Prop where
  cash : l.cash = state.cash
  inventoryQty : l.inventoryQty = state.inventoryQty
  inventoryCostBasis : l.inventoryCostBasis = state.inventoryCostBasis
  realizedPnl : l.realizedPnl = state.realizedPnl
  totalFees : l.totalFees = state.totalFees
  totalSpreadCost : l.totalSpreadCost = state.totalSpreadCost
  totalSlippageCost : l.totalSlippageCost = state.totalSlippageCost
  turnover : l.turnover = state.turnover

/-- The ledger works under the limits of the engine. -/
structure Ledger.Limited (l : Ledger D) (limits : RiskLimits D) : Prop where
  maxInventory : l.maxInventory = limits.maxInventory
  maxFillQty : l.maxFillQty = limits.maxFillQty

theorem asDecimal_objectArg {d : D} {name : Text} {bound : Bound} (admitted : bound.admits d = true) :
    asDecimal (objectArg d) name bound = .ok d := asDecimal_object admitted name

end

/-! ## One fill -/

theorem Ledger.operationValues_fill {l : Ledger ℚ} {fill : FillEvent ℚ}
    (size : fill.quantity ≤ l.maxFillQty) :
    l.operationValues (objectArg fill.quantity) (objectArg fill.price) (objectArg fill.fee)
        (objectArg fill.spreadCost) (objectArg fill.slippageCost) =
      .ok ⟨fill.quantity, fill.price, fill.quantity * fill.price, fill.fee, fill.spreadCost,
        fill.slippageCost⟩ := by
  have small : Decimal.lt l.maxFillQty fill.quantity = false := (lt_eq_false _ _).mpr size
  simp only [operationValues, asDecimal_objectArg fill.valid.quantity,
    asDecimal_objectArg fill.valid.price, asDecimal_objectArg fill.valid.fee,
    asDecimal_objectArg fill.valid.spreadCost, asDecimal_objectArg fill.valid.slippageCost, small,
    Py.ok_bind, guardNot_false, RationalDecimal.mul_eq, Py.pure_eq_ok]

theorem Ledger.addCosts_eq (l : Ledger ℚ) (v : OperationValues ℚ) :
    l.addCosts v = .ok { l with
      totalFees := l.totalFees + v.fee
      totalSpreadCost := l.totalSpreadCost + v.spread
      totalSlippageCost := l.totalSlippageCost + v.slip
      turnover := l.turnover + v.notional } := rfl

theorem Ledger.allocatedBasis_eq {l : Ledger ℚ} {state : PaperState ℚ} (agrees : l.Agrees state)
    (qty : ℚ) : l.allocatedBasis qty = Paper.allocatedBasis state qty := by
  simp only [allocatedBasis, Paper.allocatedBasis, agrees.inventoryQty, agrees.inventoryCostBasis]

/-- A fill that the engine has applied moves the ledger as it moved the engine. -/
theorem Ledger.applyFill_agrees {l : Ledger ℚ} {c : Core ℚ} {payload : Json} {order : PaperOrder ℚ}
    {event : FillEvent ℚ} {f : FillFigures ℚ} {after : PaperState ℚ}
    {application : FillApplication ℚ} (agrees : l.Agrees c.state) (limited : l.Limited c.riskLimits)
    (reduced : c.FillReduced payload order event f after application)
    (within : event.side = .buy → c.state.inventoryQty + event.quantity ≤ c.riskLimits.maxInventory) :
    ∃ l' operation, l.applyFill event = .ok (l', operation) ∧ l'.Agrees after ∧
      l'.Limited c.riskLimits := by
  have effect := reduced.effect
  have positive : 0 < event.quantity := (positive_admits _).mp event.valid.quantity
  obtain ⟨notional, costs, -, fees, spread, slippage, turnover⟩ := effect.sums
  have size : event.quantity ≤ l.maxFillQty := by
    rw [limited.maxFillQty]
    exact (lt_eq_false _ _).mp reduced.size
  have values := Ledger.operationValues_fill size
  have account := effect.account
  cases side : event.side with
  | buy =>
      rw [side] at account
      obtain ⟨funds, moved⟩ := moveAccount_buy.mp account
      rw [notional, costs] at funds moved
      have room : Decimal.lt l.maxInventory (l.inventoryQty + event.quantity) = false := by
        rw [lt_eq_false, limited.maxInventory, agrees.inventoryQty]
        exact within side
      have affordable : Decimal.lt l.cash (event.quantity * event.price +
          (event.fee + event.spreadCost + event.slippageCost)) = false := by
        rw [lt_eq_false, agrees.cash]
        exact funds
      simp only [applyFill, side, buy, values, Py.ok_bind, RationalDecimal.add_eq, room,
        guardNot_false, affordable, RationalDecimal.sub_eq, Ledger.addCosts_eq, Py.pure_eq_ok]
      refine ⟨_, _, rfl, ?_, limited.maxInventory, limited.maxFillQty⟩
      constructor <;>
        simp [effect.after, moved, notional, fees, spread, slippage, turnover, agrees.cash,
          agrees.inventoryQty, agrees.inventoryCostBasis, agrees.realizedPnl, agrees.totalFees,
          agrees.totalSpreadCost, agrees.totalSlippageCost, agrees.turnover]
  | sell =>
      rw [side] at account
      obtain ⟨stock, proceeds, moved⟩ := (moveAccount_sell positive).mp account
      rw [notional, costs] at proceeds moved
      have long : Decimal.lt l.inventoryQty event.quantity = false := by
        rw [lt_eq_false, agrees.inventoryQty]
        exact stock
      have gainful : Decimal.lt (event.quantity * event.price)
          (event.fee + event.spreadCost + event.slippageCost) = false :=
        (lt_eq_false _ _).mpr proceeds
      have funded : Decimal.lt (l.cash + (event.quantity * event.price -
          (event.fee + event.spreadCost + event.slippageCost))) Decimal.zero = false := by
        have cash : 0 ≤ c.state.cash := (nonNegative_admits _).mp c.state.valid.cash
        rw [lt_eq_false, agrees.cash, RationalDecimal.zero_eq]
        linarith
      have basis := allocatedBasis_released positive stock
      rw [← Ledger.allocatedBasis_eq agrees] at basis
      simp only [applyFill, side, sell, values, Py.ok_bind, RationalDecimal.add_eq, long,
        guardNot_false, gainful, funded, basis, RationalDecimal.sub_eq, Ledger.addCosts_eq,
        Py.pure_eq_ok]
      refine ⟨_, _, rfl, ?_, limited.maxInventory, limited.maxFillQty⟩
      have flat := released_flat c.state event.quantity
      constructor <;>
        simp [effect.after, moved, notional, fees, spread, slippage, turnover, agrees.cash,
          agrees.inventoryQty, agrees.inventoryCostBasis, agrees.realizedPnl, agrees.totalFees,
          agrees.totalSpreadCost, agrees.totalSlippageCost, agrees.turnover, flat]
      linarith

/-! ## A run of the engine -/

/-- A ledger opened with this cash under these limits follows the engine through the log. -/
def Core.Followed (c : Core ℚ) (opened : Ledger ℚ) (log : List Record) : Prop :=
  ∃ ledger, opened.feed (fills log) = .ok ledger ∧ ledger.Agrees c.state ∧ ledger.Limited c.riskLimits

theorem Core.Followed.advance {c : Core ℚ} {opened : Ledger ℚ} {log : List Record}
    (followed : c.Followed opened log) {r : Record} (spelled : r.Spelled) {candidate : Candidate ℚ}
    (reduced : c.reduce r = .ok candidate) : (c.advance r candidate).Followed opened (log ++ [r]) := by
  obtain ⟨ledger, fed, agrees, limited⟩ := followed
  obtain ⟨-, event⟩ := Core.reduce_cases reduced
  have quiet : r.eventType ≠ .fillApplied → ledger.Agrees candidate.state →
      (c.advance r candidate).Followed opened (log ++ [r]) := by
    intro other same
    exact ⟨ledger, by rwa [fills_append_none other], same, limited⟩
  cases event with
  | registered state type inner =>
      apply quiet (by simp [type])
      obtain ⟨-, done⟩ := Core.reduceRegistered_eq_ok inner
      rcases registerOrder_eq_ok done with rfl | ⟨order, -, -, fields⟩
      · exact agrees
      · -- an order moves no money
        constructor <;> simp [fields, agrees.cash, agrees.inventoryQty, agrees.inventoryCostBasis,
          agrees.realizedPnl, agrees.totalFees, agrees.totalSpreadCost, agrees.totalSlippageCost,
          agrees.turnover]
  | filled state application type inner =>
      obtain ⟨order, event, f, fill⟩ := Core.reduceFill_eq_ok inner
      obtain ⟨after, operation, applied, same, stillLimited⟩ :=
        Ledger.applyFill_agrees agrees limited fill (fill.within spelled type)
      refine ⟨after, ?_, same, stillLimited⟩
      rw [fills_append, fill.fill? type]
      exact Ledger.feed_append.mpr ⟨ledger, fed, by simp [Ledger.feed, applied]⟩
  | terminated status statuses type =>
      apply quiet _ agrees
      rcases type with ⟨type, -⟩ | ⟨type, -⟩ <;> simp [type]
  | reconciled report type => exact quiet (by simp [type]) agrees
  | diverged report type => exact quiet (by simp [type]) agrees
  | resolved type => exact quiet (by simp [type]) agrees

/-- Fed with the fills that the engine has applied, a ledger with the same starting cash and
    limits accepts them all and shows the figures of the engine. -/
theorem Session.ledger_follows {cash : PyArg} {source config : Text} {start : PaperState ℚ}
    (initialised : PaperState.initial cash source config = .ok start) (limits : RiskLimits ℚ)
    (attempts : List (Attempt ℚ)) :
    ∃ opened ledger : Ledger ℚ,
      Ledger.construct (objectArg start.startingCash) (objectArg limits.maxInventory)
        (objectArg limits.maxFillQty) = .ok opened ∧
      opened.feed (fills ((Session.fresh start limits).run
        (attempts.map fun a => .command a.1 a.2)).log) = .ok ledger ∧
      ledger.Agrees ((Session.fresh start limits).run
        (attempts.map fun a => .command a.1 a.2)).world.engine.core.state := by
  obtain ⟨amount, fields⟩ := PaperState.initial_eq_ok initialised
  have opens : Ledger.construct (objectArg start.startingCash) (objectArg limits.maxInventory)
      (objectArg limits.maxFillQty) =
        .ok ⟨start.startingCash, limits.maxInventory, limits.maxFillQty, start.startingCash, 0, 0, 0,
          0, 0, 0, 0⟩ := by
    simp only [Ledger.construct, asDecimal_objectArg start.valid.startingCash,
      asDecimal_objectArg limits.valid.1, asDecimal_objectArg limits.valid.2, Py.ok_bind,
      Py.pure_eq_ok, RationalDecimal.zero_eq]
  set opened : Ledger ℚ := ⟨start.startingCash, limits.maxInventory, limits.maxFillQty,
    start.startingCash, 0, 0, 0, 0, 0, 0, 0⟩ with hopened
  have atStart : (Core.fresh start limits).Followed opened [] := by
    refine ⟨opened, rfl, ?_, rfl, rfl⟩
    constructor <;> simp [hopened, Core.fresh, fields]
  have kept : ∀ (s : Session ℚ) (a : Attempt ℚ), s.world.engine.core.Followed opened s.log →
      (s.step (.command a.1 a.2)).world.engine.core.Followed opened
        (s.step (.command a.1 a.2)).log := by
    intro s a followed
    rcases s.step_command a.1 a.2 with
      ⟨reason, size, disk, same⟩ | ⟨record, candidate, size, disk, planned, same⟩
    · rw [same]
      exact followed
    · rw [same]
      exact followed.advance (Core.plan_spelled planned) (Core.plan_append planned).1.reduced
  have whole := run_invariant_of_step kept
    (show (Session.fresh start limits).world.engine.core.Followed opened
      (Session.fresh start limits).log from atStart) attempts
  have sameRun : (Session.fresh start limits).run (attempts.map fun a => .command a.1 a.2) =
      Senex.run (fun s (a : Attempt ℚ) => s.step (.command a.1 a.2)) (Session.fresh start limits)
        attempts := List.foldl_map
  obtain ⟨ledger, fed, agrees, -⟩ := whole
  rw [sameRun]
  exact ⟨opened, ledger, opens, fed, agrees⟩

def sampleAttempts : List (Attempt ℚ) := [(sampleRegister, .clean), (sampleFill, .clean)]

theorem Session.ledger_follows_sample :
    ∃ opened ledger : Ledger ℚ,
      Ledger.construct (objectArg sampleState.startingCash) (objectArg sampleLimits.maxInventory)
        (objectArg sampleLimits.maxFillQty) = .ok opened ∧
      opened.feed (fills ((Session.fresh sampleState sampleLimits).run
        (sampleAttempts.map fun a => .command a.1 a.2)).log) = .ok ledger ∧
      ledger.Agrees ((Session.fresh sampleState sampleLimits).run
        (sampleAttempts.map fun a => .command a.1 a.2)).world.engine.core.state :=
  Session.ledger_follows sampleState_initial sampleLimits sampleAttempts

end Senex.Paper
