import Senex.Paper.State

/-! # Registering orders and applying fills

The transitions of `PaperState`, and the snapshots that a reconciliation
compares it with.
-/

namespace Senex.Paper

open Text

variable {D : Type} [Decimal D]

/-! ## Fill events -/

structure FillFields (D : Type) where
  fillId : Text
  orderId : Text
  side : Side
  quantity : D
  price : D
  fee : D
  spreadCost : D
  slippageCost : D
  timestamp : Text
  eventSeq : Nat

structure FillFields.Valid (f : FillFields D) : Prop where
  fillId : strip f.fillId ≠ []
  orderId : strip f.orderId ≠ []
  quantity : Bound.positive.admits f.quantity = true
  price : Bound.positive.admits f.price = true
  fee : Bound.nonNegative.admits f.fee = true
  spreadCost : Bound.nonNegative.admits f.spreadCost = true
  slippageCost : Bound.nonNegative.admits f.slippageCost = true
  timestamp : normalizeTimestamp (.str f.timestamp) = .ok f.timestamp
  eventSeq : 0 < f.eventSeq

structure FillEvent (D : Type) [Decimal D] extends FillFields D where
  valid : toFillFields.Valid

/-- The arguments of `FillEvent(...)`. -/
structure FillArgs where
  fillId : Text
  orderId : Text
  side : Text
  quantity : PyArg
  price : PyArg
  fee : PyArg
  spreadCost : PyArg
  slippageCost : PyArg
  timestamp : PyArg
  eventSeq : Nat

/-- `FillEvent.__post_init__` -/
def FillEvent.postInit (a : FillArgs) : Py (FillFields D) := do
  guardNot (strip a.fillId == [] || strip a.orderId == []) .resilienceError
    (txt "fill_id and order_id must be non-empty")
  let side ← orRaise (Side.parse a.side) .resilienceError (txt "fill side must be buy or sell")
  let quantity ← dec a.quantity (txt "quantity") .positive
  let price ← dec a.price (txt "price") .positive
  let fee ← dec a.fee (txt "fee") .nonNegative
  let spreadCost ← dec a.spreadCost (txt "spread_cost") .nonNegative
  let slippageCost ← dec a.slippageCost (txt "slippage_cost") .nonNegative
  guardNot (a.eventSeq == 0) .resilienceError (txt "event_seq must be a positive integer")
  let timestamp ← normalizeTimestamp a.timestamp
  return ⟨a.fillId, a.orderId, side, quantity, price, fee, spreadCost, slippageCost, timestamp,
    a.eventSeq⟩

theorem FillEvent.postInit_valid {a : FillArgs} {f : FillFields D} (accepted : postInit a = .ok f) :
    f.Valid := by
  simp only [postInit, Py.bind_eq_ok, guardNot_eq_ok, orRaise_eq_ok, Bool.or_eq_false_iff,
    beq_eq_false_iff_ne, Py.pure_eq_ok, Except.ok.injEq] at accepted
  obtain ⟨-, ⟨fill, order⟩, side, -, quantity, hq, price, hp, fee, hf, spread, hs, slippage, hl, -,
    seq, timestamp, ht, rfl⟩ := accepted
  exact ⟨fill, order, dec_admits hq, dec_admits hp, dec_admits hf, dec_admits hs, dec_admits hl,
    normalizeTimestamp_idem ht, Nat.pos_of_ne_zero seq⟩

/-- `FillEvent(...)` -/
def FillEvent.construct (a : FillArgs) : Py (FillEvent D) :=
  match h : FillEvent.postInit a with
  | .error e => .error e
  | .ok f => .ok ⟨f, postInit_valid h⟩

theorem FillEvent.construct_eq_ok {a : FillArgs} {f : FillEvent D} :
    construct a = .ok f ↔ postInit a = .ok f.toFillFields := by
  unfold construct
  split
  · rename_i h
    simp [h]
  · rename_i fields h
    cases f
    simp [h]

/-- `fingerprint_sha256` -/
def FillFields.fingerprintSha256 (f : FillFields D) : Py Text :=
  digest (.ofMembers [
    (txt "fill_id", .str f.fillId), (txt "order_id", .str f.orderId), (txt "side", .str f.side.text),
    (txt "quantity", .str (Decimal.str f.quantity)), (txt "price", .str (Decimal.str f.price)),
    (txt "fee", .str (Decimal.str f.fee)), (txt "spread_cost", .str (Decimal.str f.spreadCost)),
    (txt "slippage_cost", .str (Decimal.str f.slippageCost)), (txt "timestamp", .str f.timestamp),
    (txt "event_seq", .ofNat f.eventSeq)])

structure FillApplication (D : Type) where
  applied : Bool
  duplicate : Bool
  status : OrderStatus
  remainingQty : D

/-! ## Transitions -/

/-- `register_order` of the resilience module. -/
def registerOrder (state : PaperState D) (orderId clientOrderId side : Text) (quantity : PyArg) :
    Py (PaperState D) := do
  let requested : D ← dec quantity (txt "quantity") .positive
  let side ← orRaise (Side.parse side) .resilienceError (txt "order side must be buy or sell")
  let orderId := strip orderId
  let clientOrderId := strip clientOrderId
  guardNot (orderId == [] || clientOrderId == []) .resilienceError (txt "order IDs must be non-empty")
  -- the first order that shares an ID decides: the same submission again, or a conflict
  match state.orders.find? fun o => o.orderId == orderId || o.clientOrderId == clientOrderId with
  | some existing =>
      guardNot (!(existing.orderId == orderId && existing.clientOrderId == clientOrderId &&
        existing.side == side && Decimal.eq existing.requestedQty requested)) .resilienceError
        (txt "order submission idempotency conflict")
      return state
  | none =>
      let order ← PaperOrder.construct orderId clientOrderId side.text (objectArg requested)
        (objectArg (Decimal.zero : D)) OrderStatus.open_.text
      PaperState.replace { state.toStateFields with orders := state.orders ++ [order] }

/-- The account columns that a fill moves. -/
structure Account (D : Type) where
  cash : D
  inventory : D
  basis : D
  realized : D

def buyFill (state : PaperState D) (quantity notional costs : D) : Py (Account D) := do
  let debit ← Decimal.add notional costs
  guardNot (Decimal.lt state.cash debit) .resilienceError
    (txt "insufficient paper cash for fill and costs")
  let cash ← Decimal.sub state.cash debit
  let inventory ← Decimal.add state.inventoryQty quantity
  let basis ← Decimal.add state.inventoryCostBasis debit
  return ⟨cash, inventory, basis, state.realizedPnl⟩

/-- The cost basis released by selling `quantity`: all of it, or the proportional share. -/
def allocatedBasis (state : PaperState D) (quantity : D) : Py D :=
  if Decimal.eq quantity state.inventoryQty then .ok state.inventoryCostBasis
  else do Decimal.div (← Decimal.mul state.inventoryCostBasis quantity) state.inventoryQty

def sellFill (state : PaperState D) (quantity notional costs : D) : Py (Account D) := do
  guardNot (Decimal.lt state.inventoryQty quantity) .resilienceError
    (txt "sell fill would create a short position")
  guardNot (Decimal.lt notional costs) .resilienceError (txt "sale costs exceed gross proceeds")
  let proceeds ← Decimal.sub notional costs
  let allocated ← allocatedBasis state quantity
  let cash ← Decimal.add state.cash proceeds
  let inventory ← Decimal.sub state.inventoryQty quantity
  let basis ← Decimal.sub state.inventoryCostBasis allocated
  let basis := if Decimal.eq inventory Decimal.zero then Decimal.zero else basis
  let realized ← Decimal.sub (← Decimal.add state.realizedPnl proceeds) allocated
  return ⟨cash, inventory, basis, realized⟩

def moveAccount (state : PaperState D) (side : Side) (quantity notional costs : D) : Py (Account D) :=
  match side with
  | .buy => buyFill state quantity notional costs
  | .sell => sellFill state quantity notional costs

/-- The order that a fill event names. -/
def PaperState.findOrder? (state : PaperState D) (orderId : Text) : Option (PaperOrder D) :=
  state.orders.find? (·.orderId == orderId)

def isBefore (timestamp : Text) : Option Text → Bool
  | none => false
  | some last => decide (timestamp < last)

/-- `apply_fill` for a fill ID that was not processed before. -/
def applyUnseenFill (state : PaperState D) (event : FillEvent D) (order : PaperOrder D) :
    Py (PaperState D × FillApplication D) := do
  guardNot (event.eventSeq != state.lastEventSeq + 1) .resilienceError
    (txt "fill event sequence gap or stale unseen event")
  guardNot (isBefore event.timestamp state.lastProcessedTimestamp) .resilienceError
    (txt "fill timestamp must not move backwards")
  guardNot (order.status == .filled) .resilienceError
    (txt "fill received for an already filled order")
  guardNot (event.side != order.side) .resilienceError (txt "fill side differs from registered order")
  let remaining ← order.remainingQty
  guardNot (Decimal.lt remaining event.quantity) .resilienceError
    (txt "fill quantity exceeds order remaining quantity")
  let notional ← Decimal.mul event.quantity event.price
  let costs ← Decimal.add (← Decimal.add event.fee event.spreadCost) event.slippageCost
  let account ← moveAccount state event.side event.quantity notional costs
  let filled ← Decimal.add order.filledQty event.quantity
  let status := if Decimal.eq filled order.requestedQty then .filled else .partiallyFilled
  let changedOrder ← order.refill filled status
  let totalFees ← Decimal.add state.totalFees event.fee
  let totalSpreadCost ← Decimal.add state.totalSpreadCost event.spreadCost
  let totalSlippageCost ← Decimal.add state.totalSlippageCost event.slippageCost
  let turnover ← Decimal.add state.turnover notional
  let fingerprint ← event.fingerprintSha256
  let changed ← PaperState.replace { state.toStateFields with
    cash := account.cash
    inventoryQty := account.inventory
    inventoryCostBasis := account.basis
    realizedPnl := account.realized
    totalFees, totalSpreadCost, totalSlippageCost, turnover
    lastProcessedTimestamp := some event.timestamp
    lastEventSeq := event.eventSeq
    orders := state.orders.map fun o => if o.orderId = order.orderId then changedOrder else o
    processedFillIds := state.processedFillIds ++ [event.fillId]
    processedFillFingerprints := state.processedFillFingerprints ++ [(event.fillId, fingerprint)] }
  return (changed, ⟨true, false, status, ← changedOrder.remainingQty⟩)

/-- `apply_fill` of the resilience module. -/
def applyFill (state : PaperState D) (event : FillEvent D) :
    Py (PaperState D × FillApplication D) := do
  let order := state.findOrder? event.orderId
  if state.processedFillIds.contains event.fillId then
    let order ← orRaise order .resilienceError (txt "processed fill references an unknown order")
    let fingerprint ← event.fingerprintSha256
    guardNot (Json.lookup event.fillId state.processedFillFingerprints != some fingerprint)
      .resilienceError (txt "fill idempotency conflict: duplicate fill ID has different payload")
    return (state, ⟨false, true, order.status, ← order.remainingQty⟩)
  else
    let order ← orRaise order .resilienceError (txt "fill references an unknown order")
    applyUnseenFill state event order

/-! ## What the transitions do -/

/-- Registering adds one open order, or changes nothing. -/
theorem registerOrder_eq_ok {state after : PaperState D} {orderId clientOrderId side : Text}
    {quantity : PyArg} (registered : registerOrder state orderId clientOrderId side quantity = .ok after) :
    after = state ∨ ∃ order : PaperOrder D,
      order.orderId = strip orderId ∧ order.filledQty = Decimal.zero ∧
      after.toStateFields = { state.toStateFields with orders := state.orders ++ [order] } := by
  simp only [registerOrder, Py.bind_eq_ok, orRaise_eq_ok] at registered
  obtain ⟨requested, -, s, -, -, -, registered⟩ := registered
  split at registered
  · simp only [Py.bind_eq_ok, guardNot_eq_ok, Py.pure_eq_ok, Except.ok.injEq] at registered
    obtain ⟨-, -, rfl⟩ := registered
    exact Or.inl rfl
  · simp only [Py.bind_eq_ok] at registered
    obtain ⟨order, built, replaced⟩ := registered
    have fields := PaperOrder.construct_typed built
    refine Or.inr ⟨order, by rw [fields], by rw [fields], ?_⟩
    exact PaperState.replace_eq_ok replaced state.valid.source state.valid.config state.valid.timestamp

/-- The figures that an applied fill computes. -/
structure FillFigures (D : Type) [Decimal D] where
  remaining : D
  notional : D
  subtotal : D
  costs : D
  account : Account D
  filled : D
  changedOrder : PaperOrder D
  totalFees : D
  totalSpreadCost : D
  totalSlippageCost : D
  turnover : D
  fingerprint : Text

/-- The fill was accepted on `order` with these figures and led to `after`. -/
structure FillApplied (state : PaperState D) (event : FillEvent D) (order : PaperOrder D)
    (f : FillFigures D) (after : PaperState D) (application : FillApplication D) : Prop where
  seq : event.eventSeq = state.lastEventSeq + 1
  time : isBefore event.timestamp state.lastProcessedTimestamp = false
  unfilled : order.status ≠ .filled
  side : event.side = order.side
  remaining : order.remainingQty = .ok f.remaining
  within : Decimal.lt f.remaining event.quantity = false
  notional : Decimal.mul event.quantity event.price = .ok f.notional
  subtotal : Decimal.add event.fee event.spreadCost = .ok f.subtotal
  costs : Decimal.add f.subtotal event.slippageCost = .ok f.costs
  account : moveAccount state event.side event.quantity f.notional f.costs = .ok f.account
  filled : Decimal.add order.filledQty event.quantity = .ok f.filled
  changed : f.changedOrder.toOrderFields = { order.toOrderFields with
    filledQty := f.filled
    status := expectedStatus order.requestedQty f.filled }
  fees : Decimal.add state.totalFees event.fee = .ok f.totalFees
  spread : Decimal.add state.totalSpreadCost event.spreadCost = .ok f.totalSpreadCost
  slippage : Decimal.add state.totalSlippageCost event.slippageCost = .ok f.totalSlippageCost
  turnover : Decimal.add state.turnover f.notional = .ok f.turnover
  after : after.toStateFields = { state.toStateFields with
    cash := f.account.cash
    inventoryQty := f.account.inventory
    inventoryCostBasis := f.account.basis
    realizedPnl := f.account.realized
    totalFees := f.totalFees
    totalSpreadCost := f.totalSpreadCost
    totalSlippageCost := f.totalSlippageCost
    turnover := f.turnover
    lastProcessedTimestamp := some event.timestamp
    lastEventSeq := event.eventSeq
    orders := state.orders.map fun o => if o.orderId = order.orderId then f.changedOrder else o
    processedFillIds := state.processedFillIds ++ [event.fillId]
    processedFillFingerprints :=
      state.processedFillFingerprints ++ [(event.fillId, f.fingerprint)] }
  applied : application.applied = true
  stillOpen : f.changedOrder.remainingQty = .ok application.remainingQty

theorem applyUnseenFill_eq_ok {state after : PaperState D} {event : FillEvent D}
    {order : PaperOrder D} {application : FillApplication D}
    (applied : applyUnseenFill state event order = .ok (after, application)) :
    ∃ f, FillApplied state event order f after application := by
  simp only [applyUnseenFill, Py.bind_eq_ok, guardNot_eq_ok, bne_eq_false_iff_eq,
    beq_eq_false_iff_ne, Py.pure_eq_ok, Except.ok.injEq, Prod.mk.injEq] at applied
  obtain ⟨-, seq, -, time, -, unfilled, -, side, remaining, hremaining, -, within, notional, hnotional,
    subtotal, hsubtotal, costs, hcosts, account, haccount, filled, hfilled, changedOrder, hchanged,
    fees, hfees, spread, hspread, slippage, hslippage, turnover, hturnover, fingerprint, -, changed,
    hreplaced, still, hstill, rfl, rfl⟩ := applied
  refine ⟨⟨remaining, notional, subtotal, costs, account, filled, changedOrder, fees, spread, slippage,
    turnover, fingerprint⟩, seq, time, unfilled, side, hremaining, within, hnotional, hsubtotal, hcosts,
    haccount, hfilled, PaperOrder.refill_eq_ok hchanged, hfees, hspread, hslippage, hturnover, ?_, rfl,
    hstill⟩
  refine PaperState.replace_eq_ok hreplaced state.valid.source state.valid.config ?_
  intro t ht
  cases ht
  exact event.valid.timestamp

/-- An applied fill is one on a known order with an unseen ID. -/
theorem applyFill_applied {state after : PaperState D} {event : FillEvent D}
    {application : FillApplication D} (done : applyFill state event = .ok (after, application))
    (applied : application.applied = true) :
    event.fillId ∉ state.processedFillIds ∧ ∃ order f, state.findOrder? event.orderId = some order ∧
      FillApplied state event order f after application := by
  simp only [applyFill] at done
  split at done
  · simp only [Py.bind_eq_ok, Py.pure_eq_ok, Except.ok.injEq, Prod.mk.injEq] at done
    obtain ⟨_, -, _, -, _, -, _, -, -, rfl⟩ := done
    simp at applied
  · rename_i unseen
    simp only [Py.bind_eq_ok, orRaise_eq_ok] at done
    obtain ⟨order, found, done⟩ := done
    obtain ⟨f, effect⟩ := applyUnseenFill_eq_ok done
    exact ⟨by simpa using unseen, order, f, found, effect⟩

/-! ## Snapshots -/

structure SnapshotOrder (D : Type) [Decimal D] where
  orderId : Text
  side : Side
  remainingQty : D
  valid : strip orderId ≠ [] ∧ Bound.positive.admits remainingQty = true

/-- `SnapshotOrder(...)` -/
def SnapshotOrder.construct (orderId side : Text) (remainingQty : PyArg) : Py (SnapshotOrder D) :=
  if filled : strip orderId = [] then
    raise .resilienceError (txt "snapshot order_id must be non-empty")
  else
    match Side.parse side with
    | none => raise .resilienceError (txt "snapshot order side must be buy or sell")
    | some side =>
        match read : dec (D := D) remainingQty (txt "remaining_qty") .positive with
        | .error e => .error e
        | .ok remaining => .ok ⟨orderId, side, remaining, filled, dec_admits read⟩

/-- An `ExecutionSnapshot`, which its own construction has checked. -/
structure ExecutionSnapshot (D : Type) [Decimal D] where
  cash : D
  inventoryQty : D
  openOrders : List (SnapshotOrder D)
  lastEventSeq : Nat
  valid : Bound.nonNegative.admits cash = true ∧ Bound.nonNegative.admits inventoryQty = true ∧
    (openOrders.map (·.orderId)).Nodup

structure ReconciliationReport where
  matched : Bool
  discrepancies : List Text
  localEventSeq : Nat
  observedEventSeq : Nat

end Senex.Paper
