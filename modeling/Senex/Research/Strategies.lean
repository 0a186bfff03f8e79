import Senex.Research.Orderly

/-! # The strategies of the laboratory

The grid, the averaging (`DCA`) strategy and the combination of both.  A call that
raises is what the replay makes a failure of the run of.
-/

namespace Senex.Research

open Text Paper

/-- The class and the text of an exception of a strategy. -/
def named (raised : Raised) : Text × Text :=
  match raised.error with
  | .decimalSignal => (raised.message, txt "[<class 'decimal." ++ raised.message ++ txt "'>]")
  | _ => (txt "ContractError", raised.message)

section
variable {D : Type} [OrderedDecimal D]

/-- `int(d)` -/
def truncate (d : D) : Int := (OrderedDecimal.value d).num.tdiv (OrderedDecimal.value d).den

/-- `Decimal(n)` -/
def whole (n : Int) : Py D := literal ((if n < 0 then [45] else []) ++ ofNat n.natAbs)

/-- An amount that a contract takes for positive. -/
def asPositive (d : D) (name : Text) : Py {d : D // Bound.positive.admits d = true} :=
  if positive : Bound.positive.admits d = true then .ok ⟨d, positive⟩
  else raise .replayContractError (name ++ Bound.positive.message)

/-- An order without a time to live has none to check. -/
theorem expires_none : ∀ bars ∈ (none : Option Nat), 0 < bars := by
  simp

/-- `OrderIntent(...)` of the strategies, which give no time to live. -/
def OrderIntent.construct (side : Side) (orderType : OrderType D) (quantity : D) (tag : Text) :
    Py (Intent D) := do
  let quantity ← asPositive quantity (txt "quantity")
  let order : OrderIntent D := ⟨side, orderType, quantity.1, none, tag, quantity.2, expires_none⟩
  match orderType with
  | .market => return .order order
  | .limit limitPrice => do
      let _ ← asPositive limitPrice (txt "limit_price")
      return .order order

/-- `CancelIntent(...)` for an open order. -/
def CancelIntent.construct (tag : Text) (order : PendingOrder D) : Py (Intent D) :=
  if filled : strip order.orderId ≠ [] then .ok (.cancel ⟨order.orderId, tag, filled⟩)
  else raise .replayContractError (txt "order_id must be a non-empty string")

/-- A strategy of these, as the replay asks it. -/
def strategyOf {M : Type} (strategyId : Text)
    (call : M → Candle D → PortfolioSnapshot D → List (PendingOrder D) → Py (M × List (Intent D))) :
    Strategy M D where
  strategyId
  onCandle memory candle snapshot openOrders :=
    match call memory candle snapshot openOrders with
    | .ok (memory, intents) => .ok (memory, .values intents)
    | .error raised => .error (named raised)

/-! ## The grid -/

structure GridConfig (D : Type) [Decimal D] where
  lowerPrice : D
  upperPrice : D
  levels : Nat
  quotePerOrder : D
  takeProfitPct : D
  lowerPrice_positive : Bound.positive.admits lowerPrice = true
  upperPrice_positive : Bound.positive.admits upperPrice = true
  quotePerOrder_positive : Bound.positive.admits quotePerOrder = true
  takeProfitPct_positive : Bound.positive.admits takeProfitPct = true
  range : Decimal.le upperPrice lowerPrice = false
  levels_two : 2 ≤ levels

/-- The price of a level of the grid. -/
def GridConfig.priceAt (config : GridConfig D) (step : D) (index : Int) : Py D := do
  Decimal.add config.lowerPrice (← Decimal.mul step (← whole index))

/-- The level for an entry, with its price: one that is not below the close is left for the one
under it. -/
def GridConfig.entryLevel (config : GridConfig D) (step close : D) : Py (Int × D) := do
  let rawIndex := truncate (← Decimal.div (← Decimal.sub close config.lowerPrice) step)
  let index := min (config.levels - 1 : Int) (max 0 rawIndex)
  let price ← config.priceAt step index
  if Decimal.le close price then return (index - 1, ← config.priceAt step (index - 1))
  else return (index, price)

/-- `GridStrategy.on_candle` -/
def GridConfig.onCandle (config : GridConfig D) (candle : Candle D) (snapshot : PortfolioSnapshot D)
    (openOrders : List (PendingOrder D)) : Py (List (Intent D)) :=
  if openOrders ≠ [] then .ok []
  else
    if Decimal.lt Decimal.zero snapshot.inventoryQty then do
      let target ← Decimal.mul snapshot.averageEntryPrice
        (← Decimal.add (← whole 1) config.takeProfitPct)
      return [← OrderIntent.construct .sell (.limit target) snapshot.inventoryQty
        (txt "grid-take-profit")]
    else do
      let step ← Decimal.div (← Decimal.sub config.upperPrice config.lowerPrice)
        (← whole (config.levels - 1))
      if Decimal.le candle.close config.lowerPrice then return []
      else
        let (index, price) ← config.entryLevel step candle.close
        if index < 0 ∨ Decimal.lt price config.lowerPrice ∨ Decimal.lt config.upperPrice price then
          return []
        else
          let quantity ← Decimal.div config.quotePerOrder price
          return [← OrderIntent.construct .buy (.limit price) quantity (txt "grid-entry")]

def gridStrategy (config : GridConfig D) : Strategy Unit D :=
  strategyOf (txt "grid-cleanroom-v1") fun _ candle snapshot openOrders => do
    return ((), ← config.onCandle candle snapshot openOrders)

/-! ## The averaging strategy -/

structure DcaConfig (D : Type) [Decimal D] where
  initialQuote : D
  dcaQuote : D
  adverseStepPct : D
  takeProfitPct : D
  maxAdds : Nat
  initialQuote_positive : Bound.positive.admits initialQuote = true
  dcaQuote_positive : Bound.positive.admits dcaQuote = true
  adverseStepPct_positive : Bound.positive.admits adverseStepPct = true
  takeProfitPct_positive : Bound.positive.admits takeProfitPct = true
  adverseStepPct_fraction : ∀ one : D, literal (txt "1") = .ok one → Decimal.lt adverseStepPct one = true

/-- What a `DCAStrategy` remembers. -/
structure DcaMemory (D : Type) where
  lastInventoryQty : D
  addCount : Nat

def DcaMemory.start : DcaMemory D := ⟨Decimal.zero, 0⟩

/-- The count of the adds once a position is seen: a larger one is that of a filled add. -/
def DcaMemory.observe (memory : DcaMemory D) (quantity : D) : DcaMemory D where
  lastInventoryQty := quantity
  addCount :=
    if Decimal.le memory.lastInventoryQty Decimal.zero then 0
    else if Decimal.lt memory.lastInventoryQty quantity then memory.addCount + 1
    else memory.addCount

/-- `take_profit` -/
def DcaConfig.takeProfit (config : DcaConfig D) (snapshot : PortfolioSnapshot D) : Py D := do
  Decimal.mul snapshot.averageEntryPrice (← Decimal.add (← whole 1) config.takeProfitPct)

/-- `next_add_price`, after that many adds. -/
def DcaConfig.nextAddPrice (config : DcaConfig D) (snapshot : PortfolioSnapshot D) (addCount : Nat) :
    Py D := do
  let distance ← Decimal.mul config.adverseStepPct (← whole (addCount + 1))
  Decimal.mul snapshot.averageEntryPrice (← Decimal.sub (← whole 1) distance)

/-- The add that follows that many. -/
def DcaConfig.add (config : DcaConfig D) (nextAddPrice : D) (addCount : Nat) : Py (Intent D) := do
  OrderIntent.construct .buy (.limit nextAddPrice) (← Decimal.div config.dcaQuote nextAddPrice)
    (txt "dca-add-" ++ ofNat (addCount + 1))

/-- The intents of `DCAStrategy.on_candle` for a held position, after that many adds. -/
def DcaConfig.manage (config : DcaConfig D) (addCount : Nat) (candle : Candle D)
    (snapshot : PortfolioSnapshot D) (openOrders : List (PendingOrder D)) : Py (List (Intent D)) := do
  let pendingBuys := openOrders.filter (·.side == .buy)
  let pendingSells := openOrders.filter (·.side == .sell)
  let takeProfit ← config.takeProfit snapshot
  if Decimal.le takeProfit candle.close then
    let cancels ← pendingBuys.mapM (CancelIntent.construct (txt "dca-take-profit-priority"))
    if pendingSells ≠ [] then return cancels
    else return cancels ++ [← OrderIntent.construct .sell (.limit takeProfit) snapshot.inventoryQty
      (txt "dca-take-profit")]
  else
    let nextAddPrice ← config.nextAddPrice snapshot addCount
    if addCount < config.maxAdds ∧ Decimal.le candle.close nextAddPrice then
      if pendingBuys ≠ [] then return []
      else
        let cancels ← pendingSells.mapM (CancelIntent.construct (txt "dca-adverse-add-priority"))
        return cancels ++ [← config.add nextAddPrice addCount]
    else
      if pendingBuys ≠ [] ∨ pendingSells ≠ [] then return []
      else return [← OrderIntent.construct .sell (.limit takeProfit) snapshot.inventoryQty
        (txt "dca-take-profit")]

/-- `DCAStrategy.on_candle` -/
def DcaConfig.onCandle (config : DcaConfig D) (memory : DcaMemory D) (candle : Candle D)
    (snapshot : PortfolioSnapshot D) (openOrders : List (PendingOrder D)) :
    Py (DcaMemory D × List (Intent D)) :=
  if Decimal.le snapshot.inventoryQty Decimal.zero then
    if openOrders ≠ [] then .ok (.start, [])
    else do
      let quantity ← Decimal.div config.initialQuote candle.close
      return (.start, [← OrderIntent.construct .buy .market quantity (txt "dca-initial")])
  else do
    let memory := memory.observe snapshot.inventoryQty
    return (memory, ← config.manage memory.addCount candle snapshot openOrders)

def dcaStrategy (config : DcaConfig D) : Strategy (DcaMemory D) D :=
  strategyOf (txt "dca-cleanroom-v1") config.onCandle

/-! ## The combination -/

/-- `ComboStrategy.on_candle`: the grid enters, the averaging strategy does the rest. -/
def comboOnCandle (grid : GridConfig D) (dca : DcaConfig D) (memory : DcaMemory D) (candle : Candle D)
    (snapshot : PortfolioSnapshot D) (openOrders : List (PendingOrder D)) :
    Py (DcaMemory D × List (Intent D)) :=
  if Decimal.le snapshot.inventoryQty Decimal.zero then do
    return (memory, ← grid.onCandle candle snapshot openOrders)
  else dca.onCandle memory candle snapshot openOrders

def comboStrategy (grid : GridConfig D) (dca : DcaConfig D) : Strategy (DcaMemory D) D :=
  strategyOf (txt "combo-cleanroom-v1") (comboOnCandle grid dca)

end

end Senex.Research
