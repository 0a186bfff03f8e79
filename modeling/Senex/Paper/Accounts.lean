import Mathlib.Data.Rat.Defs
import Mathlib.Tactic.Linarith
import Senex.Paper.Session

/-! # The books of an engine

Over exact rationals the account of an engine is what its fills make of the
starting cash: `Session.accounted` states the balance, the position, the sums and
the order book after any session.
-/

namespace Senex.Paper

open Text

/-! ## The fills of a log -/

section
variable {D : Type} [Decimal D]

/-- The fill that a record applied. -/
def Record.fill? (r : Record) : Option (FillEvent D) :=
  if r.eventType = .fillApplied then (fillOf r.payload.1).toOption else none

/-- The fills that a log applied, in order. -/
def fills (log : List Record) : List (FillEvent D) := log.filterMap Record.fill?

theorem fills_append (log : List Record) (r : Record) :
    fills (D := D) (log ++ [r]) = fills log ++ r.fill?.toList := by
  cases filled : r.fill? (D := D) <;> simp [fills, filled]

theorem Record.fill?_of_ne {r : Record} (other : r.eventType ≠ .fillApplied) :
    r.fill? (D := D) = none := if_neg other

theorem Core.FillReduced.fill? {c : Core D} {r : Record} {order : PaperOrder D} {event : FillEvent D}
    {f : FillFigures D} {after : PaperState D} {application : FillApplication D}
    (reduced : c.FillReduced r.payload.1 order event f after application)
    (type : r.eventType = .fillApplied) : r.fill? = some event := by
  simp [Record.fill?, type, reduced.built, Except.toOption]

end

def bought (log : List Record) : ℚ :=
  (((fills (D := ℚ) log).filter (·.side == .buy)).map (·.quantity)).sum

def sold (log : List Record) : ℚ :=
  (((fills (D := ℚ) log).filter (·.side == .sell)).map (·.quantity)).sum

def feesOf (log : List Record) : ℚ := ((fills (D := ℚ) log).map (·.fee)).sum

def turnoverOf (log : List Record) : ℚ := ((fills (D := ℚ) log).map fun f => f.quantity * f.price).sum

/-- What the log filled of an order. -/
def filledOf (orderId : Text) (log : List Record) : ℚ :=
  (((fills (D := ℚ) log).filter (·.orderId == orderId)).map (·.quantity)).sum

/-- The account, the order book and the fills of an engine belong together. -/
structure Core.Accounted (c : Core ℚ) (log : List Record) : Prop where
  cash : 0 ≤ c.state.cash
  inventory : 0 ≤ c.state.inventoryQty ∧ c.state.inventoryQty ≤ c.riskLimits.maxInventory
  basis : 0 ≤ c.state.inventoryCostBasis ∧
    (c.state.inventoryQty = 0 → c.state.inventoryCostBasis = 0)
  balance : c.state.cash + c.state.inventoryCostBasis = c.state.startingCash + c.state.realizedPnl
  position : c.state.inventoryQty = bought log - sold log
  fees : c.state.totalFees = feesOf log
  turnover : c.state.turnover = turnoverOf log
  filled : ∀ o ∈ c.state.orders, o.filledQty = filledOf o.orderId log ∧ o.filledQty ≤ o.requestedQty
  status : ∀ o ∈ c.state.orders, (o.status = .open_ ↔ o.filledQty = 0) ∧
    (o.status = .partiallyFilled ↔ 0 < o.filledQty ∧ o.filledQty < o.requestedQty) ∧
    (o.status = .filled ↔ o.filledQty = o.requestedQty)
  once : ((fills (D := ℚ) log).map (·.fillId)).Nodup
  closed : log.Pairwise fun earlier later => earlier.Closes → ∀ fill : FillEvent ℚ,
    later.fill? = some fill → field earlier.payload.1 (txt "order_id") ≠ .str fill.orderId

/-! ## Rational figures -/

@[simp] theorem nonNegative_admits (q : ℚ) : Bound.nonNegative.admits q = true ↔ 0 ≤ q := by
  simp [Bound.admits, ← Bool.not_eq_true]

@[simp] theorem positive_admits (q : ℚ) : Bound.positive.admits q = true ↔ 0 < q := by
  simp [Bound.admits, ← Bool.not_eq_true]

@[simp] theorem lt_eq_false (a b : ℚ) : Decimal.lt a b = false ↔ b ≤ a := by
  simp [← Bool.not_eq_true]

@[simp] theorem eq_eq_false (a b : ℚ) : Decimal.eq a b = false ↔ a ≠ b := by
  simp [← Bool.not_eq_true]

/-- A status says how far the order is filled. -/
theorem PaperOrder.status_iff (o : PaperOrder ℚ) :
    (o.status = .open_ ↔ o.filledQty = 0) ∧
    (o.status = .partiallyFilled ↔ 0 < o.filledQty ∧ o.filledQty < o.requestedQty) ∧
    (o.status = .filled ↔ o.filledQty = o.requestedQty) := by
  have requested : 0 < o.requestedQty := (positive_admits _).mp o.valid.requested
  have filled : 0 ≤ o.filledQty := (nonNegative_admits _).mp o.valid.filled
  have within : o.filledQty ≤ o.requestedQty := (lt_eq_false _ _).mp o.valid.within
  rw [o.valid.status, expectedStatus]
  simp only [RationalDecimal.eq_iff, RationalDecimal.zero_eq]
  by_cases none : o.filledQty = 0
  · simp [none, requested.ne]
  · have some_filled : 0 < o.filledQty := lt_of_le_of_ne filled (Ne.symm none)
    by_cases all : o.filledQty = o.requestedQty
    · simp [all, requested.ne']
    · have part : o.filledQty < o.requestedQty := lt_of_le_of_ne within all
      simp [none, all, some_filled, part]

/-- The cost basis that a sale takes with it. -/
def released (state : PaperState ℚ) (quantity : ℚ) : ℚ :=
  if quantity = state.inventoryQty then state.inventoryCostBasis
  else state.inventoryCostBasis * quantity / state.inventoryQty

theorem allocatedBasis_released {state : PaperState ℚ} {quantity : ℚ} (positive : 0 < quantity)
    (within : quantity ≤ state.inventoryQty) :
    allocatedBasis state quantity = .ok (released state quantity) := by
  unfold allocatedBasis released
  by_cases all : quantity = state.inventoryQty
  · simp [all]
  · have stock : state.inventoryQty ≠ 0 := by linarith
    simp [all, RationalDecimal.div_eq stock]

/-- Selling everything leaves no basis, in either way of computing it. -/
theorem released_flat (state : PaperState ℚ) (quantity : ℚ) :
    (if state.inventoryQty - quantity = 0 then 0
      else state.inventoryCostBasis - released state quantity) =
        state.inventoryCostBasis - released state quantity := by
  split
  · rename_i none
    have all : quantity = state.inventoryQty := by linarith
    simp [released, all]
  · rfl

theorem moveAccount_buy {state : PaperState ℚ} {quantity notional costs : ℚ} {a : Account ℚ} :
    moveAccount state .buy quantity notional costs = .ok a ↔
      notional + costs ≤ state.cash ∧
      a = ⟨state.cash - (notional + costs), state.inventoryQty + quantity,
        state.inventoryCostBasis + (notional + costs), state.realizedPnl⟩ := by
  simp only [moveAccount, buyFill, Py.bind_eq_ok, guardNot_eq_ok, lt_eq_false,
    RationalDecimal.sub_eq, RationalDecimal.add_eq, Except.ok.injEq, Py.pure_eq_ok]
  constructor
  · rintro ⟨_, rfl, -, within, _, rfl, _, rfl, _, rfl, rfl⟩
    exact ⟨within, rfl⟩
  · rintro ⟨within, rfl⟩
    exact ⟨_, rfl, (), within, _, rfl, _, rfl, _, rfl, rfl⟩

theorem moveAccount_sell {state : PaperState ℚ} {quantity notional costs : ℚ} {a : Account ℚ}
    (positive : 0 < quantity) :
    moveAccount state .sell quantity notional costs = .ok a ↔
      quantity ≤ state.inventoryQty ∧ costs ≤ notional ∧
      a = ⟨state.cash + (notional - costs), state.inventoryQty - quantity,
        state.inventoryCostBasis - released state quantity,
        state.realizedPnl + (notional - costs) - released state quantity⟩ := by
  have flat := released_flat state quantity
  simp only [moveAccount, sellFill, Py.bind_eq_ok, guardNot_eq_ok, lt_eq_false,
    RationalDecimal.sub_eq, RationalDecimal.add_eq, RationalDecimal.eq_iff, RationalDecimal.zero_eq,
    Except.ok.injEq, Py.pure_eq_ok]
  constructor
  · rintro ⟨-, within, -, costly, _, rfl, taken, htaken, _, rfl, _, rfl, _, rfl, _, rfl, _, rfl, rfl⟩
    rw [allocatedBasis_released positive within] at htaken
    cases htaken
    exact ⟨within, costly, by rw [flat]⟩
  · rintro ⟨within, costly, rfl⟩
    exact ⟨(), within, (), costly, _, rfl, _, allocatedBasis_released positive within, _, rfl, _, rfl, _, rfl, _, rfl, _, rfl,
      by rw [flat]⟩

/-! ## The books -/

/-- What a session keeps of the account: `Accounted` without what every state carries, and
    with what links fills, orders and closed orders. -/
structure Core.Books (c : Core ℚ) (log : List Record) : Prop where
  limit : c.state.inventoryQty ≤ c.riskLimits.maxInventory
  balance : c.state.cash + c.state.inventoryCostBasis = c.state.startingCash + c.state.realizedPnl
  position : c.state.inventoryQty = bought log - sold log
  fees : c.state.totalFees = feesOf log
  turnover : c.state.turnover = turnoverOf log
  filled : ∀ o ∈ c.state.orders, o.filledQty = filledOf o.orderId log
  ids : c.state.processedFillIds = (fills (D := ℚ) log).map (·.fillId)
  known : ∀ f ∈ fills (D := ℚ) log, ∃ o ∈ c.state.orders, o.orderId = f.orderId
  terminal : ∀ r ∈ log, r.Closes →
    ∃ id, field r.payload.1 (txt "order_id") = .str id ∧ c.isTerminal id = true
  closed : log.Pairwise fun earlier later => earlier.Closes → ∀ fill : FillEvent ℚ,
    later.fill? = some fill → field earlier.payload.1 (txt "order_id") ≠ .str fill.orderId

theorem Core.Books.toAccounted {c : Core ℚ} {log : List Record} (books : c.Books log) :
    c.Accounted log where
  cash := (nonNegative_admits _).mp c.state.valid.cash
  inventory := ⟨(nonNegative_admits _).mp c.state.valid.inventoryQty, books.limit⟩
  basis := by
    refine ⟨(nonNegative_admits _).mp c.state.valid.inventoryCostBasis, ?_⟩
    intro none
    have flat := c.state.valid.flat
    simpa [none] using flat
  balance := books.balance
  position := books.position
  fees := books.fees
  turnover := books.turnover
  filled := fun o ho => ⟨books.filled o ho, (lt_eq_false _ _).mp o.valid.within⟩
  status := fun o _ => o.status_iff
  once := books.ids ▸ c.state.valid.fillIds
  closed := books.closed

theorem Core.books_fresh {cash : PyArg} {source config : Text} {start : PaperState ℚ}
    (initialised : PaperState.initial cash source config = .ok start) (limits : RiskLimits ℚ) :
    (Core.fresh start limits).Books [] := by
  obtain ⟨amount, fields⟩ := PaperState.initial_eq_ok initialised
  have limit : 0 < limits.maxInventory := (positive_admits _).mp limits.valid.1
  constructor <;>
    simp [Core.fresh, fields, fills, bought, sold, feesOf, turnoverOf, limit.le]

/-! ## Events that fill nothing -/

theorem fills_append_none {r : Record} (other : r.eventType ≠ .fillApplied) (log : List Record) :
    fills (D := ℚ) (log ++ [r]) = fills log := by
  simp [fills_append, Record.fill?_of_ne other]

/-- Such an event may add empty orders and close orders; the account stays. -/
theorem Core.Books.unfilled {c c' : Core ℚ} {log : List Record} (books : c.Books log) {r : Record}
    (other : r.eventType ≠ .fillApplied) {orders : List (PaperOrder ℚ)}
    (limits : c'.riskLimits = c.riskLimits)
    (fields : c'.state.toStateFields = { c.state.toStateFields with orders })
    (old : ∀ o ∈ c.state.orders, o ∈ orders)
    (new : ∀ o ∈ orders, o ∈ c.state.orders ∨
      o.filledQty = 0 ∧ ∀ p ∈ c.state.orders, p.orderId ≠ o.orderId)
    (terminal : ∀ id, c.isTerminal id = true → c'.isTerminal id = true)
    (closes : r.Closes →
      ∃ id, field r.payload.1 (txt "order_id") = .str id ∧ c'.isTerminal id = true) :
    c'.Books (log ++ [r]) := by
  have same := fills_append_none other log
  exact {
    limit := by simpa [fields, limits] using books.limit
    balance := by simpa [fields] using books.balance
    position := by simpa [fields, bought, sold, same] using books.position
    fees := by simpa [fields, feesOf, same] using books.fees
    turnover := by simpa [fields, turnoverOf, same] using books.turnover
    filled := by
      intro o ho
      simp only [fields] at ho
      have kept : filledOf o.orderId (log ++ [r]) = filledOf o.orderId log := by
        simp [filledOf, same]
      rw [kept]
      rcases new o ho with was | ⟨empty, apart⟩
      · exact books.filled o was
      · -- no fill has named an order before it was registered
        have none : (fills (D := ℚ) log).filter (·.orderId == o.orderId) = [] := by
          apply List.filter_eq_nil_iff.mpr
          intro f hf named
          obtain ⟨p, hp, id⟩ := books.known f hf
          exact apart p hp (id.trans (by simpa using named))
        simp [filledOf, none, empty]
    ids := by simpa [fields, same] using books.ids
    known := by
      intro f hf
      rw [same] at hf
      obtain ⟨o, ho, id⟩ := books.known f hf
      exact ⟨o, by simpa [fields] using old o ho, id⟩
    terminal := by
      intro s hs closing
      rcases List.mem_append.mp hs with was | now
      · obtain ⟨id, named, closed⟩ := books.terminal s was closing
        exact ⟨id, named, terminal id closed⟩
      · rw [List.mem_singleton.mp now] at closing ⊢
        exact closes closing
    closed := by
      refine List.pairwise_append.mpr ⟨books.closed, List.pairwise_singleton _ _, ?_⟩
      intro earlier _ later hl _ fill filled
      rw [List.mem_singleton.mp hl, Record.fill?_of_ne other] at filled
      cases filled }

/-! ## Fills -/

/-- The figures of a fill over exact rationals. -/
theorem FillApplied.sums {state after : PaperState ℚ} {event : FillEvent ℚ} {order : PaperOrder ℚ}
    {f : FillFigures ℚ} {application : FillApplication ℚ}
    (effect : FillApplied state event order f after application) :
    f.notional = event.quantity * event.price ∧
      f.costs = event.fee + event.spreadCost + event.slippageCost ∧
      f.filled = order.filledQty + event.quantity ∧ f.totalFees = state.totalFees + event.fee ∧
      f.totalSpreadCost = state.totalSpreadCost + event.spreadCost ∧
      f.totalSlippageCost = state.totalSlippageCost + event.slippageCost ∧
      f.turnover = state.turnover + f.notional := by
  have subtotal : event.fee + event.spreadCost = f.subtotal := Except.ok.inj effect.subtotal
  have costs : f.subtotal + event.slippageCost = f.costs := Except.ok.inj effect.costs
  exact ⟨(Except.ok.inj effect.notional).symm, by rw [← costs, ← subtotal],
    (Except.ok.inj effect.filled).symm, (Except.ok.inj effect.fees).symm,
    (Except.ok.inj effect.spread).symm, (Except.ok.inj effect.slippage).symm,
    (Except.ok.inj effect.turnover).symm⟩

/-- By how much a fill of this side moves the position. -/
def Side.signed (side : Side) (quantity : ℚ) : ℚ :=
  match side with
  | .buy => quantity
  | .sell => -quantity

/-- A fill keeps the balance and moves the position by its quantity. -/
theorem moveAccount_balance {state : PaperState ℚ} {side : Side} {quantity notional costs : ℚ}
    {a : Account ℚ} (positive : 0 < quantity)
    (moved : moveAccount state side quantity notional costs = .ok a)
    (balance : state.cash + state.inventoryCostBasis = state.startingCash + state.realizedPnl) :
    a.cash + a.basis = state.startingCash + a.realized ∧
      a.inventory = state.inventoryQty + side.signed quantity := by
  cases side with
  | buy =>
      obtain ⟨-, rfl⟩ := moveAccount_buy.mp moved
      exact ⟨by dsimp only; linarith, rfl⟩
  | sell =>
      obtain ⟨-, -, rfl⟩ := (moveAccount_sell positive).mp moved
      exact ⟨by dsimp only; linarith, by dsimp only [Side.signed]; linarith⟩

theorem Core.checkInventory_eq_ok {c : Core ℚ} {quantity : ℚ} {u : Unit} :
    c.checkInventory quantity = .ok u ↔
      c.state.inventoryQty + quantity ≤ c.riskLimits.maxInventory := by
  simp [checkInventory]

/-- The inventory limit holds for a buy: it is checked where the payload spells the side `buy`. -/
theorem Core.FillReduced.within {c : Core ℚ} {r : Record} {order : PaperOrder ℚ}
    {event : FillEvent ℚ} {f : FillFigures ℚ} {after : PaperState ℚ}
    {application : FillApplication ℚ}
    (reduced : c.FillReduced r.payload.1 order event f after application) (spelled : r.Spelled)
    (type : r.eventType = .fillApplied) (side : event.side = .buy) :
    c.state.inventoryQty + event.quantity ≤ c.riskLimits.maxInventory := by
  obtain ⟨s, spelling⟩ := spelled type
  obtain ⟨text, written, parsed⟩ := reduced.side
  have same : s = .buy := by
    cases written.symm.trans spelling
    rw [Side.parse_text, side] at parsed
    exact Option.some.inj parsed
  subst same
  exact Core.checkInventory_eq_ok.mp (reduced.inventory spelling)

theorem Core.Books.fill {c : Core ℚ} {log : List Record} (books : c.Books log) {r : Record}
    (spelled : r.Spelled) (type : r.eventType = .fillApplied) {order : PaperOrder ℚ}
    {event : FillEvent ℚ} {f : FillFigures ℚ} {candidate : Candidate ℚ}
    {application : FillApplication ℚ}
    (reduced : c.FillReduced r.payload.1 order event f candidate.state application)
    (statuses : candidate.terminalStatuses = c.terminalStatuses) :
    (c.advance r candidate).Books (log ++ [r]) := by
  have here := reduced.fill? type
  have effect := reduced.effect
  have fields := effect.after
  obtain ⟨notional, costs, filledQty, fees, spread, slippage, turnover⟩ := effect.sums
  have positive : 0 < event.quantity := (positive_admits _).mp event.valid.quantity
  obtain ⟨balance, position⟩ := moveAccount_balance positive effect.account books.balance
  obtain ⟨member, named⟩ := PaperState.findOrder?_eq_some reduced.found
  have changedId : f.changedOrder.orderId = order.orderId := by rw [effect.changed]
  have grown : fills (D := ℚ) (log ++ [r]) = fills log ++ [event] := by simp [fills_append, here]
  have ordersAre : (c.advance r candidate).state.orders =
      c.state.orders.map fun o => if o.orderId = order.orderId then f.changedOrder else o := by
    simp [Core.advance, fields]
  exact {
    limit := by
      have account : (c.advance r candidate).state.inventoryQty = f.account.inventory := by
        simp [Core.advance, fields]
      have sameLimits : (c.advance r candidate).riskLimits = c.riskLimits := rfl
      rw [account, position, sameLimits]
      cases side : event.side with
      | buy =>
          exact reduced.within spelled type side
      | sell =>
          have := books.limit
          simp only [Side.signed]
          linarith
    balance := by
      simpa [Core.advance, fields] using balance
    position := by
      have account : (c.advance r candidate).state.inventoryQty = f.account.inventory := by
        simp [Core.advance, fields]
      rw [account, position, books.position]
      cases side : event.side with
      | buy =>
          simp [bought, sold, grown, side, Side.signed]
          linarith
      | sell =>
          simp [bought, sold, grown, side, Side.signed]
          linarith
    fees := by simp [Core.advance, fields, fees, books.fees, feesOf, grown]
    turnover := by
      simp [Core.advance, fields, turnover, notional, books.turnover, turnoverOf, grown]
    filled := by
      intro o ho
      rw [ordersAre] at ho
      obtain ⟨p, hp, rfl⟩ := List.mem_map.mp ho
      by_cases same : p.orderId = order.orderId
      · simp only [same, if_true, changedId]
        have before := books.filled order member
        rw [effect.changed]
        dsimp only
        rw [filledQty, before]
        simp [filledOf, grown, named]
      · simp only [same, if_false]
        have apart : (event.orderId == p.orderId) = false := by
          rw [beq_eq_false_iff_ne, ← named]
          exact Ne.symm same
        rw [books.filled p hp]
        simp [filledOf, grown, apart]
    ids := by simp [Core.advance, fields, books.ids, grown]
    known := by
      intro g hg
      have kept : ∀ o ∈ c.state.orders, ∃ p ∈ (c.advance r candidate).state.orders,
          p.orderId = o.orderId := by
        intro o ho
        rw [ordersAre]
        refine ⟨_, List.mem_map_of_mem ho, ?_⟩
        by_cases same : o.orderId = order.orderId <;> simp [same, changedId]
      rw [grown] at hg
      rcases List.mem_append.mp hg with was | now
      · obtain ⟨o, ho, id⟩ := books.known g was
        obtain ⟨p, hp, same⟩ := kept o ho
        exact ⟨p, hp, same.trans id⟩
      · rw [List.mem_singleton.mp now]
        obtain ⟨p, hp, same⟩ := kept order member
        exact ⟨p, hp, same.trans named⟩
    terminal := by
      intro s hs closing
      rcases List.mem_append.mp hs with was | now
      · obtain ⟨id, at_, closed⟩ := books.terminal s was closing
        exact ⟨id, at_, by simpa [Core.isTerminal, Core.advance, statuses] using closed⟩
      · rw [List.mem_singleton.mp now, Record.Closes, type] at closing
        simp at closing
    closed := by
      refine List.pairwise_append.mpr ⟨books.closed, List.pairwise_singleton _ _, ?_⟩
      intro earlier he later hl closing fill filled onOrder
      rw [List.mem_singleton.mp hl, here] at filled
      cases filled
      -- a closed order is terminal, and the reducer refuses fills on it
      obtain ⟨id, at_, closed⟩ := books.terminal earlier he closing
      rw [onOrder] at at_
      cases at_
      rw [← named, reduced.live] at closed
      cases closed }

/-! ## Sessions -/

theorem Core.Books.advance {c : Core ℚ} {log : List Record} (books : c.Books log) {r : Record}
    (spelled : r.Spelled) {candidate : Candidate ℚ} (reduced : c.reduce r = .ok candidate) :
    (c.advance r candidate).Books (log ++ [r]) := by
  obtain ⟨-, event⟩ := Core.reduce_cases reduced
  cases event with
  | registered state type inner =>
      have other : r.eventType ≠ .fillApplied := by simp [type]
      have open_ : ¬ r.Closes := by simp [Record.Closes, type]
      obtain ⟨-, done⟩ := Core.reduceRegistered_eq_ok inner
      rcases registerOrder_eq_ok done with rfl | ⟨order, -, empty, fields⟩
      · exact books.unfilled other rfl rfl (fun _ ho => ho) (fun _ ho => Or.inl ho) (fun _ h => h)
          (fun closing => absurd closing open_)
      · refine books.unfilled other rfl fields (fun _ ho => List.mem_append_left _ ho) ?_
          (fun _ h => h) (fun closing => absurd closing open_)
        intro o ho
        rcases List.mem_append.mp ho with was | now
        · exact Or.inl was
        · rw [List.mem_singleton.mp now]
          refine Or.inr ⟨empty, ?_⟩
          intro p hp same
          have distinct := state.valid.orderIds
          rw [fields, List.map_append, List.nodup_append] at distinct
          exact distinct.2.2 _ (List.mem_map_of_mem hp) _ (by simp) same
  | filled state application type inner =>
      obtain ⟨order, event, f, fill⟩ := Core.reduceFill_eq_ok inner
      exact books.fill spelled type fill rfl
  | terminated status terminalStatuses type inner =>
      have other : r.eventType ≠ .fillApplied := by rcases type with ⟨type, -⟩ | ⟨type, -⟩ <;> simp [type]
      obtain ⟨order, found, -, -, rfl⟩ := Core.reduceTerminal_eq_ok inner
      refine books.unfilled other rfl rfl (fun _ ho => ho) (fun _ ho => Or.inl ho) ?_ ?_
      · intro id closed
        simp only [Core.isTerminal, Core.advance] at closed ⊢
        by_cases same : id = order.orderId
        · subst same
          simp [Json.lookup_insert_self]
        · rwa [Json.lookup_insert_of_ne _ same]
      · intro _
        refine ⟨order.orderId, ?_, ?_⟩
        · have named := List.find?_some found
          exact (beq_iff_eq.mp named).symm
        · simp [Core.isTerminal, Core.advance, Json.lookup_insert_self]
  | reconciled report type =>
      exact books.unfilled (by simp [type]) rfl rfl (fun _ ho => ho) (fun _ ho => Or.inl ho)
        (fun _ h => h) (fun closing => by simp [Record.Closes, type] at closing)
  | diverged report type =>
      exact books.unfilled (by simp [type]) rfl rfl (fun _ ho => ho) (fun _ ho => Or.inl ho)
        (fun _ h => h) (fun closing => by simp [Record.Closes, type] at closing)
  | resolved type =>
      exact books.unfilled (by simp [type]) rfl rfl (fun _ ho => ho) (fun _ ho => Or.inl ho)
        (fun _ h => h) (fun closing => by simp [Record.Closes, type] at closing)

theorem Core.Books.replay {c after : Core ℚ} {log rs : List Record} (books : c.Books log)
    (spelled : ∀ r ∈ rs, r.Spelled) (replayed : c.replay rs = .ok after) : after.Books (log ++ rs) := by
  induction rs generalizing c log with
  | nil =>
      cases replayed
      simpa using books
  | cons r rs ih =>
      simp only [Core.replay, Py.bind_eq_ok] at replayed
      obtain ⟨next, first, rest⟩ := replayed
      obtain ⟨-, candidate, reduced, rfl⟩ := Core.replayRecord_eq_ok.mp first
      have advanced := books.advance (spelled r (by simp)) reduced
      simpa using ih advanced (fun s hs => spelled s (List.mem_cons_of_mem _ hs)) rest

/-- After any session of an engine over an initial state, the account, the order book and
    the applied fills belong together. -/
theorem Session.accounted {cash : PyArg} {source config : Text} {start : PaperState ℚ}
    (initialised : PaperState.initial cash source config = .ok start) (limits : RiskLimits ℚ)
    (moves : List (Session.Move ℚ)) :
    ((Session.fresh start limits).run moves).world.engine.core.Accounted
      ((Session.fresh start limits).run moves).log := by
  have kept : ∀ (s : Session ℚ) move,
      ((∃ rs tail, s.Filed rs tail) ∧ s.world.engine.core.Books s.log) →
      (∃ rs tail, (s.step move).Filed rs tail) ∧
        (s.step move).world.engine.core.Books (s.step move).log := by
    rintro s move ⟨⟨rs, tail, filed⟩, books⟩
    refine ⟨filed.step move, ?_⟩
    have moved := s.step_moved move
    generalize s.step move = after at moved
    cases moved with
    | kept reason size disk =>
        exact ⟨books.limit, books.balance, books.position, books.fees, books.turnover, books.filled,
          books.ids, books.known, books.terminal, books.closed⟩
    | committed command record candidate size disk planned =>
        exact books.advance (Core.plan_spelled planned) (Core.plan_append planned).1.reduced
    | recovered reading engine origin journal replayed =>
        obtain ⟨_, _, _, again⟩ := origin
        obtain ⟨-, same, -⟩ := filed.read journal
        have spelled : ∀ r ∈ reading.records, r.Spelled := by
          rw [same]
          exact filed.spelled
        simpa using (Core.books_fresh again reading.riskLimits).replay spelled replayed
  have begin_ : (Session.fresh start limits).world.engine.core.Books [] :=
    Core.books_fresh initialised limits
  exact (run_invariant_of_step kept ⟨⟨[], [], Session.filed_fresh _ _⟩, begin_⟩ moves).2.toAccounted

/-- Fills one of the two units of the sample order. -/
def sampleFill : Command ℚ :=
  .applyFill (.str (txt "F")) (.str (txt "F1")) (.str (txt "O1")) (.str (txt "buy")) (.str (txt "1"))
    (.str (txt "100")) (.str (txt "1")) (.str (txt "0")) (.str (txt "0"))
    (.str (txt "2026-01-01T00:00:30Z"))

def sampleMoves : List (Session.Move ℚ) :=
  [.command sampleRegister .clean, .command sampleFill .clean, .command sampleCancel .clean]

theorem Session.accounted_sample :
    ((Session.fresh sampleState sampleLimits).run sampleMoves).world.engine.core.Accounted
      ((Session.fresh sampleState sampleLimits).run sampleMoves).log :=
  Session.accounted sampleState_initial sampleLimits sampleMoves

end Senex.Paper
