import Senex.Research.Strategies

/-! # The averaging strategy in a replay

What the strategy answers for a held position, case by case, and with it that the
strategy, the grid and their combination each keep one order open at most.
-/

namespace Senex.Research

open Text Paper

variable {D : Type} [TrappingDecimal D]

/-! ## Constructed intents -/

theorem OrderIntent.construct_eq_ok {side : Side} {orderType : OrderType D} {quantity : D} {tag : Text}
    {intent : Intent D} (constructed : construct side orderType quantity tag = .ok intent) :
    ∃ order, intent = .order order ∧ order.side = side ∧ order.orderType = orderType ∧
      order.quantity = quantity ∧ order.tag = tag := by
  unfold construct at constructed
  obtain ⟨⟨amount, positive⟩, sized, rest⟩ := Py.bind_eq_ok.mp constructed
  have same : amount = quantity := by
    unfold asPositive at sized
    split at sized
    · exact (Subtype.mk.inj (Except.ok.inj sized)).symm
    · simp at sized
  cases orderType with
  | market => exact ⟨_, (Except.ok.inj rest).symm, rfl, rfl, same, rfl⟩
  | limit limitPrice =>
      obtain ⟨_, -, rest⟩ := Py.bind_eq_ok.mp rest
      exact ⟨_, (Except.ok.inj rest).symm, rfl, rfl, same, rfl⟩

theorem CancelIntent.construct_eq_ok {tag : Text} {order : PendingOrder D} {intent : Intent D}
    (constructed : construct tag order = .ok intent) :
    ∃ cancel, intent = .cancel cancel ∧ cancel.orderId = order.orderId := by
  unfold construct at constructed
  split at constructed
  · exact ⟨_, (Except.ok.inj constructed).symm, rfl⟩
  · simp at constructed

theorem onCandle_strategyOf {M : Type} {strategyId : Text}
    {call : M → Candle D → PortfolioSnapshot D → List (PendingOrder D) → Py (M × List (Intent D))}
    {memory memory' : M} {candle : Candle D} {snapshot : PortfolioSnapshot D}
    {openOrders : List (PendingOrder D)} {answer : Answer D}
    (answered : (strategyOf strategyId call).onCandle memory candle snapshot openOrders =
      .ok (memory', answer)) :
    ∃ intents, answer = .values intents ∧
      call memory candle snapshot openOrders = .ok (memory', intents) := by
  simp only [strategyOf] at answered
  split at answered
  · rename_i after intents called
    obtain ⟨rfl, rfl⟩ := Prod.mk.inj (Except.ok.inj answered)
    exact ⟨intents, rfl, called⟩
  · cases answered

/-! ## A held position -/

/-- The add that a position with that many adds is due. -/
structure DcaConfig.Due (config : DcaConfig D) (addCount : Nat) (snapshot : PortfolioSnapshot D)
    (order : OrderIntent D) : Prop where
  budget : addCount < config.maxAdds
  buys : order.side = .buy
  price : ∃ nextAddPrice, config.nextAddPrice snapshot addCount = .ok nextAddPrice ∧
    order.orderType = .limit nextAddPrice
  tag : order.tag = txt "dca-add-" ++ ofNat (addCount + 1)

/-- The sale of the position. -/
structure Leaves (snapshot : PortfolioSnapshot D) (order : OrderIntent D) : Prop where
  sells : order.side = .sell
  whole : order.quantity = snapshot.inventoryQty
  tag : order.tag = txt "dca-take-profit"

/-- The answers for a held position with at most one order open. -/
inductive DcaConfig.Managed (config : DcaConfig D) (addCount : Nat) (candle : Candle D)
    (snapshot : PortfolioSnapshot D) (openOrders : List (PendingOrder D)) : List (Intent D) → Prop
  | waits : Managed config addCount candle snapshot openOrders []
  | sells (order : OrderIntent D) (free : openOrders = []) (leaves : Leaves snapshot order) :
      Managed config addCount candle snapshot openOrders [.order order]
  | adds (order : OrderIntent D) (free : openOrders = []) (due : config.Due addCount snapshot order) :
      Managed config addCount candle snapshot openOrders [.order order]
  /-- The take profit goes before the waiting add. -/
  | secures (old : PendingOrder D) (cancel : CancelIntent) (order : OrderIntent D)
      (only : openOrders = [old]) (bought : old.side = .buy) (named : cancel.orderId = old.orderId)
      (leaves : Leaves snapshot order)
      (reached : ∃ takeProfit, config.takeProfit snapshot = .ok takeProfit ∧
        Decimal.le takeProfit candle.close = true) :
      Managed config addCount candle snapshot openOrders [.cancel cancel, .order order]
  /-- The add goes before the waiting take profit. -/
  | deepens (old : PendingOrder D) (cancel : CancelIntent) (order : OrderIntent D)
      (only : openOrders = [old]) (sold : old.side = .sell) (named : cancel.orderId = old.orderId)
      (due : config.Due addCount snapshot order) :
      Managed config addCount candle snapshot openOrders [.cancel cancel, .order order]

theorem DcaConfig.add_due {config : DcaConfig D} {addCount : Nat} {snapshot : PortfolioSnapshot D}
    {price : D} {intent : Intent D} (budget : addCount < config.maxAdds)
    (priced : config.nextAddPrice snapshot addCount = .ok price)
    (added : config.add price addCount = .ok intent) :
    ∃ order, intent = .order order ∧ config.Due addCount snapshot order := by
  obtain ⟨quantity, -, constructed⟩ := Py.bind_eq_ok.mp added
  obtain ⟨order, rfl, side, type, -, tag⟩ := OrderIntent.construct_eq_ok constructed
  exact ⟨order, rfl, budget, side, ⟨price, priced, type⟩, tag⟩

theorem mapM_construct_singleton {tag : Text} {old : PendingOrder D} {cancels : List (Intent D)}
    (mapped : [old].mapM (CancelIntent.construct tag) = .ok cancels) :
    ∃ cancel : CancelIntent, cancels = [.cancel cancel] ∧ cancel.orderId = old.orderId := by
  rw [List.mapM_cons, List.mapM_nil] at mapped
  obtain ⟨intent, constructed, rest⟩ := Py.bind_eq_ok.mp mapped
  obtain ⟨cancel, rfl, named⟩ := CancelIntent.construct_eq_ok constructed
  exact ⟨cancel, (Except.ok.inj rest).symm, named⟩

/-- The orders of a side, where at most one is open. -/
theorem filter_single {E : Type} {openOrders : List (PendingOrder E)} (single : openOrders.length ≤ 1) :
    openOrders = [] ∨ ∃ old, openOrders = [old] ∧
      ((old.side = .buy ∧ openOrders.filter (·.side == .buy) = [old] ∧
          openOrders.filter (·.side == .sell) = []) ∨
        (old.side = .sell ∧ openOrders.filter (·.side == .buy) = [] ∧
          openOrders.filter (·.side == .sell) = [old])) := by
  rcases openOrders with _ | ⟨old, _ | ⟨next, rest⟩⟩
  · exact .inl rfl
  · refine .inr ⟨old, rfl, ?_⟩
    cases side : old.side <;> simp [side]
  · simp at single

theorem DcaConfig.manage_managed {config : DcaConfig D} {addCount : Nat} {candle : Candle D}
    {snapshot : PortfolioSnapshot D} {openOrders : List (PendingOrder D)} {intents : List (Intent D)}
    (single : openOrders.length ≤ 1)
    (managed : config.manage addCount candle snapshot openOrders = .ok intents) :
    config.Managed addCount candle snapshot openOrders intents := by
  unfold DcaConfig.manage at managed
  obtain ⟨takeProfit, profit, managed⟩ := Py.bind_eq_ok.mp managed
  have sale {intent : Intent D} (constructed : OrderIntent.construct .sell (.limit takeProfit)
      snapshot.inventoryQty (txt "dca-take-profit") = .ok intent) :
      ∃ order, intent = .order order ∧ Leaves snapshot order := by
    obtain ⟨order, rfl, side, -, quantity, tag⟩ := OrderIntent.construct_eq_ok constructed
    exact ⟨order, rfl, side, quantity, tag⟩
  rcases filter_single single with rfl | ⟨old, only, sided⟩
  · -- nothing is open
    simp only [List.filter_nil, List.mapM_nil, ne_eq, not_true_eq_false, if_false, or_self,
      pure_bind, List.nil_append] at managed
    split at managed
    · obtain ⟨intent, constructed, same⟩ := Py.bind_eq_ok.mp managed
      obtain ⟨order, rfl, leaves⟩ := sale constructed
      obtain rfl := Except.ok.inj same
      exact .sells order rfl leaves
    · obtain ⟨price, priced, managed⟩ := Py.bind_eq_ok.mp managed
      split at managed
      · rename_i due
        obtain ⟨intent, added, same⟩ := Py.bind_eq_ok.mp managed
        obtain ⟨order, rfl, due⟩ := DcaConfig.add_due due.1 priced added
        obtain rfl := Except.ok.inj same
        exact .adds order rfl due
      · obtain ⟨intent, constructed, same⟩ := Py.bind_eq_ok.mp managed
        obtain ⟨order, rfl, leaves⟩ := sale constructed
        obtain rfl := Except.ok.inj same
        exact .sells order rfl leaves
  · rcases sided with ⟨bought, buys, sells⟩ | ⟨sold, buys, sells⟩
    · simp only [buys, sells, ne_eq, List.cons_ne_nil, not_false_eq_true, not_true_eq_false, if_true,
        if_false, true_or] at managed
      split at managed
      · rename_i reached
        obtain ⟨cancels, mapped, managed⟩ := Py.bind_eq_ok.mp managed
        obtain ⟨intent, constructed, same⟩ := Py.bind_eq_ok.mp managed
        obtain ⟨cancel, rfl, named⟩ := mapM_construct_singleton mapped
        obtain ⟨order, rfl, leaves⟩ := sale constructed
        obtain rfl := Except.ok.inj same
        exact .secures old cancel order only bought named leaves ⟨takeProfit, profit, reached⟩
      · obtain ⟨price, -, managed⟩ := Py.bind_eq_ok.mp managed
        rw [ite_self] at managed
        obtain rfl := Except.ok.inj managed
        exact .waits
    · simp only [buys, sells, ne_eq, List.cons_ne_nil, not_false_eq_true, not_true_eq_false, if_true,
        if_false, or_true] at managed
      split at managed
      · obtain ⟨cancels, mapped, same⟩ := Py.bind_eq_ok.mp managed
        obtain rfl := Except.ok.inj mapped
        obtain rfl := Except.ok.inj same
        exact .waits
      · obtain ⟨price, priced, managed⟩ := Py.bind_eq_ok.mp managed
        split at managed
        · rename_i due
          obtain ⟨cancels, mapped, managed⟩ := Py.bind_eq_ok.mp managed
          obtain ⟨intent, added, same⟩ := Py.bind_eq_ok.mp managed
          obtain ⟨cancel, rfl, named⟩ := mapM_construct_singleton mapped
          obtain ⟨order, rfl, due⟩ := DcaConfig.add_due due.1 priced added
          obtain rfl := Except.ok.inj same
          exact .deepens old cancel order only sold named due
        · obtain rfl := Except.ok.inj managed
          exact .waits

theorem DcaConfig.Managed.turn {config : DcaConfig D} {addCount : Nat} {candle : Candle D}
    {snapshot : PortfolioSnapshot D} {openOrders : List (PendingOrder D)} {intents : List (Intent D)}
    (managed : config.Managed addCount candle snapshot openOrders intents) :
    Turn snapshot.inventoryQty openOrders intents := by
  have bought {order : OrderIntent D} (due : config.Due addCount snapshot order) :
      order.side = .sell → order.quantity = snapshot.inventoryQty := by
    intro sells
    rw [due.buys] at sells
    cases sells
  cases managed with
  | waits => exact .keeps
  | sells order free leaves => exact .places order free fun _ => leaves.whole
  | adds order free due => exact .places order free (bought due)
  | secures old cancel order only _ named leaves _ =>
      exact .replaces old cancel order only named fun _ => leaves.whole
  | deepens old cancel order only _ named due =>
      exact .replaces old cancel order only named (bought due)

/-! ## Orderly strategies -/

theorem DcaConfig.onCandle_turn {config : DcaConfig D} {memory memory' : DcaMemory D}
    {candle : Candle D} {snapshot : PortfolioSnapshot D} {openOrders : List (PendingOrder D)}
    {intents : List (Intent D)} (single : openOrders.length ≤ 1)
    (answered : config.onCandle memory candle snapshot openOrders = .ok (memory', intents)) :
    Turn snapshot.inventoryQty openOrders intents := by
  unfold DcaConfig.onCandle at answered
  split at answered
  · split at answered
    · obtain ⟨-, rfl⟩ := Prod.mk.inj (Except.ok.inj answered)
      exact .keeps
    · rename_i free
      obtain ⟨quantity, -, answered⟩ := Py.bind_eq_ok.mp answered
      obtain ⟨intent, constructed, same⟩ := Py.bind_eq_ok.mp answered
      obtain ⟨order, rfl, side, -⟩ := OrderIntent.construct_eq_ok constructed
      obtain ⟨-, rfl⟩ := Prod.mk.inj (Except.ok.inj same)
      refine .places order (not_not.mp free) fun sells => ?_
      rw [side] at sells
      cases sells
  · obtain ⟨managed, answer, same⟩ := Py.bind_eq_ok.mp answered
    obtain ⟨-, rfl⟩ := Prod.mk.inj (Except.ok.inj same)
    exact (DcaConfig.manage_managed single answer).turn

/-- The grid answers with one order of its own at most, and with none where one is open. -/
theorem GridConfig.onCandle_cases {config : GridConfig D} {candle : Candle D}
    {snapshot : PortfolioSnapshot D} {openOrders : List (PendingOrder D)} {intents : List (Intent D)}
    (answered : config.onCandle candle snapshot openOrders = .ok intents) :
    intents = [] ∨ ∃ order, intents = [.order order] ∧ openOrders = [] ∧
      (order.side = .sell → order.quantity = snapshot.inventoryQty) ∧
      order.tag ∈ [txt "grid-take-profit", txt "grid-entry"] := by
  unfold GridConfig.onCandle at answered
  split at answered
  · exact .inl (Except.ok.inj answered).symm
  · rename_i free
    have free := not_not.mp free
    split at answered
    · obtain ⟨_, -, answered⟩ := Py.bind_eq_ok.mp answered
      obtain ⟨_, -, answered⟩ := Py.bind_eq_ok.mp answered
      obtain ⟨target, -, answered⟩ := Py.bind_eq_ok.mp answered
      obtain ⟨intent, constructed, same⟩ := Py.bind_eq_ok.mp answered
      obtain ⟨order, rfl, -, -, quantity, tag⟩ := OrderIntent.construct_eq_ok constructed
      exact .inr ⟨order, (Except.ok.inj same).symm, free, fun _ => quantity, by simp [tag]⟩
    · obtain ⟨_, -, answered⟩ := Py.bind_eq_ok.mp answered
      obtain ⟨_, -, answered⟩ := Py.bind_eq_ok.mp answered
      obtain ⟨step, -, answered⟩ := Py.bind_eq_ok.mp answered
      split at answered
      · exact .inl (Except.ok.inj answered).symm
      · obtain ⟨⟨index, price⟩, -, answered⟩ := Py.bind_eq_ok.mp answered
        dsimp only at answered
        split at answered
        · exact .inl (Except.ok.inj answered).symm
        · obtain ⟨quantity, -, answered⟩ := Py.bind_eq_ok.mp answered
          obtain ⟨intent, constructed, same⟩ := Py.bind_eq_ok.mp answered
          obtain ⟨order, rfl, side, -, -, tag⟩ := OrderIntent.construct_eq_ok constructed
          refine .inr ⟨order, (Except.ok.inj same).symm, free, fun sells => ?_, by simp [tag]⟩
          rw [side] at sells
          cases sells

theorem GridConfig.onCandle_turn {config : GridConfig D} {candle : Candle D}
    {snapshot : PortfolioSnapshot D} {openOrders : List (PendingOrder D)} {intents : List (Intent D)}
    (answered : config.onCandle candle snapshot openOrders = .ok intents) :
    Turn snapshot.inventoryQty openOrders intents := by
  rcases onCandle_cases answered with rfl | ⟨order, rfl, free, whole, -⟩
  · exact .keeps
  · exact .places order free whole

theorem dcaStrategy_orderly (config : DcaConfig D) : (dcaStrategy config).Orderly := by
  intro memory candle snapshot openOrders memory' answer single answered
  obtain ⟨intents, rfl, called⟩ := onCandle_strategyOf answered
  exact ⟨intents, rfl, DcaConfig.onCandle_turn single called⟩

theorem comboStrategy_orderly (grid : GridConfig D) (dca : DcaConfig D) :
    (comboStrategy grid dca).Orderly := by
  intro memory candle snapshot openOrders memory' answer single answered
  obtain ⟨intents, rfl, called⟩ := onCandle_strategyOf answered
  refine ⟨intents, rfl, ?_⟩
  unfold comboOnCandle at called
  split at called
  · obtain ⟨entered, answer, same⟩ := Py.bind_eq_ok.mp called
    obtain ⟨-, rfl⟩ := Prod.mk.inj (Except.ok.inj same)
    exact GridConfig.onCandle_turn answer
  · exact DcaConfig.onCandle_turn single called

/-- Behind every candle of a replay at most one order of the strategy is open and nothing it did was
turned down as the cancellation of an order that is not open or as a sale beyond the inventory; at
the next one it cancels orders that are open. -/
theorem dcaStrategy_replayed {config : DcaConfig D} {replay : ReplayConfig D} {bars : List (Candle D)}
    {books : Books (DcaMemory D) D}
    (done : replayed bars (dcaStrategy config) .start replay = .ok books) :
    books.pending.length ≤ 1 ∧ (∀ rejection ∈ books.rejections, rejection.Tame) ∧
      ∀ candle d, books.decision (dcaStrategy config) replay bars.length candle = .ok d →
        (∀ rejection ∈ d.shown.rejections, rejection.Tame) ∧
        ∀ cancel, .cancel cancel ∈ d.intents → ∃ order ∈ d.shown.pending,
          order.orderId = cancel.orderId := by
  have orderly := (dcaStrategy_orderly config).replayed done
  refine ⟨orderly.single, orderly.tame, fun candle d decided => ?_⟩
  obtain ⟨shown, -, turn⟩ := orderly.decision (dcaStrategy_orderly config) decided
  exact ⟨shown.tame, fun cancel member => turn.named member⟩

def fallingBars : List (Candle ℚ) := [
  ⟨txt "2026-01-01T00:00:00.000000Z", 100, 102, 98, 100, 1,
    by decide, by decide, by decide⟩,
  ⟨txt "2026-01-01T01:00:00.000000Z", 100, 102, 98, 100, 1,
    by decide, by decide, by decide⟩,
  ⟨txt "2026-01-01T02:00:00.000000Z", 96, 97, 93, 94, 1,
    by decide, by decide, by decide⟩,
  ⟨txt "2026-01-01T03:00:00.000000Z", 94, 106, 94, 105, 1,
    by decide, by decide, by decide⟩]

def sampleDca : DcaConfig ℚ where
  initialQuote := 10
  dcaQuote := 10
  adverseStepPct := 1 / 20
  takeProfitPct := 3 / 100
  maxAdds := 1
  initialQuote_positive := by decide
  dcaQuote_positive := by decide +kernel
  adverseStepPct_positive := by decide +kernel
  takeProfitPct_positive := by decide +kernel
  adverseStepPct_fraction one read := by
    have same : (literal (txt "1") : Py ℚ) = .ok 1 := by decide
    rw [same] at read
    rw [← Except.ok.inj read]
    decide +kernel

/-- The entry, the sale taken back for an add, and the add filled. -/
theorem dcaStrategy_replayed_sample : ∃ books : Books (DcaMemory ℚ) ℚ,
    replayed fallingBars (dcaStrategy sampleDca) .start sampleConfig = .ok books ∧
    books.fills.length = 2 ∧ books.cancelledOrders.length = 1 ∧
    books.pending.length ≤ 1 ∧ (∀ rejection ∈ books.rejections, rejection.Tame) ∧
      ∀ candle d, books.decision (dcaStrategy sampleDca) sampleConfig fallingBars.length candle =
          .ok d →
        (∀ rejection ∈ d.shown.rejections, rejection.Tame) ∧
        ∀ cancel, .cancel cancel ∈ d.intents → ∃ order ∈ d.shown.pending,
          order.orderId = cancel.orderId := by
  have counts : (replayed fallingBars (dcaStrategy sampleDca) .start sampleConfig).toOption.map
      (fun books => (books.fills.length, books.cancelledOrders.length)) = some (2, 1) := by
    decide +kernel
  obtain ⟨books, done, counted⟩ := Option.map_eq_some_iff.mp counts
  have done : replayed fallingBars (dcaStrategy sampleDca) .start sampleConfig = .ok books := by
    cases run : replayed fallingBars (dcaStrategy sampleDca) .start sampleConfig with
    | error e => simp [run, Except.toOption] at done
    | ok other =>
        rw [run] at done
        rw [Option.some.inj done]
  obtain ⟨fills, cancelled⟩ := Prod.mk.inj counted
  exact ⟨books, done, fills, cancelled, dcaStrategy_replayed done⟩

end Senex.Research
