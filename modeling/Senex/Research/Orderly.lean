import Senex.Research.Conservation

/-! # Strategies with one order at a time

A strategy that has at most one order open, and sells only what the position holds
when it sells, stays so in a replay: the position moves by the fills of that order
alone.  Such a strategy cancels open orders only, and the ledger never turns a sale
of it down as one beyond the inventory.
-/

namespace Senex.Research

open Text Paper

/-! ## What a candle asks of the strategy -/

section
variable {M D : Type} [Decimal D]

/-- What a strategy is shown at a candle and what it makes of it. -/
structure Decision (M D : Type) [Decimal D] where
  /-- The books with the figures of the candle, before the intents are gone through. -/
  shown : Books M D
  snapshot : PortfolioSnapshot D
  memory : M
  intents : List (Intent D)

/-- The first half of the turn: the waiting orders, the figures and the answer. -/
def Books.decision (strategy : Strategy M D) (config : ReplayConfig D) (b : Books M D) (index : Nat)
    (candle : Candle D) : Py (Decision M D) := do
  let settled ← b.settleAll config.costs index candle
  let snapshot ← snapshot settled.ledger (objectArg candle.close)
  let shown ← settled.mark candle snapshot
  let (memory, answer) ← strategy.ask shown.memory candle snapshot shown.pending
  return ⟨shown, snapshot, memory, ← answer.intents⟩

/-- The second half: the intents one after the other. -/
def Decision.enact (d : Decision M D) (strategy : Strategy M D) (config : ReplayConfig D) (index : Nat)
    (candle : Candle D) : Py (Books M D) :=
  d.intents.foldlM (Books.take strategy.strategyId config.defaultOrderTtl index candle)
    { d.shown with memory := d.memory }

theorem Books.step_eq_decision {strategy : Strategy M D} {config : ReplayConfig D} {b after : Books M D}
    {index : Nat} {candle : Candle D} :
    b.step strategy config index candle = .ok after ↔
      ∃ d, b.decision strategy config index candle = .ok d ∧
        d.enact strategy config index candle = .ok after := by
  simp only [step, decision, Decision.enact, Py.bind_eq_ok, Py.pure_eq_ok, Except.ok.injEq]
  constructor
  · rintro ⟨settled, one, snapshot, two, shown, three, ⟨memory, answer⟩, four, intents, five, taken⟩
    exact ⟨⟨shown, snapshot, memory, intents⟩,
      ⟨settled, one, snapshot, two, shown, three, ⟨memory, answer⟩, four, intents, five, rfl⟩, taken⟩
  · rintro ⟨_, ⟨settled, one, snapshot, two, shown, three, ⟨memory, answer⟩, four, intents, five, rfl⟩,
      taken⟩
    exact ⟨settled, one, snapshot, two, shown, three, ⟨memory, answer⟩, four, intents, five, taken⟩

/-! ## Orderly strategies -/

/-- The intents with which one order stays the only one: nothing, an order where none is open, or an
order in the place of the open one. -/
inductive Turn (quantity : D) (openOrders : List (PendingOrder D)) : List (Intent D) → Prop
  | keeps : Turn quantity openOrders []
  | places (order : OrderIntent D) (free : openOrders = [])
      (whole : order.side = .sell → order.quantity = quantity) :
      Turn quantity openOrders [.order order]
  | replaces (old : PendingOrder D) (cancel : CancelIntent) (order : OrderIntent D)
      (only : openOrders = [old]) (named : cancel.orderId = old.orderId)
      (whole : order.side = .sell → order.quantity = quantity) :
      Turn quantity openOrders [.cancel cancel, .order order]

/-- With at most one order open, the strategy keeps to it and sells the whole position only. -/
def Strategy.Orderly (strategy : Strategy M D) : Prop :=
  ∀ memory candle snapshot openOrders memory' answer, openOrders.length ≤ 1 →
    strategy.onCandle memory candle snapshot openOrders = .ok (memory', answer) →
    ∃ intents, answer = .values intents ∧ Turn snapshot.inventoryQty openOrders intents

/-- The reason for which the ledger turns down a sale beyond the inventory. -/
def shortPosition : Text := txt "sell would create a short position"

/-- No refused cancellation, and no sale refused as one beyond the inventory. -/
def Rejection.Tame (rejection : Rejection D) : Prop :=
  rejection.side ≠ .cancel ∧ (rejection.side = .order .sell → rejection.reason ≠ shortPosition)

/-- What holds of the books behind every candle. -/
structure Books.Orderly (b : Books M D) : Prop where
  single : b.pending.length ≤ 1
  whole : ∀ order ∈ b.pending, order.side = .sell → order.quantity = b.ledger.inventoryQty
  tame : ∀ rejection ∈ b.rejections, rejection.Tame

end

/-! ## The reasons for a refusal -/

section
variable {D : Type} [TrappingDecimal D] {α β : Type} {P : Raised → Prop}

/-- Whatever the call raises is such. -/
def Py.Raises (P : Raised → Prop) (call : Py α) : Prop := ∀ e, call = .error e → P e

theorem Py.Raises.ok (a : α) : Py.Raises P (.ok a) := nofun

theorem Py.Raises.bind {call : Py α} {next : α → Py β} (first : Py.Raises P call)
    (second : ∀ a, call = .ok a → Py.Raises P (next a)) : Py.Raises P (call >>= next) := by
  intro e raised
  cases called : call with
  | error e' =>
      rw [called, Py.error_bind] at raised
      rw [← Except.error.inj raised]
      exact first e' called
  | ok a =>
      rw [called, Py.ok_bind] at raised
      exact second a called e raised

theorem Py.Raises.guardNot {failed : Bool} {error : PyError} {message : Text}
    (such : failed = true → P ⟨error, message⟩) : Py.Raises P (guardNot failed error message) := by
  intro e raised
  cases failed with
  | false => cases raised
  | true =>
      rw [guardNot_true] at raised
      rw [← Except.error.inj raised]
      exact such rfl

/-- Not what the replay takes down as a sale beyond the inventory. -/
def Covered (e : Raised) : Prop := e.error.isValueError = true → e.message ≠ shortPosition

theorem covered_of_signal {e : Raised} (signal : e.error = .decimalSignal) : Covered e := by
  intro valueError
  rw [signal] at valueError
  cases valueError

theorem add_covered (a b : D) : Py.Raises Covered (Decimal.add a b) :=
  fun e raised => covered_of_signal (TrappingDecimal.add_traps a b e raised)

theorem sub_covered (a b : D) : Py.Raises Covered (Decimal.sub a b) :=
  fun e raised => covered_of_signal (TrappingDecimal.sub_traps a b e raised)

theorem mul_covered (a b : D) : Py.Raises Covered (Decimal.mul a b) :=
  fun e raised => covered_of_signal (TrappingDecimal.mul_traps a b e raised)

theorem div_covered (a b : D) : Py.Raises Covered (Decimal.div a b) :=
  fun e raised => covered_of_signal (TrappingDecimal.div_traps a b e raised)

theorem literal_covered (text : Text) : Py.Raises Covered (literal text : Py D) := by
  intro e raised
  unfold literal at raised
  split at raised
  · cases raised
  · rw [← Except.error.inj raised]
    exact covered_of_signal rfl

theorem asDecimal_covered {d : D} {name : Text} {bound : Bound}
    (other : name ++ bound.message ≠ shortPosition) :
    Py.Raises Covered (asDecimal (objectArg d) name bound : Py D) := by
  intro e raised
  simp only [asDecimal, objectArg, PyArg.text, Decimal.parse_str] at raised
  split at raised
  · cases raised
  · rw [← Except.error.inj raised]
    exact fun _ => other

theorem operationValues_covered (l : Ledger D) (quantity price fee spread slip : D) :
    Py.Raises Covered (l.operationValues (objectArg quantity) (objectArg price) (objectArg fee)
      (objectArg spread) (objectArg slip)) := by
  unfold Ledger.operationValues
  refine .bind (asDecimal_covered (by decide)) fun qty _ => ?_
  refine .bind (asDecimal_covered (by decide)) fun px _ => ?_
  refine .bind (asDecimal_covered (by decide)) fun fee _ => ?_
  refine .bind (asDecimal_covered (by decide)) fun spread _ => ?_
  refine .bind (asDecimal_covered (by decide)) fun slip _ => ?_
  refine .bind (.guardNot fun _ _ => by decide) fun _ _ => ?_
  exact .bind (mul_covered qty px) fun _ _ => .ok _

theorem addCosts_covered (l : Ledger D) (v : OperationValues D) : Py.Raises Covered (l.addCosts v) := by
  unfold Ledger.addCosts
  refine .bind (add_covered _ _) fun _ _ => ?_
  refine .bind (add_covered _ _) fun _ _ => ?_
  refine .bind (add_covered _ _) fun _ _ => ?_
  exact .bind (add_covered _ _) fun _ _ => .ok _

theorem allocatedBasis_covered (l : Ledger D) (qty : D) : Py.Raises Covered (l.allocatedBasis qty) := by
  unfold Ledger.allocatedBasis
  split
  · exact .ok _
  · exact .bind (mul_covered _ _) fun _ _ => div_covered _ _

theorem operationValues_qty {l : Ledger D} {quantity : D} {price fee spread slip : PyArg}
    {v : OperationValues D}
    (read : l.operationValues (objectArg quantity) price fee spread slip = .ok v) :
    v.qty = quantity := by
  simp only [Ledger.operationValues, Py.bind_eq_ok, Py.pure_eq_ok, Except.ok.injEq] at read
  obtain ⟨qty, sized, _, _, _, _, _, _, _, _, _, _, _, _, rfl⟩ := read
  exact asDecimal_objectArg_eq sized

/-- A sale of no more than the inventory is not turned down as one beyond it. -/
theorem sell_covered (l : Ledger D) (price fee spread slip : D) :
    Py.Raises Covered (l.sell (objectArg l.inventoryQty) (objectArg price) (objectArg fee)
      (objectArg spread) (objectArg slip)) := by
  unfold Ledger.sell
  refine .bind (operationValues_covered _ _ _ _ _ _) fun v read => ?_
  refine .bind (.guardNot fun short => ?_) fun _ _ => ?_
  · rw [operationValues_qty read, OrderedDecimal.lt_iff] at short
    exact absurd short (lt_irrefl _)
  refine .bind (add_covered _ _) fun _ _ => ?_
  refine .bind (add_covered _ _) fun totalCosts _ => ?_
  refine .bind (.guardNot fun _ _ => by decide) fun _ _ => ?_
  refine .bind (sub_covered _ _) fun netProceeds _ => ?_
  refine .bind (add_covered _ _) fun cash _ => ?_
  refine .bind (.guardNot fun _ _ => by decide) fun _ _ => ?_
  refine .bind (allocatedBasis_covered _ _) fun allocated _ => ?_
  refine .bind (sub_covered _ _) fun realized _ => ?_
  refine .bind (sub_covered _ _) fun inventoryQty _ => ?_
  refine .bind (sub_covered _ _) fun basis _ => ?_
  refine .bind (add_covered _ _) fun realizedPnl _ => ?_
  exact .bind (addCosts_covered _ _) fun _ _ => .ok _

theorem surcharges_covered (orderType : OrderType D) (notional : D) (costs : CostProfile D) :
    Py.Raises Covered (surcharges orderType notional costs) := by
  unfold surcharges
  split
  · refine .bind (literal_covered _) fun bps _ => ?_
    refine .bind (mul_covered _ _) fun _ _ => ?_
    refine .bind (div_covered _ _) fun _ _ => ?_
    refine .bind (literal_covered _) fun _ _ => ?_
    refine .bind (div_covered _ _) fun _ _ => ?_
    refine .bind (mul_covered _ _) fun _ _ => ?_
    exact .bind (div_covered _ _) fun _ _ => .ok _
  · exact .ok _

theorem executeFill_covered {order : PendingOrder D} {candle : Candle D} {price : D} {ledger : Ledger D}
    {costs : CostProfile D} (sells : order.side = .sell) (whole : order.quantity = ledger.inventoryQty) :
    Py.Raises Covered (executeFill order candle price ledger costs) := by
  unfold executeFill
  rw [whole]
  refine .bind (mul_covered _ _) fun notional _ => ?_
  refine .bind (mul_covered _ _) fun _ _ => ?_
  refine .bind (literal_covered _) fun _ _ => ?_
  refine .bind (div_covered _ _) fun fee _ => ?_
  refine .bind (surcharges_covered _ _ _) fun costs _ => ?_
  rw [sells]
  exact .bind (sell_covered _ _ _ _ _) fun _ _ => .ok _

end

/-! ## One candle -/

section
variable {M D : Type} [TrappingDecimal D] {b after : Books M D} {costs : CostProfile D} {index : Nat}
  {candle : Candle D}

/-- What a candle makes of a waiting order, with the attempt to fill it. -/
theorem settle_cases {ledger : Ledger D} {order : PendingOrder D} {s : Settled D}
    (settled : settle costs index candle ledger order = .ok s) :
    (∃ waited, s = .still { order with barsWaited := waited }) ∨
    (∃ price ledger' fill, executeFill order candle price ledger costs = .ok (ledger', fill) ∧
      s = .filled ledger' fill) ∨
    (∃ price raised, executeFill order candle price ledger costs = .error raised ∧
      raised.error.isValueError = true ∧
      s = .rejected ⟨order.orderId, candle.timestamp, raised.message, .order order.side,
        order.quantity, order.tag⟩) ∨
    ∃ note, s = .expired note := by
  unfold settle at settled
  split at settled
  · exact .inl ⟨order.barsWaited, (Except.ok.inj settled).symm⟩
  · split at settled
    · rename_i price priced
      split at settled
      · rename_i ledger' fill executed
        exact .inr (.inl ⟨price, ledger', fill, executed, (Except.ok.inj settled).symm⟩)
      · rename_i raised failed
        split at settled
        · rename_i caught
          exact .inr (.inr (.inl ⟨price, raised, failed, caught, (Except.ok.inj settled).symm⟩))
        · cases settled
    · dsimp only at settled
      split at settled
      · exact .inr (.inr (.inr ⟨_, (Except.ok.inj settled).symm⟩))
      · exact .inl ⟨_, (Except.ok.inj settled).symm⟩

/-- The books behind the waiting orders, where there was at most one. -/
theorem settleAll_cases (single : b.pending.length ≤ 1)
    (settled : b.settleAll costs index candle = .ok after) :
    (b.pending = [] ∧ after = b) ∨
    ∃ order s, b.pending = [order] ∧ settle costs index candle b.ledger order = .ok s ∧
      after = { b with pending := [] }.book s := by
  unfold Books.settleAll at settled
  cases pending : b.pending with
  | nil =>
      rw [pending] at settled
      obtain rfl := Except.ok.inj settled
      exact .inl ⟨rfl, by rw [← pending]⟩
  | cons order rest =>
      obtain rfl : rest = [] := by
        rw [pending, List.length_cons] at single
        exact List.length_eq_zero_iff.mp (by omega)
      rw [pending, List.foldlM_cons] at settled
      obtain ⟨next, first, done⟩ := Py.bind_eq_ok.mp settled
      obtain ⟨s, settling, same⟩ := Py.bind_eq_ok.mp first
      obtain rfl := Except.ok.inj done
      exact .inr ⟨order, s, rfl, settling, (Except.ok.inj same).symm⟩

theorem Books.Orderly.settleAll (orderly : b.Orderly)
    (settled : b.settleAll costs index candle = .ok after) : after.Orderly := by
  rcases settleAll_cases orderly.single settled with ⟨-, rfl⟩ | ⟨order, s, only, settling, rfl⟩
  · exact orderly
  have whole := orderly.whole order (by rw [only]; exact List.mem_singleton_self order)
  rcases settle_cases settling with
    ⟨waited, rfl⟩ | ⟨price, ledger, fill, -, rfl⟩ | ⟨price, raised, failed, caught, rfl⟩ | ⟨note, rfl⟩
  · refine ⟨by simp [Books.book], ?_, orderly.tame⟩
    intro other member
    obtain rfl := List.mem_singleton.mp member
    exact whole
  · exact ⟨by simp [Books.book], by simp [Books.book], orderly.tame⟩
  · refine ⟨by simp [Books.book], by simp [Books.book], ?_⟩
    intro rejection member
    rcases List.mem_append.mp member with before | new
    · exact orderly.tame rejection before
    · obtain rfl := List.mem_singleton.mp new
      constructor
      · intro guard
        cases guard
      · intro sells
        have side : order.side = .sell := RejectedSide.order.inj sells
        exact executeFill_covered side (whole side) raised failed caught
  · exact ⟨by simp [Books.book], by simp [Books.book], orderly.tame⟩

theorem snapshot_inventoryQty {ledger : Ledger D} {price : PyArg} {s : PortfolioSnapshot D}
    (shot : snapshot ledger price = .ok s) : s.inventoryQty = ledger.inventoryQty := by
  simp only [snapshot, Py.bind_eq_ok, Py.pure_eq_ok, Except.ok.injEq] at shot
  obtain ⟨_, _, _, _, _, _, _, _, _, _, rfl⟩ := shot
  rfl

/-- The figures of a close leave the ledger, the orders and the memory as they are. -/
theorem mark_keeps {s : PortfolioSnapshot D} (marked : b.mark candle s = .ok after) :
    after.ledger = b.ledger ∧ after.pending = b.pending ∧ after.rejections = b.rejections ∧
      after.memory = b.memory ∧ after.submitted = b.submitted ∧ after.fills = b.fills := by
  simp only [Books.mark, Py.bind_eq_ok, Py.pure_eq_ok, Except.ok.injEq] at marked
  obtain ⟨_, _, rfl⟩ := marked
  exact ⟨rfl, rfl, rfl, rfl, rfl, rfl⟩

section
variable {strategy : Strategy M D} {config : ReplayConfig D} {d : Decision M D}

/-- The answer of the strategy, given what it is shown. -/
theorem decision_eq_ok (decided : b.decision strategy config index candle = .ok d) :
    ∃ settled answer, b.settleAll config.costs index candle = .ok settled ∧
      snapshot settled.ledger (objectArg candle.close) = .ok d.snapshot ∧
      settled.mark candle d.snapshot = .ok d.shown ∧
      strategy.onCandle d.shown.memory candle d.snapshot d.shown.pending = .ok (d.memory, answer) ∧
      answer.intents = .ok d.intents := by
  simp only [Books.decision, Py.bind_eq_ok, Py.pure_eq_ok, Except.ok.injEq] at decided
  obtain ⟨settled, settling, shot, shooting, shown, marking, ⟨memory, answer⟩, asked, intents, listed,
    rfl⟩ := decided
  refine ⟨settled, answer, settling, shooting, marking, ?_, listed⟩
  unfold Strategy.ask at asked
  split at asked
  · rename_i answered given
    rw [given, Except.ok.inj asked]
  · simp at asked

/-- What the strategy is shown is as orderly as the books before, and it keeps to its turn. -/
theorem Books.Orderly.decision (tidy : strategy.Orderly) (orderly : b.Orderly)
    (decided : b.decision strategy config index candle = .ok d) :
    d.shown.Orderly ∧ d.snapshot.inventoryQty = d.shown.ledger.inventoryQty ∧
      Turn d.shown.ledger.inventoryQty d.shown.pending d.intents := by
  obtain ⟨settled, answer, settling, shooting, marking, asked, listed⟩ := decision_eq_ok decided
  have before := orderly.settleAll settling
  obtain ⟨ledger, pending, rejections, -⟩ := mark_keeps marking
  have shown : d.shown.Orderly := by
    refine ⟨?_, ?_, ?_⟩
    · rw [pending]
      exact before.single
    · rw [pending, ledger]
      exact before.whole
    · rw [rejections]
      exact before.tame
  have held : d.snapshot.inventoryQty = d.shown.ledger.inventoryQty := by
    rw [snapshot_inventoryQty shooting, ledger]
  obtain ⟨intents, rfl, turn⟩ := tidy _ _ _ _ _ _ shown.single asked
  obtain rfl := Except.ok.inj listed
  exact ⟨shown, held, held ▸ turn⟩

theorem Books.submit_pending (b : Books M D) (strategyId : Text) (defaultOrderTtl : Option Nat)
    (index : Nat) (candle : Candle D) (intent : OrderIntent D) : ∃ placed,
    (b.submit strategyId defaultOrderTtl index candle intent).pending = b.pending ++ [placed] ∧
      placed.side = intent.side ∧ placed.quantity = intent.quantity := ⟨_, rfl, rfl, rfl⟩

/-- What is open behind the intents of a turn: what was open, or the order it places. -/
theorem Turn.takeAll {quantity : D} {strategyId : Text} {defaultOrderTtl : Option Nat}
    {intents : List (Intent D)} (turn : Turn quantity b.pending intents)
    (taken : intents.foldlM (Books.take strategyId defaultOrderTtl index candle) b = .ok after) :
    after.ledger = b.ledger ∧ after.rejections = b.rejections ∧ after.memory = b.memory ∧
      ((intents = [] ∧ after.pending = b.pending) ∨
        ∃ order placed, Intent.order order ∈ intents ∧ after.pending = [placed] ∧
          placed.side = order.side ∧ placed.quantity = order.quantity) := by
  cases turn with
  | keeps =>
      obtain rfl := Except.ok.inj taken
      exact ⟨rfl, rfl, rfl, .inl ⟨rfl, rfl⟩⟩
  | places order free whole =>
      obtain rfl := Except.ok.inj taken
      obtain ⟨placed, pending, same⟩ := b.submit_pending strategyId defaultOrderTtl index candle order
      rw [free, List.nil_append] at pending
      exact ⟨rfl, rfl, rfl, .inr ⟨order, placed, List.mem_singleton_self _, pending, same⟩⟩
  | replaces old cancel order only named whole =>
      obtain rfl := Except.ok.inj taken
      have cancelled : (b.cancel candle cancel).pending = [] ∧
          (b.cancel candle cancel).ledger = b.ledger ∧
          (b.cancel candle cancel).rejections = b.rejections ∧
          (b.cancel candle cancel).memory = b.memory := by
        simp [Books.cancel, only, named]
      obtain ⟨pending, ledger, rejections, memory⟩ := cancelled
      obtain ⟨placed, open_, same⟩ :=
        (b.cancel candle cancel).submit_pending strategyId defaultOrderTtl index candle order
      rw [pending, List.nil_append] at open_
      exact ⟨ledger, rejections, memory, .inr ⟨order, placed, by simp, open_, same⟩⟩

theorem Turn.whole {quantity : D} {openOrders : List (PendingOrder D)} {intents : List (Intent D)}
    {order : OrderIntent D} (turn : Turn quantity openOrders intents) (member : .order order ∈ intents)
    (sells : order.side = .sell) : order.quantity = quantity := by
  cases turn with
  | keeps => cases member
  | places other free whole =>
      obtain rfl : order = other := by simpa using member
      exact whole sells
  | replaces old cancel other only named whole =>
      obtain rfl : order = other := by simpa using member
      exact whole sells

/-- A turn cancels open orders only. -/
theorem Turn.named {quantity : D} {openOrders : List (PendingOrder D)} {intents : List (Intent D)}
    {cancel : CancelIntent} (turn : Turn quantity openOrders intents)
    (member : .cancel cancel ∈ intents) : ∃ order ∈ openOrders, order.orderId = cancel.orderId := by
  cases turn with
  | keeps => cases member
  | places order free whole => simp at member
  | replaces old other order only named whole =>
      obtain rfl : cancel = other := by simpa using member
      exact ⟨old, by simp [only], named.symm⟩

theorem Books.Orderly.step (tidy : strategy.Orderly) (orderly : b.Orderly)
    (stepped : b.step strategy config index candle = .ok after) : after.Orderly := by
  obtain ⟨d, decided, enacted⟩ := Books.step_eq_decision.mp stepped
  obtain ⟨shown, -, turn⟩ := orderly.decision tidy decided
  obtain ⟨ledger, rejections, -, open_⟩ :=
    @Turn.takeAll _ _ _ { d.shown with memory := d.memory } _ _ _ _ _ _ _ turn enacted
  rcases open_ with ⟨-, kept⟩ | ⟨order, placed, member, only, side, quantity⟩
  · refine ⟨?_, ?_, ?_⟩
    · rw [kept]
      exact shown.single
    · rw [kept, ledger]
      exact shown.whole
    · rw [rejections]
      exact shown.tame
  · refine ⟨by rw [only]; exact le_rfl, ?_, ?_⟩
    · intro other inside sells
      rw [only] at inside
      obtain rfl := List.mem_singleton.mp inside
      rw [ledger, quantity]
      exact turn.whole member (side ▸ sells)
    · rw [rejections]
      exact shown.tame

theorem Books.Orderly.loop {bars : List (Candle D)} (tidy : strategy.Orderly) (orderly : b.Orderly)
    (looped : b.loop strategy config index bars = .ok after) : after.Orderly := by
  induction bars generalizing b index with
  | nil =>
      obtain rfl := Except.ok.inj looped
      exact orderly
  | cons candle bars ih =>
      obtain ⟨next, stepped, others⟩ := Py.bind_eq_ok.mp looped
      exact ih (orderly.step tidy stepped) others

/-- The books of an orderly strategy are orderly behind every candle. -/
theorem Strategy.Orderly.replayed {bars : List (Candle D)} {memory : M} (tidy : strategy.Orderly)
    (done : replayed bars strategy memory config = .ok after) : after.Orderly := by
  obtain ⟨ledger, -, looped⟩ := Py.bind_eq_ok.mp done
  have start : (Books.start ledger config memory).Orderly :=
    ⟨by simp [Books.start], by simp [Books.start], by simp [Books.start]⟩
  exact start.loop tidy looped

end
end

end Senex.Research
