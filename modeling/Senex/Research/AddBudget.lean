import Senex.Research.Dca

/-! # The add budget of the combination

The combination shows its averaging strategy the held positions only, so the strategy
never sees the position it left closed.  The adds of a position stay within the
budget, and a new position has the whole of it, where nothing is carried over and
every add is filled.
-/

namespace Senex.Research

open Text Paper

/-! ## The run, candle for candle -/

section
variable {M D : Type} [Decimal D]

/-- A candle, the books before it and what the strategy made of it. -/
structure Reaction (M D : Type) [Decimal D] where
  candle : Candle D
  before : Books M D
  decision : Decision M D

def Books.reactions (strategy : Strategy M D) (config : ReplayConfig D) (b : Books M D) (index : Nat) :
    List (Candle D) → Py (List (Reaction M D))
  | [] => .ok []
  | candle :: bars => do
      let decision ← b.decision strategy config index candle
      let after ← decision.enact strategy config index candle
      return ⟨candle, b, decision⟩ :: (← after.reactions strategy config (index + 1) bars)

/-- What `replayed` goes through. -/
def reactions (bars : List (Candle D)) (strategy : Strategy M D) (memory : M) (config : ReplayConfig D) :
    Py (List (Reaction M D)) := do
  let ledger ← Ledger.construct (objectArg config.startingCash) (objectArg config.maxInventory)
    (objectArg config.maxFillQty)
  (Books.start ledger config memory).reactions strategy config 0 bars

theorem Books.loop_reactions {strategy : Strategy M D} {config : ReplayConfig D} {bars : List (Candle D)}
    {b : Books M D} {index : Nat} : (∃ after, b.loop strategy config index bars = .ok after) ↔
      ∃ run, b.reactions strategy config index bars = .ok run := by
  induction bars generalizing b index with
  | nil => simp [loop, reactions]
  | cons candle bars ih =>
      simp only [loop, reactions, Py.bind_eq_ok, step_eq_decision, Py.pure_eq_ok, Except.ok.injEq]
      constructor
      · rintro ⟨after, next, ⟨d, decided, enacted⟩, looped⟩
        obtain ⟨run, ran⟩ := ih.mp ⟨after, looped⟩
        exact ⟨_, d, decided, next, enacted, run, ran, rfl⟩
      · rintro ⟨_, d, decided, next, enacted, run, ran, -⟩
        obtain ⟨after, looped⟩ := ih.mpr ⟨run, ran⟩
        exact ⟨after, next, ⟨d, decided, enacted⟩, looped⟩

/-- The reactions are those of the replay. -/
theorem replayed_reactions {bars : List (Candle D)} {strategy : Strategy M D} {memory : M}
    {config : ReplayConfig D} : (∃ books, replayed bars strategy memory config = .ok books) ↔
      ∃ run, reactions bars strategy memory config = .ok run := by
  simp only [replayed, reactions, Py.bind_eq_ok]
  constructor
  · rintro ⟨books, ledger, opened, looped⟩
    obtain ⟨run, ran⟩ := Books.loop_reactions.mp ⟨books, looped⟩
    exact ⟨run, ledger, opened, ran⟩
  · rintro ⟨run, ledger, opened, ran⟩
    obtain ⟨books, looped⟩ := Books.loop_reactions.mpr ⟨run, ran⟩
    exact ⟨books, ledger, opened, looped⟩

def holding (ledger : Ledger D) : Bool := Decimal.lt Decimal.zero ledger.inventoryQty

/-- The position is held at the candle. -/
def Reaction.held (r : Reaction M D) : Bool := holding r.decision.shown.ledger

/-- The position opens at the candle. -/
def Reaction.opens (r : Reaction M D) : Bool := r.held && !holding r.before.ledger

def Intent.isAdd : Intent D → Bool
  | .order intent => (txt "dca-add-").isPrefixOf intent.tag
  | _ => false

/-- The adds that are submitted at the candle. -/
def Reaction.adds (r : Reaction M D) : Nat := r.decision.intents.countP Intent.isAdd

/-- The adds submitted since the position was last flat. -/
def spent (run : List (Reaction M D)) : Nat :=
  run.foldl (fun count r => (if r.held then count else 0) + r.adds) 0

theorem spent_concat (run : List (Reaction M D)) (r : Reaction M D) :
    spent (run ++ [r]) = (if r.held then spent run else 0) + r.adds := by
  rw [spent, List.foldl_append]
  rfl

end

section
variable {D : Type} [TrappingDecimal D]

/-- Nothing is carried over into a position of that quantity: the strategy remembers no position, or
a position no smaller without an add. -/
def DcaMemory.Renewed (memory : DcaMemory D) (quantity : D) : Prop :=
  Decimal.le memory.lastInventoryQty Decimal.zero = true ∨
    (memory.addCount = 0 ∧ Decimal.lt memory.lastInventoryQty quantity = false)

instance (memory : DcaMemory D) (quantity : D) : Decidable (memory.Renewed quantity) :=
  inferInstanceAs (Decidable (_ ∨ _))

def Books.buying (b : Books (DcaMemory D) D) : Prop := ∃ order ∈ b.pending, order.side = .buy

instance (b : Books (DcaMemory D) D) : Decidable b.buying :=
  inferInstanceAs (Decidable (∃ order ∈ b.pending, order.side = .buy))

/-- The close is at the take profit. -/
def DcaConfig.reaches (config : DcaConfig D) (snapshot : PortfolioSnapshot D) (close : D) : Bool :=
  (config.takeProfit snapshot).toOption.any fun takeProfit => Decimal.le takeProfit close

/-- What a candle has to spare for the budget to be kept. -/
structure Reaction.Regular (dca : DcaConfig D) (r : Reaction (DcaMemory D) D) : Prop where
  /-- A position opens with nothing carried over. -/
  renewed : r.opens = true → r.before.memory.Renewed r.decision.shown.ledger.inventoryQty
  /-- A buy that is filled raises the position: its quantity is not lost to rounding. -/
  raises : r.before.buying → r.before.fills.length < r.decision.shown.fills.length →
    Decimal.lt r.before.ledger.inventoryQty r.decision.shown.ledger.inventoryQty = true
  /-- An add is neither rejected nor expired. -/
  filled : holding r.before.ledger = true → r.before.buying → r.decision.shown.pending = [] →
    r.before.fills.length < r.decision.shown.fills.length
  /-- The close is below the take profit while an add waits. -/
  below : r.held = true → r.decision.shown.buying →
    dca.reaches r.decision.snapshot r.candle.close = false

instance (dca : DcaConfig D) (r : Reaction (DcaMemory D) D) : Decidable (r.Regular dca) :=
  decidable_of_iff
    ((r.opens = true → r.before.memory.Renewed r.decision.shown.ledger.inventoryQty) ∧
      (r.before.buying → r.before.fills.length < r.decision.shown.fills.length →
        Decimal.lt r.before.ledger.inventoryQty r.decision.shown.ledger.inventoryQty = true) ∧
      (holding r.before.ledger = true → r.before.buying → r.decision.shown.pending = [] →
        r.before.fills.length < r.decision.shown.fills.length) ∧
      (r.held = true → r.decision.shown.buying →
        dca.reaches r.decision.snapshot r.candle.close = false))
    ⟨fun ⟨renewed, raises, filled, below⟩ => ⟨renewed, raises, filled, below⟩,
      fun regular => ⟨regular.renewed, regular.raises, regular.filled, regular.below⟩⟩

/-- Where the position opens the strategy answers as a new one would and the cost basis is that of
the new position; every add is the next one of the position. -/
structure Reaction.Budgeted (dca : DcaConfig D) (count : Nat) (r : Reaction (DcaMemory D) D) : Prop where
  spent : (if r.held then count else 0) + r.adds ≤ dca.maxAdds
  whole : r.opens = true → count = 0 ∧
    dca.onCandle .start r.candle r.decision.snapshot r.decision.shown.pending =
      .ok (r.decision.memory, r.decision.intents) ∧
    r.before.ledger.inventoryCostBasis = Decimal.zero
  priced : ∀ order, .order order ∈ r.decision.intents → (Intent.order order).isAdd = true →
    dca.Due count r.decision.snapshot order

/-! ## The ledger -/

theorem addCosts_inventory {l l' : Ledger D} {v : OperationValues D} (added : l.addCosts v = .ok l') :
    l'.inventoryQty = l.inventoryQty ∧ l'.inventoryCostBasis = l.inventoryCostBasis := by
  simp only [Ledger.addCosts, Py.bind_eq_ok, Py.pure_eq_ok, Except.ok.injEq] at added
  obtain ⟨_, _, _, _, _, _, _, _, rfl⟩ := added
  exact ⟨rfl, rfl⟩

/-- The sale of all units leaves neither units nor a cost basis. -/
theorem sell_all {l l' : Ledger D} {price fee spread slip : PyArg} {operation : LedgerOperation D}
    (sold : l.sell (objectArg l.inventoryQty) price fee spread slip = .ok (l', operation)) :
    OrderedDecimal.value l'.inventoryQty = 0 ∧ l'.inventoryCostBasis = Decimal.zero := by
  simp only [Ledger.sell, Py.bind_eq_ok, Py.pure_eq_ok, Except.ok.injEq, Prod.mk.injEq] at sold
  obtain ⟨v, read, _, _, _, _, _, _, _, _, _, _, _, _, _, _, _, _, _, _, left, leaving, basis, _, _, _,
    after, added, rfl, -⟩ := sold
  obtain ⟨units, cost⟩ := addCosts_inventory added
  have nothing : OrderedDecimal.value left = 0 := by
    refine TrappingDecimal.sub_self _ _ _ ?_ leaving
    rw [operationValues_qty read]
  refine ⟨by rw [units]; exact nothing, ?_⟩
  have zero : Decimal.eq left Decimal.zero = true := by
    rw [OrderedDecimal.eq_iff, nothing, TrappingDecimal.value_zero]
  rw [cost]
  exact if_pos zero

theorem executeFill_all {order : PendingOrder D} {candle : Candle D} {price : D} {ledger after : Ledger D}
    {costs : CostProfile D} {fill : Fill D} (sells : order.side = .sell)
    (whole : order.quantity = ledger.inventoryQty)
    (executed : executeFill order candle price ledger costs = .ok (after, fill)) :
    OrderedDecimal.value after.inventoryQty = 0 ∧ after.inventoryCostBasis = Decimal.zero := by
  simp only [executeFill, Py.bind_eq_ok, Py.pure_eq_ok, Except.ok.injEq, Prod.mk.injEq] at executed
  obtain ⟨_, _, _, _, _, _, _, _, ⟨_, _⟩, _, ⟨_, operation⟩, operated, rfl, _⟩ := executed
  rw [sells, whole] at operated
  exact sell_all operated

/-! ## The lone order -/

/-- What becomes of the one order that can be open. -/
inductive Lone {M : Type} (b shown : Books M D) : Prop
  | waits (ledger : shown.ledger = b.ledger) (fills : shown.fills = b.fills)
      (sides : shown.pending.map (·.side) = b.pending.map (·.side)) : Lone b shown
  | filled (order : PendingOrder D) (candle : Candle D) (price : D) (costs : CostProfile D) (fill : Fill D)
      (only : b.pending = [order]) (gone : shown.pending = [])
      (executed : executeFill order candle price b.ledger costs = .ok (shown.ledger, fill))
      (fills : shown.fills = b.fills ++ [fill]) : Lone b shown
  | dropped (order : PendingOrder D) (only : b.pending = [order]) (gone : shown.pending = [])
      (ledger : shown.ledger = b.ledger) (fills : shown.fills = b.fills) : Lone b shown

theorem Books.Orderly.lone {M : Type} {strategy : Strategy M D} {config : ReplayConfig D}
    {b : Books M D} {index : Nat} {candle : Candle D} {d : Decision M D} (orderly : b.Orderly)
    (decided : b.decision strategy config index candle = .ok d) :
    d.shown.memory = b.memory ∧ Lone b d.shown := by
  obtain ⟨settled, _, settling, -, marking, -⟩ := decision_eq_ok decided
  obtain ⟨ledger, pending, -, memory, -, fills⟩ := mark_keeps marking
  rcases settleAll_cases orderly.single settling with ⟨-, rfl⟩ | ⟨order, s, only, settles, rfl⟩
  · exact ⟨memory, .waits ledger fills (by rw [pending])⟩
  rcases settle_cases settles with
    ⟨waited, rfl⟩ | ⟨price, after, fill, executed, rfl⟩ | ⟨price, raised, -, -, rfl⟩ | ⟨note, rfl⟩
  · exact ⟨memory, .waits ledger fills (by rw [pending, only]; rfl)⟩
  · exact ⟨memory, .filled order candle price config.costs fill only pending (ledger ▸ executed) fills⟩
  · exact ⟨memory, .dropped order only pending ledger fills⟩
  · exact ⟨memory, .dropped order only pending ledger fills⟩

/-! ## One candle -/

/-- The buys that are open: adds, where a position is held. -/
def Books.waiting {M : Type} (b : Books M D) : Nat := (b.pending.map (·.side)).count .buy

theorem buying_of_mem {E : Type} {b : Books (DcaMemory E) E} {order : PendingOrder E} (only : b.pending = [order])
    (bought : order.side = .buy) : b.buying := ⟨order, by simp [only], bought⟩

theorem not_le_of_holding {ledger : Ledger D} (holds : holding ledger = true) :
    Decimal.le ledger.inventoryQty Decimal.zero = false := by
  rw [holding, OrderedDecimal.lt_iff] at holds
  rw [← Bool.not_eq_true, OrderedDecimal.le_iff]
  exact not_le.mpr holds

theorem le_of_flat {ledger : Ledger D} (flat : holding ledger = false) :
    Decimal.le ledger.inventoryQty Decimal.zero = true := by
  rw [holding, OrderedDecimal.not_lt_iff] at flat
  exact (OrderedDecimal.le_iff _ _).mpr flat

/-- The books with what was spent of the budget, behind every candle. -/
structure Kept (dca : DcaConfig D) (b : Books (DcaMemory D) D) (count : Nat) : Prop where
  orderly : b.Orderly
  nonneg : 0 ≤ OrderedDecimal.value b.ledger.inventoryQty
  clean : OrderedDecimal.value b.ledger.inventoryQty = 0 → b.ledger.inventoryCostBasis = Decimal.zero
  flat : holding b.ledger = false → count = 0
  remembered : holding b.ledger = true → b.memory.lastInventoryQty = b.ledger.inventoryQty
  counted : holding b.ledger = true → count = b.memory.addCount + b.waiting
  budget : count ≤ dca.maxAdds

section
variable {grid : GridConfig D} {dca : DcaConfig D} {config : ReplayConfig D} {b : Books (DcaMemory D) D}
  {count index : Nat} {candle : Candle D} {d : Decision (DcaMemory D) D}

theorem Kept.basis (kept : Kept dca b count) (flat : holding b.ledger = false) :
    b.ledger.inventoryCostBasis = Decimal.zero := by
  refine kept.clean (le_antisymm ?_ kept.nonneg)
  rwa [holding, OrderedDecimal.not_lt_iff, TrappingDecimal.value_zero] at flat

/-- The units and their basis behind the fills of a candle. -/
theorem Kept.units (kept : Kept dca b count) (lone : Lone b d.shown)
    (regular : (⟨candle, b, d⟩ : Reaction (DcaMemory D) D).Regular dca) :
    0 ≤ OrderedDecimal.value d.shown.ledger.inventoryQty ∧
      (OrderedDecimal.value d.shown.ledger.inventoryQty = 0 →
        d.shown.ledger.inventoryCostBasis = Decimal.zero) := by
  cases lone with
  | waits ledger fills sides => exact ledger ▸ ⟨kept.nonneg, kept.clean⟩
  | dropped order only gone ledger fills => exact ledger ▸ ⟨kept.nonneg, kept.clean⟩
  | filled order candle price costs fill only gone executed fills =>
      cases side : order.side with
      | buy =>
          have raised := regular.raises (buying_of_mem only side) (by simp [fills])
          rw [OrderedDecimal.lt_iff] at raised
          have positive := kept.nonneg.trans_lt raised
          exact ⟨positive.le, fun zero => absurd zero positive.ne'⟩
      | sell =>
          have whole := kept.orderly.whole order (by simp [only]) side
          obtain ⟨nothing, basis⟩ := executeFill_all side whole executed
          exact ⟨nothing.ge, fun _ => basis⟩

/-- Once the position is looked at, the count of the adds is that of the budget spent, less the add
that waits. -/
theorem Kept.observed (kept : Kept dca b count) (lone : Lone b d.shown)
    (regular : (⟨candle, b, d⟩ : Reaction (DcaMemory D) D).Regular dca)
    (holds : holding d.shown.ledger = true) :
    count = (b.memory.observe d.shown.ledger.inventoryQty).addCount + d.shown.waiting := by
  cases before : holding b.ledger with
  | false =>
      -- the position opens, by a fill of the one order
      have renewed : b.memory.Renewed d.shown.ledger.inventoryQty :=
        regular.renewed (by simp [Reaction.opens, Reaction.held, holds, before])
      have zero : (b.memory.observe d.shown.ledger.inventoryQty).addCount = 0 := by
        rcases renewed with none | ⟨none, notLarger⟩
        · simp [DcaMemory.observe, none]
        · simp [DcaMemory.observe, none, notLarger]
      rw [kept.flat before, zero]
      cases lone with
      | waits ledger fills sides => simp [ledger, before] at holds
      | dropped order only gone ledger fills => simp [ledger, before] at holds
      | filled order candle price costs fill only gone executed fills => simp [Books.waiting, gone]
  | true =>
      have counted := kept.counted before
      have known : Decimal.le b.memory.lastInventoryQty Decimal.zero = false := by
        rw [kept.remembered before]
        exact not_le_of_holding before
      have same (ledger : d.shown.ledger = b.ledger) :
          (b.memory.observe d.shown.ledger.inventoryQty).addCount = b.memory.addCount := by
        have equal : Decimal.lt b.ledger.inventoryQty b.ledger.inventoryQty = false :=
          (OrderedDecimal.not_lt_iff _ _).mpr le_rfl
        rw [ledger]
        simp [DcaMemory.observe, kept.remembered before, equal, not_le_of_holding before]
      cases lone with
      | waits ledger fills sides =>
          rw [same ledger, Books.waiting, sides]
          exact counted
      | dropped order only gone ledger fills =>
          cases side : order.side with
          | buy =>
              have more := regular.filled before (buying_of_mem only side) gone
              simp [fills] at more
          | sell =>
              rw [same ledger, counted]
              simp [Books.waiting, only, gone, side]
      | filled order candle price costs fill only gone executed fills =>
          cases side : order.side with
          | buy =>
              have raised := regular.raises (buying_of_mem only side) (by simp [fills])
              have larger : Decimal.lt b.memory.lastInventoryQty d.shown.ledger.inventoryQty = true := by
                rw [kept.remembered before]
                exact raised
              rw [counted]
              simp [Books.waiting, DcaMemory.observe, known, larger, only, gone, side]
          | sell =>
              have whole := kept.orderly.whole order (by simp [only]) side
              obtain ⟨nothing, -⟩ := executeFill_all side whole executed
              rw [holding, OrderedDecimal.lt_iff, nothing, TrappingDecimal.value_zero] at holds
              exact absurd holds (lt_irrefl _)

/-- The answer for a flat position is that of the grid, which adds nothing. -/
theorem combo_flat {memory memory' : DcaMemory D} {snapshot : PortfolioSnapshot D}
    {openOrders : List (PendingOrder D)} {intents : List (Intent D)}
    (flat : Decimal.le snapshot.inventoryQty Decimal.zero = true)
    (answered : comboOnCandle grid dca memory candle snapshot openOrders = .ok (memory', intents)) :
    ∀ intent ∈ intents, intent.isAdd = false := by
  rw [comboOnCandle, if_pos flat] at answered
  obtain ⟨entered, answer, same⟩ := Py.bind_eq_ok.mp answered
  obtain ⟨-, rfl⟩ := Prod.mk.inj (Except.ok.inj same)
  rcases GridConfig.onCandle_cases answer with rfl | ⟨order, rfl, -, -, tag⟩
  · simp
  · intro intent member
    obtain rfl := List.mem_singleton.mp member
    simp only [List.mem_cons, List.not_mem_nil, or_false] at tag
    rcases tag with tag | tag
    · rw [Intent.isAdd, tag]
      decide
    · rw [Intent.isAdd, tag]
      decide

/-- The answer for a held position is that of the averaging strategy. -/
theorem combo_held {memory memory' : DcaMemory D} {snapshot : PortfolioSnapshot D}
    {openOrders : List (PendingOrder D)} {intents : List (Intent D)}
    (holds : Decimal.le snapshot.inventoryQty Decimal.zero = false)
    (answered : comboOnCandle grid dca memory candle snapshot openOrders = .ok (memory', intents)) :
    memory' = memory.observe snapshot.inventoryQty ∧
      dca.manage memory'.addCount candle snapshot openOrders = .ok intents := by
  rw [comboOnCandle, holds, DcaConfig.onCandle, holds] at answered
  obtain ⟨managed, answer, same⟩ := Py.bind_eq_ok.mp answered
  obtain ⟨rfl, rfl⟩ := Prod.mk.inj (Except.ok.inj same)
  exact ⟨rfl, answer⟩

theorem DcaConfig.Due.isAdd {addCount : Nat} {snapshot : PortfolioSnapshot D} {order : OrderIntent D}
    (due : dca.Due addCount snapshot order) : (Intent.order order).isAdd = true := by
  rw [Intent.isAdd, due.tag, List.isPrefixOf_iff_prefix]
  exact List.prefix_append _ _

theorem Leaves.isAdd {snapshot : PortfolioSnapshot D} {order : OrderIntent D}
    (leaves : Leaves snapshot order) : (Intent.order order).isAdd = false := by
  rw [Intent.isAdd, leaves.tag]
  decide

/-- What a held position with that many adds, filled or waiting, is answered: each add is the next
one and within the budget, and no waiting add is taken back below the take profit. -/
theorem DcaConfig.Managed.countP_isAdd {addCount waiting : Nat} {snapshot : PortfolioSnapshot D}
    {b : Books (DcaMemory D) D} {intents : List (Intent D)}
    (managed : dca.Managed addCount candle snapshot b.pending intents)
    (below : b.buying → dca.reaches snapshot candle.close = false)
    (open_ : b.waiting = waiting) :
    (intents.countP Intent.isAdd = 0 ∧
      ∀ order, .order order ∈ intents → order.side = .sell ∧ waiting = 0) ∨
    (intents.countP Intent.isAdd = 1 ∧ waiting = 0 ∧
      ∀ order, .order order ∈ intents → dca.Due addCount snapshot order) := by
  cases managed with
  | waits => exact .inl ⟨rfl, by simp⟩
  | sells order free leaves =>
      refine .inl ⟨by simp [leaves.isAdd], fun other member => ?_⟩
      obtain rfl : other = order := by simpa using member
      exact ⟨leaves.sells, by simpa [Books.waiting, free] using open_.symm⟩
  | adds order free due =>
      refine .inr ⟨by simp [due.isAdd], by simpa [Books.waiting, free] using open_.symm, ?_⟩
      intro other member
      obtain rfl : other = order := by simpa using member
      exact due
  | secures old cancel order only bought named leaves reached =>
      obtain ⟨takeProfit, profit, close⟩ := reached
      have early := below (buying_of_mem only bought)
      simp [DcaConfig.reaches, profit, Except.toOption, close] at early
  | deepens old cancel order only sold named due =>
      have none : (Intent.cancel cancel : Intent D).isAdd = false := rfl
      refine .inr ⟨by simp [due.isAdd, none], by simpa [Books.waiting, only, sold] using open_.symm, ?_⟩
      intro other member
      obtain rfl : other = order := by simpa using member
      exact due

/-- A candle of a regular run is answered within the budget, and the books keep it. -/
theorem Kept.react {after : Books (DcaMemory D) D} (kept : Kept dca b count)
    (decided : b.decision (comboStrategy grid dca) config index candle = .ok d)
    (enacted : d.enact (comboStrategy grid dca) config index candle = .ok after)
    (regular : (⟨candle, b, d⟩ : Reaction (DcaMemory D) D).Regular dca) :
    (⟨candle, b, d⟩ : Reaction (DcaMemory D) D).Budgeted dca count ∧
      Kept dca after ((if holding d.shown.ledger then count else 0) + d.intents.countP Intent.isAdd) := by
  have tidy := comboStrategy_orderly grid dca
  obtain ⟨shown, quantity, turn⟩ := kept.orderly.decision tidy decided
  obtain ⟨memory, lone⟩ := kept.orderly.lone decided
  obtain ⟨nonneg, clean⟩ := kept.units lone regular
  obtain ⟨settled, answer, -, -, -, asked, listed⟩ := decision_eq_ok decided
  obtain ⟨intents, rfl, called⟩ := onCandle_strategyOf asked
  obtain rfl := Except.ok.inj listed
  obtain ⟨ledger, -, remembers, open_⟩ :=
    @Turn.takeAll _ _ _ { d.shown with memory := d.memory } _ _ _ _ _ _ _ turn enacted
  dsimp only at ledger open_ remembers
  have orderly : after.Orderly :=
    kept.orderly.step tidy (Books.step_eq_decision.mpr ⟨d, decided, enacted⟩)
  cases holds : holding d.shown.ledger with
  | false =>
      have flat : Decimal.le d.snapshot.inventoryQty Decimal.zero = true := by
        rw [quantity]
        exact le_of_flat holds
      have none := combo_flat flat called
      have zero : d.intents.countP Intent.isAdd = 0 := by simpa [List.countP_eq_zero] using none
      refine ⟨⟨?_, ?_, ?_⟩, ?_⟩
      · simp [Reaction.held, Reaction.adds, holds, zero]
      · simp [Reaction.opens, Reaction.held, holds]
      · intro order member add
        rw [none _ member] at add
        cases add
      · rw [zero]
        refine ⟨orderly, ledger ▸ nonneg, ledger ▸ clean, fun _ => rfl, ?_, ?_, Nat.zero_le _⟩
        · intro held
          rw [ledger, holds] at held
          cases held
        · intro held
          rw [ledger, holds] at held
          cases held
  | true =>
      have counted := kept.observed lone regular holds
      have notFlat : Decimal.le d.snapshot.inventoryQty Decimal.zero = false := by
        rw [quantity]
        exact not_le_of_holding holds
      obtain ⟨observed, managed⟩ := combo_held notFlat called
      rw [memory, quantity] at observed
      rw [← observed] at counted
      have adds := (DcaConfig.manage_managed shown.single managed).countP_isAdd
        (regular.below (by rw [Reaction.held]; exact holds)) rfl
      -- what waits behind the intents is what waited, with the add that is submitted
      have waiting : after.waiting = d.shown.waiting + d.intents.countP Intent.isAdd := by
        rcases open_ with ⟨none, same⟩ | ⟨order, placed, member, only, side, -⟩
        · rw [Books.waiting, same, none]
          rfl
        · rcases adds with ⟨zero, sells⟩ | ⟨one, free, due⟩
          · obtain ⟨sold, free⟩ := sells order member
            simp [Books.waiting, only, side, sold, zero, ← free]
          · simp [Books.waiting, only, side, (due order member).buys, one, ← free]
      have within : count + d.intents.countP Intent.isAdd ≤ dca.maxAdds := by
        rcases adds with ⟨zero, -⟩ | ⟨one, free, due⟩
        · rw [zero]
          exact kept.budget
        · rcases open_ with ⟨none, -⟩ | ⟨order, -, member, -⟩
          · simp [none] at one
          · have budget := (due order member).budget
            omega
      refine ⟨⟨?_, ?_, ?_⟩, ?_⟩
      · simpa [Reaction.held, Reaction.adds, holds] using within
      · intro opens
        have flat : holding b.ledger = false := by
          simpa [Reaction.opens, Reaction.held, holds] using opens
        have zero := kept.flat flat
        refine ⟨zero, ?_, kept.basis flat⟩
        have none : d.memory.addCount = 0 := by omega
        have last : d.memory.lastInventoryQty = d.shown.ledger.inventoryQty := by rw [observed]; rfl
        have start : Decimal.le (Decimal.zero : D) Decimal.zero = true :=
          (OrderedDecimal.le_iff _ _).mpr le_rfl
        have same : DcaMemory.start.observe d.snapshot.inventoryQty = d.memory :=
          calc DcaMemory.start.observe d.snapshot.inventoryQty
              = ⟨d.snapshot.inventoryQty, 0⟩ := by simp [DcaMemory.observe, DcaMemory.start, start]
            _ = d.memory := by rw [quantity, ← last, ← none]
        rw [DcaConfig.onCandle, notFlat]
        refine Py.bind_eq_ok.mpr ⟨d.intents, ?_, by rw [same]; rfl⟩
        rw [same]
        exact managed
      · intro order member add
        rcases adds with ⟨zero, -⟩ | ⟨one, free, due⟩
        · exact absurd add (List.countP_eq_zero.mp zero _ member)
        · rw [counted, free]
          exact due order member
      · rw [if_pos rfl]
        refine ⟨orderly, ledger ▸ nonneg, ledger ▸ clean, ?_, ?_, ?_, within⟩
        · intro flat
          rw [ledger, holds] at flat
          cases flat
        · intro _
          rw [remembers, observed, ledger]
          rfl
        · intro _
          rw [remembers, waiting, counted]
          omega

end

/-! ## The run -/

theorem Kept.run {grid : GridConfig D} {dca : DcaConfig D} {config : ReplayConfig D}
    {b : Books (DcaMemory D) D} {count index : Nat} {bars : List (Candle D)}
    {run : List (Reaction (DcaMemory D) D)} (kept : Kept dca b count)
    (ran : b.reactions (comboStrategy grid dca) config index bars = .ok run)
    (regular : ∀ r ∈ run, r.Regular dca) {before after : List (Reaction (DcaMemory D) D)}
    {r : Reaction (DcaMemory D) D} (split : run = before ++ r :: after) :
    r.Budgeted dca (before.foldl (fun count r => (if r.held then count else 0) + r.adds) count) := by
  induction bars generalizing b count index run before with
  | nil =>
      obtain rfl := Except.ok.inj ran
      simp at split
  | cons candle bars ih =>
      simp only [Books.reactions, Py.bind_eq_ok, Py.pure_eq_ok, Except.ok.injEq] at ran
      obtain ⟨d, decided, next, enacted, rest, others, rfl⟩ := ran
      obtain ⟨budgeted, keeps⟩ := kept.react decided enacted (regular _ List.mem_cons_self)
      cases before with
      | nil =>
          obtain ⟨rfl, -⟩ := List.cons.inj split
          exact budgeted
      | cons first before =>
          obtain ⟨rfl, behind⟩ := List.cons.inj split
          exact ih keeps others (fun r member => regular r (List.mem_cons_of_mem _ member)) behind

theorem Kept.start {dca : DcaConfig D} {config : ReplayConfig D} {ledger : Ledger D}
    (opened : Ledger.construct (objectArg config.startingCash) (objectArg config.maxInventory)
      (objectArg config.maxFillQty) = .ok ledger) :
    Kept dca (Books.start ledger config .start) 0 := by
  simp only [Ledger.construct, Py.bind_eq_ok, Py.pure_eq_ok, Except.ok.injEq] at opened
  obtain ⟨_, _, _, _, _, _, rfl⟩ := opened
  have flat : Decimal.lt (Decimal.zero : D) Decimal.zero = false :=
    (OrderedDecimal.not_lt_iff _ _).mpr le_rfl
  refine ⟨⟨by simp [Books.start], by simp [Books.start], by simp [Books.start]⟩, ?_, fun _ => rfl,
    fun _ => rfl, ?_, ?_, Nat.zero_le _⟩
  · exact TrappingDecimal.value_zero.ge
  · intro holds
    simp [holding, Books.start, flat] at holds
  · intro holds
    simp [holding, Books.start, flat] at holds

/-- Where every candle is regular, the adds since the position was last flat stay within the budget,
and a position opens with the whole of it. -/
theorem comboStrategy_budgeted {grid : GridConfig D} {dca : DcaConfig D} {config : ReplayConfig D}
    {bars : List (Candle D)} {run : List (Reaction (DcaMemory D) D)}
    (ran : reactions bars (comboStrategy grid dca) .start config = .ok run)
    (regular : ∀ r ∈ run, r.Regular dca) :
    ∀ before r after, run = before ++ r :: after →
      spent (before ++ [r]) ≤ dca.maxAdds ∧ r.Budgeted dca (spent before) := by
  intro before r after split
  obtain ⟨ledger, opened, ran⟩ := Py.bind_eq_ok.mp ran
  have budgeted := (Kept.start opened).run ran regular split
  exact ⟨by rw [spent_concat]; exact budgeted.spent, budgeted⟩

end

def sampleGrid : GridConfig ℚ where
  lowerPrice := 100
  upperPrice := 200
  levels := 5
  quotePerOrder := 15
  takeProfitPct := 1 / 100
  lowerPrice_positive := by decide
  upperPrice_positive := by decide
  quotePerOrder_positive := by decide +kernel
  takeProfitPct_positive := by decide +kernel
  range := by decide +kernel
  levels_two := by decide

/-- A position entered, added to once and sold, and another one entered on the way down. -/
def twoPositions : List (Candle ℚ) := [
  ⟨txt "2026-01-01T00:00:00.000000Z", 155, 156, 154, 155, 1,
    by decide, by decide, by decide⟩,
  ⟨txt "2026-01-01T01:00:00.000000Z", 150, 151, 149, 150, 1,
    by decide, by decide, by decide⟩,
  ⟨txt "2026-01-01T02:00:00.000000Z", 140, 142, 139, 140, 1,
    by decide, by decide, by decide⟩,
  ⟨txt "2026-01-01T03:00:00.000000Z", 140, 142, 139, 140, 1,
    by decide, by decide, by decide⟩,
  ⟨txt "2026-01-01T04:00:00.000000Z", 155, 160, 150, 155, 1,
    by decide, by decide, by decide⟩,
  ⟨txt "2026-01-01T05:00:00.000000Z", 152, 153, 139, 140, 1,
    by decide, by decide, by decide⟩]

/-- The first of the two positions alone. -/
theorem comboStrategy_budgeted_sample : ∃ run,
    reactions (twoPositions.take 5) (comboStrategy sampleGrid sampleDca) .start sampleConfig = .ok run ∧
    (∀ r ∈ run, r.Regular sampleDca) ∧
    ∀ before r after, run = before ++ r :: after →
      spent (before ++ [r]) ≤ sampleDca.maxAdds ∧ r.Budgeted sampleDca (spent before) := by
  have checked : ((reactions (twoPositions.take 5) (comboStrategy sampleGrid sampleDca) .start
      sampleConfig).toOption.map fun run => decide (∀ r ∈ run, r.Regular sampleDca)) = some true := by
    decide +kernel
  cases ran : reactions (twoPositions.take 5) (comboStrategy sampleGrid sampleDca) .start sampleConfig with
  | error e =>
      rw [ran] at checked
      cases checked
  | ok run =>
      rw [ran] at checked
      have regular := of_decide_eq_true (Option.some.inj checked)
      exact ⟨run, rfl, regular, comboStrategy_budgeted ran regular⟩

/-- The second position opens with the add of the first one counted, and gets none, where a new
strategy adds at once. -/
theorem comboStrategy_carries_over : ∃ run,
    reactions twoPositions (comboStrategy sampleGrid sampleDca) .start sampleConfig = .ok run ∧
    ¬∀ before r after, run = before ++ r :: after →
      spent (before ++ [r]) ≤ sampleDca.maxAdds ∧ r.Budgeted sampleDca (spent before) := by
  have checked : ((reactions twoPositions (comboStrategy sampleGrid sampleDca) .start
      sampleConfig).toOption.bind fun run => run.getLast?.map fun r => (r.opens, r.adds,
        (sampleDca.onCandle .start r.candle r.decision.snapshot r.decision.shown.pending).toOption.map
          fun answer => answer.2.countP Intent.isAdd)) = some (true, 0, some 1) := by
    decide +kernel
  cases ran : reactions twoPositions (comboStrategy sampleGrid sampleDca) .start sampleConfig with
  | error e =>
      rw [ran] at checked
      cases checked
  | ok run =>
      refine ⟨run, rfl, fun budgeted => ?_⟩
      rw [ran] at checked
      obtain ⟨r, last, facts⟩ := Option.map_eq_some_iff.mp checked
      obtain ⟨before, split⟩ := List.getLast?_eq_some_iff.mp last
      obtain ⟨opens, rest⟩ := Prod.mk.inj facts
      obtain ⟨none, fresh⟩ := Prod.mk.inj rest
      obtain ⟨-, answered, -⟩ := (budgeted before r [] split).2.whole opens
      rw [answered] at fresh
      have one : r.adds = 1 := Option.some.inj fresh
      rw [none] at one
      cases one

end Senex.Research
