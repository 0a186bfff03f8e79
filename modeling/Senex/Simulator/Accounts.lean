import Senex.Foundation.Total
import Senex.Simulator.Execution

/-! # The books of the simulator

Each position keeps its entry notional and its fee; the sums over the open and
the closed ones are what cash and fees come to.  The exit of a SHORT credits
the notional of its exit where the bankroll law asks for the entry notional and
the gain, so each closed SHORT leaves its part in the sum of `misbooked`.
-/

namespace Senex.Simulator

open ExecutionSimulator

/-! ## Sums over positions -/

def Position.entryNotional (p : Position) : ℚ := p.qty * p.entryPrice

/-- The fee of the entry, by the rate that is charged on every leg. -/
def entryFee (parameters : Parameters) (p : Position) : ℚ :=
  |p.entryNotional| * parameters.takerFeeBps / 10000

def exitFee (parameters : Parameters) (p : Position) : ℚ :=
  |p.exitPrice * p.qty| * parameters.takerFeeBps / 10000

/-- What the exit of the position credits beyond its entry notional and gain. -/
def misbooked (p : Position) : ℚ :=
  match p.side with
  | .long => 0
  | .short => 2 * (p.exitPrice - p.entryPrice) * p.qty

/-! ## The entries of the dictionary -/

/-- What every entry under `positions` is like. -/
structure Held (parameters : Parameters) (key : Text) (p : Position) : Prop where
  symbol : p.symbol = key
  status : p.status = .opened
  feesPaid : p.feesPaid = entryFee parameters p
  entered : 1 ≤ p.entryNotional

namespace Held

variable {parameters : Parameters} {key : Text} {p : Position}

theorem qty_ne_zero (held : Held parameters key p) : p.qty ≠ 0 := by
  intro zero
  have entered := held.entered
  rw [Position.entryNotional, zero, zero_mul] at entered
  linarith

end Held

/-- The entries are as they are entered, and what is closed is marked so. -/
structure Kept (sim : ExecutionSimulator) : Prop where
  held : sim.positions.Every (Held sim.toParameters)
  closed : ∀ p ∈ sim.closed, p.status = .closed

namespace Kept

variable {sim : ExecutionSimulator}

theorem opened (kept : Kept sim) {p : Position} (member : p ∈ sim.positions.values) :
    p.status = .opened := by
  obtain ⟨key, held⟩ := kept.held.values member
  exact held.status

theorem openPositions_eq (kept : Kept sim) : sim.openPositions = sim.positions.values := by
  apply List.filter_eq_self.mpr
  intro p member
  simp [kept.opened member]

/-- The symbols under `positions` are its keys. -/
theorem symbols_eq (kept : Kept sim) :
    sim.positions.values.map Position.symbol = sim.positions.keys := by
  simp only [Dict.values, Dict.keys, List.map_map]
  apply List.map_congr_left
  intro entry member
  exact (kept.held entry member).symbol

theorem isOpen_eq (kept : Kept sim) (symbol : Text) :
    sim.isOpen symbol = (sim.positions.get? symbol).isSome := by
  unfold isOpen
  cases found : sim.positions.get? symbol with
  | none => rfl
  | some p => simp [(kept.held.get? found).status]

theorem construct (parameters : Parameters) (cash : ℚ) :
    Kept (ExecutionSimulator.construct parameters cash) := by
  unfold ExecutionSimulator.construct postInit
  split <;> exact ⟨Dict.every_empty _, by simp⟩

end Kept

/-! ## What an entry and an exit do -/

section
variable {sim : ExecutionSimulator} {p : Pending} {random : ℚ} {now : Text}

theorem entryNotional_entry (fills : sim.fills p random = true) :
    (sim.entry p random now).entryNotional = sim.fillNotional p := by
  simp only [ExecutionSimulator.fills, Bool.and_eq_true, bne_iff_ne] at fills
  exact div_mul_cancel₀ _ fills.2

theorem feesPaid_entry (fills : sim.fills p random = true) :
    (sim.entry p random now).feesPaid = entryFee sim.toParameters (sim.entry p random now) := by
  rw [entryFee, entryNotional_entry fills]
  rfl

theorem one_le_fillNotional (fills : sim.fills p random = true) : 1 ≤ sim.fillNotional p := by
  simp only [ExecutionSimulator.fills, affords, Bool.and_eq_true, decide_eq_true_eq] at fills
  exact fills.1.1

theorem cash_enter_nonneg (fills : sim.fills p random = true) : 0 ≤ (sim.enter p random now).cash := by
  simp only [ExecutionSimulator.fills, affords, Bool.and_eq_true, decide_eq_true_eq] at fills
  have covered := fills.1.2
  simp only [enter]
  linarith

theorem Held.entry (fills : sim.fills p random = true) :
    Held sim.toParameters p.signal.symbol (sim.entry p random now) where
  symbol := rfl
  status := rfl
  feesPaid := feesPaid_entry fills
  entered := by rw [entryNotional_entry fills]; exact one_le_fillNotional fills

theorem Kept.enter (kept : Kept sim) (fills : sim.fills p random = true) :
    Kept (sim.enter p random now) :=
  ⟨kept.held.set (Held.entry fills), kept.closed⟩

theorem Kept.exit (kept : Kept sim) (sym : Text) (q : Position) (exitPrice : ℚ) (ts : Text)
    (reason : ExitReason) : Kept (sim.exit sym q exitPrice ts reason) := by
  refine ⟨kept.held.erase, ?_⟩
  intro r member
  rcases List.mem_append.mp member with before | now
  · exact kept.closed r before
  · obtain rfl := List.mem_singleton.mp now
    rfl

/-- The position that a tick closes is the one under its symbol. -/
theorem exiting_spec {tick : MarketTick} {q : Position} {reason : ExitReason}
    (exiting : sim.exiting tick = some (q, reason)) : sim.positions.get? tick.symbol = some q := by
  unfold ExecutionSimulator.exiting at exiting
  split at exiting
  · cases exiting
  · rename_i found
    split at exiting
    · cases exiting
    · obtain ⟨_, -, same⟩ := Option.map_eq_some_iff.mp exiting
      rw [found, (Prod.mk.inj same).1]

end

/-! ## The books -/

def grossOf (sim : ExecutionSimulator) : ℚ := total Position.entryNotional sim.positions.values

/-- Cash with the entry notional of what is open, and the fees charged so far. -/
structure Booked (sim : ExecutionSimulator) : Prop extends Kept sim where
  cash : sim.cash + grossOf sim =
    sim.startingCash + total Position.realizedPnl sim.closed + total misbooked sim.closed -
      total Position.feesPaid sim.positions.values
  fees : sim.feesCumulative =
    total (entryFee sim.toParameters) (sim.positions.values ++ sim.closed) +
      total (exitFee sim.toParameters) sim.closed

namespace Booked

variable {sim : ExecutionSimulator}

theorem construct (parameters : Parameters) (cash : ℚ) :
    Booked (ExecutionSimulator.construct parameters cash) := by
  refine ⟨Kept.construct parameters cash, ?_, ?_⟩ <;>
    (unfold ExecutionSimulator.construct postInit; split <;> simp [grossOf])

/-- An entry under a symbol that holds no position. -/
theorem enter (booked : Booked sim) {p : Pending} {random : ℚ} {now : Text}
    (fills : sim.fills p random = true) (absent : sim.positions.get? p.signal.symbol = none) :
    Booked (sim.enter p random now) := by
  have values : (sim.enter p random now).positions.values =
      sim.positions.values ++ [sim.entry p random now] := Dict.values_set_absent absent
  have notional := @entryNotional_entry sim p random now fills
  have paid := @feesPaid_entry sim p random now fills
  have fee : (sim.entry p random now).feesPaid = sim.feeUsd (sim.fillNotional p) := rfl
  refine ⟨booked.toKept.enter fills, ?_, ?_⟩
  · have before := booked.cash
    simp only [grossOf, values, total_append, total_cons, total_nil, notional, fee] at before ⊢
    simp only [ExecutionSimulator.enter]
    linarith
  · have before := booked.fees
    rw [values]
    simp only [total_append, total_cons, total_nil, ExecutionSimulator.enter] at before ⊢
    linarith

theorem exit (booked : Booked sim) {sym : Text} {p : Position} {exitPrice : ℚ} {ts : Text}
    {reason : ExitReason} (held : sim.positions.get? sym = some p) :
    Booked (sim.exit sym p exitPrice ts reason) := by
  have perm := Dict.values_perm_erase held
  have paid := (booked.held.get? held).feesPaid
  have closed : (sim.exit sym p exitPrice ts reason).closed =
      sim.closed ++ [sim.closing p exitPrice ts reason] := rfl
  have realized : (sim.closing p exitPrice ts reason).realizedPnl =
      grossPnl p exitPrice - sim.feeUsd (exitPrice * p.qty) - p.feesPaid := rfl
  refine ⟨booked.toKept.exit sym p exitPrice ts reason, ?_, ?_⟩
  · have before := booked.cash
    simp only [grossOf, total_perm _ perm, total_cons] at before
    simp only [grossOf, closed, total_append, total_cons, total_nil, realized]
    simp only [ExecutionSimulator.exit, misbooked, closing, grossPnl, Position.entryNotional] at before ⊢
    cases p.side <;> simp only <;> linarith
  · have before := booked.fees
    simp only [total_append, total_perm _ perm, total_cons] at before
    rw [closed]
    simp only [total_append, total_cons, total_nil]
    simp only [ExecutionSimulator.exit, entryFee, exitFee, closing, feeUsd,
      Position.entryNotional] at before ⊢
    linarith

end Booked

/-! ## Calls one after the other -/

inductive Call where
  | execute (signal : Signal) (tick : Option MarketTick) (book : Option Orderbook) (latency : Int)
      (random : ℚ) (now orderId : Text)
  | monitorExits (tick : MarketTick) (random : ℚ) (orderId : Text)
  | riskState (lastPrices : Dict Text ℚ)

/-- The simulator after a call that has run to its end. -/
def step (sim : ExecutionSimulator) : Call → ExecutionSimulator
  | .execute signal tick book latency random now orderId =>
      match sim.executeChecks signal tick book latency orderId with
      | .answered _ => sim
      | .suspended p => sim.afterFill p random now orderId
  | .monitorExits tick random orderId => (sim.monitorExits tick random orderId).2
  | .riskState lastPrices => (sim.riskState lastPrices).2

/-- What the checks let through has no open position under its symbol. -/
theorem checks_spec {sim : ExecutionSimulator} {signal : Signal} {tick : Option MarketTick}
    {book : Option Orderbook} {latency : Int} {orderId : Text} {p : Pending}
    (suspended : sim.executeChecks signal tick book latency orderId = .suspended p) :
    sim.isOpen p.signal.symbol = false := by
  unfold executeChecks at suspended
  dsimp only at suspended
  split at suspended
  · cases suspended
  · split at suspended
    · cases suspended
    · split at suspended
      · cases suspended
      · split at suspended
        · cases suspended
        · split at suspended
          · cases suspended
          · rename_i free
            cases suspended
            simpa using free

/-- What a call does: nothing, a new peak, an entry or an exit. -/
theorem step_cases (sim : ExecutionSimulator) (call : Call) :
    step sim call = sim ∨
    (∃ lastPrices peak, call = .riskState lastPrices ∧
      step sim call = { sim with peakEquity := some peak }) ∨
    (∃ p random now, sim.fills p random = true ∧ sim.isOpen p.signal.symbol = false ∧
      step sim call = sim.enter p random now) ∨
    (∃ tick random orderId p reason, call = .monitorExits tick random orderId ∧
      sim.exiting tick = some (p, reason) ∧
      step sim call =
        sim.exit tick.symbol p (sim.exitPrice p.side (tick.price.getD 0) random) tick.ts reason) := by
  cases call with
  | execute signal tick book latency random now orderId =>
      cases checked : sim.executeChecks signal tick book latency orderId with
      | answered answer => exact .inl (by simp [step, checked])
      | suspended p =>
          have after : step sim (.execute signal tick book latency random now orderId) =
              if sim.fills p random then sim.enter p random now else sim := by
            simp only [step, checked, afterFill_eq]
          by_cases fills : sim.fills p random = true
          · refine .inr (.inr (.inl ⟨p, random, now, fills, checks_spec checked, ?_⟩))
            rw [after, if_pos fills]
          · exact .inl (by rw [after, if_neg fills])
  | monitorExits tick random orderId =>
      cases found : sim.exiting tick with
      | none => exact .inl (by simp [step, monitorExits, found])
      | some exiting =>
          refine .inr (.inr (.inr ⟨tick, random, orderId, exiting.1, exiting.2, rfl, found, ?_⟩))
          simp [step, monitorExits, found]
  | riskState lastPrices => exact .inr (.inl ⟨lastPrices, _, rfl, rfl⟩)

theorem Booked.step {sim : ExecutionSimulator} (booked : Booked sim) (call : Call) :
    Booked (step sim call) := by
  rcases step_cases sim call with same | ⟨_, peak, -, same⟩ | ⟨p, random, now, fills, free, same⟩ |
    ⟨tick, random, orderId, p, reason, -, exiting, same⟩
  · rw [same]
    exact booked
  · rw [same]
    exact ⟨⟨booked.held, booked.closed⟩, booked.cash, booked.fees⟩
  · rw [same]
    apply booked.enter fills
    simpa [booked.toKept.isOpen_eq] using free
  · rw [same]
    exact booked.exit (exiting_spec exiting)

/-- The books are kept in every state that calls lead to. -/
theorem booked_run (parameters : Parameters) (cash : ℚ) (calls : List Call) :
    Booked (run step (ExecutionSimulator.construct parameters cash) calls) :=
  run_invariant_of_step (fun _ call booked => booked.step call) (Booked.construct parameters cash) calls

end Senex.Simulator
