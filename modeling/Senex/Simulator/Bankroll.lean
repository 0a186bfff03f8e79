import Senex.Simulator.Accounts

/-! # The paper bankroll

The bankroll law of the simulator and the runs that keep it: those in which a
SHORT is only ever closed at its entry price.
-/

namespace Senex.Simulator

open ExecutionSimulator Text

def openFees (sim : ExecutionSimulator) : ℚ := (sim.openPositions.map Position.feesPaid).sum

/-- The fees of all entries and all exits. -/
def legFees (sim : ExecutionSimulator) : ℚ :=
  ((sim.openPositions ++ sim.closed).map (entryFee sim.toParameters)).sum +
    (sim.closed.map (exitFee sim.toParameters)).sum

/-- The symbols of the positions that are marked open, wherever they are kept. -/
def openSymbols (sim : ExecutionSimulator) : List Text :=
  ((sim.positions.values ++ sim.closed).filter fun p => p.status == .opened).map Position.symbol

/-- The bankroll law of a state, for any marks. -/
structure Reconciled (sim : ExecutionSimulator) : Prop where
  equity (lastPrices : Dict Text ℚ) : sim.equity lastPrices =
    sim.startingCash + sim.realizedPnl + sim.unrealizedPnl lastPrices - openFees sim
  fees : sim.feesCumulative = legFees sim
  single : (openSymbols sim).Nodup

/-- An execution that changes the simulator leaves cash that is not negative. -/
def Covered (sim : ExecutionSimulator) (call : Call) : Prop :=
  match call with
  | .execute .. => step sim call = sim ∨ 0 ≤ (step sim call).cash
  | _ => True

/-- Every state of the run obeys the bankroll law and every entry is covered. -/
structure Conserved (start : ExecutionSimulator) (calls : List Call) : Prop where
  reconciled : ∀ first rest, calls = first ++ rest → Reconciled (run step start first)
  covered : ∀ first call rest, calls = first ++ call :: rest → Covered (run step start first) call

/-- If the call closes a SHORT, then at the price at which it was entered. -/
def ShortsFlat (sim : ExecutionSimulator) (call : Call) : Prop :=
  match call with
  | .monitorExits tick random _ =>
      ∀ p reason, sim.exiting tick = some (p, reason) → p.side = .short →
        tick.price.getD 0 * (1 + uniform 0 sim.exitSlippageBps random / 10000) = p.entryPrice
  | _ => True

namespace Booked

variable {sim : ExecutionSimulator}

theorem single (booked : Booked sim) : (openSymbols sim).Nodup := by
  have done : sim.closed.filter (fun p => p.status == .opened) = [] := by
    apply List.filter_eq_nil_iff.mpr
    intro p member
    simp [booked.closed p member]
  have live : sim.positions.values.filter (fun p => p.status == .opened) = sim.positions.values :=
    booked.toKept.openPositions_eq
  rw [openSymbols, List.filter_append, done, live, List.append_nil, booked.toKept.symbols_eq]
  exact sim.positions.nodup

/-- The bankroll law holds exactly where nothing is misbooked. -/
theorem reconciled_iff (booked : Booked sim) :
    Reconciled sim ↔ total misbooked sim.closed = 0 := by
  have cash := booked.cash
  have opened := booked.toKept.openPositions_eq
  have law (lastPrices : Dict Text ℚ) : sim.equity lastPrices =
      sim.startingCash + sim.realizedPnl + sim.unrealizedPnl lastPrices - openFees sim +
        total misbooked sim.closed := by
    simp only [equity, grossExposure, openFees, opened, ExecutionSimulator.realizedPnl]
    have gross : (sim.positions.values.map fun p => p.qty * p.entryPrice).sum = grossOf sim := rfl
    rw [gross]
    simp only [total] at cash ⊢
    linarith
  constructor
  · intro reconciled
    have equity := reconciled.equity Dict.empty
    have shifted := law Dict.empty
    linarith
  · intro nothing
    refine ⟨fun lastPrices => ?_, ?_, booked.single⟩
    · rw [law, nothing, add_zero]
    · rw [booked.fees, legFees, opened]
      rfl

end Booked

/-! ## One call -/

theorem misbooked_eq_zero_iff {p : Position} (qty : p.qty ≠ 0) :
    misbooked p = 0 ↔ (p.side = .short → p.exitPrice = p.entryPrice) := by
  unfold misbooked
  cases p.side with
  | long => simp
  | short => simp [qty, sub_eq_zero]

theorem closed_execute (sim : ExecutionSimulator) (signal : Signal) (tick : Option MarketTick)
    (book : Option Orderbook) (latency : Int) (random : ℚ) (now orderId : Text) :
    (step sim (.execute signal tick book latency random now orderId)).closed = sim.closed := by
  rcases step_cases sim (.execute signal tick book latency random now orderId) with
    same | ⟨_, _, other, -⟩ | ⟨p, random, now, -, -, same⟩ | ⟨_, _, _, _, _, other, -⟩
  · rw [same]
  · cases other
  · rw [same]
    rfl
  · cases other

/-- A call leaves the misbooked sum as it is, unless it closes a SHORT away from its entry. -/
theorem misbooked_step {sim : ExecutionSimulator} (booked : Booked sim) (call : Call) :
    total misbooked (step sim call).closed = total misbooked sim.closed ↔ ShortsFlat sim call := by
  cases call with
  | execute signal tick book latency random now orderId => simp [closed_execute, ShortsFlat]
  | riskState lastPrices => simp [step, riskState, ShortsFlat]
  | monitorExits tick random orderId =>
      cases found : sim.exiting tick with
      | none => simp [step, monitorExits, found, ShortsFlat]
      | some exiting =>
          obtain ⟨p, reason⟩ := exiting
          have qty := (booked.held.get? (exiting_spec found)).qty_ne_zero
          have after : (step sim (.monitorExits tick random orderId)).closed = sim.closed ++
              [sim.closing p (sim.exitPrice p.side (tick.price.getD 0) random) tick.ts reason] := by
            simp [step, monitorExits, found, ExecutionSimulator.exit]
          have flat : misbooked (sim.closing p (sim.exitPrice p.side (tick.price.getD 0) random)
              tick.ts reason) = 0 ↔ _ := misbooked_eq_zero_iff qty
          rw [after, total_append, add_eq_left, total_cons, total_nil, add_zero, flat]
          simp only [closing, ShortsFlat, found, Option.some.injEq, Prod.mk.injEq]
          constructor
          · rintro flat _ _ ⟨rfl, rfl⟩ short
            simpa [exitPrice, short] using flat short
          · intro flat short
            simpa [exitPrice, short] using flat p reason ⟨rfl, rfl⟩ short

theorem covered (sim : ExecutionSimulator) (call : Call) : Covered sim call := by
  cases call with
  | execute signal tick book latency random now orderId =>
      rcases step_cases sim (.execute signal tick book latency random now orderId) with
        same | ⟨_, _, other, -⟩ | ⟨p, random, now, fills, -, same⟩ | ⟨_, _, _, _, _, other, -⟩
      · exact .inl same
      · cases other
      · exact .inr (by rw [same]; exact cash_enter_nonneg fills)
      · cases other
  | monitorExits | riskState => trivial

/-! ## Whole runs -/

/-- Every state of a run obeys the bankroll law, with every entry covered, just when the run
closes no SHORT away from the price of its entry. -/
theorem conserved_iff_shortsFlat (parameters : Parameters) (cash : ℚ) (calls : List Call) :
    Conserved (construct parameters cash) calls ↔
      Allowed step ShortsFlat (construct parameters cash) calls := by
  have booked := booked_run parameters cash
  constructor
  · intro conserved
    rw [allowed_iff_split]
    rintro first call rest rfl
    have before := (booked first).reconciled_iff.mp (conserved.reconciled first (call :: rest) rfl)
    have after := (booked (first ++ [call])).reconciled_iff.mp
      (conserved.reconciled (first ++ [call]) rest (by simp))
    apply (misbooked_step (booked first) call).mp
    rw [run_concat] at after
    rw [before, after]
  · intro flat
    have nothing (first : List Call)
        (allowed : Allowed step ShortsFlat (construct parameters cash) first) :
        total misbooked (run step (construct parameters cash) first).closed = 0 := by
      induction first using List.reverseRecOn with
      | nil =>
          unfold construct postInit
          split <;> rfl
      | append_singleton first call ih =>
          obtain ⟨before, ⟨last, -⟩⟩ := (allowed_append _ first [call]).mp allowed
          rw [run_concat, (misbooked_step (booked first) call).mpr last]
          exact ih before
    refine ⟨?_, fun first call rest _ => covered _ call⟩
    rintro first rest rfl
    exact (booked first).reconciled_iff.mpr (nothing first ((allowed_append _ first rest).mp flat).1)

/-- A SHORT of 1000 at 100 that the target closes at 94. -/
def shortAtTarget : List Call :=
  [.execute ⟨txt "BTCUSDT", txt "evt_1", none, some (txt "SHORT"), some 1000⟩
      (some ⟨txt "BTCUSDT", [], some 100⟩) none 50 0 [] (txt "ord_1"),
    .monitorExits ⟨txt "BTCUSDT", [], some 94⟩ 0 (txt "ord_2")]

theorem not_conserved_shortAtTarget : ¬ Conserved (construct {} 10000) shortAtTarget := by
  intro conserved
  have law := (conserved.reconciled shortAtTarget [] (List.append_nil _).symm).equity Dict.empty
  have off : ¬ (run step (construct {} 10000) shortAtTarget).equity Dict.empty =
      (run step (construct {} 10000) shortAtTarget).startingCash +
        (run step (construct {} 10000) shortAtTarget).realizedPnl +
        (run step (construct {} 10000) shortAtTarget).unrealizedPnl Dict.empty -
        openFees (run step (construct {} 10000) shortAtTarget) := by decide +kernel
  exact off law

end Senex.Simulator
