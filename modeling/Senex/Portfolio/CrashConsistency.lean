import Senex.Portfolio.Bootstrap
import Senex.Portfolio.ControlState
import Senex.Portfolio.Exposure
import Senex.Portfolio.KillSwitch

/-! # Crashes between the durable writes

A call appends to the journal and saves the control state at several points, and
a crash can come between any two of these writes.  What a restart then accepts
agrees with the journal: the snapshot's closed trades are a beginning of the
journal's, and the check of the identities only passes if they are all of them.
A position is saved when it is opened, before it has its stop and its target; a
crash behind that save restores it without them.
-/

namespace Senex.Portfolio

open Text PyFloat Engine

/-! ## The writes of a call -/

section
variable {F : Type} [PyFloat F]

inductive Write (F : Type) where
  /-- The journal's answer to an exit, with what the strict loader will raise at the row. -/
  | append (row : Trade F) (refusal : Option Raised)
  /-- `_persist_control_state` -/
  | save (c : Coordinator F)

namespace Coordinator

/-- The states that are saved while an approved proposal is placed: when the order is rejected or
has opened a position, when the position has its stop and target, and at the end. -/
def placeSaves (c : Coordinator F) (input : Ingest F) (p : TradeProposal F) (sizeScale : F) :
    List (Coordinator F) :=
  let (engine, order) := c.engine.submit (orderProposal p) sizeScale input.refPrice input.submit
  let placed := c.place input p sizeScale
  let opened := (c.engine.openPosition p.symbol).isNone && (engine.openPosition p.symbol).isSome
  let protects := lt (lit 0) order.filledQty && (engine.openPosition input.prediction.symbol).isSome
  (if order.status == .rejected || opened then [{ c with engine }] else []) ++
    (if protects then [placed] else []) ++ [placed]

/-- The states that `ingest_prediction` saves. -/
def ingestSaves (c : Coordinator F) (cfg : CoordinatorConfig F) (input : Ingest F) :
    List (Coordinator F) :=
  if input.usable then
    let c := c.observe cfg input
    match c.propose cfg input with
    | none => [c]
    | some p =>
        match c.kernel.evaluate cfg.risk input.now (riskProposal p) input.microstructure with
        | (_, .error _) => []
        | (kernel, .ok decision) =>
            if decision.approved then { c with kernel }.placeSaves input p decision.sizeScale
            else [{ c with kernel }]
  else []

/-- The writes of `on_tick`; a P&L that the kernel cannot record is not saved. -/
def tickWrites (c : Coordinator F) (cfg : CoordinatorConfig F) (input : Tick F)
    (refusal : Option Raised) : List (Write F) :=
  let (engine, closed) :=
    c.engine.checkExits input.symbol input.price input.ts c.kernel.killSwitchActive input.random
  match closed with
  | none => [.save (c.onTick cfg input)]
  | some pos =>
      let equity := engine.equity (c.lastPrices.set input.symbol input.price)
      .append (tradeOf pos) refusal ::
        match (c.kernel.recordPnl cfg.risk input.now pos.realizedPnl equity).2 with
        | .ok _ => [.save (c.onTick cfg input)]
        | .error _ => []

def writes (c : Coordinator F) (cfg : CoordinatorConfig F) (refusal : Option Raised) :
    CoordinatorCall F → List (Write F)
  | .ingest input => (c.ingestSaves cfg input).map .save
  | .tick input => c.tickWrites cfg input refusal

end Coordinator

/-! ## The files and the process -/

/-- The two files, from the first save of the control state on. -/
structure Disk (F : Type) where
  journal : TradeFile F
  state : ControlState F

namespace Disk

/-- `_persist_control_state` -/
def persist (d : Disk F) (c : Coordinator F) : Py (Disk F) := do
  c.controlState.assertJournalStateConsistency d.journal
  c.controlState.validate
  return { d with state := c.controlState }

/-- A write; a save that is refused leaves the file as it is. -/
def write (d : Disk F) : Write F → Disk F
  | .append row refusal => { d with journal := d.journal.append row refusal }
  | .save c =>
      match d.persist c with
      | .ok saved => saved
      | .error _ => d

/-- `_restore_or_initialize_control_state`, where there is a saved state. -/
def restart (d : Disk F) (cfg : CoordinatorConfig F) : Py (Coordinator F) := do
  d.state.validate
  d.state.assertJournalStateConsistency d.journal
  d.state.apply cfg

end Disk

/-- The files, and the coordinator in memory while the process is up. -/
structure Host (F : Type) where
  disk : Disk F
  memory : Option (Coordinator F)

inductive HostEvent (F : Type) where
  /-- A call that finishes, or that a crash ends behind some number of its writes. -/
  | call (call : CoordinatorCall F) (refusal : Option Raised) (crash : Option Nat)
  /-- `start`, with whatever ended the process before it. -/
  | restart

namespace Host

def step (cfg : CoordinatorConfig F) (h : Host F) : HostEvent F → Host F
  | .call call refusal crash =>
      match h.memory with
      | none => h
      | some c =>
          match crash with
          | none => ⟨(c.writes cfg refusal call).foldl Disk.write h.disk, some (c.step cfg call)⟩
          | some writes => ⟨((c.writes cfg refusal call).take writes).foldl Disk.write h.disk, none⟩
  | .restart =>
      match h.disk.restart cfg with
      | .ok c => ⟨h.disk.write (.save c), some c⟩
      | .error _ => { h with memory := none }

end Host

/-! ## The first start -/

/-- The row of a journal that a migration starts from. -/
def tradeOfRow (r : ClosedRow) : Trade F :=
  ⟨r.text "trade_id", r.text "symbol", upper (r.text "direction"), ofDouble (r.number "realized_pnl_usd")⟩

/-- The control state that the first start saves: a fresh one, or the migration of a journal. -/
def openingState (cfg : CoordinatorConfig F) (now : Civil) (rows : List ClosedRow) :
    Py (ControlState F) :=
  if rows = [] then .ok (Coordinator.start cfg now).controlState
  else do
    let b ← bootstrapFromClosedJournal cfg.risk cfg.engine.startingCash now rows
    return {
      cash := b.cash
      startingCash := b.startingCash
      totalOrders := b.totalOrders
      closedPositionCountOffset := b.closedPositionCountOffset
      historicalClosedTradeIds := b.historicalClosedTradeIds
      openPositions := []
      closedPositions := []
      riskState := b.riskState
      lastPrices := b.lastPrices }

/-- The files behind the first save. -/
def Host.opening (cfg : CoordinatorConfig F) (now : Civil) (rows : List ClosedRow) : Py (Host F) := do
  let state ← openingState cfg now rows
  let journal : TradeFile F := ⟨rows.map tradeOfRow, none⟩
  state.assertJournalStateConsistency journal
  state.validate
  return ⟨⟨journal, state⟩, none⟩

end

/-! ## What a restart is to bring back -/

def RiskCall.pnl? {F : Type} : RiskCall F → Option F
  | .recordPnl _ pnlUsd _ => some pnlUsd
  | _ => none

/-- The kernel behind calls that record just those P&Ls, each once and in that order. -/
def Heard (cfg : RiskConfig ℚ) (opening : KernelState ℚ) (pnls : List ℚ) (k : KernelState ℚ) : Prop :=
  ∃ calls, k = run (KernelState.after cfg) opening calls ∧ calls.filterMap RiskCall.pnl? = pnls

/-- Every position has a stop and a target. -/
def Guarded (e : Engine ℚ) : Prop := ∀ pos ∈ e.positions.values, 0 < pos.stopPrice ∧ 0 < pos.targetPrice

/-- The journal and a restored coordinator: the closed trades are the journal's, and each is
once in the cash and once in the kernel, behind the rows that the opening state was made of. -/
structure Reconciled (cfg : CoordinatorConfig ℚ) (opening : ControlState ℚ) (rows : List ClosedRow)
    (journal : TradeFile ℚ) (c : Coordinator ℚ) : Prop where
  trades : journal.rows = rows.map tradeOfRow ++ c.engine.closedPositions.map tradeOf
  historical : c.engine.historicalClosedTradeIds = rows.map fun r => r.text "trade_id"
  cash : c.engine.cash + total (fun p => signedValue p p.avgEntryPrice + p.feesPaid) c.engine.positions.values =
    c.engine.startingCash + total Trade.realizedPnlUsd journal.rows
  risk : Heard cfg.risk opening.riskState (c.engine.closedPositions.map Position.realizedPnl) c.kernel

/-- If the restart succeeds, what it restores is reconciled and guarded. -/
def CrashConsistent (cfg : CoordinatorConfig ℚ) (opening : ControlState ℚ) (rows : List ClosedRow)
    (h : Host ℚ) : Prop :=
  ∀ c, h.disk.restart cfg = .ok c →
    Reconciled cfg opening rows h.disk.journal c ∧
    ∀ pos ∈ openPositions c.engine, 0 < pos.stopPrice ∧ 0 < pos.targetPrice

/-- The proposal whose order a prediction gets filled. -/
def Coordinator.opens (c : Coordinator ℚ) (cfg : CoordinatorConfig ℚ) (input : Ingest ℚ) :
    Option (TradeProposal ℚ) :=
  match c.proposed cfg input with
  | none => none
  | some p =>
      match (c.observe cfg input).kernel.evaluate cfg.risk input.now (riskProposal p) input.microstructure with
      | (_, .error _) => none
      | (_, .ok decision) =>
          let order := (c.engine.submit (orderProposal p) decision.sizeScale input.refPrice input.submit).2
          if decision.approved && lt 0 order.filledQty then some p else none

/-- No crash comes between the save of an opened position and the save of its stop and target, and
these are positive. -/
def Unbroken (cfg : CoordinatorConfig ℚ) (h : Host ℚ) : HostEvent ℚ → Prop
  | .call (.ingest input) _ crash =>
      (h.memory.all fun c => (c.opens cfg input).all fun p =>
        crash == some 0 || (crash != some 1 && decide (0 < p.stopPrice) && decide (0 < p.targetPrice))) = true
  | _ => True

/-! ## Orders -/

/-- What an order leaves of the engine. -/
structure Submitted (e : Engine ℚ) (symbol : Text) (result : Engine ℚ × Order ℚ) : Prop where
  frame : result.1 = { e with orders := e.orders + 1, cash := result.1.cash, positions := result.1.positions }
  unfilled : ¬0 < result.2.filledQty → result.1.positions = e.positions
  filled : e.positions.get? symbol = none → 0 < result.2.filledQty →
    ∃ pos : Position ℚ, pos.status = .opened ∧ result.1.positions = e.positions.set symbol pos

namespace Submitted

variable {e : Engine ℚ} {symbol : Text}

theorem openOrAddPosition (cash : ℚ) {o : Order ℚ} (same : o.symbol = symbol) (positionId now : Text) :
    Submitted e symbol
      ({ e with orders := e.orders + 1, cash := cash }.openOrAddPosition o positionId now, o) := by
  subst same
  unfold Engine.openOrAddPosition
  split
  · rename_i none
    simp only [le_rat, lit_rat, decide_eq_true_eq] at none
    exact ⟨rfl, fun _ => rfl, fun _ filled => absurd filled (not_lt.mpr none)⟩
  · rename_i some
    simp only [le_rat, lit_rat, decide_eq_true_eq, not_le] at some
    split
    · rename_i held
      refine ⟨rfl, fun _ => rfl, fun vacant => ?_⟩
      simp [Engine.openPosition, vacant] at held
    · exact ⟨rfl, fun unfilled => absurd some unfilled, fun _ _ => ⟨_, rfl, rfl⟩⟩

/-- An order that is not filled opens nothing. -/
theorem unopened (cash : ℚ) {o : Order ℚ} (none : ¬0 < o.filledQty) :
    Submitted e symbol ({ e with orders := e.orders + 1, cash := cash }, o) :=
  ⟨rfl, fun _ => rfl, fun _ filled => absurd filled none⟩

theorem tryFill {o : Order ℚ} (new : o.filledQty = 0) (same : o.symbol = symbol) (lastPrice : ℚ)
    (bookDepthUsd : Option ℚ) (draws : Nat → FillDraw ℚ) (positionId now : Text) :
    Submitted e symbol
      ({ e with orders := e.orders + 1 }.tryFill o lastPrice bookDepthUsd draws positionId now) := by
  have result := @attempted e.cfg lastPrice bookDepthUsd draws (e.cfg.maxRetries + 1) 0 o e.cash
    (le_of_eq new.symm) (by simp [new])
  unfold Engine.tryFill
  dsimp only
  generalize attempts e.cfg lastPrice bookDepthUsd draws (e.cfg.maxRetries + 1) 0 o e.cash = out at result
  obtain ⟨o', cash, filled⟩ := out
  have symbol' : o'.symbol = symbol := result.same.1.trans same
  dsimp only
  split
  · exact openOrAddPosition cash symbol' positionId now
  · rename_i notDone
    rw [Bool.not_eq_true] at notDone
    split
    · split
      · exact @openOrAddPosition _ _ cash { o' with status := .canceled } symbol' positionId now
      · rename_i unfilled
        exact unopened cash (by simpa using unfilled)
    · rename_i none
      apply unopened cash
      intro positive
      simp only [lt_rat, lit_rat, decide_eq_true_eq] at none
      exact none (result.residual notDone positive)

theorem tryFillHighFidelity {o : Order ℚ} (new : o.filledQty = 0) (same : o.symbol = symbol)
    (lastPrice : ℚ) (estimate : FillEstimate ℚ) (positionId now : Text) :
    Submitted e symbol
      ({ e with orders := e.orders + 1 }.tryFillHighFidelity o lastPrice estimate positionId now) := by
  unfold Engine.tryFillHighFidelity
  split
  · exact unopened e.cash (by simp [new])
  · split
    · exact unopened e.cash (by simp [new])
    · dsimp only
      split
      · apply openOrAddPosition
        exact same
      · split
        · apply openOrAddPosition
          exact same
        · rename_i unfilled
          exact unopened _ (by simpa using unfilled)

theorem submit (e : Engine ℚ) (p : OrderProposal ℚ) (sizeScale lastPrice : ℚ) (inputs : SubmitInputs ℚ) :
    Submitted e p.symbol (e.submit p sizeScale lastPrice inputs) := by
  unfold Engine.submit
  dsimp only
  split
  · exact unopened e.cash (by simp [rejectedOrder])
  · split
    · apply tryFillHighFidelity <;> rfl
    · apply tryFill <;> rfl

end Submitted

/-! ## The cash law from another base -/

/-- The engine with another starting cash, which no operation reads. -/
def rebased (base : ℚ) (e : Engine ℚ) : Engine ℚ := { e with startingCash := base }

section
variable (base : ℚ) (e : Engine ℚ)

@[simp] theorem openPosition_rebased (symbol : Text) :
    (rebased base e).openPosition symbol = e.openPosition symbol := rfl

theorem openOrAddPosition_rebased (o : Order ℚ) (positionId now : Text) :
    (rebased base e).openOrAddPosition o positionId now =
      rebased base (e.openOrAddPosition o positionId now) := by
  unfold Engine.openOrAddPosition
  rw [apply_ite (rebased base), apply_ite (rebased base)]
  rfl

theorem tryFill_rebased (o : Order ℚ) (lastPrice : ℚ) (bookDepthUsd : Option ℚ)
    (draws : Nat → FillDraw ℚ) (positionId now : Text) :
    ((rebased base e).tryFill o lastPrice bookDepthUsd draws positionId now).1 =
      rebased base (e.tryFill o lastPrice bookDepthUsd draws positionId now).1 := by
  unfold Engine.tryFill
  rcases out : attempts e.cfg lastPrice bookDepthUsd draws (e.cfg.maxRetries + 1) 0 o e.cash with
    ⟨o', cash, filled⟩
  have same : attempts (rebased base e).cfg lastPrice bookDepthUsd draws
      ((rebased base e).cfg.maxRetries + 1) 0 o (rebased base e).cash = (o', cash, filled) := out
  simp only [same]
  split
  · exact openOrAddPosition_rebased base { e with cash := cash } _ _ _
  · split
    · dsimp only
      split
      · exact openOrAddPosition_rebased base { e with cash := cash } _ _ _
      · rfl
    · rfl

theorem tryFillHighFidelity_rebased (o : Order ℚ) (lastPrice : ℚ) (estimate : FillEstimate ℚ)
    (positionId now : Text) :
    ((rebased base e).tryFillHighFidelity o lastPrice estimate positionId now).1 =
      rebased base (e.tryFillHighFidelity o lastPrice estimate positionId now).1 := by
  have opens (o' : Order ℚ) :=
    openOrAddPosition_rebased base { e with cash := e.cash - estimate.expectedFeeUsd } o' positionId now
  unfold Engine.tryFillHighFidelity
  split
  · rfl
  · split
    · rfl
    · dsimp only
      split
      · exact opens _
      · dsimp only
        split
        · exact opens _
        · rfl

theorem submit_rebased (p : OrderProposal ℚ) (sizeScale lastPrice : ℚ) (inputs : SubmitInputs ℚ) :
    ((rebased base e).submit p sizeScale lastPrice inputs).1 =
      rebased base (e.submit p sizeScale lastPrice inputs).1 := by
  unfold Engine.submit
  dsimp only
  split
  · rfl
  · split
    · exact tryFillHighFidelity_rebased base { e with orders := e.orders + 1 } _ _ _ _ _
    · exact tryFill_rebased base { e with orders := e.orders + 1 } _ _ _ _ _ _

theorem setStopTarget_rebased (symbol : Text) (stopPrice targetPrice : ℚ) :
    (rebased base e).setStopTarget symbol stopPrice targetPrice =
      rebased base (e.setStopTarget symbol stopPrice targetPrice) := by
  unfold Engine.setStopTarget
  rw [openPosition_rebased]
  split <;> rfl

theorem checkExits_rebased (symbol : Text) (tickPrice : ℚ) (tickTs : Text) (killSwitchActive : Bool)
    (random : ℚ) :
    ((rebased base e).checkExits symbol tickPrice tickTs killSwitchActive random).1 =
      rebased base (e.checkExits symbol tickPrice tickTs killSwitchActive random).1 := by
  unfold Engine.checkExits
  rw [openPosition_rebased]
  split
  · rfl
  · dsimp only
    split <;> rfl

end

/-! ## The books of a coordinator -/

namespace Heard

variable {cfg : RiskConfig ℚ} {opening k : KernelState ℚ} {pnls : List ℚ}

theorem start : Heard cfg opening [] opening := ⟨[], rfl, rfl⟩

theorem after (heard : Heard cfg opening pnls k) (call : RiskCall ℚ) :
    Heard cfg opening (pnls ++ call.pnl?.toList) (k.after cfg call) := by
  obtain ⟨calls, rfl, rfl⟩ := heard
  refine ⟨calls ++ [call], by rw [run_concat], ?_⟩
  rw [List.filterMap_append]
  cases call <;> rfl

end Heard

/-- The books since an opening state. -/
structure Sound (cfg : CoordinatorConfig ℚ) (opening : ControlState ℚ) (c : Coordinator ℚ) : Prop where
  carried : Carried c.engine
  balanced : Balanced (rebased opening.cash c.engine)
  startingCash : c.engine.startingCash = opening.startingCash
  historical : c.engine.historicalClosedTradeIds = opening.historicalClosedTradeIds
  heard : Heard cfg.risk opening.riskState (c.engine.closedPositions.map Position.realizedPnl) c.kernel

namespace Sound

variable {cfg : CoordinatorConfig ℚ} {opening : ControlState ℚ} {c : Coordinator ℚ}

/-- A call of the kernel that records no P&L. -/
theorem hear (sound : Sound cfg opening c) (call : RiskCall ℚ) (quiet : call.pnl? = none) :
    Sound cfg opening { c with kernel := c.kernel.after cfg.risk call } := by
  refine ⟨sound.carried, sound.balanced, sound.startingCash, sound.historical, ?_⟩
  have heard := sound.heard.after call
  rw [quiet, Option.toList_none, List.append_nil] at heard
  exact heard

theorem observe (sound : Sound cfg opening c) (input : Ingest ℚ) : Sound cfg opening (c.observe cfg input) := by
  have priced : Sound cfg opening
      { c with lastPrices := c.lastPrices.set input.prediction.symbol input.refPrice } :=
    ⟨sound.carried, sound.balanced, sound.startingCash, sound.historical, sound.heard⟩
  unfold Coordinator.observe
  cases input.volPct with
  | none => exact priced
  | some volPct => exact priced.hear (.updateVolRegime volPct) rfl

theorem submit (sound : Sound cfg opening c) {p : OrderProposal ℚ}
    (vacant : c.engine.positions.get? p.symbol = none) (size : 0 < p.sizeQty) (risk : 0 ≤ p.riskUsd)
    (sizeScale lastPrice : ℚ) (inputs : SubmitInputs ℚ) :
    Sound cfg opening { c with engine := (c.engine.submit p sizeScale lastPrice inputs).1 } := by
  have frame := (Submitted.submit c.engine p sizeScale lastPrice inputs).frame
  refine ⟨sound.carried.submit size risk _ _ _, ?_, ?_, ?_, ?_⟩
  · rw [← submit_rebased]
    exact sound.balanced.submit p sizeScale lastPrice inputs vacant
  · rw [frame]
    exact sound.startingCash
  · rw [frame]
    exact sound.historical
  · rw [frame]
    exact sound.heard

theorem setStopTarget (sound : Sound cfg opening c) (symbol : Text) (stopPrice targetPrice : ℚ) :
    Sound cfg opening { c with engine := c.engine.setStopTarget symbol stopPrice targetPrice } := by
  refine ⟨sound.carried.setStopTarget _ _ _, ?_, ?_, ?_, ?_⟩
  · rw [← setStopTarget_rebased]
    exact sound.balanced.setStopTarget symbol stopPrice targetPrice
  all_goals
    unfold Engine.setStopTarget
    split
  · exact sound.startingCash
  · exact sound.startingCash
  · exact sound.historical
  · exact sound.historical
  · exact sound.heard
  · exact sound.heard

end Sound

/-- A tick closes one position or none, and leaves the books of the others. -/
theorem checkExits_books (e : Engine ℚ) (symbol : Text) (tickPrice : ℚ) (tickTs : Text)
    (killSwitchActive : Bool) (random : ℚ) :
    (e.checkExits symbol tickPrice tickTs killSwitchActive random).1.startingCash = e.startingCash ∧
    (e.checkExits symbol tickPrice tickTs killSwitchActive random).1.historicalClosedTradeIds =
      e.historicalClosedTradeIds ∧
    (e.checkExits symbol tickPrice tickTs killSwitchActive random).1.closedPositions =
      e.closedPositions ++ (e.checkExits symbol tickPrice tickTs killSwitchActive random).2.toList := by
  unfold Engine.checkExits
  split
  · simp
  · dsimp only
    split
    · simp
    · simp

theorem Sound.onTick {cfg : CoordinatorConfig ℚ} {opening : ControlState ℚ} {c : Coordinator ℚ}
    (sound : Sound cfg opening c) (input : Tick ℚ) : Sound cfg opening (c.onTick cfg input) := by
  obtain ⟨startingCash, historical, closed⟩ := checkExits_books c.engine input.symbol input.price
    input.ts c.kernel.killSwitchActive input.random
  have carried := sound.carried.checkExits input.symbol input.price input.ts c.kernel.killSwitchActive input.random
  have balanced := sound.balanced.checkExits input.symbol input.price input.ts c.kernel.killSwitchActive
    input.random
  rw [checkExits_rebased] at balanced
  unfold Coordinator.onTick
  generalize c.engine.checkExits input.symbol input.price input.ts c.kernel.killSwitchActive
    input.random = result at *
  obtain ⟨engine, exit⟩ := result
  refine ⟨carried, balanced, startingCash.trans sound.startingCash, historical.trans sound.historical, ?_⟩
  dsimp only at closed ⊢
  rw [closed, List.map_append]
  cases exit with
  | none =>
      rw [Option.toList_none, List.map_nil, List.append_nil]
      exact sound.heard
  | some pos => exact sound.heard.after (.recordPnl input.now pos.realizedPnl _)

/-! ## A prediction -/

/-- The states of a prediction are sound and have the closed trades that were there before. -/
structure Follows (cfg : CoordinatorConfig ℚ) (opening : ControlState ℚ) (c next : Coordinator ℚ) :
    Prop where
  sound : Sound cfg opening next
  closed : next.engine.closedPositions = c.engine.closedPositions

section
variable {cfg : CoordinatorConfig ℚ} {opening : ControlState ℚ} {c : Coordinator ℚ} {input : Ingest ℚ}
  {p : TradeProposal ℚ}

theorem closedPositions_setStopTarget (e : Engine ℚ) (symbol : Text) (stopPrice targetPrice : ℚ) :
    (e.setStopTarget symbol stopPrice targetPrice).closedPositions = e.closedPositions := by
  unfold Engine.setStopTarget
  split <;> rfl

theorem vacant_of_built (carried : Carried c.engine) (built : c.propose cfg input = some p) :
    p.symbol = input.prediction.symbol ∧ 0 < p.sizeQty ∧ 0 ≤ p.riskUsd ∧
      c.engine.positions.get? p.symbol = none := by
  have checked := buildProposal_built built
  rw [portfolioState_eq carried] at checked
  refine ⟨checked.symbol, checked.positive.1, checked.positive.2.le, ?_⟩
  apply Dict.lookup_eq_none.mpr
  rw [checked.symbol]
  intro member
  obtain ⟨entry, there, same⟩ := List.mem_map.mp member
  exact checked.vacant entry there same

/-- What placing an order saves and leaves. -/
theorem place_follows (sound : Sound cfg opening c) (size : 0 < p.sizeQty) (risk : 0 ≤ p.riskUsd)
    (vacant : c.engine.positions.get? p.symbol = none) (sizeScale : ℚ) :
    Follows cfg opening c (c.place input p sizeScale) ∧
    ∀ saved ∈ c.placeSaves input p sizeScale, Follows cfg opening c saved := by
  have submitted := @Sound.submit _ _ _ sound (Coordinator.orderProposal p) vacant size risk sizeScale
    input.refPrice input.submit
  have frame := (Submitted.submit c.engine (Coordinator.orderProposal p) sizeScale input.refPrice
    input.submit).frame
  have closed : (c.engine.submit (Coordinator.orderProposal p) sizeScale input.refPrice
      input.submit).1.closedPositions = c.engine.closedPositions := by rw [frame]
  have placed : Follows cfg opening c (c.place input p sizeScale) := by
    unfold Coordinator.place
    dsimp only
    split
    · exact ⟨submitted.setStopTarget _ _ _, (closedPositions_setStopTarget _ _ _ _).trans closed⟩
    · exact ⟨submitted, closed⟩
  refine ⟨placed, fun saved member => ?_⟩
  simp only [Coordinator.placeSaves, List.mem_append, List.mem_singleton] at member
  rcases member with (first | second) | rfl
  · split at first
    · obtain rfl := List.mem_singleton.mp first
      exact ⟨submitted, closed⟩
    · cases first
  · split at second
    · obtain rfl := List.mem_singleton.mp second
      exact placed
    · cases second
  · exact placed

/-- What a prediction saves and leaves. -/
theorem ingest_follows (sound : Sound cfg opening c) :
    Follows cfg opening c (c.ingest cfg input) ∧
    ∀ saved ∈ c.ingestSaves cfg input, Follows cfg opening c saved := by
  unfold Coordinator.ingest Coordinator.ingestSaves
  split
  · have observed := sound.observe input
    have closed : (c.observe cfg input).engine.closedPositions = c.engine.closedPositions := rfl
    generalize c.observe cfg input = o at observed closed
    dsimp only
    cases built : o.propose cfg input with
    | none => exact ⟨⟨observed, closed⟩, by simpa using ⟨observed, closed⟩⟩
    | some p =>
        obtain ⟨-, size, risk, vacant⟩ := vacant_of_built observed.carried built
        have heard := observed.hear (.evaluate input.now (Coordinator.riskProposal p) input.microstructure) rfl
        simp only [KernelState.after] at heard
        dsimp only
        unfold Coordinator.decide
        generalize o.kernel.evaluate cfg.risk input.now (Coordinator.riskProposal p)
          input.microstructure = answer at heard
        obtain ⟨kernel, result⟩ := answer
        cases result with
        | error e => exact ⟨⟨heard, closed⟩, by simp⟩
        | ok decision =>
            dsimp only
            split
            · have result := @place_follows _ _ _ input p heard size risk vacant decision.sizeScale
              refine ⟨⟨result.1.sound, result.1.closed.trans closed⟩, fun saved member => ?_⟩
              exact ⟨(result.2 saved member).sound, (result.2 saved member).closed.trans closed⟩
            · exact ⟨⟨heard, closed⟩, by simpa using ⟨heard, closed⟩⟩
  · exact ⟨⟨sound, rfl⟩, by simp⟩

end

/-! ## The files -/

section
variable {cfg : CoordinatorConfig ℚ} {opening : ControlState ℚ} {rows : List ClosedRow} {d : Disk ℚ}
  {c : Coordinator ℚ}

/-- The trades that a journal has behind the closed positions of a coordinator. -/
def tradesOf (rows : List ClosedRow) (c : Coordinator ℚ) : List (Trade ℚ) :=
  rows.map tradeOfRow ++ c.engine.closedPositions.map tradeOf

/-- The saved state is one of a sound coordinator, with whose trades the journal begins. -/
def Stored (cfg : CoordinatorConfig ℚ) (opening : ControlState ℚ) (rows : List ClosedRow) (d : Disk ℚ) : Prop :=
  ∃ c, Sound cfg opening c ∧ d.state = c.controlState ∧ tradesOf rows c <+: d.journal.rows

theorem journal_save (d : Disk ℚ) (c : Coordinator ℚ) : (d.write (.save c)).journal = d.journal := by
  simp only [Disk.write]
  split
  · rename_i saved persisted
    unfold Disk.persist at persisted
    obtain ⟨_, _, rest⟩ := Py.bind_eq_ok.mp persisted
    obtain ⟨_, _, same⟩ := Py.bind_eq_ok.mp rest
    rw [← Except.ok.inj same]
  · rfl

/-- A save leaves the state that was there or is the state that is saved. -/
theorem state_save (d : Disk ℚ) (c : Coordinator ℚ) :
    (d.write (.save c)).state = d.state ∨ (d.write (.save c)).state = c.controlState := by
  simp only [Disk.write]
  split
  · rename_i saved persisted
    unfold Disk.persist at persisted
    obtain ⟨_, _, rest⟩ := Py.bind_eq_ok.mp persisted
    obtain ⟨_, _, same⟩ := Py.bind_eq_ok.mp rest
    rw [← Except.ok.inj same]
    exact .inr rfl
  · exact .inl rfl

namespace Stored

theorem save (stored : Stored cfg opening rows d) (sound : Sound cfg opening c)
    (trades : tradesOf rows c = d.journal.rows) : Stored cfg opening rows (d.write (.save c)) := by
  rcases state_save d c with kept | saved
  · obtain ⟨old, sound', state, front⟩ := stored
    exact ⟨old, sound', kept.trans state, by rw [journal_save]; exact front⟩
  · exact ⟨c, sound, saved, by rw [journal_save, trades]⟩

theorem append (stored : Stored cfg opening rows d) (row : Trade ℚ) (refusal : Option Raised) :
    Stored cfg opening rows (d.write (.append row refusal)) := by
  obtain ⟨old, sound, state, front⟩ := stored
  exact ⟨old, sound, state, front.trans (List.prefix_append _ _)⟩

theorem saves (stored : Stored cfg opening rows d) {states : List (Coordinator ℚ)}
    (each : ∀ saved ∈ states, Sound cfg opening saved ∧ tradesOf rows saved = d.journal.rows) :
    Stored cfg opening rows ((states.map Write.save).foldl Disk.write d) ∧
      ((states.map Write.save).foldl Disk.write d).journal = d.journal := by
  induction states generalizing d with
  | nil => exact ⟨stored, rfl⟩
  | cons c states ih =>
      obtain ⟨sound, trades⟩ := each c List.mem_cons_self
      rw [List.map_cons, List.foldl_cons]
      have rest := ih (stored.save sound trades) fun saved member => by
        rw [journal_save]
        exact each saved (List.mem_cons_of_mem _ member)
      rw [journal_save] at rest
      exact rest

end Stored

/-- What the writes of a call leave, also where a crash ends them. -/
structure Written (cfg : CoordinatorConfig ℚ) (opening : ControlState ℚ) (rows : List ClosedRow)
    (d : Disk ℚ) (writes : List (Write ℚ)) (next : Coordinator ℚ) : Prop where
  stored (count : Nat) : Stored cfg opening rows ((writes.take count).foldl Disk.write d)
  sound : Sound cfg opening next
  trades : tradesOf rows next = (writes.foldl Disk.write d).journal.rows

theorem tick_written (stored : Stored cfg opening rows d) (sound : Sound cfg opening c)
    (trades : tradesOf rows c = d.journal.rows) (input : Tick ℚ) (refusal : Option Raised) :
    Written cfg opening rows d (c.tickWrites cfg input refusal) (c.onTick cfg input) := by
  have after := sound.onTick input
  obtain ⟨-, -, closed⟩ := checkExits_books c.engine input.symbol input.price input.ts
    c.kernel.killSwitchActive input.random
  have books : (c.onTick cfg input).engine.closedPositions = c.engine.closedPositions ++
      (c.engine.checkExits input.symbol input.price input.ts c.kernel.killSwitchActive
        input.random).2.toList := closed
  unfold Coordinator.tickWrites
  generalize c.engine.checkExits input.symbol input.price input.ts c.kernel.killSwitchActive
    input.random = result at books
  obtain ⟨engine, exit⟩ := result
  cases exit with
  | none =>
      dsimp only at books ⊢
      rw [Option.toList_none, List.append_nil] at books
      have same : tradesOf rows (c.onTick cfg input) = d.journal.rows := by
        rw [← trades, tradesOf, tradesOf, books]
      refine ⟨fun count => ?_, after, ?_⟩
      · cases count with
        | zero => exact stored
        | succ count =>
            rw [List.take_succ_cons, List.take_nil]
            exact stored.save after same
      · exact same.trans (congrArg TradeFile.rows (journal_save _ _)).symm
  | some pos =>
      dsimp only at books ⊢
      rw [Option.toList_some] at books
      have appended := stored.append (tradeOf pos) refusal
      have same : tradesOf rows (c.onTick cfg input) =
          (d.write (.append (tradeOf pos) refusal)).journal.rows := by
        rw [tradesOf, books, List.map_append, ← List.append_assoc]
        exact congrArg (· ++ [tradeOf pos]) trades
      generalize (c.kernel.recordPnl _ _ _ _).2 = recorded
      cases recorded with
      | error e =>
          refine ⟨fun count => ?_, after, same⟩
          cases count with
          | zero => exact stored
          | succ count =>
              rw [List.take_succ_cons, List.take_nil]
              exact appended
      | ok done =>
          refine ⟨fun count => ?_, after, ?_⟩
          · match count with
            | 0 => exact stored
            | 1 => exact appended
            | count + 2 =>
                rw [List.take_succ_cons, List.take_succ_cons, List.take_nil]
                exact appended.save after same
          · exact same.trans (congrArg TradeFile.rows (journal_save _ _)).symm

theorem ingest_written (stored : Stored cfg opening rows d) (sound : Sound cfg opening c)
    (trades : tradesOf rows c = d.journal.rows) (input : Ingest ℚ) :
    Written cfg opening rows d ((c.ingestSaves cfg input).map .save) (c.ingest cfg input) := by
  have follows := @ingest_follows _ _ _ input sound
  have same {next : Coordinator ℚ} (next_follows : Follows cfg opening c next) :
      tradesOf rows next = d.journal.rows := by
    rw [← trades, tradesOf, tradesOf, next_follows.closed]
  have each : ∀ saved ∈ c.ingestSaves cfg input,
      Sound cfg opening saved ∧ tradesOf rows saved = d.journal.rows := fun saved member =>
    ⟨(follows.2 saved member).sound, same (follows.2 saved member)⟩
  refine ⟨fun count => ?_, follows.1.sound, ?_⟩
  · rw [← List.map_take]
    exact (stored.saves fun saved member => each saved (List.mem_of_mem_take member)).1
  · rw [(stored.saves each).2]
    exact same follows.1

theorem call_written (stored : Stored cfg opening rows d) (sound : Sound cfg opening c)
    (trades : tradesOf rows c = d.journal.rows) (refusal : Option Raised) (call : CoordinatorCall ℚ) :
    Written cfg opening rows d (c.writes cfg refusal call) (c.step cfg call) := by
  cases call with
  | ingest input => exact ingest_written stored sound trades input
  | tick input => exact tick_written stored sound trades input refusal

end

/-! ## The files and the process -/

/-- What every state of a run keeps. -/
structure Kept (cfg : CoordinatorConfig ℚ) (opening : ControlState ℚ) (rows : List ClosedRow)
    (h : Host ℚ) : Prop where
  stored : Stored cfg opening rows h.disk
  lived : ∀ c, h.memory = some c → Sound cfg opening c ∧ tradesOf rows c = h.disk.journal.rows

section
variable {cfg : CoordinatorConfig ℚ} {opening : ControlState ℚ} {rows : List ClosedRow} {d : Disk ℚ}

/-- A beginning of a list that has all its names is the list. -/
theorem eq_of_front {α β : Type} (name : α → β) {front all : List α} (begins : front <+: all)
    (nodup : (all.map name).Nodup) (named : all.map name ⊆ front.map name) : front = all := by
  obtain ⟨back, rfl⟩ := begins
  cases back with
  | nil => exact (List.append_nil _).symm
  | cons a back =>
      rw [List.map_append] at nodup named
      have twice : name a ∈ front.map name := named (by simp)
      exact absurd rfl ((List.nodup_append.mp nodup).2.2 _ twice _ (by simp))

/-- A restart that succeeds brings back a sound coordinator that has all the journal's trades. -/
theorem restart_sound (historical : opening.historicalClosedTradeIds = rows.map fun r => r.text "trade_id")
    (stored : Stored cfg opening rows d) {c : Coordinator ℚ} (restarted : d.restart cfg = .ok c) :
    ∃ saved, Sound cfg opening saved ∧ d.state = saved.controlState ∧
      tradesOf rows saved = d.journal.rows ∧ c = ControlState.rebooted saved cfg := by
  obtain ⟨saved, sound, state, begins⟩ := stored
  unfold Disk.restart at restarted
  obtain ⟨_, _, rest⟩ := Py.bind_eq_ok.mp restarted
  obtain ⟨_, consistent, applied⟩ := Py.bind_eq_ok.mp rest
  rw [state, ControlState.apply_controlState sound.carried.filed] at applied
  refine ⟨saved, sound, state, ?_, (Except.ok.inj applied).symm⟩
  obtain ⟨nodup, named⟩ := ControlState.represented_of_consistent consistent
  apply eq_of_front Trade.tradeId begins nodup
  have names : (tradesOf rows saved).map Trade.tradeId =
      saved.engine.historicalClosedTradeIds ++ saved.engine.closedPositions.map Position.positionId := by
    rw [sound.historical, historical, tradesOf, List.map_append, List.map_map, List.map_map]
    rfl
  rw [names]
  rw [state] at named
  exact named

theorem Sound.rebooted {c : Coordinator ℚ} (sound : Sound cfg opening c) :
    Sound cfg opening (ControlState.rebooted c cfg) :=
  ⟨sound.carried, ⟨sound.balanced.filed, sound.balanced.cash⟩, sound.startingCash, sound.historical,
    sound.heard⟩

theorem Kept.step (historical : opening.historicalClosedTradeIds = rows.map fun r => r.text "trade_id")
    {h : Host ℚ} (kept : Kept cfg opening rows h) (event : HostEvent ℚ) :
    Kept cfg opening rows (h.step cfg event) := by
  cases event with
  | call call refusal crash =>
      unfold Host.step
      dsimp only
      split
      · exact kept
      · rename_i c lived
        obtain ⟨sound, trades⟩ := kept.lived c lived
        have written := call_written kept.stored sound trades refusal call
        split
        · refine ⟨?_, fun next same => ?_⟩
          · have all := written.stored (c.writes cfg refusal call).length
            rw [List.take_length] at all
            exact all
          · cases same
            exact ⟨written.sound, written.trades⟩
        · exact ⟨written.stored _, fun next same => by cases same⟩
  | restart =>
      unfold Host.step
      dsimp only
      split
      · rename_i c restarted
        obtain ⟨saved, sound, _, trades, rfl⟩ := restart_sound historical kept.stored restarted
        refine ⟨kept.stored.save sound.rebooted trades, fun next same => ?_⟩
        cases same
        refine ⟨sound.rebooted, ?_⟩
        rw [journal_save]
        exact trades
      · exact ⟨kept.stored, fun next same => by cases same⟩

end

/-! ## The first start -/

/-- What an opening state is made of. -/
structure Opened (cfg : CoordinatorConfig ℚ) (rows : List ClosedRow) (s : ControlState ℚ) : Prop where
  historical : s.historicalClosedTradeIds = rows.map fun r => r.text "trade_id"
  cash : s.cash = s.startingCash + total Trade.realizedPnlUsd (rows.map tradeOfRow)
  fresh : ∃ c, Sound cfg s c ∧ s = c.controlState ∧ c.engine.closedPositions = [] ∧ s.openPositions = []

theorem tally_books (startingCash : ℚ) (today : Text) (rows : List ClosedRow) :
    (tally startingCash today rows).cash =
      startingCash + total Trade.realizedPnlUsd (rows.map tradeOfRow) ∧
    (tally startingCash today rows).historicalClosedTradeIds = rows.map fun r => r.text "trade_id" := by
  induction rows using List.reverseRecOn with
  | nil => simp [tally, Tally.start]
  | append_singleton rows r ih =>
      rw [tally_concat, List.map_append, List.map_append, total_append, ← ih.2]
      refine ⟨?_, rfl⟩
      simp only [Tally.add, ih.1, List.map_cons, List.map_nil, total_cons, total_nil, tradeOfRow]
      ring

theorem opened_openingState {cfg : CoordinatorConfig ℚ} {now : Civil} {rows : List ClosedRow}
    {s : ControlState ℚ} (opened : openingState cfg now rows = .ok s) : Opened cfg rows s := by
  unfold openingState at opened
  split at opened
  · rename_i none
    subst none
    obtain rfl := Except.ok.inj opened
    refine ⟨rfl, by simp [Coordinator.controlState, Coordinator.start, Engine.start],
      Coordinator.start cfg now, ?_, rfl, rfl, rfl⟩
    exact ⟨Carried.start cfg.engine, Balanced.start cfg.engine, rfl, rfl, Heard.start⟩
  · obtain ⟨b, bootstrapped, same⟩ := Py.bind_eq_ok.mp opened
    obtain rfl := Except.ok.inj same
    unfold bootstrapFromClosedJournal at bootstrapped
    split at bootstrapped
    · cases bootstrapped
    · obtain ⟨cooldownUntil, -, rest⟩ := Py.bind_eq_ok.mp bootstrapped
      obtain rfl := Except.ok.inj rest
      obtain ⟨cash, historical⟩ := tally_books cfg.engine.startingCash (todayUtc now) rows
      refine ⟨historical, cash, ?_⟩
      let engine : Engine ℚ := { Engine.start cfg.engine with
        orderCountOffset := rows.length
        closedPositionCountOffset := rows.length
        historicalClosedTradeIds :=
          (tally cfg.engine.startingCash (todayUtc now) rows).historicalClosedTradeIds
        cash := (tally cfg.engine.startingCash (todayUtc now) rows).cash }
      refine ⟨⟨engine, _, (tally cfg.engine.startingCash (todayUtc now) rows).lastPrices⟩, ?_, rfl, rfl, rfl⟩
      exact ⟨Dict.every_empty _, ⟨Dict.every_empty _, by simp [engine, rebased, Engine.start, realizedPnl]⟩,
        rfl, rfl, Heard.start⟩

/-! ## Stops and targets -/

namespace Guarded

variable {e : Engine ℚ}

theorem set (guarded : Guarded e) {symbol : Text} {pos : Position ℚ}
    (levels : 0 < pos.stopPrice ∧ 0 < pos.targetPrice) :
    Guarded { e with positions := e.positions.set symbol pos } := by
  intro other member
  rcases Dict.mem_values_set member with rfl | old
  · exact levels
  · exact guarded other old

theorem checkExits (guarded : Guarded e) (symbol : Text) (tickPrice : ℚ) (tickTs : Text)
    (killSwitchActive : Bool) (random : ℚ) :
    Guarded (e.checkExits symbol tickPrice tickTs killSwitchActive random).1 := by
  unfold Engine.checkExits
  split
  · exact guarded
  · rename_i pos held
    obtain ⟨found, -⟩ := Option.filter_eq_some_iff.mp held
    have levels := guarded pos (Dict.mem_values_of_get? found)
    dsimp only
    split
    · apply guarded.set
      unfold withExcursions
      dsimp only
      split <;> exact levels
    · exact fun other member => guarded other (Dict.mem_values_erase member)

/-- An order that is filled and then given a stop and a target above zero. -/
theorem setStopTarget (guarded : Guarded e) {symbol : Text} {pos : Position ℚ} {other : Engine ℚ}
    (status : pos.status = .opened) (opened : other.positions = e.positions.set symbol pos)
    {stopPrice targetPrice : ℚ} (levels : 0 < stopPrice ∧ 0 < targetPrice) :
    Guarded (other.setStopTarget symbol stopPrice targetPrice) := by
  have held : other.openPosition symbol = some pos := by
    simp [Engine.openPosition, opened, Option.filter, status]
  unfold Engine.setStopTarget
  rw [held, opened]
  dsimp only
  rw [Dict.set_set]
  exact @Guarded.set e guarded symbol _ levels

end Guarded

/-- What no level of a position changes is the same for the open positions as before. -/
theorem openPositions_setStopTarget {α : Type} (e : Engine ℚ) (symbol : Text) (stopPrice targetPrice : ℚ)
    (read : Position ℚ → α)
    (unread : ∀ (pos : Position ℚ) (stop target mae mfe : ℚ), read { pos with
      stopPrice := stop, targetPrice := target, maePrice := mae, mfePrice := mfe } = read pos) :
    ((e.setStopTarget symbol stopPrice targetPrice).positions.values.filter
        fun pos => pos.status == .opened).map read =
      (e.positions.values.filter fun pos => pos.status == .opened).map read := by
  unfold Engine.setStopTarget
  split
  · rfl
  · rename_i pos held
    obtain ⟨found, -⟩ := Option.filter_eq_some_iff.mp held
    obtain ⟨front, back, before, behind⟩ := Dict.values_set_split found
    dsimp only
    rw [before, behind, List.filter_append, List.filter_append, List.filter_cons, List.filter_cons]
    dsimp only
    split <;> simp [unread]

/-- A state is saved with its stop and its target wherever it was saved without them. -/
theorem persist_setStopTarget {d d' saved : Disk ℚ} {c : Coordinator ℚ} (journal : d'.journal = d.journal)
    (persisted : d.persist c = .ok saved) (symbol : Text) (stopPrice targetPrice : ℚ) :
    (d'.write (.save { c with engine := c.engine.setStopTarget symbol stopPrice targetPrice })).state =
      Coordinator.controlState { c with engine := c.engine.setStopTarget symbol stopPrice targetPrice } := by
  set next : Coordinator ℚ := { c with engine := c.engine.setStopTarget symbol stopPrice targetPrice }
    with next_eq
  unfold Disk.persist at persisted
  obtain ⟨_, consistent, rest⟩ := Py.bind_eq_ok.mp persisted
  obtain ⟨_, valid, _⟩ := Py.bind_eq_ok.mp rest
  have frame : next.engine = { c.engine with positions := next.engine.positions } := by
    rw [next_eq]
    unfold Engine.setStopTarget
    split <;> rfl
  have same : next.controlState = { c.controlState with
      cash := next.controlState.cash, openPositions := next.controlState.openPositions } := by
    simp only [Coordinator.controlState]
    rw [frame]
    rfl
  have consistent' : next.controlState.assertJournalStateConsistency d'.journal = .ok () := by
    rw [journal, ← consistent]
    apply ControlState.assertJournalStateConsistency_congr
    · rw [same]
    · rw [same]
    · exact openPositions_setStopTarget _ _ _ _ _ fun _ _ _ _ _ => rfl
  have valid' : next.controlState.validate = .ok () := by
    rw [← valid]
    apply ControlState.validate_congr same
    exact openPositions_setStopTarget _ _ _ _ _ fun _ _ _ _ _ => rfl
  simp only [Disk.write, Disk.persist, consistent', valid', Py.ok_bind]
  rfl

section
variable {cfg : CoordinatorConfig ℚ} {opening : ControlState ℚ} {rows : List ClosedRow} {c : Coordinator ℚ}
  {input : Ingest ℚ}

/-- The open positions of a control state have their stops and targets. -/
def Armed (s : ControlState ℚ) : Prop := ∀ pos ∈ s.openPositions, 0 < pos.stopPrice ∧ 0 < pos.targetPrice

theorem armed_controlState (guarded : Guarded c.engine) : Armed c.controlState :=
  fun pos member => guarded pos (List.mem_filter.mp member).1

theorem armed_save {d : Disk ℚ} (armed : Armed d.state) (guarded : Guarded c.engine) :
    Armed (d.write (.save c)).state := by
  rcases state_save d c with kept | saved
  · rw [kept]
    exact armed
  · rw [saved]
    exact armed_controlState guarded

theorem armed_saves {states : List (Coordinator ℚ)} {d : Disk ℚ} (armed : Armed d.state)
    (each : ∀ saved ∈ states, Guarded saved.engine) :
    Armed ((states.map Write.save).foldl Disk.write d).state := by
  induction states generalizing d with
  | nil => exact armed
  | cons c states ih =>
      rw [List.map_cons, List.foldl_cons]
      exact ih (armed_save armed (each c List.mem_cons_self))
        fun saved member => each saved (List.mem_cons_of_mem _ member)

/-- The saves of a call, cut short, and the coordinator behind the whole call. -/
structure Arms (cfg : CoordinatorConfig ℚ) (states : List (Coordinator ℚ)) (next : Coordinator ℚ)
    (count : Nat) : Prop where
  saved : ∀ d : Disk ℚ, Armed d.state → Armed ((states.take count).map Write.save |>.foldl Disk.write d).state
  next : Guarded next.engine

theorem arms_of_guarded {states : List (Coordinator ℚ)} {next : Coordinator ℚ}
    (each : ∀ saved ∈ states, Guarded saved.engine) (last : Guarded next.engine) (count : Nat) :
    Arms cfg states next count :=
  ⟨fun _ armed => armed_saves armed fun saved member => each saved (List.mem_of_mem_take member), last⟩

/-- An order that is not filled leaves the positions as they are. -/
theorem place_unfilled {p : TradeProposal ℚ} {sizeScale : ℚ} (guarded : Guarded c.engine)
    (unfilled : ¬0 < (c.engine.submit (Coordinator.orderProposal p) sizeScale input.refPrice
      input.submit).2.filledQty) (count : Nat) :
    Arms cfg (c.placeSaves input p sizeScale) (c.place input p sizeScale) count := by
  have same := (Submitted.submit c.engine (Coordinator.orderProposal p) sizeScale input.refPrice
    input.submit).unfilled unfilled
  have kept : Guarded (c.engine.submit (Coordinator.orderProposal p) sizeScale input.refPrice
      input.submit).1 := by
    unfold Guarded
    rw [same]
    exact guarded
  have placed : Guarded (c.place input p sizeScale).engine := by
    unfold Coordinator.place
    dsimp only
    rw [if_neg (by simpa using unfilled)]
    exact kept
  refine arms_of_guarded (fun saved member => ?_) placed count
  simp only [Coordinator.placeSaves, List.mem_append, List.mem_singleton] at member
  rcases member with (first | second) | rfl
  · split at first
    · obtain rfl := List.mem_singleton.mp first
      exact kept
    · cases first
  · split at second
    · obtain rfl := List.mem_singleton.mp second
      exact placed
    · cases second
  · exact placed

/-- An order that is filled is saved without its levels only behind the first of the saves. -/
theorem place_filled {p : TradeProposal ℚ} {sizeScale : ℚ} (guarded : Guarded c.engine)
    (symbol : p.symbol = input.prediction.symbol) (vacant : c.engine.positions.get? p.symbol = none)
    (filled : 0 < (c.engine.submit (Coordinator.orderProposal p) sizeScale input.refPrice
      input.submit).2.filledQty) (levels : 0 < p.stopPrice ∧ 0 < p.targetPrice) {count : Nat}
    (unbroken : count ≠ 1) :
    Arms cfg (c.placeSaves input p sizeScale) (c.place input p sizeScale) count := by
  obtain ⟨pos, status, opened⟩ := (Submitted.submit c.engine (Coordinator.orderProposal p) sizeScale
    input.refPrice input.submit).filled vacant filled
  have place_eq : c.place input p sizeScale = { c with
      engine := (c.engine.submit (Coordinator.orderProposal p) sizeScale input.refPrice
        input.submit).1.setStopTarget input.prediction.symbol p.stopPrice p.targetPrice } := by
    unfold Coordinator.place
    dsimp only
    rw [if_pos (by simpa using filled)]
  have placed : Guarded (c.place input p sizeScale).engine := by
    rw [place_eq]
    refine guarded.setStopTarget status ?_ levels
    rw [← symbol]
    exact opened
  have protects : ((c.engine.submit (Coordinator.orderProposal p) sizeScale input.refPrice
      input.submit).1.openPosition input.prediction.symbol).isSome = true := by
    rw [← symbol]
    simp [Engine.openPosition, Coordinator.orderProposal, Option.filter] at opened ⊢
    simp [opened, status]
  refine ⟨fun d armed => ?_, placed⟩
  have twice (d : Disk ℚ) (armed : Armed d.state) (states : List (Coordinator ℚ))
      (each : ∀ saved ∈ states, saved = c.place input p sizeScale) :
      Armed ((states.map Write.save).foldl Disk.write d).state :=
    armed_saves armed fun saved member => by rw [each saved member]; exact placed
  have pair : ∀ saved ∈ [c.place input p sizeScale, c.place input p sizeScale],
      saved = c.place input p sizeScale := by simp
  simp only [Coordinator.placeSaves, protects, lt_rat, lit_rat, filled, decide_true, Bool.and_self,
    if_true, List.append_assoc, List.singleton_append]
  split
  · rcases count with _ | _ | count
    · exact armed
    · contradiction
    · rw [List.singleton_append, List.take_succ_cons, List.take_succ_cons, List.map_cons, List.map_cons,
        List.foldl_cons, List.foldl_cons]
      refine twice _ ?_ _ fun saved member => pair saved (List.mem_cons_of_mem _ (List.mem_of_mem_take member))
      cases persisted : d.persist { c with engine := (c.engine.submit (Coordinator.orderProposal p)
          sizeScale input.refPrice input.submit).1 } with
      | ok saved =>
          rw [place_eq, persist_setStopTarget (journal_save d _) persisted, ← place_eq]
          exact armed_controlState placed
      | error e =>
          refine armed_save ?_ placed
          simp only [Disk.write, persisted]
          exact armed
  · exact twice d armed _ fun saved member => pair saved (List.mem_of_mem_take member)

theorem ingest_arms (sound : Sound cfg opening c) (guarded : Guarded c.engine) {count : Nat}
    (unbroken : ∀ p, c.opens cfg input = some p → count ≠ 1 ∧ 0 < p.stopPrice ∧ 0 < p.targetPrice) :
    Arms cfg (c.ingestSaves cfg input) (c.ingest cfg input) count := by
  unfold Coordinator.opens Coordinator.proposed at unbroken
  unfold Coordinator.ingest Coordinator.ingestSaves
  split
  · rename_i usable
    simp only [usable, if_true] at unbroken
    have observed := sound.observe input
    have guarded' : Guarded (c.observe cfg input).engine := guarded
    have engine : c.engine = (c.observe cfg input).engine := rfl
    rw [engine] at unbroken
    generalize c.observe cfg input = o at observed guarded' unbroken
    revert unbroken
    dsimp only
    cases built : o.propose cfg input with
    | none =>
        refine fun _ => arms_of_guarded (fun saved member => ?_) guarded' count
        rw [List.mem_singleton.mp member]
        exact guarded'
    | some p =>
        intro unbroken
        obtain ⟨symbol, -, -, vacant⟩ := vacant_of_built observed.carried built
        dsimp only at unbroken ⊢
        unfold Coordinator.decide
        generalize o.kernel.evaluate cfg.risk input.now (Coordinator.riskProposal p)
          input.microstructure = answer at unbroken
        obtain ⟨kernel, result⟩ := answer
        cases result with
        | error e => exact @arms_of_guarded cfg [] { o with kernel } (by simp) guarded' count
        | ok decision =>
            dsimp only at unbroken ⊢
            split
            · rename_i approved
              have kept : Guarded ({ o with kernel } : Coordinator ℚ).engine := guarded'
              by_cases filled : 0 < (o.engine.submit (Coordinator.orderProposal p) decision.sizeScale
                  input.refPrice input.submit).2.filledQty
              · obtain ⟨behind, levels⟩ := unbroken p (by simp [approved, filled])
                exact place_filled kept symbol vacant filled levels behind
              · exact place_unfilled kept filled count
            · refine @arms_of_guarded cfg _ { o with kernel } (fun saved member => ?_) guarded' count
              rw [List.mem_singleton.mp member]
              exact guarded'
  · exact arms_of_guarded (by simp) guarded count

end

/-- What every state of an unbroken run keeps besides. -/
structure Shielded (h : Host ℚ) : Prop where
  armed : Armed h.disk.state
  lived : ∀ c, h.memory = some c → Guarded c.engine

section
variable {cfg : CoordinatorConfig ℚ} {opening : ControlState ℚ} {rows : List ClosedRow}

theorem armed_tick {c : Coordinator ℚ} (guarded : Guarded c.engine) {d : Disk ℚ} (armed : Armed d.state)
    (input : Tick ℚ) (refusal : Option Raised) (count : Nat) :
    Armed (((c.tickWrites cfg input refusal).take count).foldl Disk.write d).state := by
  have after : Guarded (c.onTick cfg input).engine := guarded.checkExits _ _ _ _ _
  have each : ∀ write ∈ c.tickWrites cfg input refusal,
      write = .save (c.onTick cfg input) ∨ ∃ row, write = .append row refusal := by
    unfold Coordinator.tickWrites
    dsimp only
    split
    · simp
    · split <;> simp
  have each' : ∀ write ∈ (c.tickWrites cfg input refusal).take count,
      write = .save (c.onTick cfg input) ∨ ∃ row, write = .append row refusal :=
    fun write member => each write (List.mem_of_mem_take member)
  generalize (c.tickWrites cfg input refusal).take count = writes at each'
  induction writes generalizing d with
  | nil => exact armed
  | cons write writes ih =>
      rw [List.foldl_cons]
      refine ih ?_ fun other member => each' other (List.mem_cons_of_mem _ member)
      rcases each' write List.mem_cons_self with rfl | ⟨row, rfl⟩
      · exact armed_save armed after
      · exact armed

theorem Shielded.step (historical : opening.historicalClosedTradeIds = rows.map fun r => r.text "trade_id")
    {h : Host ℚ} (kept : Kept cfg opening rows h) (shielded : Shielded h) {event : HostEvent ℚ}
    (unbroken : Unbroken cfg h event) : Shielded (h.step cfg event) := by
  cases event with
  | restart =>
      unfold Host.step
      dsimp only
      split
      · rename_i c restarted
        obtain ⟨saved, sound, state, _, rfl⟩ := restart_sound historical kept.stored restarted
        have guarded : Guarded (ControlState.rebooted saved cfg).engine := by
          intro pos member
          apply shielded.armed
          rw [state]
          exact List.mem_filter.mpr ⟨member, by
            obtain ⟨_, _, status, _⟩ := Dict.Every.values sound.carried member
            simp [status]⟩
        refine ⟨armed_save shielded.armed guarded, fun next same => ?_⟩
        cases same
        exact guarded
      · exact ⟨shielded.armed, fun next same => by cases same⟩
  | call call refusal crash =>
      unfold Host.step
      dsimp only
      split
      · exact shielded
      · rename_i c lived
        obtain ⟨sound, -⟩ := kept.lived c lived
        have guarded := shielded.lived c lived
        cases call with
        | tick input =>
            split
            · refine ⟨?_, fun next same => ?_⟩
              · have all := @armed_tick cfg _ guarded _ shielded.armed input refusal
                  (c.tickWrites cfg input refusal).length
                rw [List.take_length] at all
                exact all
              · cases same
                exact guarded.checkExits _ _ _ _ _
            · exact ⟨armed_tick guarded shielded.armed _ _ _, fun next same => by cases same⟩
        | ingest input =>
            simp only [Unbroken, lived, Option.all_some, Option.all_eq_true, Bool.or_eq_true,
              Bool.and_eq_true, beq_iff_eq, bne_iff_ne, decide_eq_true_eq] at unbroken
            split
            · -- a whole call ends behind more writes than there are
              have arms := @ingest_arms cfg opening c input sound guarded
                ((c.ingestSaves cfg input).length + 2) fun p opened => by
                  rcases unbroken p opened with none | ⟨⟨-, stop⟩, target⟩
                  · cases none
                  · exact ⟨by omega, stop, target⟩
              refine ⟨?_, fun next same => ?_⟩
              · have all := arms.saved h.disk shielded.armed
                rw [List.take_of_length_le (by omega)] at all
                exact all
              · cases same
                exact arms.next
            · rename_i count
              refine ⟨?_, fun next same => by cases same⟩
              by_cases first : count = 0
              · rw [first]
                exact shielded.armed
              · have arms := @ingest_arms cfg opening c input sound guarded count fun p opened => by
                  rcases unbroken p opened with none | ⟨⟨behind, stop⟩, target⟩
                  · exact absurd (Option.some.inj none) first
                  · exact ⟨fun one => behind (congrArg some one), stop, target⟩
                have all := arms.saved h.disk shielded.armed
                rw [List.map_take] at all
                exact all

end

/-- The files behind the first save of a lane without a journal. -/
def firstSave : Host ℚ := ⟨⟨⟨[], none⟩, (Coordinator.start twoTradesConfig newYear).controlState⟩, none⟩

/-- A SHORT that is opened, with a crash behind some number of its saves, and a restart. -/
def openedThenCrash (crash : Option Nat) : List (HostEvent ℚ) :=
  [.restart, .call (.ingest (shortAt (txt "ETH/USDT") 1000)) none crash, .restart]

/-- The restored coordinator has an open position without a stop. -/
def unguardedRestart (h : Host ℚ) : Bool :=
  match h.disk.restart twoTradesConfig with
  | .ok c => (openPositions c.engine).any fun pos => pos.stopPrice == 0
  | .error _ => false

end Senex.Portfolio
