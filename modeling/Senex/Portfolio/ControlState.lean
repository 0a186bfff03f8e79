import Senex.Portfolio.Coordinator
import Mathlib

/-! # The durable control state

`_control_state_payload`, `_assert_journal_state_consistency` and
`_apply_control_state` of `coordinator.py`, as far as they concern the books: the
observers keep states of their own beside them.
-/

namespace Senex.Portfolio

open Text PyFloat

/-- The members of the payload that the books are rebuilt from. -/
structure ControlState (F : Type) where
  cash : F
  startingCash : F
  totalOrders : Nat
  closedPositionCountOffset : Nat
  historicalClosedTradeIds : List Text
  openPositions : List (Position F)
  closedPositions : List (Position F)
  riskState : KernelState F
  lastPrices : Dict Text F

/-- A row of the journal, as far as it is compared with the control state. -/
structure Trade (F : Type) where
  tradeId : Text
  symbol : Text
  direction : Text
  realizedPnlUsd : F
  deriving DecidableEq

/-- The journal's rows, and what the strict loader raises at the first row that it refuses. -/
structure TradeFile (F : Type) where
  rows : List (Trade F)
  refusal : Option Raised

section
variable {F : Type} [PyFloat F]

/-- The row that a closed position is recorded as. -/
def tradeOf (pos : Position F) : Trade F :=
  ⟨pos.positionId, pos.symbol, pos.direction.text, pos.realizedPnl⟩

def TradeFile.append (file : TradeFile F) (row : Trade F) (refusal : Option Raised) : TradeFile F :=
  ⟨file.rows ++ [row], file.refusal.or refusal⟩

/-- `load_strict_closed_journal` -/
def TradeFile.load (file : TradeFile F) : Py (List (Trade F)) :=
  match file.refusal with
  | some refusal => .error refusal
  | none => do
      guardNot (¬(file.rows.map Trade.tradeId).Nodup) .paperControlStateError
        (txt "PAPER_CONTROL_JOURNAL_DUPLICATE:TRADE_ID")
      return file.rows

namespace Engine

/-- `total_orders` of `stats` -/
def totalOrders (e : Engine F) : Nat := e.orderCountOffset + e.orders

end Engine

/-- `_control_state_payload` -/
def Coordinator.controlState (c : Coordinator F) : ControlState F where
  cash := c.engine.cash
  startingCash := c.engine.startingCash
  totalOrders := c.engine.totalOrders
  closedPositionCountOffset := c.engine.closedPositionCountOffset
  historicalClosedTradeIds := c.engine.historicalClosedTradeIds
  openPositions := c.engine.positions.values.filter fun pos => pos.status == .opened
  closedPositions := c.engine.closedPositions
  riskState := c.kernel
  lastPrices := c.lastPrices

namespace ControlState

/-- A check of `_validate`. -/
def uncorrupt (failed : Bool) (what : Text) : Py Unit :=
  guardNot failed .paperControlStateError (txt "PAPER_CONTROL_STATE_CORRUPT:" ++ what)

/-- The check of the time stops of a collection. -/
def validateTimeStops (collection : Text) (rows : List (Position F)) : Py Unit :=
  match rows.findIdx? fun pos => decide (pos.timeStopMinutes < 0) with
  | some index => uncorrupt true (collection ++ 95 :: ofNat index ++ txt "_TIME_STOP_MINUTES")
  | none => .ok ()

/-- What `_validate` checks of the counts and the identities. -/
def validate (s : ControlState F) : Py Unit := do
  let ids := s.historicalClosedTradeIds
  uncorrupt (ids.length ≠ s.closedPositionCountOffset ∨ (∃ id ∈ ids, strip id = []) ∨ ¬ids.Nodup)
    (txt "HISTORICAL_CLOSED_TRADE_IDS")
  uncorrupt (s.riskState.consecutiveLosses < 0) (txt "CONSECUTIVE_LOSSES")
  uncorrupt (s.riskState.proposalsEvaluated < 0) (txt "PROPOSALS_EVALUATED")
  uncorrupt (s.riskState.proposalsApproved < 0) (txt "PROPOSALS_APPROVED")
  uncorrupt (s.riskState.proposalsRejected < 0) (txt "PROPOSALS_REJECTED")
  validateTimeStops (txt "OPEN_POSITIONS") s.openPositions
  validateTimeStops (txt "CLOSED_POSITIONS") s.closedPositions

/-- A check of `_assert_journal_state_consistency`. -/
def unmatched (failed : Bool) (what : String) : Py Unit :=
  guardNot failed .runtimeError (txt ("PAPER_CONTROL_STATE_JOURNAL_MISMATCH:" ++ what))

/-- The comparison of a closed position with its row. -/
def compare (rows : List (Trade F)) (pos : Position F) : Py Unit :=
  match rows.find? fun row => row.tradeId == pos.positionId with
  | none => raise .keyError pos.positionId
  | some row => do
      unmatched (pos.symbol ≠ row.symbol) "SYMBOL"
      unmatched (pos.direction.text ≠ row.direction) "DIRECTION"
      unmatched (lt (lit (1 / 1000000000)) (absolute (pos.realizedPnl - row.realizedPnlUsd))) "REALIZED_PNL"

local instance lawfulIds : LawfulBEq Text := inferInstance

/-- `_assert_journal_state_consistency` -/
def assertJournalStateConsistency (s : ControlState F) (file : TradeFile F) : Py Unit := do
  let rows ← file.load
  let journalIds := rows.map Trade.tradeId
  let openIds := s.openPositions.map Position.positionId
  let closedIds := s.closedPositions.map Position.positionId
  let represented := s.historicalClosedTradeIds ++ closedIds
  unmatched ([] ∈ journalIds ∨ ¬journalIds.Nodup) "JOURNAL_IDENTITY"
  unmatched ([] ∈ closedIds ∨ ¬closedIds.Nodup) "CLOSED_IDENTITY"
  unmatched (∃ id ∈ s.historicalClosedTradeIds, id ∈ closedIds) "DUPLICATE_CLOSED_ID"
  unmatched (∃ id ∈ openIds, id ∈ journalIds) "OPEN_ALREADY_CLOSED"
  unmatched (¬(represented ⊆ journalIds ∧ journalIds ⊆ represented)) "CLOSED_ID_SET"
  s.closedPositions.forM (compare rows)

/-- An open position beside those that are restored already. -/
def restorePosition (restored : Dict Text (Position F)) (pos : Position F) :
    Py (Dict Text (Position F)) := do
  guardNot (pos.status ≠ .opened) .runtimeError (txt "PAPER_CONTROL_STATE_CORRUPT:OPEN_POSITION_STATUS")
  guardNot (restored.get? pos.symbol).isSome .runtimeError
    (txt "PAPER_CONTROL_STATE_CORRUPT:DUPLICATE_OPEN_SYMBOL")
  return restored.set pos.symbol pos

/-- `_apply_control_state` -/
def apply (cfg : CoordinatorConfig F) (s : ControlState F) : Py (Coordinator F) := do
  let positions ← s.openPositions.foldlM restorePosition Dict.empty
  return {
    engine := {
      cfg := cfg.engine
      orders := 0
      orderCountOffset := s.totalOrders
      closedPositionCountOffset := s.closedPositionCountOffset
      historicalClosedTradeIds := s.historicalClosedTradeIds
      positions := positions
      closedPositions := s.closedPositions
      cash := s.cash
      startingCash := s.startingCash }
    kernel := s.riskState
    lastPrices := s.lastPrices }

/-! ## What a restart has checked -/

@[simp] theorem uncorrupt_eq_ok {failed : Bool} {what : Text} {u : Unit} :
    uncorrupt failed what = .ok u ↔ failed = false :=
  guardNot_eq_ok

@[simp] theorem unmatched_eq_ok {failed : Bool} {what : String} {u : Unit} :
    unmatched failed what = .ok u ↔ failed = false :=
  guardNot_eq_ok

omit [PyFloat F] in
/-- The rows that the loader returns are those of the file, each under an id of its own. -/
theorem load_eq_ok {file : TradeFile F} {rows : List (Trade F)} (loaded : file.load = .ok rows) :
    rows = file.rows ∧ (file.rows.map Trade.tradeId).Nodup := by
  unfold TradeFile.load at loaded
  split at loaded
  · cases loaded
  · obtain ⟨_, checked, same⟩ := Py.bind_eq_ok.mp loaded
    exact ⟨(Except.ok.inj same).symm, by simpa using checked⟩

/-- The journal has no trade twice and none besides the closed ones of a consistent state. -/
theorem represented_of_consistent {s : ControlState F} {file : TradeFile F}
    (consistent : s.assertJournalStateConsistency file = .ok ()) :
    (file.rows.map Trade.tradeId).Nodup ∧
    file.rows.map Trade.tradeId ⊆ s.historicalClosedTradeIds ++ s.closedPositions.map Position.positionId := by
  unfold assertJournalStateConsistency at consistent
  obtain ⟨rows, loaded, rest⟩ := Py.bind_eq_ok.mp consistent
  obtain ⟨rfl, nodup⟩ := load_eq_ok loaded
  simp only [Py.bind_eq_ok, unmatched_eq_ok, decide_eq_false_iff_not, not_not] at rest
  obtain ⟨_, _, _, _, _, _, _, _, _, same, _⟩ := rest
  exact ⟨nodup, same.2⟩

/-- The comparison with the journal reads the ids of the open positions and nothing else of them. -/
theorem assertJournalStateConsistency_congr {s other : ControlState F}
    (historical : s.historicalClosedTradeIds = other.historicalClosedTradeIds)
    (closed : s.closedPositions = other.closedPositions)
    (openIds : s.openPositions.map Position.positionId = other.openPositions.map Position.positionId)
    (file : TradeFile F) :
    s.assertJournalStateConsistency file = other.assertJournalStateConsistency file := by
  unfold assertJournalStateConsistency
  rw [historical, closed, openIds]

omit [PyFloat F] in
theorem validateTimeStops_congr (collection : Text) {rows others : List (Position F)}
    (same : rows.map Position.timeStopMinutes = others.map Position.timeStopMinutes) :
    validateTimeStops collection rows = validateTimeStops collection others := by
  have index (l : List (Position F)) : (l.findIdx? fun pos => decide (pos.timeStopMinutes < 0)) =
      (l.map Position.timeStopMinutes).findIdx? fun minutes => decide (minutes < 0) := by
    rw [List.findIdx?_map]
    rfl
  unfold validateTimeStops
  rw [index, index, same]

/-- The validation reads the time stops of the open positions and nothing else of them. -/
theorem validate_congr {s other : ControlState F}
    (same : s = { other with cash := s.cash, openPositions := s.openPositions })
    (stops : s.openPositions.map Position.timeStopMinutes =
      other.openPositions.map Position.timeStopMinutes) : s.validate = other.validate := by
  rw [same]
  unfold validate
  dsimp only
  rw [validateTimeStops_congr (txt "OPEN_POSITIONS") stops]

/-- The restored coordinator: the orders are a count. -/
def rebooted (c : Coordinator F) (cfg : CoordinatorConfig F) : Coordinator F :=
  { c with engine := { c.engine with
      cfg := cfg.engine
      orders := 0
      orderCountOffset := c.engine.totalOrders } }

omit [PyFloat F] in
theorem foldlM_restorePosition {items : List (Text × Position F)} {restored : Dict Text (Position F)}
    (nodup : ((restored.items ++ items).map Prod.fst).Nodup)
    (filed : ∀ entry ∈ items, entry.2.symbol = entry.1 ∧ entry.2.status = .opened) :
    (items.map Prod.snd).foldlM restorePosition restored = .ok ⟨restored.items ++ items, nodup⟩ := by
  induction items generalizing restored with
  | nil => simp
  | cons entry items ih =>
      obtain ⟨symbol, status⟩ := filed entry List.mem_cons_self
      have absent : restored.get? entry.2.symbol = none := by
        apply Dict.lookup_eq_none.mpr
        rw [symbol]
        simp only [List.map_append, List.map_cons] at nodup
        exact fun member => (List.nodup_append.mp nodup).2.2 _ member _ List.mem_cons_self rfl
      have one : restorePosition restored entry.2 = .ok (restored.set entry.2.symbol entry.2) := by
        simp [restorePosition, status, absent]
      have items_eq : (restored.set entry.2.symbol entry.2).items = restored.items ++ [entry] := by
        have shape := Dict.assign_absent entry.2 absent
        exact shape.trans (by rw [symbol])
      rw [List.map_cons, List.foldlM_cons, one, Py.ok_bind, ih]
      · simp only [items_eq, List.append_assoc, List.singleton_append]
      · simpa only [items_eq, List.append_assoc, List.singleton_append] using nodup
      · exact fun other member => filed other (List.mem_cons_of_mem _ member)

/-- A control state restores the coordinator that it was taken of. -/
theorem apply_controlState {cfg : CoordinatorConfig F} {c : Coordinator F}
    (filed : c.engine.positions.Every fun key pos => pos.symbol = key ∧ pos.status = .opened) :
    c.controlState.apply cfg = .ok (rebooted c cfg) := by
  have values : (c.engine.positions.values.filter fun pos => pos.status == .opened) =
      c.engine.positions.items.map Prod.snd := by
    apply List.filter_eq_self.mpr
    intro pos member
    obtain ⟨_, _, status⟩ := Dict.Every.values filed member
    simp [status]
  have restored := @foldlM_restorePosition F c.engine.positions.items Dict.empty
    (by simpa [Dict.empty] using c.engine.positions.nodup) filed
  simp only [apply, Coordinator.controlState, values, restored, Py.ok_bind]
  rfl

end ControlState

end

end Senex.Portfolio
