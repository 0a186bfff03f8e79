import Senex.Foundation.Dict
import Senex.Portfolio.RiskKernel

/-! # The journal of closed trades

The reading side of `paper_control_state.py`: the validation of a closed-trade
row and the risk state that is rebuilt from a journal of such rows.
-/

namespace Senex.Portfolio

open Text PyFloat

/-! ## Rows -/

/-- `PaperControlStateError` -/
def refuse {α : Type} (message : Text) : Py α := raise .paperControlStateError message

mutual
/-- `_validate_finite_tree` -/
def validateFiniteTree (path : Text) : PyValue → Py Unit
  | .none | .str _ | .bool _ | .int _ => .ok ()
  | .float x => guardNot (!x.isFinite) .paperControlStateError
      (txt "PAPER_CONTROL_STATE_CORRUPT:NONFINITE:" ++ path)
  | .list items => validateFiniteItems path 0 items
  | .dict members => validateFiniteMembers path members

def validateFiniteItems (path : Text) (index : Nat) : List PyValue → Py Unit
  | [] => .ok ()
  | item :: items => do
      validateFiniteTree (path ++ 91 :: ofNat index ++ [93]) item
      validateFiniteItems path (index + 1) items

def validateFiniteMembers (path : Text) : List (Text × PyValue) → Py Unit
  | [] => .ok ()
  | (key, item) :: members => do
      validateFiniteTree (path ++ 46 :: key) item
      validateFiniteMembers path members
end

/-- `_parse_ts` of a text; the conversion to UTC raises at the ends of the calendar. -/
def parseTs (value : Text) : Py (Option Civil) :=
  if value = [] then .ok none
  else
    match Datetime.fromIsoformat (spellZone value) with
    | none => .ok none
    | some parsed =>
        match Datetime.toUtc parsed.civil (parsed.offset.getD 0) with
        | none => raise .overflowError (txt "date value out of range")
        | some utc => .ok (some utc)

def schemaError {α : Type} (what : String) : Py α := refuse (txt ("PAPER_CONTROL_JOURNAL_SCHEMA:" ++ what))

/-- The sign that `_journal_number` asks for. -/
inductive Sign where
  | any
  | nonnegative
  | positive
  deriving DecidableEq

/-- `_journal_number` -/
def journalNumber (row : PyValue) (key label : String) (sign : Sign) : Py Double := do
  let value := row.get (txt key)
  let result ← match value with
    | .int _ | .float _ => value.toFloat
    | _ => schemaError label
  if !result.isFinite then schemaError label
  else if sign = .nonnegative ∧ Double.lt result (Double.round 0) then schemaError label
  else if sign = .positive ∧ Double.le result (Double.round 0) then schemaError label
  else return result

/-- `isinstance(value, str) and value.strip()` -/
def journalText (row : PyValue) (key label : String) : Py Text :=
  match row.get (txt key) with
  | .str t => if strip t = [] then schemaError label else .ok t
  | _ => schemaError label

/-- Two fees and their sum, as far as the rounded numbers may differ. -/
def feesReconcile (entryFee exitFee totalFee : Double) : Bool :=
  !Double.lt (Double.round (1 / 100)) (absolute (entryFee + exitFee - totalFee))

/-- `validate_closed_journal_row` -/
def validateClosedJournalRow (row : PyValue) : Py PyValue :=
  if !row.isDict then schemaError "ROW"
  else do
    validateFiniteTree (txt "JOURNAL_ROW") row
    let _ ← journalText row "trade_id" "TRADE_ID"
    let _ ← journalText row "symbol" "SYMBOL"
    let direction ← journalText row "direction" "DIRECTION"
    let entryTs ← journalText row "entry_ts" "ENTRY_TS"
    let exitTs ← journalText row "exit_ts" "EXIT_TS"
    let exitReason ← journalText row "exit_reason" "EXIT_REASON"
    guardNot (upper direction ∉ [txt "LONG", txt "SHORT"]) .paperControlStateError
      (txt "PAPER_CONTROL_JOURNAL_SCHEMA:DIRECTION")
    guardNot (upper exitReason ∉
        [txt "STOP", txt "TARGET", txt "TIME_STOP", txt "MANUAL", txt "KILL_SWITCH"])
      .paperControlStateError (txt "PAPER_CONTROL_JOURNAL_SCHEMA:EXIT_REASON")
    let entryDt ← parseTs entryTs
    let exitDt ← parseTs exitTs
    match entryDt, exitDt with
    | some entryDt, some exitDt =>
        guardNot (Datetime.orderKey exitDt < Datetime.orderKey entryDt) .paperControlStateError
          (txt "PAPER_CONTROL_JOURNAL_SCHEMA:TIMESTAMPS")
        let _ ← journalNumber row "qty" "QTY" .positive
        let _ ← journalNumber row "entry_price" "ENTRY_PRICE" .positive
        let _ ← journalNumber row "exit_price" "EXIT_PRICE" .positive
        let _ ← journalNumber row "realized_pnl_usd" "REALIZED_PNL_USD" .any
        let _ ← journalNumber row "risk_usd" "RISK_USD" .nonnegative
        let entryFee ← journalNumber row "entry_fee_usd" "ENTRY_FEE_USD" .nonnegative
        let exitFee ← journalNumber row "exit_fee_usd" "EXIT_FEE_USD" .nonnegative
        let totalFee ← journalNumber row "total_fees_usd" "TOTAL_FEES_USD" .nonnegative
        guardNot (!feesReconcile entryFee exitFee totalFee) .paperControlStateError
          (txt "PAPER_CONTROL_JOURNAL_SCHEMA:FEE_RECONCILIATION")
        return row
    | _, _ => schemaError "TIMESTAMPS"

/-- A row that the validation accepts. -/
structure ClosedRow where
  row : PyValue
  valid : (validateClosedJournalRow row).isOk = true

namespace ClosedRow

/-- `float(row[key])` -/
def number (r : ClosedRow) (key : String) : Double :=
  match (r.row.get (txt key)).toFloat with
  | .ok x => x
  | .error _ => .nan

/-- `str(row[key])` of a text. -/
def text (r : ClosedRow) (key : String) : Text := ((r.row.get (txt key)).text?).getD []

/-- `_parse_ts(row["exit_ts"])` -/
def exitDt (r : ClosedRow) : Option Civil :=
  match parseTs (r.text "exit_ts") with
  | .ok dt => dt
  | .error _ => none

end ClosedRow

/-! ## The rebuilt state -/

section
variable {F : Type} [PyFloat F]

/-- What the loop over the rows accumulates. -/
structure Tally (F : Type) where
  cash : F
  peak : F
  dailyPnl : F
  streak : Int
  lastLossTs : Option Text
  historicalClosedTradeIds : List Text
  lastPrices : Dict Text F

/-- The body of the loop. -/
def Tally.add (today : Text) (t : Tally F) (r : ClosedRow) : Tally F :=
  let pnl : F := ofDouble (r.number "realized_pnl_usd")
  let cash := t.cash + pnl
  { cash := cash
    peak := maximum t.peak cash
    dailyPnl := if r.exitDt.map todayUtc = some today then t.dailyPnl + pnl else t.dailyPnl
    streak := if lt pnl (lit 0) then t.streak + 1 else if lt (lit 0) pnl then 0 else t.streak
    lastLossTs :=
      if lt pnl (lit 0) then some (r.text "exit_ts")
      else if lt (lit 0) pnl then none
      else t.lastLossTs
    historicalClosedTradeIds := t.historicalClosedTradeIds ++ [r.text "trade_id"]
    lastPrices := t.lastPrices.set (r.text "symbol") (ofDouble (r.number "exit_price")) }

def Tally.start (startingCash : F) : Tally F :=
  ⟨startingCash, startingCash, lit 0, 0, none, [], Dict.empty⟩

def tally (startingCash : F) (today : Text) (rows : List ClosedRow) : Tally F :=
  rows.foldl (Tally.add today) (Tally.start startingCash)

namespace Tally

def drawdownPct (t : Tally F) : F :=
  if lt (lit 0) t.peak then (t.peak - t.cash) / t.peak * lit 100 else lit 0

def dailyPct (startingCash : F) (t : Tally F) : F :=
  t.dailyPnl / maximum startingCash (lit 1) * lit 100

def streakHit (cfg : RiskConfig F) (t : Tally F) : Bool :=
  decide (cfg.consecutiveLossThreshold * 2 ≤ t.streak)

def dailyLossHit (cfg : RiskConfig F) (startingCash : F) (t : Tally F) : Bool :=
  le (t.dailyPct startingCash) (KernelState.dailyLossLimit cfg)

def drawdownHit (cfg : RiskConfig F) (t : Tally F) : Bool :=
  le (KernelState.drawdownLimit cfg) t.drawdownPct

/-- Whether the figures behind the last row exceed a limit. -/
def kill (cfg : RiskConfig F) (startingCash : F) (t : Tally F) : Bool :=
  t.streakHit cfg || t.dailyLossHit cfg startingCash || t.drawdownHit cfg

/-- The reason of the last limit that is exceeded. -/
def reason (cfg : RiskConfig F) (startingCash : F) (t : Tally F) : Text :=
  if t.drawdownHit cfg then txt "migration:auto:drawdown=" ++ fixed 2 t.drawdownPct ++ txt "%"
  else if t.dailyLossHit cfg startingCash then
    txt "migration:auto:daily_loss=" ++ fixed 2 (t.dailyPct startingCash) ++ txt "%"
  else if t.streakHit cfg then
    txt "migration:auto:" ++ intText t.streak ++ txt "_consecutive_losses"
  else []

/-- The end of the cooldown, if it is still to come. -/
def cooldownUntil (cfg : RiskConfig F) (now : Civil) (t : Tally F) : Py (Option Text) :=
  match t.lastLossTs with
  | none | some [] => .ok none
  | some lastLossTs =>
      if cfg.consecutiveLossThreshold ≤ t.streak then do
        match ← parseTs lastLossTs with
        | none => return none
        | some lastLossDt =>
            let candidate ← orRaise (afterMinutes lastLossDt cfg.cooldownMinutes) .overflowError
              (txt "date value out of range")
            return if Datetime.orderKey now < Datetime.orderKey candidate then
              some (Datetime.isoformat candidate)
            else none
      else .ok none

end Tally

/-- The payload of the migration, as far as it depends on the rows. -/
structure Bootstrap (F : Type) where
  savedAt : Text
  cash : F
  startingCash : F
  totalOrders : Nat
  closedPositionCountOffset : Nat
  historicalClosedTradeIds : List Text
  riskState : KernelState F
  lastPrices : Dict Text F

/-- `bootstrap_from_closed_journal`, on rows that have been validated. -/
def bootstrapFromClosedJournal (cfg : RiskConfig F) (startingCash : F) (now : Civil)
    (rows : List ClosedRow) : Py (Bootstrap F) := do
  if rows = [] then refuse (txt "PAPER_CONTROL_STATE_BOOTSTRAP_EMPTY_JOURNAL")
  let today := todayUtc now
  let t := tally startingCash today rows
  let cooldownUntil ← t.cooldownUntil cfg now
  let kill := t.kill cfg startingCash
  return {
    savedAt := Datetime.isoformat now
    cash := t.cash
    startingCash := startingCash
    totalOrders := rows.length
    closedPositionCountOffset := rows.length
    historicalClosedTradeIds := t.historicalClosedTradeIds
    riskState := {
      currentDay := today
      dailyPnlUsd := t.dailyPnl
      dailyPnlPct := t.dailyPct startingCash
      peakEquity := t.peak
      currentEquity := t.cash
      drawdownPct := t.drawdownPct
      consecutiveLosses := t.streak
      lastLossTs := t.lastLossTs
      cooldownUntil := cooldownUntil
      killSwitchActive := kill
      killSwitchReason := t.reason cfg startingCash
      killSwitchSetAt := if kill then some (Datetime.isoformat now) else none
      volRegime := txt "NORMAL"
      volPct := lit 0
      proposalsEvaluated := 0
      proposalsApproved := 0
      proposalsRejected := 0 }
    lastPrices := t.lastPrices }

end

end Senex.Portfolio
