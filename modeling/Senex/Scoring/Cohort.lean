import Senex.Foundation.Greedy
import Senex.Foundation.JsonText
import Senex.Foundation.Nearest
import Senex.Settlement.Wire
import Mathlib

/-! # The independent one-hour cohort

`authoritative_score.py` sorts the qualified rows of a symbol by time, id and canonical text, and takes
each row that is at least an hour behind the last one taken.  Times are floats of seconds, and so is
the sum with the hour.
-/

namespace Senex.Scoring

open Text Settlement

/-- A stored row: the columns that settlement reads, and the others. -/
structure ScoreRow extends Row where
  others : List (Text × PyValue)

/-! ## The text of a row -/

/-- `json.dumps(text)` without its quotes: all but printable ASCII is escaped. -/
def asciiQuote (t : Text) : Text :=
  t.flatMap fun c =>
    if c < 127 then Json.escapeUnit c
    else if c < 0x10000 then Json.unicodeEscape c
    else Json.unicodeEscape (0xD800 + (c - 0x10000) / 0x400) ++ Json.unicodeEscape (0xDC00 + (c - 0x10000) % 0x400)

mutual
/-- `json.dumps(value, sort_keys=True, separators=(",", ":"))` -/
def canonicalText : PyValue → Text
  | .none => txt "null"
  | .bool b => txt (if b then "true" else "false")
  | .int n => PyValue.ofInt n
  | .float .nan => txt "NaN"
  | .float (.infinity negative) => txt (if negative then "-Infinity" else "Infinity")
  | .float x => x.pyRepr
  | .str t => 34 :: (asciiQuote t ++ [34])
  | .list items => 91 :: (canonicalItems items ++ [93])
  | .dict members => 123 :: (canonicalMembers members ++ [125])

def canonicalItems : List PyValue → Text
  | [] => []
  | [item] => canonicalText item
  | item :: items => canonicalText item ++ 44 :: canonicalItems items

def canonicalMembers : List (Text × PyValue) → Text
  | [] => []
  | [(key, value)] => 34 :: (asciiQuote key ++ 34 :: 58 :: canonicalText value)
  | (key, value) :: members =>
      34 :: (asciiQuote key ++ 34 :: 58 :: (canonicalText value ++ 44 :: canonicalMembers members))
end

def ScoreRow.document (r : ScoreRow) : PyValue :=
  .ofMembers (r.others ++ [
    (txt "id", .int r.id),
    (txt "ts", .str r.ts),
    (txt "symbol", .str r.symbol),
    (txt "prediction", .str r.prediction),
    (txt "exchange_used", .str r.exchangeUsed),
    (txt "price_now", r.priceNow),
    (txt "price_15m_later", r.price15mLater),
    (txt "outcome", r.outcome.elim .none .str),
    (txt "audit", r.audit)])

def ScoreRow.canonical (r : ScoreRow) : Text := canonicalText r.document

/-! ## The selection -/

/-- `INDEPENDENT_HORIZON_S` -/
def independentHorizonS : Double := .round 3600

/-- Time, id and canonical text, in the order of tuples. -/
abbrev RowKey := ℚ ×ₗ (Text ×ₗ Text)

section
variable (localTimestamp : Civil → Double)

/-- `_ts_seconds`; `localTimestamp` is `timestamp()` of a datetime without an offset, which Python takes as
    local time, and infinite where it raises a `ValueError`. -/
def tsSeconds (r : ScoreRow) : Double :=
  if r.ts = [] then .infinity false
  else
    match Datetime.fromIsoformat (spellZone r.ts) with
    | none => .infinity false
    | some ⟨civil, some offset⟩ => .round (((Datetime.toMicros civil : Int) - offset - unixEpoch) / 1000000)
    | some ⟨civil, none⟩ => localTimestamp civil

/-- `_stable_row_key`, as tuples are compared; no time is not a number. -/
def stableRowKey (r : ScoreRow) : RowKey :=
  toLex ((tsSeconds localTimestamp r).value, toLex (ofNat r.id, r.canonical))

/-- `ts >= last_ts + INDEPENDENT_HORIZON_S` -/
def follows (last ts : Double) : Bool := (last + independentHorizonS).le ts

def cohortLoop : Option Double → List ScoreRow → List ScoreRow
  | _, [] => []
  | lastTs, row :: rows =>
      let ts := tsSeconds localTimestamp row
      if !ts.isFinite then cohortLoop lastTs rows
      else if lastTs.all (follows · ts) then row :: cohortLoop (some ts) rows
      else cohortLoop lastTs rows

def sortRows (rows : List ScoreRow) : List ScoreRow :=
  rows.mergeSort fun a b => decide (stableRowKey localTimestamp a ≤ stableRowKey localTimestamp b)

def independent1hCohort (rows : List ScoreRow) : List ScoreRow :=
  cohortLoop localTimestamp none (sortRows localTimestamp rows)

end

/-! ## Instants -/

/-- The rows that the proof gate lets through. -/
def ScoreRow.Qualified (r : ScoreRow) : Prop := isProofQualified r.toRow = .ok true

/-- The instant of a row in microseconds, as the settlement reads it. -/
def ScoreRow.instant (r : ScoreRow) : Int :=
  match parseUtc (.str r.ts) with
  | .ok (some c) => Datetime.toMicros c
  | _ => 0

end Senex.Scoring
