import Senex.Settlement.Contract

/-! # The proof gate

`settlement_proof.py`: when a settled row counts as a proof.
-/

namespace Senex.Settlement

open Text

deriving instance DecidableEq for Civil

/-- A prediction row, as far as settlement looks at it. -/
structure Row where
  id : Nat
  (ts symbol prediction exchangeUsed : Text)
  (priceNow price15mLater : PyValue)
  outcome : Option Text
  audit : PyValue

/-- `VALID_OUTCOMES` -/
def validOutcomes : List Text := [txt "WIN", txt "LOSS"]

/-- `value in VALID_OUTCOMES` -/
def isOutcome : PyValue → Py Bool
  | .str t => .ok (validOutcomes.contains t)
  | .list _ | .dict _ => raise .typeError (txt "unhashable type")
  | _ => .ok false

/-- `_as_audit` -/
def asAudit (row : Row) : PyValue := if row.audit.isDict then row.audit else .ofMembers []

/-- `ORIGIN_PRICE_REL_TOL` and `ORIGIN_PRICE_ABS_TOL` -/
def originPriceTol : Double := Double.round (1 / 1000000000)

/-- `_price_matches` -/
def priceMatches (left right : PyValue) : Py Bool := do
  match ← attempt PyError.isTypeOrValue (do return (← left.toFloat, ← right.toFloat)) with
  | none => return false
  | some (left, right) => return Double.isClose originPriceTol originPriceTol left right

structure ProofPrices where
  (origin row at15m at1h : Double)

def readProofPrices (row : Row) (originProof dual : PyValue) : Py ProofPrices := do
  let origin ← (originProof.get (txt "price")).toFloat
  let rowPrice ← row.priceNow.toFloat
  let at15m ← (dual.get (txt "price_15m_later")).toFloat
  let at1h ← (dual.get (txt "price_1h_later")).toFloat
  return ⟨origin, rowPrice, at15m, at1h⟩

/-- The checks of `is_proof_qualified` on the origin witness, up to the row's instant and source. -/
def originProved (row : Row) (originProof : PyValue) : Py (Option (Civil × Text)) := do
  if !(originProof.get (txt "version")).eqText (txt "origin-price-v1") then return none
  let originDt ← parseUtc (originProof.get (txt "timestamp"))
  let rowDt ← parseUtc (.str row.ts)
  match originDt, rowDt with
  | some originDt, some rowDt =>
      if originDt ≠ rowDt then return none
      match normalizeExchange (.str row.exchangeUsed) with
      | none => return none
      | some rowSource =>
          if normalizeExchange (originProof.get (txt "source")) ≠ some rowSource then return none
          if normalizeSymbol row.symbol = [] then return none
          return some (rowDt, rowSource)
  | _, _ => return none

/-- The checks of `is_proof_qualified` on the prices. -/
def pricesProved (row : Row) (originProof dual : PyValue) : Py (Option ProofPrices) := do
  match ← attempt PyError.isTypeOrValue (readProofPrices row originProof dual) with
  | none => return none
  | some p =>
      if (Double.minimum p.origin [p.row, p.at15m, p.at1h]).le (Double.round 0) then return none
      if !(← priceMatches (.float p.origin) (.float p.row)) then return none
      return some p

/-- The checks of `is_proof_qualified` on the contract and the outcomes of the settlement. -/
def contractProved (row : Row) (dual : PyValue) : Py Bool := do
  if !(dual.get (txt "primary_window")).eqText (txt "1h") then return false
  if !(dual.get (txt "settlement_contract_version")).eqText (txt "aud063-v1") then return false
  if !(← isOutcome (dual.get (txt "outcome_15m"))) then return false
  if !(← isOutcome (dual.get (txt "outcome_1h"))) then return false
  return row.outcome.any fun outcome => (dual.get (txt "outcome_1h")).eqText outcome

/-- The checks of `is_proof_qualified` on the evidence of one window. -/
def evidenceProved (row : Row) (rowSource : Text) (windowSeconds : Int) (ev : PyValue) : Py Bool :=
  validatePriceEvidence ev (.str rowSource) (normalizeSymbol row.symbol) (.str row.ts) windowSeconds

/-- The checks of `is_proof_qualified` on the time of the settlement. -/
def observationProved (row : Row) (rowDt : Civil) (dual evidence1h : PyValue) : Py Bool := do
  let observation := dual.get (txt "settlement_observation_v1")
  if !observation.isDict ||
      !(observation.get (txt "version")).eqText (txt "settlement-observation-v1") then return false
  match ← parseUtc (observation.get (txt "observed_at")) with
  | none => return false
  | some observedAt =>
      -- A settlement is not available before the 1h target exists.
      if (Datetime.toMicros observedAt : Int) < (← addSeconds rowDt window1hS) then return false
      let target ← targetEpochMs (.str row.ts) window1hS
      let stated ← (evidence1h.get (txt "target_epoch_ms")).toInt
      return decide (target = some stated)

def isProofQualified (row : Row) : Py Bool := do
  if !row.outcome.any validOutcomes.contains then return false
  let direction := upper row.prediction
  if direction ≠ txt "LONG" ∧ direction ≠ txt "SHORT" then return false
  let originProof := (asAudit row).get (txt "origin_price_v1")
  let dual := (asAudit row).get (txt "outcomes_dual")
  if !originProof.isDict || !dual.isDict then return false
  match ← originProved row originProof with
  | none => return false
  | some (rowDt, rowSource) =>
      match ← pricesProved row originProof dual with
      | none => return false
      | some p =>
          if !(← contractProved row dual) then return false
          let historical := dual.get (txt "price_evidence_v1")
          if !historical.isDict then return false
          let evidence15m := historical.get (txt "15m")
          let evidence1h := historical.get (txt "1h")
          if !(← evidenceProved row rowSource window15mS evidence15m) then return false
          if !(← evidenceProved row rowSource window1hS evidence1h) then return false
          if !(← priceMatches (.float p.at15m) (evidence15m.get (txt "price"))) then return false
          if !(← priceMatches (.float p.at1h) (evidence1h.get (txt "price"))) then return false
          if !(← observationProved row rowDt dual evidence1h) then return false
          let expected15m ← directionalOutcome direction (.float p.origin) (.float p.at15m)
          let expected1h ← directionalOutcome direction (.float p.origin) (.float p.at1h)
          match expected15m, expected1h with
          | some expected15m, some expected1h =>
              return (dual.get (txt "outcome_15m")).eqText expected15m &&
                (dual.get (txt "outcome_1h")).eqText expected1h
          | _, _ => return false

end Senex.Settlement
