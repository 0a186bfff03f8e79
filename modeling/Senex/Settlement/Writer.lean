import Senex.Foundation.PyJson
import Senex.Settlement.Proof

/-! # The settlement writer

`update_outcome_dual` and its caller `_verify_pending_outcomes`: from a pending row and
market data to the PATCH that settles the row.
-/

namespace Senex

open Text

namespace Settlement

/-! ## The caller -/

/-- The arguments of `update_outcome_dual`, behind the id. -/
structure SettlementCall where
  (outcome15m outcome1h : Text)
  (price15mLater price1hLater : Double)
  primaryWindow : Text
  (priceEvidence15m priceEvidence1h : PyValue)

/-- `float(value or 0)`, with `default` for what `float` refuses. -/
def floatOrZero (value : PyValue) : Py (Option Double) :=
  attempt PyError.isTypeOrValue (if value.truthy then value.toFloat else .ok (Double.round 0))

/-- One turn of the loop of `_verify_pending_outcomes`: the call it comes to, if any.  The market is
    read once for each window. -/
def verifyPending (market15m market1h : Market) (row : Row) : Py (Option SettlementCall) := do
  let direction := upper row.prediction
  if direction ≠ txt "LONG" ∧ direction ≠ txt "SHORT" then return none
  let priceNow := (← floatOrZero row.priceNow).getD (Double.round 0)
  if row.ts = [] || notPositive priceNow then return none
  let origin := (asAudit row).get (txt "origin_price_v1")
  if !origin.isDict || !(origin.get (txt "version")).eqText (txt "origin-price-v1") then return none
  match normalizeExchange (.str row.exchangeUsed) with
  | none => return none
  | some rowSource =>
      if normalizeExchange (origin.get (txt "source")) ≠ some rowSource then return none
      let symbol := normalizeSymbol row.symbol
      let ev15m ← fetchHistoricalPriceEvidence market15m (.str rowSource) symbol (.str row.ts) window15mS
      let ev1h ← fetchHistoricalPriceEvidence market1h (.str rowSource) symbol (.str row.ts) window1hS
      match ev15m, ev1h with
      | some ev15m, some ev1h =>
          let price15m ← (ev15m.get (txt "price")).toFloat
          let price1h ← (ev1h.get (txt "price")).toFloat
          let outcome15m ← directionalOutcome direction (.float priceNow) (.float price15m)
          let outcome1h ← directionalOutcome direction (.float priceNow) (.float price1h)
          match outcome15m, outcome1h with
          | some outcome15m, some outcome1h =>
              return some ⟨outcome15m, outcome1h, price15m, price1h, txt "1h", ev15m, ev1h⟩
          | _, _ => return none
      | _, _ => return none

/-! ## The writer -/

/-- The body of the PATCH. -/
structure SettlementPatch where
  outcome : Text
  price15mLater : Double
  audit : PyValue

/-- The row with the members of the PATCH in place. -/
def Row.patched (row : Row) (patch : SettlementPatch) : Row :=
  { row with outcome := some patch.outcome, price15mLater := .float patch.price15mLater, audit := patch.audit }

/-- `existing.get("audit") or {}`, read from its text where it is one. -/
def existingAudit (audit : PyValue) : Option PyValue :=
  if !audit.truthy then some (.ofMembers [])
  else
    match audit with
    | .dict members => some (.dict members)
    | .str text => PyValue.loads text
    | _ => some (.ofMembers [])

def settlementObservation (observedAt writer : Text) : PyValue :=
  .ofMembers [
    (txt "version", .str (txt "settlement-observation-v1")),
    (txt "observed_at", .str observedAt),
    (txt "writer", .str writer),
    (txt "availability_semantics", .str (txt "PERSISTED_BY_COMPARE_AND_SET_AT_OR_AFTER_THIS_TIME"))]

/-- The `outcomes_dual` of `update_outcome_dual`. -/
def outcomesDual (call : SettlementCall) (expected15m expected1h observedIso : Text) : PyValue :=
  .ofMembers [
    (txt "outcome_15m", .str expected15m),
    (txt "outcome_1h", .str expected1h),
    (txt "price_15m_later", .float call.price15mLater),
    (txt "price_1h_later", .float call.price1hLater),
    (txt "primary_window", .str call.primaryWindow),
    (txt "settled_at", .str observedIso),
    (txt "settlement_contract_version", .str (txt "aud063-v1")),
    (txt "price_evidence_v1", .ofMembers [
      (txt "15m", call.priceEvidence15m), (txt "1h", call.priceEvidence1h)]),
    (txt "settlement_observation_v1",
      settlementObservation observedIso (txt "SENEX_PRIMARY_DUAL_WINDOW_VERIFIER_V2"))]

/-- The checks of `update_outcome_dual` on the row and its witness, up to the source and the instant. -/
def witnessAccepted (existing : Row) (origin : PyValue) : Py (Option (Text × Civil)) := do
  if !origin.isDict || !(origin.get (txt "version")).eqText (txt "origin-price-v1") then return none
  match normalizeExchange (.str existing.exchangeUsed) with
  | none => return none
  | some expectedSource =>
      if normalizeExchange (origin.get (txt "source")) ≠ some expectedSource then return none
      match ← parseUtc (.str existing.ts) with
      | none => return none
      | some rowDt =>
          if (← parseUtc (origin.get (txt "timestamp"))) ≠ some rowDt then return none
          if !(← priceMatches (origin.get (txt "price")) existing.priceNow) then return none
          return some (expectedSource, rowDt)

/-- The checks of `update_outcome_dual` on the evidence of one window. -/
def evidenceAccepted (existing : Row) (expectedSource : Text) (windowSeconds : Int) (ev : PyValue) : Py Bool :=
  validatePriceEvidence ev (.str expectedSource) (normalizeSymbol existing.symbol) (.str existing.ts)
    windowSeconds

/-- The PATCH that `update_outcome_dual` builds for the row it has read, if its checks pass. -/
def settlementPatch (existing : Row) (call : SettlementCall) (observedAt : Civil) :
    Py (Option SettlementPatch) := do
  if call.primaryWindow ≠ txt "1h" then return none
  if existing.outcome.isSome then return none
  let direction := upper existing.prediction
  if direction ≠ txt "LONG" ∧ direction ≠ txt "SHORT" then return none
  match existingAudit existing.audit with
  | none => return none
  | some audit =>
      guardNot (!audit.isDict) .attributeError (txt "object has no attribute 'get'")
      let origin := audit.get (txt "origin_price_v1")
      match ← witnessAccepted existing origin with
      | none => return none
      | some (expectedSource, rowDt) =>
          if !(← evidenceAccepted existing expectedSource window15mS call.priceEvidence15m) then return none
          if !(← evidenceAccepted existing expectedSource window1hS call.priceEvidence1h) then return none
          let evidencePrice15m := call.priceEvidence15m.get (txt "price")
          let evidencePrice1h := call.priceEvidence1h.get (txt "price")
          if !(← priceMatches (.float call.price15mLater) evidencePrice15m) then return none
          if !(← priceMatches (.float call.price1hLater) evidencePrice1h) then return none
          let expected15m ← directionalOutcome direction (origin.get (txt "price")) evidencePrice15m
          let expected1h ← directionalOutcome direction (origin.get (txt "price")) evidencePrice1h
          match expected15m, expected1h with
          | some expected15m, some expected1h =>
              if upper call.outcome15m ≠ expected15m ∨ upper call.outcome1h ≠ expected1h then return none
              if (Datetime.toMicros observedAt : Int) < (← addSeconds rowDt window1hS) then return none
              let dual := outcomesDual call expected15m expected1h (Datetime.isoformat observedAt)
              return some ⟨expected1h, call.price15mLater, audit.set (txt "outcomes_dual") dual⟩
          | _, _ => return none

/-- The members of an audit that the local authority keeps. -/
def projectAudit : PyValue → PyValue
  | .dict members =>
      .dict (members.filter fun m => [txt "origin_price_v1", txt "outcomes_dual"].contains m.1)
  | _ => .ofMembers []

theorem lookup_filter {α : Type} {keep : Text → Bool} {key : Text} (kept : keep key = true)
    (members : List (Text × α)) :
    Json.lookup key (members.filter fun m => keep m.1) = Json.lookup key members := by
  induction members with
  | nil => rfl
  | cons m members ih =>
      rw [List.filter_cons, Json.lookup]
      by_cases same : key = m.1
      · rw [if_pos same, if_pos (same ▸ kept), Json.lookup, if_pos same]
      · rw [if_neg same]
        split
        · rw [Json.lookup, if_neg same, ih]
        · exact ih

theorem get_projectAudit {key : Text} (kept : [txt "origin_price_v1", txt "outcomes_dual"].contains key = true)
    {audit : PyValue} (dict : audit.isDict = true) : (projectAudit audit).get key = audit.get key := by
  cases audit with
  | dict members => simp only [projectAudit, PyValue.get, lookup_filter kept]
  | _ => cases dict

/-- `_authority_row_from_projection` of a row with its whole audit. -/
def authorityRowFromProjection (row : Row) : Row := { row with audit := projectAudit row.audit }

/-- What a call of `update_outcome_dual` does. -/
structure SettlementWrite where
  /-- The PATCH it sends for the first row it has read. -/
  sent : Option SettlementPatch
  /-- The row that goes to the local authority. -/
  writtenThrough : Option Row
  returned : Bool

/-- `existing` are the rows of a good answer to the GET.  `acknowledged` is the status of the answer
    to the PATCH with the number of rows in it, if there is an answer. -/
def updateOutcomeDual (writesAllowed : Bool) (existing : Option (List Row)) (call : SettlementCall)
    (observedAt : Civil) (acknowledged : Option (Nat × Nat)) : SettlementWrite :=
  if !writesAllowed then ⟨none, none, false⟩
  else
    match existing with
    | none | some [] => ⟨none, none, false⟩
    | some (existing :: _) =>
        match settlementPatch existing call observedAt with
        | .error _ | .ok none => ⟨none, none, false⟩
        | .ok (some patch) =>
            let success := acknowledged.any fun answer => [200, 204].contains answer.1 && decide (0 < answer.2)
            ⟨some patch, if success then some (authorityRowFromProjection (existing.patched patch)) else none,
              success⟩

end Settlement

end Senex
