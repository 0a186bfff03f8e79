import Senex.Settlement.Writer

/-! # The writer and the proof gate agree

A row that `update_outcome_dual` settles is a proof, whatever the market has said.
-/

namespace Senex.Settlement

open Text

/-! ## Readings -/

theorem floats_of_priceMatches {left right : PyValue} (matched : priceMatches left right = .ok true) :
    ∃ a b, left.toFloat = .ok a ∧ right.toFloat = .ok b ∧
      Double.isClose originPriceTol originPriceTol a b = true := by
  simp only [priceMatches, Py.bind_eq_ok] at matched
  obtain ⟨pair?, read, close⟩ := matched
  cases pair? with
  | none => cases close
  | some pair =>
      simp only [attempt_eq_some, Py.bind_eq_ok] at read
      obtain ⟨a, left_eq, b, right_eq, pair_eq⟩ := read
      cases pair_eq
      exact ⟨a, b, left_eq, right_eq, by simpa using close⟩

theorem outcomeOf_some {direction outcome : Text} {origin later : Double}
    (decided : outcomeOf direction origin later = some outcome) :
    notPositive origin = false ∧ notPositive later = false ∧ validOutcomes.contains outcome = true := by
  unfold outcomeOf at decided
  split at decided
  · cases decided
  · rename_i sound
    simp only [Bool.or_eq_true, not_or, Bool.not_eq_true] at sound
    refine ⟨sound.1.1.1, sound.1.1.2, ?_⟩
    split_ifs at decided <;> cases decided <;> decide

theorem outcomeOf_of_directional {direction outcome : Text} {origin later : PyValue} {a b : Double}
    (decided : directionalOutcome direction origin later = .ok (some outcome))
    (origin_eq : origin.toFloat = .ok a) (later_eq : later.toFloat = .ok b) :
    outcomeOf direction a b = some outcome := by
  simpa [directionalOutcome, origin_eq, later_eq] using decided

/-- What valid evidence has in it. -/
theorem validatePriceEvidence_inv {ev exchange ts : PyValue} {symbol : Text} {windowSeconds : Int}
    (valid : validatePriceEvidence ev exchange symbol ts windowSeconds = .ok true) :
    normalizeSymbol symbol ≠ [] ∧ ∃ targetMs, targetEpochMs ts windowSeconds = .ok (some targetMs) ∧
      (ev.get (txt "target_epoch_ms")).toInt = .ok targetMs := by
  simp only [validatePriceEvidence, Py.return_false_or, Py.bind_eq_ok] at valid
  obtain ⟨-, target?, target_eq, valid⟩ := valid
  split at valid
  · rename_i targetMs _
    simp only [Py.return_false_or, Py.bind_eq_ok] at valid
    obtain ⟨symbol_ne, -, numbers?, read, valid⟩ := valid
    refine ⟨symbol_ne, targetMs, target_eq, ?_⟩
    cases numbers? with
    | none => cases valid
    | some n =>
        simp only [Py.return_false_or, Bool.not_eq_true', Bool.not_eq_false] at valid
        have target : n.target = targetMs := by
          have fit := valid.1
          simp only [EvidenceNumbers.fit, Bool.and_eq_true, decide_eq_true_eq] at fit
          exact fit.1.1.1.1.1.1.2
        simp only [attempt_eq_some, readEvidenceNumbers, Py.bind_eq_ok, Py.pure_eq_ok, Except.ok.injEq] at read
        obtain ⟨_, -, _, stated, _, -, _, -, _, -, _, -, rfl⟩ := read
        rwa [← target]
  · cases valid

theorem notPositive_minimum {first : Double} {rest : List Double}
    (positive : ∀ x ∈ first :: rest, notPositive x = false) :
    (Double.minimum first rest).le (Double.round 0) = false :=
  positive _ (Double.minimum_mem first rest)

/-! ## The writer's checks -/

/-- What the checks of `update_outcome_dual` on the witness establish. -/
structure Witnessed (existing : Row) (origin : PyValue) (source : Text) (rowDt : Civil) : Prop where
  dict : origin.isDict = true
  version : (origin.get (txt "version")).eqText (txt "origin-price-v1") = true
  rowSource : normalizeExchange (.str existing.exchangeUsed) = some source
  originSource : normalizeExchange (origin.get (txt "source")) = some source
  rowInstant : parseUtc (.str existing.ts) = .ok (some rowDt)
  originInstant : parseUtc (origin.get (txt "timestamp")) = .ok (some rowDt)
  price : priceMatches (origin.get (txt "price")) existing.priceNow = .ok true

theorem witnessed_of_accepted {existing : Row} {origin : PyValue} {source : Text} {rowDt : Civil}
    (accepted : witnessAccepted existing origin = .ok (some (source, rowDt))) :
    Witnessed existing origin source rowDt := by
  simp only [witnessAccepted, Py.return_none_or, Bool.or_eq_true, not_or, Bool.not_eq_true',
    Bool.not_eq_false] at accepted
  obtain ⟨⟨dict, version⟩, accepted⟩ := accepted
  split at accepted
  · cases accepted
  · rename_i expected rowSource
    simp only [Py.return_none_or, Py.bind_eq_ok, not_not] at accepted
    obtain ⟨originSource, rowDt?, rowInstant, accepted⟩ := accepted
    cases rowDt? with
    | none => cases accepted
    | some found =>
        simp only [Py.return_none_or, Py.bind_eq_ok, not_not, Bool.not_eq_false] at accepted
        obtain ⟨_, originInstant, rfl, _, price, rfl, accepted⟩ := accepted
        cases accepted
        exact ⟨dict, version, rowSource, originSource, rowInstant, originInstant, price⟩

/-- What the checks of `update_outcome_dual` establish. -/
structure Accepted (existing : Row) (call : SettlementCall) (observedAt : Civil) (audit : PyValue)
    (source : Text) (rowDt : Civil) (expected15m expected1h : Text) : Prop where
  window : call.primaryWindow = txt "1h"
  direction : upper existing.prediction = txt "LONG" ∨ upper existing.prediction = txt "SHORT"
  audit_eq : existingAudit existing.audit = some audit
  dict : audit.isDict = true
  witness : witnessAccepted existing (audit.get (txt "origin_price_v1")) = .ok (some (source, rowDt))
  evidence15m : evidenceAccepted existing source window15mS call.priceEvidence15m = .ok true
  evidence1h : evidenceAccepted existing source window1hS call.priceEvidence1h = .ok true
  price15m : priceMatches (.float call.price15mLater) (call.priceEvidence15m.get (txt "price")) = .ok true
  price1h : priceMatches (.float call.price1hLater) (call.priceEvidence1h.get (txt "price")) = .ok true
  outcome15m : directionalOutcome (upper existing.prediction)
    ((audit.get (txt "origin_price_v1")).get (txt "price"))
    (call.priceEvidence15m.get (txt "price")) = .ok (some expected15m)
  outcome1h : directionalOutcome (upper existing.prediction)
    ((audit.get (txt "origin_price_v1")).get (txt "price"))
    (call.priceEvidence1h.get (txt "price")) = .ok (some expected1h)
  observed : ∃ later, addSeconds rowDt window1hS = .ok later ∧ later ≤ Datetime.toMicros observedAt

theorem accepted_of_patch {existing : Row} {call : SettlementCall} {observedAt : Civil}
    {patch : SettlementPatch} (built : settlementPatch existing call observedAt = .ok (some patch)) :
    ∃ audit source rowDt expected15m expected1h,
      Accepted existing call observedAt audit source rowDt expected15m expected1h ∧
      patch = ⟨expected1h, call.price15mLater, audit.set (txt "outcomes_dual")
        (outcomesDual call expected15m expected1h (Datetime.isoformat observedAt))⟩ := by
  simp only [settlementPatch, Py.return_none_or] at built
  obtain ⟨window, -, direction, built⟩ := built
  split at built
  · cases built
  · rename_i audit audit_eq
    simp only [Py.bind_eq_ok, guardNot_eq_ok, Bool.not_eq_false'] at built
    obtain ⟨-, dict, witness?, witness, built⟩ := built
    cases witness? with
    | none => cases built
    | some found =>
        obtain ⟨source, rowDt⟩ := found
        simp only [Py.bind_eq_ok, Py.return_none_or, Bool.not_eq_true', Bool.not_eq_false] at built
        obtain ⟨_, evidence15m, rfl, _, evidence1h, rfl, _, price15m, rfl, _, price1h, rfl, expected15m?,
          outcome15m, expected1h?, outcome1h, built⟩ := built
        cases expected15m? with
        | none => cases built
        | some expected15m =>
            cases expected1h? with
            | none => cases built
            | some expected1h =>
                simp only [Py.bind_eq_ok, Py.return_none_or] at built
                obtain ⟨-, later, reached, notEarly, built⟩ := built
                rw [Py.pure_eq_ok, Except.ok.injEq, Option.some.injEq] at built
                refine ⟨audit, source, rowDt, expected15m, expected1h, ?_, built.symm⟩
                exact {
                  window := not_not.mp window
                  direction := Decidable.or_iff_not_not_and_not.mpr direction
                  audit_eq, dict, witness, evidence15m, evidence1h, price15m, price1h, outcome15m, outcome1h
                  observed := ⟨later, reached, not_lt.mp notEarly⟩ }

/-! ## A row that has been settled -/

/-- What a settlement has written as `outcomes_dual`. -/
structure DualWritten (dual : PyValue) (outcome15m outcome1h : Text) (price15m price1h : Double)
    (evidence15m evidence1h : PyValue) (observedAt : Civil) : Prop where
  dict : dual.isDict = true
  outcome15m_eq : dual.get (txt "outcome_15m") = .str outcome15m
  outcome1h_eq : dual.get (txt "outcome_1h") = .str outcome1h
  price15m_eq : dual.get (txt "price_15m_later") = .float price15m
  price1h_eq : dual.get (txt "price_1h_later") = .float price1h
  window_eq : dual.get (txt "primary_window") = .str (txt "1h")
  version_eq : dual.get (txt "settlement_contract_version") = .str (txt "aud063-v1")
  evidence_eq : dual.get (txt "price_evidence_v1") =
    .ofMembers [(txt "15m", evidence15m), (txt "1h", evidence1h)]
  observation_eq : ∃ writer, dual.get (txt "settlement_observation_v1") =
    settlementObservation (Datetime.isoformat observedAt) writer

section
variable {row : Row} {dual origin evidence15m evidence1h : PyValue} {outcome15m outcome1h source : Text}
  {price15m price1h : Double} {observedAt rowDt : Civil}

theorem DualWritten.contractProved
    (written : DualWritten dual outcome15m outcome1h price15m price1h evidence15m evidence1h observedAt)
    (valid15m : validOutcomes.contains outcome15m = true)
    (valid1h : validOutcomes.contains outcome1h = true) (outcome : row.outcome = some outcome1h) :
    contractProved row dual = .ok true := by
  simp only [Settlement.contractProved, written.window_eq, written.version_eq, written.outcome15m_eq,
    written.outcome1h_eq, isOutcome, valid15m, valid1h, outcome]
  simp

theorem DualWritten.observationProved
    (written : DualWritten dual outcome15m outcome1h price15m price1h evidence15m evidence1h observedAt)
    {targetMs later : Int} (reached : addSeconds rowDt window1hS = .ok later)
    (notEarly : later ≤ Datetime.toMicros observedAt)
    (target : targetEpochMs (.str row.ts) window1hS = .ok (some targetMs))
    (stated : (evidence1h.get (txt "target_epoch_ms")).toInt = .ok targetMs) :
    observationProved row rowDt dual evidence1h = .ok true := by
  obtain ⟨writer, observation⟩ := written.observation_eq
  simp [Settlement.observationProved, observation, settlementObservation, Json.lookup,
    parseUtc_isoformat, reached, notEarly, target, stated]

theorem DualWritten.pricesProved
    (written : DualWritten dual outcome15m outcome1h price15m price1h evidence15m evidence1h observedAt)
    {rowPrice witness : Double} (row_eq : row.priceNow.toFloat = .ok rowPrice)
    (witness_eq : (origin.get (txt "price")).toFloat = .ok witness) :
    pricesProved row origin dual =
      if (Double.minimum witness [rowPrice, price15m, price1h]).le (Double.round 0) = false ∧
          Double.isClose originPriceTol originPriceTol witness rowPrice = true then
        .ok (some ⟨witness, rowPrice, price15m, price1h⟩)
      else .ok none := by
  simp only [Settlement.pricesProved, readProofPrices, row_eq, witness_eq, written.price15m_eq,
    written.price1h_eq, PyValue.toFloat_float, Py.ok_bind, Py.pure_eq_ok, attempt_ok, priceMatches]
  cases (Double.minimum witness [rowPrice, price15m, price1h]).le (Double.round 0) <;>
    cases Double.isClose originPriceTol originPriceTol witness rowPrice <;> simp

/-- A witness without a price proves nothing. -/
theorem pricesProved_of_unreadable {e : Raised} (unreadable : (origin.get (txt "price")).toFloat = .error e)
    {p : ProofPrices} : pricesProved row origin dual ≠ .ok (some p) := by
  simp only [Settlement.pricesProved, readProofPrices, unreadable, Py.error_bind, attempt]
  split <;> simp

/-- What the proof gate finds in a settled row, but for the price of the witness. -/
structure RowProved (row : Row) (dual evidence15m evidence1h : PyValue) (outcome15m outcome1h : Text)
    (rowPrice price15m price1h : Double) (observedAt : Civil) : Prop where
  written : DualWritten dual outcome15m outcome1h price15m price1h evidence15m evidence1h observedAt
  dual_eq : (asAudit row).get (txt "outcomes_dual") = dual
  outcome : row.outcome = some outcome1h
  valid15m : validOutcomes.contains outcome15m = true
  valid1h : validOutcomes.contains outcome1h = true
  direction : upper row.prediction = txt "LONG" ∨ upper row.prediction = txt "SHORT"
  originDict : ((asAudit row).get (txt "origin_price_v1")).isDict = true
  row_eq : row.priceNow.toFloat = .ok rowPrice
  positive : ∀ x ∈ [rowPrice, price15m, price1h], notPositive x = false
  matches15m : priceMatches (.float price15m) (evidence15m.get (txt "price")) = .ok true
  matches1h : priceMatches (.float price1h) (evidence1h.get (txt "price")) = .ok true
  checked : ∃ rowDt source later,
    originProved row ((asAudit row).get (txt "origin_price_v1")) = .ok (some (rowDt, source)) ∧
    evidenceProved row source window15mS evidence15m = .ok true ∧
    evidenceProved row source window1hS evidence1h = .ok true ∧
    addSeconds rowDt window1hS = .ok later ∧ later ≤ Datetime.toMicros observedAt

/-- The price of the witness decides: it has to match the row's price and to give the outcomes
    that are written. -/
theorem RowProved.proofQualified {rowPrice : Double}
    (proved : RowProved row dual evidence15m evidence1h outcome15m outcome1h rowPrice price15m price1h
      observedAt) :
    isProofQualified row = .ok true ↔
      ∃ witness, (((asAudit row).get (txt "origin_price_v1")).get (txt "price")).toFloat = .ok witness ∧
        Double.isClose originPriceTol originPriceTol witness rowPrice = true ∧
        outcomeOf (upper row.prediction) witness price15m = some outcome15m ∧
        outcomeOf (upper row.prediction) witness price1h = some outcome1h := by
  obtain ⟨rowDt, source, later, origin, proved15m, proved1h, reached, notEarly⟩ := proved.checked
  have direction : ¬ (upper row.prediction ≠ txt "LONG" ∧ upper row.prediction ≠ txt "SHORT") :=
    Decidable.or_iff_not_not_and_not.mp proved.direction
  have written := proved.written
  have valid : row.outcome.any validOutcomes.contains = true := by
    rw [proved.outcome]
    exact proved.valid1h
  have contract := written.contractProved proved.valid15m proved.valid1h proved.outcome
  obtain ⟨-, targetMs, target, stated⟩ := validatePriceEvidence_inv proved1h
  have observation := written.observationProved reached notEarly target stated
  have historical : (PyValue.ofMembers [(txt "15m", evidence15m), (txt "1h", evidence1h)]).get (txt "15m") =
      evidence15m ∧
      (PyValue.ofMembers [(txt "15m", evidence15m), (txt "1h", evidence1h)]).get (txt "1h") = evidence1h := by
    simp [Json.lookup]
  have outcomes (witness at15m : Double) :
      directionalOutcome (upper row.prediction) (.float witness) (.float at15m) =
        .ok (outcomeOf (upper row.prediction) witness at15m) := rfl
  simp only [isProofQualified, valid, direction, proved.dual_eq, proved.originDict, written.dict, origin,
    Py.ok_bind, Bool.not_true, Bool.false_eq_true, Bool.or_false, if_false]
  cases witness_eq : (((asAudit row).get (txt "origin_price_v1")).get (txt "price")).toFloat with
  | error e =>
      simp only [reduceCtorEq, false_and, exists_false, iff_false, Py.bind_eq_ok]
      rintro ⟨p?, read, rest⟩
      cases p? with
      | none => cases rest
      | some p => exact pricesProved_of_unreadable witness_eq read
  | ok witness =>
      rw [written.pricesProved proved.row_eq witness_eq]
      simp only [Except.ok.injEq, exists_eq_left']
      split
      · rename_i priced
        simp only [contract, written.evidence_eq, historical, proved15m, proved1h, proved.matches15m,
          proved.matches1h, observation, outcomes, written.outcome15m_eq, written.outcome1h_eq, priced.2,
          PyValue.isDict_ofMembers, Py.ok_bind, Bool.not_true, Bool.false_eq_true, if_false, true_and]
        generalize outcomeOf (upper row.prediction) witness price15m = at15m
        generalize outcomeOf (upper row.prediction) witness price1h = at1h
        cases at15m with
        | none => simp
        | some at15m =>
            cases at1h with
            | none => simp
            | some at1h => simp [@eq_comm _ outcome15m, @eq_comm _ outcome1h]
      · rename_i unpriced
        simp only [Py.ok_bind, Py.pure_eq_ok, Except.ok.injEq, Bool.false_eq_true, false_iff]
        rintro ⟨close, decided15m, _⟩
        apply unpriced
        refine ⟨notPositive_minimum ?_, close⟩
        intro x member
        cases member with
        | head => exact (outcomeOf_some decided15m).1
        | tail _ member => exact proved.positive x member

end

/-! ## The writer's row is a proof -/

section
variable {existing : Row} {call : SettlementCall} {observedAt : Civil} {audit : PyValue} {source : Text}
  {rowDt : Civil} {expected15m expected1h : Text}

/-- The `outcomes_dual` that the writer stores. -/
def settledDual (call : SettlementCall) (observedAt : Civil) (expected15m expected1h : Text) : PyValue :=
  outcomesDual call expected15m expected1h (Datetime.isoformat observedAt)

/-- The row with the writer's PATCH in place. -/
def settledRow (existing : Row) (call : SettlementCall) (observedAt : Civil) (audit : PyValue)
    (expected15m expected1h : Text) : Row :=
  existing.patched ⟨expected1h, call.price15mLater,
    audit.set (txt "outcomes_dual") (settledDual call observedAt expected15m expected1h)⟩

theorem settledDual_written (window : call.primaryWindow = txt "1h") :
    DualWritten (settledDual call observedAt expected15m expected1h) expected15m expected1h
      call.price15mLater call.price1hLater call.priceEvidence15m call.priceEvidence1h observedAt := by
  constructor <;> simp [settledDual, outcomesDual, Json.lookup, window]

theorem origin_settledRow (dict : audit.isDict = true) :
    (asAudit (settledRow existing call observedAt audit expected15m expected1h)).get (txt "origin_price_v1") =
      audit.get (txt "origin_price_v1") := by
  have audit_eq : asAudit (settledRow existing call observedAt audit expected15m expected1h) =
      audit.set (txt "outcomes_dual") (settledDual call observedAt expected15m expected1h) := by
    simp [asAudit, settledRow, Row.patched, dict]
  rw [audit_eq, PyValue.get_set_of_ne _ (by simp)]

theorem dual_settledRow (dict : audit.isDict = true) :
    (asAudit (settledRow existing call observedAt audit expected15m expected1h)).get (txt "outcomes_dual") =
      settledDual call observedAt expected15m expected1h := by
  simp [asAudit, settledRow, Row.patched, dict, PyValue.get_set_self]

theorem Witnessed.originProved {origin : PyValue} {row : Row} (witness : Witnessed existing origin source rowDt)
    (ts : row.ts = existing.ts) (exchange : row.exchangeUsed = existing.exchangeUsed)
    (symbol : normalizeSymbol row.symbol ≠ []) :
    originProved row origin = .ok (some (rowDt, source)) := by
  simp [Settlement.originProved, ts, exchange, symbol, witness.version, witness.rowSource,
    witness.originSource, witness.rowInstant, witness.originInstant]

/-- The row's price can be read and is positive. -/
def Row.PositivePrice (row : Row) : Prop :=
  ∃ price, row.priceNow.toFloat = .ok price ∧ notPositive price = false

/-- The prices of a call are those of its evidence. -/
structure SettlementCall.FromEvidence (call : SettlementCall) : Prop where
  price15m : (call.priceEvidence15m.get (txt "price")).toFloat = .ok call.price15mLater
  price1h : (call.priceEvidence1h.get (txt "price")).toFloat = .ok call.price1hLater

theorem fromEvidence_of_pending {market15m market1h : Market} {pending : Row}
    (called : verifyPending market15m market1h pending = .ok (some call)) : call.FromEvidence := by
  simp only [verifyPending, Py.return_none_or, Py.bind_eq_ok] at called
  obtain ⟨-, _, -, -, -, called⟩ := called
  split at called
  · cases called
  · simp only [Py.return_none_or, Py.bind_eq_ok] at called
    obtain ⟨-, ev15m?, -, ev1h?, -, called⟩ := called
    split at called
    · simp only [Py.bind_eq_ok] at called
      obtain ⟨price15m, read15m, price1h, read1h, outcome15m?, -, outcome1h?, -, called⟩ := called
      split at called
      · cases called
        exact ⟨read15m, read1h⟩
      · cases called
    · cases called

/-- The recomputed outcomes are the expected ones. -/
theorem Accepted.recomputed
    (accepted : Accepted existing call observedAt audit source rowDt expected15m expected1h)
    (prices : call.FromEvidence) :
    ∃ origin row, ((audit.get (txt "origin_price_v1")).get (txt "price")).toFloat = .ok origin ∧
      existing.priceNow.toFloat = .ok row ∧
      Double.isClose originPriceTol originPriceTol origin row = true ∧
      outcomeOf (upper existing.prediction) origin call.price15mLater = some expected15m ∧
      outcomeOf (upper existing.prediction) origin call.price1hLater = some expected1h := by
  have witness := witnessed_of_accepted accepted.witness
  obtain ⟨origin, row, origin_eq, row_eq, matched⟩ := floats_of_priceMatches witness.price
  exact ⟨origin, row, origin_eq, row_eq, matched,
    outcomeOf_of_directional accepted.outcome15m origin_eq prices.price15m,
    outcomeOf_of_directional accepted.outcome1h origin_eq prices.price1h⟩

theorem Accepted.proofQualified
    (accepted : Accepted existing call observedAt audit source rowDt expected15m expected1h)
    (prices : call.FromEvidence) (positive : existing.PositivePrice) :
    isProofQualified (settledRow existing call observedAt audit expected15m expected1h) = .ok true := by
  have witness := witnessed_of_accepted accepted.witness
  obtain ⟨origin, rowPrice, origin_eq, row_eq, matched, decided15m, decided1h⟩ := accepted.recomputed prices
  obtain ⟨originPositive, positive15m, valid15m⟩ := outcomeOf_some decided15m
  obtain ⟨-, positive1h, valid1h⟩ := outcomeOf_some decided1h
  obtain ⟨rowPrice', row_eq', rowPositive⟩ := positive
  obtain rfl : rowPrice = rowPrice' := Except.ok.inj (row_eq.symm.trans row_eq')
  obtain ⟨symbol_ne, -⟩ := validatePriceEvidence_inv accepted.evidence15m
  rw [normalizeSymbol_normalizeSymbol] at symbol_ne
  obtain ⟨later, reached, notEarly⟩ := accepted.observed
  have written := @settledDual_written call observedAt expected15m expected1h accepted.window
  have origin_settled := @origin_settledRow existing call observedAt audit expected15m expected1h accepted.dict
  have proved : RowProved (settledRow existing call observedAt audit expected15m expected1h)
      (settledDual call observedAt expected15m expected1h) call.priceEvidence15m call.priceEvidence1h
      expected15m expected1h rowPrice call.price15mLater call.price1hLater observedAt := {
    written
    dual_eq := dual_settledRow accepted.dict
    outcome := rfl
    valid15m, valid1h
    direction := accepted.direction
    originDict := by rw [origin_settled]; exact witness.dict
    row_eq
    positive := by simp [rowPositive, positive15m, positive1h]
    matches15m := accepted.price15m
    matches1h := accepted.price1h
    checked := by
      refine ⟨rowDt, source, later, ?_, accepted.evidence15m, accepted.evidence1h, reached, notEarly⟩
      rw [origin_settled]
      exact witness.originProved rfl rfl symbol_ne }
  rw [proved.proofQualified, origin_settled]
  exact ⟨origin, origin_eq, matched, decided15m, decided1h⟩

end

/-- The proof gate reads two members of an audit. -/
theorem isProofQualified_congr {row : Row} {audit : PyValue}
    (origin : (asAudit { row with audit }).get (txt "origin_price_v1") =
      (asAudit row).get (txt "origin_price_v1"))
    (dual : (asAudit { row with audit }).get (txt "outcomes_dual") =
      (asAudit row).get (txt "outcomes_dual")) :
    isProofQualified { row with audit } = isProofQualified row := by
  unfold isProofQualified
  rw [origin, dual]
  rfl

theorem isProofQualified_projection {row : Row} (dict : row.audit.isDict = true) :
    isProofQualified (authorityRowFromProjection row) = isProofQualified row := by
  have projected : (projectAudit row.audit).isDict = true := by
    cases audit : row.audit with
    | dict => rfl
    | _ => rw [audit] at dict; cases dict
  apply isProofQualified_congr <;>
    simp only [asAudit, dict, projected, if_true] <;> exact get_projectAudit (by decide) dict

/-- What stands in a settled row: a proof, whose outcomes are those that its prices give. -/
structure ProvenRow (row : Row) : Prop where
  qualified : isProofQualified row = .ok true
  recomputed : ∃ outcome15m outcome1h,
    directionalOutcome (upper row.prediction)
        (((asAudit row).get (txt "origin_price_v1")).get (txt "price"))
        (((asAudit row).get (txt "outcomes_dual")).get (txt "price_15m_later")) = .ok (some outcome15m) ∧
    directionalOutcome (upper row.prediction)
        (((asAudit row).get (txt "origin_price_v1")).get (txt "price"))
        (((asAudit row).get (txt "outcomes_dual")).get (txt "price_1h_later")) = .ok (some outcome1h) ∧
    ((asAudit row).get (txt "outcomes_dual")).get (txt "outcome_15m") = .str outcome15m ∧
    ((asAudit row).get (txt "outcomes_dual")).get (txt "outcome_1h") = .str outcome1h ∧
    row.outcome = some outcome1h

/-- Whatever the market has said, a row that `update_outcome_dual` settles as the verifier calls
    it is a proof, in D1 and in the local authority. -/
theorem updateOutcomeDual_proven {market15m market1h : Market} {pending existing : Row} {others : List Row}
    {call : SettlementCall} {writesAllowed : Bool} {observedAt : Civil} {acknowledged : Option (Nat × Nat)}
    {patch : SettlementPatch}
    (called : verifyPending market15m market1h pending = .ok (some call))
    (positive : existing.PositivePrice)
    (sent : (updateOutcomeDual writesAllowed (some (existing :: others)) call observedAt acknowledged).sent =
      some patch) :
    ProvenRow (existing.patched patch) ∧
      isProofQualified (authorityRowFromProjection (existing.patched patch)) = .ok true := by
  have prices := fromEvidence_of_pending called
  have built : settlementPatch existing call observedAt = .ok (some patch) := by
    unfold updateOutcomeDual at sent
    split at sent
    · cases sent
    · simp only at sent
      split at sent
      · cases sent
      · cases sent
      · rename_i sent?
        rw [sent?]
        rw [Option.some.inj sent]
  obtain ⟨audit, source, rowDt, expected15m, expected1h, accepted, rfl⟩ := accepted_of_patch built
  obtain ⟨origin, _, origin_eq, -, -, decided15m, decided1h⟩ := accepted.recomputed prices
  have qualified := accepted.proofQualified prices positive
  have written := @settledDual_written call observedAt expected15m expected1h accepted.window
  have origin_settled := @origin_settledRow existing call observedAt audit expected15m expected1h accepted.dict
  have dual_settled := @dual_settledRow existing call observedAt audit expected15m expected1h accepted.dict
  have dict : (settledRow existing call observedAt audit expected15m expected1h).audit.isDict = true := by
    rw [settledRow, Row.patched, PyValue.isDict_set]
    exact accepted.dict
  have price_eq (at15m : Double) : directionalOutcome (upper existing.prediction)
      ((audit.get (txt "origin_price_v1")).get (txt "price")) (.float at15m) =
      .ok (outcomeOf (upper existing.prediction) origin at15m) := by
    simp [directionalOutcome, origin_eq]
  refine ⟨⟨qualified, expected15m, expected1h, ?_, ?_, ?_, ?_, rfl⟩, ?_⟩
  · rw [← settledDual, ← settledRow, origin_settled, dual_settled, written.price15m_eq]
    exact (price_eq _).trans (congrArg Except.ok decided15m)
  · rw [← settledDual, ← settledRow, origin_settled, dual_settled, written.price1h_eq]
    exact (price_eq _).trans (congrArg Except.ok decided1h)
  · rw [← settledDual, ← settledRow, dual_settled, written.outcome15m_eq]
  · rw [← settledDual, ← settledRow, dual_settled, written.outcome1h_eq]
  · rw [← settledDual, ← settledRow, isProofQualified_projection dict]
    exact qualified

/-- A pending row of a minute that opens at 2026-01-01T00:00:00Z. -/
def pendingRow : Row where
  id := 1
  ts := txt "2026-01-01T00:00:00+00:00"
  symbol := txt "BTCUSDT"
  prediction := txt "LONG"
  exchangeUsed := txt "okx"
  priceNow := .int 100
  price15mLater := .none
  outcome := none
  audit := .ofMembers [
    (txt "origin_price_v1", .ofMembers [
      (txt "version", .str (txt "origin-price-v1")),
      (txt "source", .str (txt "okx")),
      (txt "timestamp", .str (txt "2026-01-01T00:00:00Z")),
      (txt "price", .int 100)])]

/-- The next two candles close at 101, as read two hours later. -/
def risingMarket : Market where
  fetchOhlcv _ _ since := some [.list [.int (since + 60000), .int 100, .int 101, .int 100, .int 101, .int 1]]
  now := ⟨2026, 1, 1, 2, 0, 0, 0, by decide⟩

theorem updateOutcomeDual_proven_rising : ∃ call patch,
    verifyPending risingMarket risingMarket pendingRow = .ok (some call) ∧
    (updateOutcomeDual true (some [pendingRow]) call risingMarket.now (some (200, 1))).sent = some patch ∧
    ProvenRow (pendingRow.patched patch) ∧
    isProofQualified (authorityRowFromProjection (pendingRow.patched patch)) = .ok true := by
  have settles : ((verifyPending risingMarket risingMarket pendingRow).toOption.join.bind fun call =>
      (updateOutcomeDual true (some [pendingRow]) call risingMarket.now (some (200, 1))).sent).isSome = true := by
    decide +kernel
  have positive : pendingRow.PositivePrice := ⟨Double.round 100, by decide +kernel, by decide +kernel⟩
  obtain ⟨patch, settled⟩ := Option.isSome_iff_exists.mp settles
  obtain ⟨call, called, sent⟩ := Option.bind_eq_some_iff.mp settled
  have called : verifyPending risingMarket risingMarket pendingRow = .ok (some call) := by
    cases result : verifyPending risingMarket risingMarket pendingRow with
    | error e => rw [result] at called; cases called
    | ok call? => rw [result] at called; exact congrArg Except.ok called
  exact ⟨call, patch, called, sent, updateOutcomeDual_proven called positive sent⟩

end Senex.Settlement
