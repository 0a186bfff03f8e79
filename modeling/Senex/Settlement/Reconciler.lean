import Senex.Settlement.Agreement

/-! # The reconciler

`settlement_reconciler.py` adds `outcomes_dual` to a row whose outcome is already written.  It
takes the outcomes from the row's own price and never reads the price of the witness, which the
proof gate goes by.
-/

namespace Senex.Settlement

open Text

/-! ## The repair of a row -/

/-- What `_repair_row` reports where it repairs nothing. -/
inductive Unrepaired where
  | conflict | skipped | error
  deriving Repr, DecidableEq

/-- What `_repair_row` reports. -/
inductive RepairResult where
  | repaired
  | unrepaired (reported : Unrepaired)
  deriving Repr, DecidableEq

/-- The body of the PATCH. -/
structure RepairPatch where
  price15mLater : Double
  audit : PyValue

/-- `_audit_dict` -/
def auditDict : PyValue → PyValue
  | .dict members => .dict members
  | .str text =>
      match PyValue.loads text with
      | some (.dict members) => .dict members
      | _ => .ofMembers []
  | _ => .ofMembers []

/-- The `outcomes_dual` of `_repair_row`. -/
def repairedDual (outcome15m outcome1h : Text) (price15m price1h : Double) (ev15m ev1h : PyValue)
    (observedAt : Text) : PyValue :=
  .ofMembers [
    (txt "outcome_15m", .str outcome15m),
    (txt "outcome_1h", .str outcome1h),
    (txt "price_15m_later", .float price15m),
    (txt "price_1h_later", .float price1h),
    (txt "primary_window", .str (txt "1h")),
    (txt "settlement_contract_version", .str (txt "aud063-v1")),
    (txt "price_evidence_v1", .ofMembers [(txt "15m", ev15m), (txt "1h", ev1h)]),
    (txt "reconciled_by", .str (txt "SENEX-SCORE-002-REPAIR-ONLY")),
    (txt "reconciled_at", .str observedAt),
    (txt "settlement_observation_v1",
      settlementObservation observedAt (txt "SENEX_SCORE_002_RECONCILER_REPAIR_ONLY"))]

/-- Whether the row and its witness are of one source and one instant. -/
def witnessRepairable (row : Row) (origin : PyValue) : Py (Option Text) := do
  if !origin.isDict || !(origin.get (txt "version")).eqText (txt "origin-price-v1") then return none
  match normalizeExchange (.str row.exchangeUsed) with
  | none => return none
  | some source =>
      if normalizeExchange (origin.get (txt "source")) ≠ some source then return none
      if (← parseUtc (origin.get (txt "timestamp"))) ≠ (← parseUtc (.str row.ts)) then return none
      return some source

/-- `_repair_row` up to the PATCH: what it reports without one, or the body. -/
def repairPatch (market15m market1h : Market) (now : Civil) (row : Row) :
    Py (Unrepaired ⊕ RepairPatch) := do
  if !row.outcome.any validOutcomes.contains then return .inl .skipped
  let direction := upper row.prediction
  if direction ≠ txt "LONG" ∧ direction ≠ txt "SHORT" then return .inl .skipped
  match ← floatOrZero row.priceNow with
  | none => return .inl .skipped
  | some originPrice =>
      if notPositive originPrice then return .inl .skipped
      let audit := auditDict row.audit
      if !(audit.get (txt "outcomes_dual")).isNone then return .inl .skipped
      match ← witnessRepairable row (audit.get (txt "origin_price_v1")) with
      | none => return .inl .skipped
      | some source =>
          let symbol := normalizeSymbol row.symbol
          let ev15m ← fetchHistoricalPriceEvidence market15m (.str source) symbol (.str row.ts) window15mS
          let ev1h ← fetchHistoricalPriceEvidence market1h (.str source) symbol (.str row.ts) window1hS
          match ev15m, ev1h with
          | some ev15m, some ev1h =>
              let p15m ← (ev15m.get (txt "price")).toFloat
              let p1h ← (ev1h.get (txt "price")).toFloat
              let o15m ← directionalOutcome direction (.float originPrice) (.float p15m)
              let o1h ← directionalOutcome direction (.float originPrice) (.float p1h)
              match o15m, o1h with
              | some o15m, some o1h =>
                  -- A disagreement is a conflict of the past, which is not rewritten.
                  if row.outcome ≠ some o1h then return .inl .conflict
                  let dual := repairedDual o15m o1h p15m p1h ev15m ev1h (Datetime.isoformat now)
                  return .inr ⟨p15m, audit.set (txt "outcomes_dual") dual⟩
              | _, _ => return .inl .skipped
          | _, _ => return .inl .error

/-- What `_repair_row` sends and reports. -/
structure Repair where
  sent : Option RepairPatch
  returned : RepairResult

/-- `answer` is the status of the answer to the PATCH with the number of rows in it. -/
def repairRow (market15m market1h : Market) (now : Civil) (row : Row) (answer : Nat × Nat) : Py Repair := do
  match ← repairPatch market15m market1h now row with
  | .inl reported => return ⟨none, .unrepaired reported⟩
  | .inr patch =>
      let repaired := [200, 204].contains answer.1 && decide (0 < answer.2)
      return ⟨some patch, if repaired then .repaired else .unrepaired .error⟩

/-- The row with the members of the PATCH in place. -/
def Row.repaired (row : Row) (patch : RepairPatch) : Row :=
  { row with price15mLater := .float patch.price15mLater, audit := patch.audit }

/-! ## What a repair has checked -/

theorem Py.return_inl_or {α β : Type} {c : Prop} [Decidable c] {rest : Py (α ⊕ β)} {a : α} {b : β} :
    (if c then pure (.inl a) else rest) = .ok (.inr b) ↔ ¬c ∧ rest = .ok (.inr b) := by
  by_cases h : c <;> simp [h]

theorem floatOrZero_some {value : PyValue} {price : Double} (read : floatOrZero value = .ok (some price))
    (positive : notPositive price = false) : value.toFloat = .ok price := by
  rw [floatOrZero, attempt_eq_some] at read
  split at read
  · exact read
  · cases read
    exact absurd positive (by decide +kernel)

/-- Evidence that is fetched, with the reading it comes from. -/
theorem reading_of_fetched {market : Market} {exchange : PyValue} {symbol : Text} {tsIso : PyValue}
    {windowSeconds : Int} {ev : PyValue}
    (fetched : fetchHistoricalPriceEvidence market exchange symbol tsIso windowSeconds = .ok (some ev)) :
    ∃ source, normalizeExchange exchange = some source ∧
      ∃ r : PriceReading (.str source) (normalizeSymbol symbol) tsIso windowSeconds, ev = r.evidence := by
  simp only [fetchHistoricalPriceEvidence, Py.bind_eq_ok] at fetched
  obtain ⟨target?, -, fetched⟩ := fetched
  split at fetched
  · rename_i source targetMs exchange_eq
    rw [Py.return_none_or] at fetched
    obtain ⟨-, fetched⟩ := fetched
    split at fetched
    · cases fetched
    · exact ⟨source, exchange_eq, reading_of_candles fetched⟩
  · cases fetched

/-- Fetched evidence is evidence of the row, at the price that it states. -/
theorem evidenceProved_of_fetched {market : Market} {row : Row} {source : Text} {windowSeconds : Int}
    {ev : PyValue} {price : Double}
    (fetched : fetchHistoricalPriceEvidence market (.str source) (normalizeSymbol row.symbol) (.str row.ts)
      windowSeconds = .ok (some ev))
    (price_eq : (ev.get (txt "price")).toFloat = .ok price) :
    evidenceProved row source windowSeconds ev = .ok true ∧
      priceMatches (.float price) (ev.get (txt "price")) = .ok true := by
  obtain ⟨found, named, r, rfl⟩ := reading_of_fetched fetched
  constructor
  · apply r.valid
    · rw [named, normalizeExchange_source named]
    · rw [normalizeSymbol_normalizeSymbol, normalizeSymbol_normalizeSymbol]
  · have finite : r.price.isFinite = true := by
      have fit := r.admissible
      simp only [admissible, Bool.and_eq_true] at fit
      exact fit.1.1.2
    have stated : r.evidence.get (txt "price") = .float r.price := by
      simp [PriceReading.evidence, evidence, Json.lookup]
    rw [stated] at price_eq ⊢
    cases price_eq
    simp [priceMatches, Double.isClose_self _ _ finite]

theorem fetched_congr {market : Market} {exchange other : PyValue} {symbol : Text} {tsIso : PyValue}
    {windowSeconds : Int} (same : normalizeExchange exchange = normalizeExchange other) :
    fetchHistoricalPriceEvidence market exchange symbol tsIso windowSeconds =
      fetchHistoricalPriceEvidence market other symbol tsIso windowSeconds := by
  simp only [fetchHistoricalPriceEvidence, same]

/-- What the checks of `_repair_row` on the witness establish. -/
structure Repairable (row : Row) (origin : PyValue) (source : Text) : Prop where
  dict : origin.isDict = true
  version : (origin.get (txt "version")).eqText (txt "origin-price-v1") = true
  rowSource : normalizeExchange (.str row.exchangeUsed) = some source
  originSource : normalizeExchange (origin.get (txt "source")) = some source
  instant : ∃ at?, parseUtc (origin.get (txt "timestamp")) = .ok at? ∧ parseUtc (.str row.ts) = .ok at?

theorem repairable_of_witness {row : Row} {origin : PyValue} {source : Text}
    (checked : witnessRepairable row origin = .ok (some source)) : Repairable row origin source := by
  simp only [witnessRepairable, Py.return_none_or, Bool.or_eq_true, not_or, Bool.not_eq_true',
    Bool.not_eq_false] at checked
  obtain ⟨⟨dict, version⟩, checked⟩ := checked
  split at checked
  · cases checked
  · rename_i found rowSource
    simp only [Py.return_none_or, Py.bind_eq_ok, not_not] at checked
    obtain ⟨originSource, origin?, originInstant, row?, rowInstant, rfl, checked⟩ := checked
    cases checked
    exact ⟨dict, version, rowSource, originSource, origin?, originInstant, rowInstant⟩

/-- The market has evidence for a row in one window, and this is its price. -/
def Priced (market : Market) (row : Row) (windowSeconds : Int) (ev : PyValue) (price : Double) : Prop :=
  fetchHistoricalPriceEvidence market (.str row.exchangeUsed) (normalizeSymbol row.symbol) (.str row.ts)
    windowSeconds = .ok (some ev) ∧ (ev.get (txt "price")).toFloat = .ok price

theorem Priced.price_unique {market : Market} {row : Row} {windowSeconds : Int} {ev ev' : PyValue}
    {price price' : Double} (priced : Priced market row windowSeconds ev price)
    (other : Priced market row windowSeconds ev' price') : price = price' := by
  have same : ev = ev' := Option.some.inj (Except.ok.inj (priced.1.symm.trans other.1))
  subst same
  exact Except.ok.inj (priced.2.symm.trans other.2)

/-- What `_repair_row` has found when it sends a PATCH. -/
structure Found (market15m market1h : Market) (row : Row) (source : Text) (rowPrice : Double)
    (ev15m ev1h : PyValue) (price15m price1h : Double) (outcome15m outcome1h : Text) : Prop where
  direction : upper row.prediction = txt "LONG" ∨ upper row.prediction = txt "SHORT"
  row_eq : row.priceNow.toFloat = .ok rowPrice
  witness : Repairable row ((auditDict row.audit).get (txt "origin_price_v1")) source
  priced15m : Priced market15m row window15mS ev15m price15m
  priced1h : Priced market1h row window1hS ev1h price1h
  outcome15m_eq : outcomeOf (upper row.prediction) rowPrice price15m = some outcome15m
  outcome1h_eq : outcomeOf (upper row.prediction) rowPrice price1h = some outcome1h
  settled : row.outcome = some outcome1h

theorem found_of_patch {market15m market1h : Market} {now : Civil} {row : Row} {patch : RepairPatch}
    (built : repairPatch market15m market1h now row = .ok (.inr patch)) :
    ∃ source rowPrice ev15m ev1h price15m price1h outcome15m outcome1h,
      Found market15m market1h row source rowPrice ev15m ev1h price15m price1h outcome15m outcome1h ∧
      patch = ⟨price15m, (auditDict row.audit).set (txt "outcomes_dual")
        (repairedDual outcome15m outcome1h price15m price1h ev15m ev1h (Datetime.isoformat now))⟩ := by
  simp only [repairPatch, Py.return_inl_or, Py.bind_eq_ok] at built
  obtain ⟨-, direction, price?, price_eq, built⟩ := built
  cases price? with
  | none => cases built
  | some rowPrice =>
      simp only [Py.return_inl_or, Py.bind_eq_ok, Bool.not_eq_true] at built
      obtain ⟨positive, -, source?, witness, built⟩ := built
      cases source? with
      | none => cases built
      | some source =>
          simp only [Py.bind_eq_ok] at built
          obtain ⟨ev15m?, fetched15m, ev1h?, fetched1h, built⟩ := built
          split at built
          · rename_i ev15m ev1h
            simp only [Py.bind_eq_ok] at built
            obtain ⟨price15m, price15m_eq, price1h, price1h_eq, outcome15m?, outcome15m_eq, outcome1h?,
              outcome1h_eq, built⟩ := built
            split at built
            · rename_i outcome15m outcome1h
              rw [Py.return_inl_or, not_not] at built
              obtain ⟨settled, built⟩ := built
              rw [Py.pure_eq_ok, Except.ok.injEq, Sum.inr.injEq] at built
              have repairable := repairable_of_witness witness
              have named : normalizeExchange (.str row.exchangeUsed) = normalizeExchange (.str source) := by
                rw [repairable.rowSource, normalizeExchange_source repairable.rowSource]
              refine ⟨source, rowPrice, ev15m, ev1h, price15m, price1h, outcome15m, outcome1h, ?_, built.symm⟩
              exact {
                direction := Decidable.or_iff_not_not_and_not.mpr direction
                row_eq := floatOrZero_some price_eq positive
                witness := repairable
                priced15m := ⟨(fetched_congr named).trans fetched15m, price15m_eq⟩
                priced1h := ⟨(fetched_congr named).trans fetched1h, price1h_eq⟩
                outcome15m_eq := outcomeOf_of_directional outcome15m_eq rfl rfl
                outcome1h_eq := outcomeOf_of_directional outcome1h_eq rfl rfl
                settled }
            · cases built
          · cases built

/-! ## When a repaired row is a proof -/

/-- The clock has reached the target of the row's one hour window. -/
def TargetReached (row : Row) (now : Civil) : Prop :=
  ∃ rowDt later, parseUtc (.str row.ts) = .ok (some rowDt) ∧ addSeconds rowDt window1hS = .ok later ∧
    later ≤ Datetime.toMicros now

/-- The price of the witness is that of the row and gives the same outcomes. -/
def WitnessAgrees (row : Row) (price15m price1h : Double) : Prop :=
  ∃ witness rowPrice,
    (((auditDict row.audit).get (txt "origin_price_v1")).get (txt "price")).toFloat = .ok witness ∧
    row.priceNow.toFloat = .ok rowPrice ∧
    Double.isClose originPriceTol originPriceTol witness rowPrice = true ∧
    outcomeOf (upper row.prediction) witness price15m = outcomeOf (upper row.prediction) rowPrice price15m ∧
    outcomeOf (upper row.prediction) witness price1h = outcomeOf (upper row.prediction) rowPrice price1h

theorem repairedDual_written {outcome15m outcome1h : Text} {price15m price1h : Double} {ev15m ev1h : PyValue}
    {now : Civil} :
    DualWritten (repairedDual outcome15m outcome1h price15m price1h ev15m ev1h (Datetime.isoformat now))
      outcome15m outcome1h price15m price1h ev15m ev1h now := by
  constructor <;> simp [repairedDual, Json.lookup]

theorem auditDict_isDict (audit : PyValue) : (auditDict audit).isDict = true := by
  unfold auditDict
  split
  · rfl
  · split <;> rfl
  · rfl

theorem originProved_instant {row : Row} {origin : PyValue} {rowDt : Civil} {source : Text}
    (proved : originProved row origin = .ok (some (rowDt, source))) :
    parseUtc (.str row.ts) = .ok (some rowDt) := by
  simp only [originProved, Py.return_none_or, Py.bind_eq_ok] at proved
  obtain ⟨-, origin?, -, row?, instant, proved⟩ := proved
  split at proved
  · rename_i found
    simp only [Py.return_none_or] at proved
    obtain ⟨-, proved⟩ := proved
    split at proved
    · cases proved
    · simp only [Py.return_none_or] at proved
      obtain ⟨-, -, proved⟩ := proved
      cases proved
      exact instant
  · cases proved

/-- A proof has been observed at its target or later. -/
theorem observed_of_qualified {row : Row} (qualified : isProofQualified row = .ok true) :
    ∃ rowDt, parseUtc (.str row.ts) = .ok (some rowDt) ∧
      ∃ ev, observationProved row rowDt ((asAudit row).get (txt "outcomes_dual")) ev = .ok true := by
  simp only [isProofQualified, Py.return_false_or, Py.bind_eq_ok] at qualified
  obtain ⟨-, -, -, proved?, origin, qualified⟩ := qualified
  cases proved? with
  | none => cases qualified
  | some proved =>
      obtain ⟨rowDt, source⟩ := proved
      simp only [Py.bind_eq_ok] at qualified
      obtain ⟨prices?, -, qualified⟩ := qualified
      cases prices? with
      | none => cases qualified
      | some p =>
          simp only [Py.return_false_or, Py.bind_eq_ok, Bool.not_eq_true', Bool.not_eq_false] at qualified
          obtain ⟨_, -, -, -, _, -, -, _, -, -, _, -, -, _, -, -, observed, observation, rfl, -⟩ := qualified
          exact ⟨rowDt, originProved_instant origin, _, observation⟩

theorem DualWritten.targetReached {row : Row} {dual ev15m ev1h : PyValue} {outcome15m outcome1h : Text}
    {price15m price1h : Double} {now : Civil}
    (written : DualWritten dual outcome15m outcome1h price15m price1h ev15m ev1h now)
    (dual_eq : (asAudit row).get (txt "outcomes_dual") = dual)
    (qualified : isProofQualified row = .ok true) : TargetReached row now := by
  obtain ⟨rowDt, instant, ev, observation⟩ := observed_of_qualified qualified
  obtain ⟨writer, stated⟩ := written.observation_eq
  rw [dual_eq] at observation
  simp only [Settlement.observationProved, stated, Py.return_false_or, Py.bind_eq_ok] at observation
  obtain ⟨-, observed?, observed, observation⟩ := observation
  have read : parseUtc ((settlementObservation (Datetime.isoformat now) writer).get (txt "observed_at")) =
      .ok (some now) := by
    simp [settlementObservation, Json.lookup, parseUtc_isoformat]
  rw [read] at observed
  cases observed
  simp only [Py.return_false_or, Py.bind_eq_ok] at observation
  obtain ⟨later, reached, notEarly, -⟩ := observation
  exact ⟨rowDt, later, instant, reached, not_lt.mp notEarly⟩

section
variable {market15m market1h : Market} {row : Row} {source : Text} {rowPrice : Double} {ev15m ev1h : PyValue}
  {price15m price1h : Double} {outcome15m outcome1h : Text} {now : Civil}

/-- The `outcomes_dual` that a repair stores. -/
def storedDual (ev15m ev1h : PyValue) (price15m price1h : Double) (outcome15m outcome1h : Text) (now : Civil) :
    PyValue :=
  repairedDual outcome15m outcome1h price15m price1h ev15m ev1h (Datetime.isoformat now)

/-- The row with a repair in place. -/
def storedRow (row : Row) (ev15m ev1h : PyValue) (price15m price1h : Double) (outcome15m outcome1h : Text)
    (now : Civil) : Row :=
  row.repaired ⟨price15m, (auditDict row.audit).set (txt "outcomes_dual")
    (storedDual ev15m ev1h price15m price1h outcome15m outcome1h now)⟩

theorem asAudit_storedRow :
    asAudit (storedRow row ev15m ev1h price15m price1h outcome15m outcome1h now) =
      (auditDict row.audit).set (txt "outcomes_dual")
        (storedDual ev15m ev1h price15m price1h outcome15m outcome1h now) := by
  simp [asAudit, storedRow, Row.repaired, auditDict_isDict]

theorem origin_storedRow :
    (asAudit (storedRow row ev15m ev1h price15m price1h outcome15m outcome1h now)).get
      (txt "origin_price_v1") = (auditDict row.audit).get (txt "origin_price_v1") := by
  rw [asAudit_storedRow, PyValue.get_set_of_ne _ (by simp)]

theorem dual_storedRow :
    (asAudit (storedRow row ev15m ev1h price15m price1h outcome15m outcome1h now)).get (txt "outcomes_dual") =
      storedDual ev15m ev1h price15m price1h outcome15m outcome1h now := by
  rw [asAudit_storedRow, PyValue.get_set_self (auditDict_isDict _)]

theorem Repairable.originProved {origin : PyValue} {rowDt : Civil} (witness : Repairable row origin source)
    (instant : parseUtc (.str row.ts) = .ok (some rowDt)) (symbol_ne : normalizeSymbol row.symbol ≠ [])
    {stored : Row} (ts : stored.ts = row.ts) (exchange : stored.exchangeUsed = row.exchangeUsed)
    (symbol : stored.symbol = row.symbol) :
    originProved stored origin = .ok (some (rowDt, source)) := by
  obtain ⟨at?, originInstant, rowInstant⟩ := witness.instant
  rw [instant] at rowInstant
  cases rowInstant
  simp [Settlement.originProved, ts, exchange, symbol, witness.version, witness.rowSource,
    witness.originSource, instant, originInstant, symbol_ne]

theorem Found.evidence
    (found : Found market15m market1h row source rowPrice ev15m ev1h price15m price1h outcome15m outcome1h) :
    (evidenceProved row source window15mS ev15m = .ok true ∧
      priceMatches (.float price15m) (ev15m.get (txt "price")) = .ok true) ∧
    (evidenceProved row source window1hS ev1h = .ok true ∧
      priceMatches (.float price1h) (ev1h.get (txt "price")) = .ok true) := by
  have named : normalizeExchange (.str source) = normalizeExchange (.str row.exchangeUsed) := by
    rw [found.witness.rowSource, normalizeExchange_source found.witness.rowSource]
  obtain ⟨⟨fetched15m, price15m_eq⟩, fetched1h, price1h_eq⟩ := And.intro found.priced15m found.priced1h
  exact ⟨evidenceProved_of_fetched ((fetched_congr named).trans fetched15m) price15m_eq,
    evidenceProved_of_fetched ((fetched_congr named).trans fetched1h) price1h_eq⟩

/-- At its target a repaired row lacks nothing but a witness that agrees. -/
theorem Found.rowProved
    (found : Found market15m market1h row source rowPrice ev15m ev1h price15m price1h outcome15m outcome1h)
    (reached : TargetReached row now) :
    RowProved (storedRow row ev15m ev1h price15m price1h outcome15m outcome1h now)
      (storedDual ev15m ev1h price15m price1h outcome15m outcome1h now) ev15m ev1h outcome15m outcome1h
      rowPrice price15m price1h now := by
  obtain ⟨rowDt, later, instant, target, notEarly⟩ := reached
  obtain ⟨⟨proved15m, matches15m⟩, proved1h, matches1h⟩ := found.evidence
  obtain ⟨rowPositive, positive15m, valid15m⟩ := outcomeOf_some found.outcome15m_eq
  obtain ⟨-, positive1h, valid1h⟩ := outcomeOf_some found.outcome1h_eq
  obtain ⟨symbol_ne, -⟩ := validatePriceEvidence_inv proved1h
  rw [normalizeSymbol_normalizeSymbol] at symbol_ne
  exact {
    written := repairedDual_written
    dual_eq := dual_storedRow
    outcome := found.settled
    valid15m, valid1h
    direction := found.direction
    originDict := by rw [origin_storedRow]; exact found.witness.dict
    row_eq := found.row_eq
    positive := by simp [rowPositive, positive15m, positive1h]
    matches15m, matches1h
    checked := by
      refine ⟨rowDt, source, later, ?_, proved15m, proved1h, target, notEarly⟩
      rw [origin_storedRow]
      exact found.witness.originProved instant symbol_ne rfl rfl rfl }

theorem Found.proofQualified
    (found : Found market15m market1h row source rowPrice ev15m ev1h price15m price1h outcome15m outcome1h) :
    isProofQualified (storedRow row ev15m ev1h price15m price1h outcome15m outcome1h now) = .ok true ↔
      TargetReached row now ∧ WitnessAgrees row price15m price1h := by
  by_cases reached : TargetReached row now
  · rw [(found.rowProved reached).proofQualified, origin_storedRow]
    have prediction : (storedRow row ev15m ev1h price15m price1h outcome15m outcome1h now).prediction =
        row.prediction := rfl
    simp [reached, WitnessAgrees, found.row_eq, found.outcome15m_eq, found.outcome1h_eq, prediction]
  · simp only [reached, false_and, iff_false]
    intro qualified
    have written := @repairedDual_written outcome15m outcome1h price15m price1h ev15m ev1h now
    have stored : TargetReached (storedRow row ev15m ev1h price15m price1h outcome15m outcome1h now) now :=
      written.targetReached dual_storedRow qualified
    exact reached stored

end

/-- A row that is reported as repaired is a proof if and only if the repair is not before the row's
    target and the witness, whose price the repair does not read, agrees with the row. -/
theorem repairRow_qualified_iff {market15m market1h : Market} {now : Civil} {row : Row} {answer : Nat × Nat}
    {repair : Repair} (run : repairRow market15m market1h now row answer = .ok repair)
    (repaired : repair.returned = .repaired) :
    ∃ patch, repair.sent = some patch ∧
      (isProofQualified (row.repaired patch) = .ok true ↔
        TargetReached row now ∧ ∃ ev15m ev1h price15m price1h,
          Priced market15m row window15mS ev15m price15m ∧ Priced market1h row window1hS ev1h price1h ∧
          WitnessAgrees row price15m price1h) := by
  simp only [repairRow, Py.bind_eq_ok] at run
  obtain ⟨result, built, run⟩ := run
  cases result with
  | inl reported =>
      cases run
      cases repaired
  | inr patch =>
      cases run
      obtain ⟨source, rowPrice, ev15m, ev1h, price15m, price1h, outcome15m, outcome1h, found, rfl⟩ :=
        found_of_patch built
      refine ⟨_, rfl, ?_⟩
      rw [← storedDual, ← storedRow, found.proofQualified]
      apply and_congr_right
      intro _
      constructor
      · intro agrees
        exact ⟨ev15m, ev1h, price15m, price1h, found.priced15m, found.priced1h, agrees⟩
      · rintro ⟨_, _, _, _, priced15m, priced1h, agrees⟩
        rw [found.priced15m.price_unique priced15m, found.priced1h.price_unique priced1h]
        exact agrees

/-- A row that is settled without `outcomes_dual`, under a witness with some price. -/
def unprovenRow (witnessPrice : PyValue) : Row where
  id := 1
  ts := txt "2026-01-01T00:00:00+00:00"
  symbol := txt "BTCUSDT"
  prediction := txt "LONG"
  exchangeUsed := txt "okx"
  priceNow := .int 100
  price15mLater := .none
  outcome := some (txt "WIN")
  audit := .ofMembers [
    (txt "origin_price_v1", .ofMembers [
      (txt "version", .str (txt "origin-price-v1")),
      (txt "source", .str (txt "okx")),
      (txt "timestamp", .str (txt "2026-01-01T00:00:00Z")),
      (txt "price", witnessPrice)])]

/-- What comes of a repair of such a row in the rising market. -/
def risingRepair (witnessPrice : PyValue) : Option (RepairResult × Option (Option Bool)) :=
  (repairRow risingMarket risingMarket risingMarket.now (unprovenRow witnessPrice) (200, 1)).toOption.map
    fun repair => (repair.returned, repair.sent.map fun patch =>
      (isProofQualified ((unprovenRow witnessPrice).repaired patch)).toOption)

theorem risingRepair_eq {witnessPrice : PyValue} {qualified : Option Bool}
    (outcome : risingRepair witnessPrice = some (.repaired, some qualified)) :
    ∃ repair patch,
      repairRow risingMarket risingMarket risingMarket.now (unprovenRow witnessPrice) (200, 1) = .ok repair ∧
      repair.returned = .repaired ∧ repair.sent = some patch ∧
      (isProofQualified ((unprovenRow witnessPrice).repaired patch)).toOption = qualified := by
  rw [risingRepair, Option.map_eq_some_iff] at outcome
  obtain ⟨repair, run, outcome⟩ := outcome
  rw [Prod.mk.injEq, Option.map_eq_some_iff] at outcome
  obtain ⟨repaired, patch, sent, decided⟩ := outcome
  cases result : repairRow risingMarket risingMarket risingMarket.now (unprovenRow witnessPrice) (200, 1) with
  | error e => rw [result] at run; cases run
  | ok found =>
      rw [result] at run
      cases run
      exact ⟨repair, patch, rfl, repaired, sent, decided⟩

/-- A witness of another price, 200 for 100, is repaired all the same. -/
theorem repairRow_not_qualified : ∃ repair patch,
    repairRow risingMarket risingMarket risingMarket.now (unprovenRow (.int 200)) (200, 1) = .ok repair ∧
      repair.returned = .repaired ∧ repair.sent = some patch ∧
      isProofQualified ((unprovenRow (.int 200)).repaired patch) ≠ .ok true := by
  obtain ⟨repair, patch, run, repaired, sent, decided⟩ :=
    @risingRepair_eq (.int 200) (some false) (by decide +kernel)
  refine ⟨repair, patch, run, repaired, sent, ?_⟩
  intro qualified
  rw [qualified] at decided
  cases decided

theorem repairRow_qualified_rising : ∃ repair patch,
    repairRow risingMarket risingMarket risingMarket.now (unprovenRow (.int 100)) (200, 1) = .ok repair ∧
      repair.sent = some patch ∧
      (isProofQualified ((unprovenRow (.int 100)).repaired patch) = .ok true ↔
        TargetReached (unprovenRow (.int 100)) risingMarket.now ∧ ∃ ev15m ev1h price15m price1h,
          Priced risingMarket (unprovenRow (.int 100)) window15mS ev15m price15m ∧
          Priced risingMarket (unprovenRow (.int 100)) window1hS ev1h price1h ∧
          WitnessAgrees (unprovenRow (.int 100)) price15m price1h) := by
  obtain ⟨repair, -, run, repaired, -, -⟩ :=
    @risingRepair_eq (.int 100) (some true) (by decide +kernel)
  obtain ⟨patch, sent, qualified⟩ := repairRow_qualified_iff run repaired
  exact ⟨repair, patch, run, sent, qualified⟩

end Senex.Settlement
