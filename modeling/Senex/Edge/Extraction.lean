import Senex.Foundation.Digits
import Senex.Foundation.Nearest
import Senex.Foundation.Stamp

/-! # Pairs of model and market

`extract_t0_pair` takes one causal pair out of a local prediction row, or nothing.  Each of its
converters raises a `ValueError` for what it does not take, and the callers catch it; an integer
that no float holds and a time that leaves the calendar raise `OverflowError`, and nobody catches it.
-/

namespace Senex.Edge

open Text PyValue

/-! ## Converters -/

/-- `_epoch_second` -/
def epochSecond (value : PyValue) (field : Text) : Py Int :=
  let refused : Py Int := raise .valueError (field ++ txt " is not an exact epoch second")
  match value with
  | .int n => .ok n
  | .float x => if x.isFinite ∧ (x.trunc : ℚ) = x.value then .ok x.trunc else refused
  | .str t =>
      let raw := strip t
      if isdigit raw then orRaise (intDigits raw) .valueError (txt "invalid literal for int() with base 10")
      else refused
  | _ => refused

/-- The branch of `_parse_time` for a text. -/
def isoTime (t : Text) (field : Text) : Py Double := do
  guardNot (decide (strip t = [])) .valueError (field ++ txt " is missing")
  let parsed ← orRaise (Datetime.fromIsoformat (spellZone (strip t))) .valueError (field ++ txt " is not ISO8601")
  let offset ← orRaise parsed.offset .valueError (field ++ txt " must include timezone")
  let utc ← orRaise (Datetime.toUtc parsed.civil offset) .overflowError (txt "date value out of range")
  return Datetime.timestamp utc

/-- The branch of `_parse_time` for a number. -/
def numericTime (value : PyValue) (field : Text) : Py Double := do
  let number ← value.toFloat
  if number.isFinite then return number else raise .valueError (field ++ txt " is missing")

/-- `_parse_time` -/
def parseTime (value : PyValue) (field : Text) : Py Double :=
  match value with
  | .bool _ | .int _ | .float _ => numericTime value field
  | .str t => isoTime t field
  | _ => raise .valueError (field ++ txt " is missing")

/-- `_probability` -/
def probability (value : PyValue) (field : Text) : Py Double := do
  let result ← rewrap PyError.isTypeOrValue .valueError (fun _ => field ++ txt " is not numeric") value.number
  if !result.isFinite || decide (result.value < 0) || decide (1 < result.value) then
    raise .valueError (field ++ txt " is outside [0,1]")
  else return result

def slugPrefix : Text := txt "btc-updown-5m-"

/-- `_slug_start` -/
def slugStart (slug : Text) : Option Int :=
  if slug.take slugPrefix.length = slugPrefix then
    let suffix := slug.drop slugPrefix.length
    if isdigit suffix then intDigits suffix else Option.none
  else Option.none

def targetHorizonSeconds : Int := 300

/-- Whether a window is a five-minute one on the grid, the one that the slug names. -/
def onGrid (slug : Text) (startTs endTs : Int) : Bool :=
  decide (startTs % targetHorizonSeconds = 0) && decide (endTs - startTs = targetHorizonSeconds) &&
    decide (slugStart slug = some startTs)

theorem onGrid_iff {slug : Text} {startTs endTs : Int} :
    onGrid slug startTs endTs = true ↔
      startTs % 300 = 0 ∧ endTs - startTs = 300 ∧ slugStart slug = some startTs := by
  simp only [onGrid, Bool.and_eq_true, decide_eq_true_eq, and_assoc]
  rfl

/-! ## `extract_t0_pair` -/

structure T0Pair where
  predictionId : PyValue
  decisionTs : Double
  marketSlug : Text
  conditionId : Text
  marketStartTs : Int
  marketEndTs : Int
  marketHorizonSeconds : Int
  pMarket : Double
  senexRawUp : Double

/-- The market that a row names, with its window. -/
structure Market where
  upProbability : PyValue
  slug : Text
  conditionId : Text
  startTs : Int
  endTs : Int

section

-- `str()` of a list or of a `dict`.
variable (containerText : PyValue → Text)

/-- `str(value or "")` -/
def strOr (value : PyValue) : Text :=
  if value.truthy then value.text?.getD (containerText value) else []

/-- The `audit` of a row for the symbol. -/
def auditOf (row : PyValue) : Option PyValue :=
  if upper ((strOr containerText (row.get (txt "symbol"))).filter (· ≠ 47)) = txt "BTCUSDT" then
    if (row.get (txt "_audit")).isDict then some (row.get (txt "_audit"))
    else if (row.get (txt "audit")).isDict then some (row.get (txt "audit"))
    else Option.none
  else Option.none

def step2Of (audit : PyValue) : PyValue := (audit.get (txt "pipeline")).get (txt "step2_features")

def influenceOf (audit : PyValue) : PyValue := (step2Of audit).get (txt "polymarket_context_v1")

/-- `value is b` -/
def isBool (b : Bool) : PyValue → Bool
  | .bool c => b == c
  | _ => false

/-- The evidence that the fusion is off, up to its weight. -/
def fusionOff (audit : PyValue) : Bool :=
  (step2Of audit).isDict && (influenceOf audit).isDict &&
    isBool false ((influenceOf audit).get (txt "directional_use")) &&
    isBool false ((influenceOf audit).get (txt "experiment_enabled"))

/-- `1e-12` -/
def weightTolerance : Double := Double.round (1 / 10 ^ 12)

def negligible (weight : Double) : Bool :=
  weight.isFinite && !(PyFloat.lt weightTolerance (PyFloat.absolute weight))

def polyOf (audit : PyValue) : PyValue := (audit.get (txt "external_markets_v1")).get (txt "polymarket")

/-- The market of an `audit`, if it is one of the BTC 5m contracts. -/
def marketOf (audit : PyValue) : Option Market := do
  let poly := polyOf audit
  if poly.isDict && eqText (txt "POLYMARKET_PUBLIC") (poly.get (txt "source")) &&
      eqText (txt "polymarket-btc-5m-v1") (poly.get (txt "version")) &&
      isBool true (poly.get (txt "eligible_for_prediction")) then
    let slug := strOr containerText (poly.get (txt "slug"))
    let conditionId := strOr containerText (poly.get (txt "condition_id"))
    if slug = [] ∨ conditionId = [] then Option.none
    else
      -- `_epoch_second` raises nothing but a `ValueError`.
      let startTs ← (epochSecond (poly.get (txt "start_ts")) (txt "market_start_ts")).toOption
      let endTs ← (epochSecond (poly.get (txt "end_ts")) (txt "market_end_ts")).toOption
      if onGrid slug startTs endTs then some ⟨poly.get (txt "up_probability"), slug, conditionId, startTs, endTs⟩ else Option.none
  else Option.none

/-- `row.get("ts") or row.get("timestamp")` -/
def timeOf (row : PyValue) : PyValue :=
  if (row.get (txt "ts")).truthy then row.get (txt "ts") else row.get (txt "timestamp")

/-- The decision time and the two probabilities. -/
def measurements (row audit : PyValue) (market : Market) : Py (Double × Double × Double) := do
  let decisionTs ← parseTime (timeOf row) (txt "decision_ts")
  let pMarket ← probability (market.upProbability) (txt "p_market")
  let senexRawUp ← probability ((step2Of audit).get (txt "up_prob")) (txt "senex_raw_up")
  return (decisionTs, pMarket, senexRawUp)

/-- The end of `extract_t0_pair`, for a row that names a market. -/
def measuredPair (row audit : PyValue) (market : Market) : Py (Option T0Pair) := do
  let some (decisionTs, pMarket, senexRawUp) ← attempt PyError.isValueError (measurements row audit market)
    | return Option.none
  if decisionTs.value < market.startTs ∨ market.endTs ≤ decisionTs.value then return Option.none
  return some
    { predictionId := row.get (txt "id")
      decisionTs
      marketSlug := market.slug
      conditionId := market.conditionId
      marketStartTs := market.startTs
      marketEndTs := market.endTs
      marketHorizonSeconds := targetHorizonSeconds
      pMarket
      senexRawUp }

def extractT0Pair (row : PyValue) : Py (Option T0Pair) := do
  if row.isDict = false then return Option.none
  let some audit := auditOf containerText row | return Option.none
  if fusionOff audit = false then return Option.none
  let some weight ← attempt PyError.isTypeOrValue ((influenceOf audit).get (txt "effective_weight")).number
    | return Option.none
  if negligible weight = false then return Option.none
  let some market := marketOf containerText audit | return Option.none
  measuredPair row audit market

/-- The loop of `extract_t0_pairs`. -/
def extractT0Pairs : List PyValue → Py (List T0Pair)
  | [] => .ok []
  | row :: rows => do
      let pair ← extractT0Pair containerText row
      return pair.toList ++ (← extractT0Pairs rows)

end

/-! ## What nobody catches -/

/-- The call raises something that its caller does not catch. -/
def Uncaught {α : Type} (caught : PyError → Bool) (call : Py α) : Prop :=
  ∃ e, call = .error e ∧ caught e.error = false

section

variable {α β : Type} {caught : PyError → Bool}

@[simp] theorem uncaught_ok (a : α) : Uncaught caught (.ok a) ↔ False := by
  simp [Uncaught]

@[simp] theorem uncaught_pure (a : α) : Uncaught caught (pure a : Py α) ↔ False := uncaught_ok a

@[simp] theorem uncaught_raise {error : PyError} {message : Text} :
    Uncaught caught (raise error message : Py α) ↔ caught error = false := by
  simp [Uncaught, raise]

@[simp] theorem uncaught_guardNot {failed : Bool} {error : PyError} {message : Text} :
    Uncaught caught (guardNot failed error message) ↔ failed = true ∧ caught error = false := by
  cases failed <;> simp

@[simp] theorem uncaught_orRaise {value : Option α} {error : PyError} {message : Text} :
    Uncaught caught (orRaise value error message) ↔ value = Option.none ∧ caught error = false := by
  cases value <;> simp [orRaise]

theorem uncaught_bind {x : Py α} {f : α → Py β} :
    Uncaught caught (x >>= f) ↔ Uncaught caught x ∨ ∃ a, x = .ok a ∧ Uncaught caught (f a) := by
  cases x with
  | ok a => simp [Uncaught]
  | error e => simp [Uncaught]

/-- What a wrapper lets through is what it does not know. -/
theorem uncaught_rewrap {known : PyError → Bool} {error : PyError} {text : Text → Text} {call : Py α}
    (wrapped : caught error = true) (outside : ∀ e, known e = false → caught e = false) :
    Uncaught caught (rewrap known error text call) ↔ Uncaught known call := by
  cases call with
  | ok a => simp
  | error raised =>
      cases same : known raised.error with
      | true => simp [rewrap, same, Uncaught, raise, wrapped]
      | false => simp [rewrap, same, Uncaught, outside _ same]

theorem attempt_eq_error {call : Py α} {e : Raised} :
    attempt caught call = .error e ↔ call = .error e ∧ caught e.error = false := by
  cases call with
  | ok a => simp
  | error raised =>
      cases same : caught raised.error with
      | true => grind [attempt]
      | false => grind [attempt]

end

/-- An integer that no float holds. -/
def TooLarge (value : PyValue) : Prop := ∃ n, value = .int n ∧ (Double.round n).isFinite = false

/-- A time whose UTC time is not in the calendar. -/
def LeavesCalendar (value : PyValue) : Prop :=
  ∃ t parsed offset, value = .str t ∧ Datetime.fromIsoformat (spellZone (strip t)) = some parsed ∧
    parsed.offset = some offset ∧ Datetime.toUtc parsed.civil offset = Option.none

theorem uncaught_toFloat {value : PyValue} {caught : PyError → Bool} (typeError : caught .typeError = true)
    (valueError : caught .valueError = true) (overflow : caught .overflowError = false) :
    Uncaught caught value.toFloat ↔ TooLarge value := by
  cases value with
  | int n => cases finite : (Double.round n).isFinite <;> simp [toFloat, TooLarge, finite, overflow]
  | str t => simp [toFloat, TooLarge, valueError]
  | none | bool | float | list | dict => simp [toFloat, TooLarge, typeError]

theorem uncaught_number {value : PyValue} {caught : PyError → Bool} (typeError : caught .typeError = true)
    (valueError : caught .valueError = true) (overflow : caught .overflowError = false) :
    Uncaught caught value.number ↔ TooLarge value := by
  cases value with
  | str t => simp [number, TooLarge, valueError]
  | none | bool | int | float | list | dict =>
      rw [number]
      · exact uncaught_toFloat typeError valueError overflow
      · simp

theorem uncaught_probability (value : PyValue) (field : Text) :
    Uncaught PyError.isValueError (probability value field) ↔ TooLarge value := by
  have known : ∀ e : PyError, e.isTypeOrValue = false → e.isValueError = false := by
    intro e other
    cases e <;> first | rfl | cases other
  rw [probability, uncaught_bind, uncaught_rewrap rfl known, uncaught_number rfl rfl rfl]
  constructor
  · rintro (large | ⟨result, -, raised⟩)
    · exact large
    · split at raised
      · exact absurd (uncaught_raise.mp raised) (by decide)
      · exact absurd raised (by simp)
  · exact .inl

theorem uncaught_isoTime (t field : Text) :
    Uncaught PyError.isValueError (isoTime t field) ↔ LeavesCalendar (.str t) := by
  simp only [isoTime, uncaught_bind, uncaught_guardNot, uncaught_orRaise, guardNot_eq_ok, orRaise_eq_ok,
    uncaught_pure, PyError.isValueError, Bool.true_eq_false, and_false, and_true, false_or, or_false, exists_false]
  constructor
  · rintro ⟨_, -, parsed, read, offset, zone, left⟩
    exact ⟨t, parsed, offset, rfl, read, zone, left⟩
  · rintro ⟨_, parsed, offset, same, read, zone, left⟩
    obtain rfl := PyValue.str.inj same
    refine ⟨(), ?_, parsed, read, offset, zone, left⟩
    rw [decide_eq_false_iff_not]
    intro blank
    rw [blank] at read
    cases read

theorem uncaught_numericTime (value : PyValue) (field : Text) :
    Uncaught PyError.isValueError (numericTime value field) ↔ Uncaught PyError.isValueError value.toFloat := by
  rw [numericTime, uncaught_bind]
  constructor
  · rintro (large | ⟨number, -, raised⟩)
    · exact large
    · split at raised
      · exact absurd raised (by simp)
      · exact absurd (uncaught_raise.mp raised) (by decide)
  · exact .inl

theorem uncaught_parseTime (value : PyValue) (field : Text) :
    Uncaught PyError.isValueError (parseTime value field) ↔ TooLarge value ∨ LeavesCalendar value := by
  cases value with
  | int n =>
      rw [parseTime, uncaught_numericTime]
      cases finite : (Double.round n).isFinite <;>
        simp [toFloat, TooLarge, LeavesCalendar, finite, PyError.isValueError]
  | bool | float =>
      rw [parseTime, uncaught_numericTime]
      simp [toFloat, TooLarge, LeavesCalendar]
  | str t =>
      rw [parseTime, uncaught_isoTime]
      simp [TooLarge]
  | none | list | dict => simp [parseTime, TooLarge, LeavesCalendar, PyError.isValueError]

/-! ## Where `extract_t0_pair` raises -/

section

variable (containerText : PyValue → Text)

/-- The measurements of a market reach a number or a time that nobody catches. -/
def MeasuresTooLarge (row audit : PyValue) (market : Market) : Prop :=
  TooLarge (timeOf row) ∨ LeavesCalendar (timeOf row) ∨
    (∃ t, parseTime (timeOf row) (txt "decision_ts") = .ok t) ∧
      (TooLarge market.upProbability ∨
        (∃ p, probability market.upProbability (txt "p_market") = .ok p) ∧
          TooLarge ((step2Of audit).get (txt "up_prob")))

/-- The row gets past every earlier check to a number or a time that nobody catches. -/
def Overflows (row : PyValue) : Prop :=
  row.isDict = true ∧ ∃ audit, auditOf containerText row = some audit ∧ fusionOff audit = true ∧
    (TooLarge ((influenceOf audit).get (txt "effective_weight")) ∨
      (∃ weight, ((influenceOf audit).get (txt "effective_weight")).number = .ok weight ∧
        negligible weight = true) ∧
      ∃ market, marketOf containerText audit = some market ∧ MeasuresTooLarge row audit market)

theorem uncaught_measurements (row audit : PyValue) (market : Market) :
    Uncaught PyError.isValueError (measurements row audit market) ↔ MeasuresTooLarge row audit market := by
  simp only [measurements, uncaught_bind, uncaught_parseTime, uncaught_probability, uncaught_pure, and_false,
    exists_false, or_false, MeasuresTooLarge, or_assoc]
  grind

/-- What follows the weight of the fusion. -/
theorem raises_attempt {α β : Type} {caught : PyError → Bool} {call : Py α} {rest : Option α → Py β}
    (quiet : ∀ e, rest Option.none ≠ .error e) :
    (∃ e, (attempt caught call >>= rest) = .error e) ↔
      Uncaught caught call ∨ ∃ a, call = .ok a ∧ ∃ e, rest (some a) = .error e := by
  cases call with
  | ok a => simp
  | error raised =>
      cases same : caught raised.error with
      | true => simp [attempt, same, Uncaught, quiet]
      | false => simp [attempt, same, Uncaught]

theorem measuredPair_raises_iff (row audit : PyValue) (market : Market) :
    (∃ e, measuredPair row audit market = .error e) ↔ MeasuresTooLarge row audit market := by
  rw [measuredPair, raises_attempt (by simp), uncaught_measurements]
  constructor
  · rintro (large | ⟨⟨decisionTs, pMarket, senexRawUp⟩, -, e, raised⟩)
    · exact large
    · simp only at raised
      split at raised <;> cases raised
  · exact .inl

theorem extractT0Pair_raises_iff (row : PyValue) :
    (∃ e, extractT0Pair containerText row = .error e) ↔ Overflows containerText row := by
  unfold extractT0Pair Overflows
  by_cases dict : row.isDict = true
  · cases named : auditOf containerText row with
    | none => simp [dict]
    | some audit =>
        by_cases fusion : fusionOff audit = true
        · simp only [dict, fusion, Bool.true_eq_false, if_false, true_and, Option.some.injEq]
          rw [raises_attempt (by simp), uncaught_number rfl rfl rfl, exists_eq_left']
          simp only [fusion, true_and]
          refine or_congr Iff.rfl ?_
          constructor
          · rintro ⟨weight, read, e, raised⟩
            by_cases small : negligible weight = true
            · cases found : marketOf containerText audit with
              | none => simp [small, found] at raised
              | some market =>
                  simp only [small, found, Bool.true_eq_false, if_false] at raised
                  exact ⟨⟨weight, read, small⟩, market, rfl, (measuredPair_raises_iff ..).mp ⟨e, raised⟩⟩
            · simp [small] at raised
          · rintro ⟨⟨weight, read, small⟩, market, found, large⟩
            obtain ⟨e, raised⟩ := (measuredPair_raises_iff row audit market).mpr large
            exact ⟨weight, read, e, by simp [small, found, raised]⟩
        · simp [dict, fusion]
  · simp [dict]

end

/-! ## What a pair says -/

/-- A five-minute window on the grid that the slug names, a decision inside it, two probabilities. -/
structure Causal (pair : T0Pair) : Prop where
  grid : pair.marketStartTs % 300 = 0
  width : pair.marketEndTs - pair.marketStartTs = 300
  horizon : pair.marketHorizonSeconds = 300
  named : slugStart pair.marketSlug = some pair.marketStartTs
  finite : pair.decisionTs.isFinite = true
  inside : pair.marketStartTs ≤ pair.decisionTs.value ∧ pair.decisionTs.value < pair.marketEndTs
  market : pair.pMarket.isFinite = true ∧ 0 ≤ pair.pMarket.value ∧ pair.pMarket.value ≤ 1
  model : pair.senexRawUp.isFinite = true ∧ 0 ≤ pair.senexRawUp.value ∧ pair.senexRawUp.value ≤ 1

/-- The audit of the row says that the model did not see the market. -/
def FusionDisabled (row : PyValue) : Prop :=
  ∃ audit weight, (audit = row.get (txt "_audit") ∨ audit = row.get (txt "audit")) ∧
    (influenceOf audit).get (txt "directional_use") = .bool false ∧
    (influenceOf audit).get (txt "experiment_enabled") = .bool false ∧
    ((influenceOf audit).get (txt "effective_weight")).number = .ok weight ∧
    weight.isFinite = true ∧ |weight.value| ≤ weightTolerance.value

theorem isBool_iff {b : Bool} {value : PyValue} : isBool b value = true ↔ value = .bool b := by
  cases value with
  | bool c => cases b <;> cases c <;> simp [isBool]
  | _ => simp [isBool]

theorem probability_bounds {value : PyValue} {field : Text} {p : Double} (ok : probability value field = .ok p) :
    p.isFinite = true ∧ 0 ≤ p.value ∧ p.value ≤ 1 := by
  simp only [probability, Py.bind_eq_ok] at ok
  obtain ⟨result, -, ok⟩ := ok
  split at ok
  · cases ok
  · rename_i inside
    obtain rfl := Except.ok.inj ok
    simpa [and_assoc] using inside

theorem isFinite_parseTime {value : PyValue} {field : Text} {t : Double} (ok : parseTime value field = .ok t) :
    t.isFinite = true := by
  have numeric (call : numericTime value field = .ok t) : t.isFinite = true := by
    simp only [numericTime, Py.bind_eq_ok] at call
    obtain ⟨number, -, call⟩ := call
    split at call
    · rename_i finite
      exact Except.ok.inj call ▸ finite
    · cases call
  cases value with
  | bool | int | float => exact numeric ok
  | str text =>
      simp only [parseTime, isoTime, Py.bind_eq_ok] at ok
      obtain ⟨_, -, parsed, -, offset, -, utc, -, ok⟩ := ok
      exact Except.ok.inj ok ▸ Datetime.isFinite_timestamp utc
  | none | list | dict => cases ok

section

variable {containerText : PyValue → Text}

/-- Everything that an extracted pair went through. -/
theorem extractT0Pair_eq_some {row : PyValue} {pair : T0Pair}
    (ok : extractT0Pair containerText row = .ok (some pair)) :
    ∃ audit weight market decisionTs pMarket senexRawUp,
      auditOf containerText row = some audit ∧ fusionOff audit = true ∧
      ((influenceOf audit).get (txt "effective_weight")).number = .ok weight ∧ negligible weight = true ∧
      marketOf containerText audit = some market ∧
      measurements row audit market = .ok (decisionTs, pMarket, senexRawUp) ∧
      ¬(decisionTs.value < market.startTs ∨ market.endTs ≤ decisionTs.value) ∧
      pair = ⟨row.get (txt "id"), decisionTs, market.slug, market.conditionId, market.startTs, market.endTs,
        targetHorizonSeconds, pMarket, senexRawUp⟩ := by
  simp only [extractT0Pair, Py.return_none_or] at ok
  obtain ⟨-, ok⟩ := ok
  cases named : auditOf containerText row with
  | none => simp [named] at ok
  | some audit =>
      simp only [named, Py.return_none_or, Bool.not_eq_false] at ok
      obtain ⟨fusion, ok⟩ := ok
      obtain ⟨weight?, read, ok⟩ := Py.bind_eq_ok.mp ok
      cases weight? with
      | none => simp at ok
      | some weight =>
          simp only [Py.return_none_or, Bool.not_eq_false] at ok
          obtain ⟨small, ok⟩ := ok
          cases found : marketOf containerText audit with
          | none => simp [found] at ok
          | some market =>
              simp only [found, measuredPair] at ok
              obtain ⟨values?, measured, ok⟩ := Py.bind_eq_ok.mp ok
              cases values? with
              | none => simp at ok
              | some values =>
                  simp only [Py.return_none_or] at ok
                  obtain ⟨inside, ok⟩ := ok
                  exact ⟨audit, weight, market, values.1, values.2.1, values.2.2, rfl, fusion,
                    attempt_eq_some.mp read, small, found, attempt_eq_some.mp measured, inside,
                    (Option.some.inj (Except.ok.inj ok)).symm⟩

theorem marketOf_onGrid {audit : PyValue} {market : Market} (found : marketOf containerText audit = some market) :
    onGrid market.slug market.startTs market.endTs = true := by
  simp only [marketOf] at found
  split at found
  · split at found
    · cases found
    · simp only [Option.bind_eq_bind, Option.bind_eq_some_iff] at found
      obtain ⟨startTs, -, endTs, -, found⟩ := found
      split at found
      · rename_i grid
        exact Option.some.inj found ▸ grid
      · cases found
  · cases found

theorem causal_of_extractT0Pair {row : PyValue} {pair : T0Pair}
    (ok : extractT0Pair containerText row = .ok (some pair)) : Causal pair := by
  obtain ⟨audit, weight, market, decisionTs, pMarket, senexRawUp, -, -, -, -, found, measured, inside, rfl⟩ :=
    extractT0Pair_eq_some ok
  obtain ⟨grid, width, named⟩ := onGrid_iff.mp (marketOf_onGrid found)
  simp only [measurements, Py.bind_eq_ok] at measured
  obtain ⟨_, time, _, market', _, model, same⟩ := measured
  obtain ⟨rfl, rfl, rfl⟩ := Prod.mk.injEq .. ▸ Except.ok.inj same
  exact {
    grid
    width
    horizon := rfl
    named
    finite := isFinite_parseTime time
    inside := by simpa [not_or] using inside
    market := probability_bounds market'
    model := probability_bounds model }

theorem fusionDisabled_of_extractT0Pair {row : PyValue} {pair : T0Pair}
    (ok : extractT0Pair containerText row = .ok (some pair)) : FusionDisabled row := by
  obtain ⟨audit, weight, market, decisionTs, pMarket, senexRawUp, named, fusion, read, small, -⟩ :=
    extractT0Pair_eq_some ok
  simp only [fusionOff, Bool.and_eq_true, isBool_iff] at fusion
  simp only [negligible, Bool.and_eq_true] at small
  have source : audit = row.get (txt "_audit") ∨ audit = row.get (txt "audit") := by
    simp only [auditOf] at named
    grind
  refine ⟨audit, weight, source, fusion.1.2, fusion.2, read, small.1, ?_⟩
  obtain ⟨finite, magnitude⟩ := Double.absolute_value small.1
  have tolerance : weightTolerance.isFinite = true := by decide +kernel
  have off : PyFloat.lt weightTolerance (PyFloat.absolute weight) = false := by simpa using small.2
  rw [← magnitude]
  refine not_lt.mp fun above => ?_
  rw [show PyFloat.lt weightTolerance (PyFloat.absolute weight) = true from
    (Double.lt_iff tolerance finite).mpr above] at off
  cases off

end

/-! ## What the extraction does not read -/

/-- Two values that are equal for a reader of some keys. -/
def SameAt (keys : List Text) (value value' : PyValue) : Prop :=
  value.isDict = value'.isDict ∧ ∀ key ∈ keys, value.get key = value'.get key

/-- Two audits with the same inputs of the model and of the market. -/
structure SameAudit (audit audit' : PyValue) : Prop where
  dict : audit.isDict = audit'.isDict
  step2 : SameAt [txt "up_prob"] (step2Of audit) (step2Of audit')
  influence : SameAt [txt "directional_use", txt "experiment_enabled", txt "effective_weight"]
    (influenceOf audit) (influenceOf audit')
  poly : SameAt [txt "source", txt "version", txt "eligible_for_prediction", txt "slug", txt "condition_id",
    txt "start_ts", txt "end_ts", txt "up_probability"] (polyOf audit) (polyOf audit')

/-- Two rows that differ in no field but outcomes, settlements and others that no prediction is made of. -/
structure SameInputs (row row' : PyValue) : Prop where
  fields : SameAt [txt "id", txt "symbol", txt "ts", txt "timestamp"] row row'
  audit : SameAudit (row.get (txt "audit")) (row'.get (txt "audit"))
  privateAudit : SameAudit (row.get (txt "_audit")) (row'.get (txt "_audit"))

section

variable {containerText : PyValue → Text}

theorem SameInputs.auditOf {row row' : PyValue} (same : SameInputs row row') :
    (auditOf containerText row = Option.none ∧ auditOf containerText row' = Option.none) ∨
      ∃ audit audit', auditOf containerText row = some audit ∧ auditOf containerText row' = some audit' ∧
        SameAudit audit audit' := by
  have symbol := same.fields.2 (txt "symbol") (by simp)
  have dict := same.audit.dict
  have privateDict := same.privateAudit.dict
  unfold Edge.auditOf
  rw [← symbol, ← dict, ← privateDict]
  split
  · split
    · exact .inr ⟨_, _, rfl, rfl, same.privateAudit⟩
    · split
      · exact .inr ⟨_, _, rfl, rfl, same.audit⟩
      · exact .inl ⟨rfl, rfl⟩
  · exact .inl ⟨rfl, rfl⟩

theorem SameAudit.fusionOff {audit audit' : PyValue} (same : SameAudit audit audit') :
    fusionOff audit = fusionOff audit' := by
  have directional := same.influence.2 (txt "directional_use") (by simp)
  have enabled := same.influence.2 (txt "experiment_enabled") (by simp)
  rw [Edge.fusionOff, Edge.fusionOff, same.step2.1, same.influence.1, directional, enabled]

theorem SameAudit.marketOf {audit audit' : PyValue} (same : SameAudit audit audit') :
    marketOf containerText audit = marketOf containerText audit' := by
  have at_key := same.poly.2
  simp only [List.mem_cons, List.not_mem_nil, or_false, forall_eq_or_imp, forall_eq] at at_key
  obtain ⟨source, version, eligible, slug, condition, start, stop, probability⟩ := at_key
  simp only [Edge.marketOf, same.poly.1, source, version, eligible, slug, condition, start, stop, probability]

theorem extractT0Pair_congr {row row' : PyValue} (same : SameInputs row row') :
    extractT0Pair containerText row = extractT0Pair containerText row' := by
  have at_key := same.fields.2
  simp only [List.mem_cons, List.not_mem_nil, or_false, forall_eq_or_imp, forall_eq] at at_key
  obtain ⟨id, -, ts, timestamp⟩ := at_key
  unfold extractT0Pair
  rcases @SameInputs.auditOf containerText _ _ same with ⟨absent, absent'⟩ | ⟨audit, audit', named, named', pair⟩
  · rw [same.fields.1, absent, absent']
  · have weight := pair.influence.2 (txt "effective_weight") (by simp)
    have model := pair.step2.2 (txt "up_prob") (by simp)
    simp only [same.fields.1, named, named', pair.fusionOff, pair.marketOf, weight, measuredPair, measurements,
      timeOf, id, ts, timestamp, model]

/-- The extraction of a list raises nothing, returns the pairs of the rows in their order, causal
    ones of rows with the fusion off, and looks at nothing else in the rows. -/
structure Extracts (containerText : PyValue → Text) (rows : List PyValue) : Prop where
  total : ∃ results : List (Option T0Pair), rows.map (extractT0Pair containerText) = results.map .ok ∧
    extractT0Pairs containerText rows = .ok results.reduceOption
  causal : ∀ pairs, extractT0Pairs containerText rows = .ok pairs → ∀ pair ∈ pairs, Causal pair ∧
    ∃ row ∈ rows, extractT0Pair containerText row = .ok (some pair) ∧ FusionDisabled row
  blind : ∀ rows', List.Forall₂ SameInputs rows rows' →
    extractT0Pairs containerText rows' = extractT0Pairs containerText rows

theorem mem_extractT0Pairs {rows : List PyValue} {pairs : List T0Pair}
    (ok : extractT0Pairs containerText rows = .ok pairs) {pair : T0Pair} (member : pair ∈ pairs) :
    ∃ row ∈ rows, extractT0Pair containerText row = .ok (some pair) := by
  induction rows generalizing pairs with
  | nil =>
      cases ok
      cases member
  | cons row rows ih =>
      obtain ⟨result, here, ok⟩ := Py.bind_eq_ok.mp ok
      obtain ⟨rest, there, ok⟩ := Py.bind_eq_ok.mp ok
      obtain rfl := Except.ok.inj ok
      rcases List.mem_append.mp member with first | later
      · exact ⟨row, .head _, by rw [here, Option.mem_toList.mp first]⟩
      · obtain ⟨source, inside, made⟩ := ih there later
        exact ⟨source, .tail _ inside, made⟩

theorem extractT0Pairs_congr {rows rows' : List PyValue} (same : List.Forall₂ SameInputs rows rows') :
    extractT0Pairs containerText rows' = extractT0Pairs containerText rows := by
  induction same with
  | nil => rfl
  | cons one _ ih => rw [extractT0Pairs, extractT0Pairs, extractT0Pair_congr one, ih]

theorem total_of_quiet {rows : List PyValue} (quiet : ∀ row ∈ rows, ¬Overflows containerText row) :
    ∃ results : List (Option T0Pair), rows.map (extractT0Pair containerText) = results.map .ok ∧
      extractT0Pairs containerText rows = .ok results.reduceOption := by
  induction rows with
  | nil => exact ⟨[], rfl, rfl⟩
  | cons row rows ih =>
      obtain ⟨results, each, whole⟩ := ih fun r member => quiet r (.tail _ member)
      cases here : extractT0Pair containerText row with
      | error e => exact absurd ((extractT0Pair_raises_iff containerText row).mp ⟨e, here⟩) (quiet row (.head _))
      | ok result =>
          refine ⟨result :: results, by rw [List.map_cons, List.map_cons, here, each], ?_⟩
          rw [extractT0Pairs, here, whole]
          cases result <;> rfl

/-- The extraction is what it should be exactly for rows without such a number or time. -/
theorem extracts_iff (containerText : PyValue → Text) (rows : List PyValue) :
    Extracts containerText rows ↔ ∀ row ∈ rows, ¬Overflows containerText row := by
  constructor
  · intro extracts row member overflows
    obtain ⟨e, raised⟩ := (extractT0Pair_raises_iff containerText row).mpr overflows
    obtain ⟨results, each, -⟩ := extracts.total
    have inside := List.mem_map_of_mem (f := extractT0Pair containerText) member
    rw [each, raised] at inside
    obtain ⟨result, -, ok⟩ := List.mem_map.mp inside
    cases ok
  · intro quiet
    refine ⟨total_of_quiet quiet, fun pairs ok pair member => ?_, fun rows' same => extractT0Pairs_congr same⟩
    obtain ⟨row, inside, made⟩ := mem_extractT0Pairs ok member
    exact ⟨causal_of_extractT0Pair made, row, inside, made, fusionDisabled_of_extractT0Pair made⟩

end

/-- A row whose weight of the fusion is an integer that no float holds. -/
def hugeWeight : PyValue :=
  let influence := ofMembers [(txt "directional_use", .bool false), (txt "experiment_enabled", .bool false),
    (txt "effective_weight", .int (10 ^ 400))]
  let pipeline := ofMembers [(txt "step2_features", ofMembers [(txt "polymarket_context_v1", influence)])]
  ofMembers [(txt "symbol", .str (txt "BTCUSDT")), (txt "audit", ofMembers [(txt "pipeline", pipeline)])]

theorem hugeWeight_raises :
    ∃ e, extractT0Pairs (fun _ => []) [hugeWeight] = .error e ∧ e.error = .overflowError := by
  have raised : (match extractT0Pairs (fun _ => []) [hugeWeight] with
      | .ok _ => false
      | .error e => decide (e.error = .overflowError)) = true := by
    decide +kernel
  cases result : extractT0Pairs (fun _ => []) [hugeWeight] with
  | ok pairs => simp [result] at raised
  | error e => exact ⟨e, rfl, by simpa [result] using raised⟩

end Senex.Edge
