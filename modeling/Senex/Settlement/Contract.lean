import Senex.Foundation.PyValue

/-! # Causal settlement primitives

`settlement_contract.py`: UTC instants, target times, the candle that contains a target, and
price evidence with its validation.  What the module makes of market data, its own
validation accepts (`validatePriceEvidence_evidence`).
-/

namespace Senex.Settlement

open Text

/-- `CANDLE_INTERVAL_MS` -/
def candleIntervalMs : Int := 60000

/-- `WINDOW_15M_S` -/
def window15mS : Int := 900

/-- `WINDOW_1H_S` -/
def window1hS : Int := 3600

/-- `ALLOWED_PUBLIC_EXCHANGES` -/
def allowedPublicExchanges : List Text :=
  [txt "okx", txt "kraken", txt "gate", txt "mexc", txt "bitget"]

/-! ## Instants -/

def parseUtc (value : PyValue) : Py (Option Civil) :=
  match value.text? with
  | none => .ok none
  | some text =>
      match Datetime.fromIsoformat (spellZone text) with
      | none => .ok none
      | some d =>
          match Datetime.toUtc d.civil (d.offset.getD 0) with
          | none => raise .overflowError (txt "date value out of range")
          | some c => .ok (some c)

/-- The microsecond behind the last one of year 9999. -/
def endOfCalendar : Int := 3652059 * 86400000000

/-- `datetime + timedelta(seconds=s)`, in microseconds since the start of year 1. -/
def addSeconds (c : Civil) (s : Int) : Py Int :=
  let micros := (Datetime.toMicros c : Int) + s * 1000000
  if micros < endOfCalendar then .ok micros
  else raise .overflowError (txt "date value out of range")

/-- The start of 1970. -/
def unixEpoch : Int := 719162 * 86400000000

/-- `int(datetime.timestamp() * 1000)`, where both the quotient and the product are rounded. -/
def timestampMs (micros : Int) : Int :=
  (Double.round ((Double.round ((micros - unixEpoch) / 1000000)).value * 1000)).trunc

def targetEpochMs (tsIso : PyValue) (windowSeconds : Int) : Py (Option Int) :=
  if windowSeconds ≠ window15mS ∧ windowSeconds ≠ window1hS then .ok none
  else do
    match ← parseUtc tsIso with
    | none => return none
    | some origin => return some (timestampMs (← addSeconds origin windowSeconds))

/-! ## Names -/

def normalizeSymbol (value : Text) : Text :=
  let text := strip (upper value)
  if text.contains 47 then text
  else if (txt "USDT").isSuffixOf text ∧ 4 < text.length then
    text.take (text.length - 4) ++ txt "/USDT"
  else text

def normalizeExchange (value : PyValue) : Option Text :=
  value.textOrEmpty.bind fun text =>
    let text := pyLower (strip text)
    if allowedPublicExchanges.contains text then some text else none

/-! ## Candles -/

/-- `value[i]`; nothing is the `IndexError`. -/
def subscript (value : PyValue) (i : Nat) : Py (Option PyValue) :=
  match value with
  | .list items => .ok items[i]?
  | .str t => .ok (t[i]?.map fun c => .str [c])
  | .dict _ => raise .keyError (ofNat i)
  | _ => raise .typeError (txt "object is not subscriptable")

/-- Opening time and close of a candle, where both can be read. -/
def readCandle (candle : PyValue) : Py (Option (Int × Double)) := do
  let read ← attempt PyError.isTypeOrValue do
    match ← subscript candle 0 with
    | none => return none
    | some openTime =>
        let openMs ← openTime.toInt
        match ← subscript candle 4 with
        | none => return none
        | some closing => return some (openMs, ← closing.toFloat)
  return read.join

/-- `close <= 0` -/
def notPositive (x : Double) : Bool := x.le (Double.round 0)

/-- Whether a candle has a price and contains the target. -/
def admissible (targetMs : Int) (candle : Int × Double) : Bool :=
  !notPositive candle.2 && candle.2.isFinite &&
    decide (candle.1 ≤ targetMs) && decide (targetMs < candle.1 + candleIntervalMs)

/-- The candles that are admissible for a target. -/
def validCandles (targetMs : Int) : List PyValue → Py (List (Int × Double))
  | [] => .ok []
  | candle :: rest => do
      let read ← readCandle candle
      let valid ← validCandles targetMs rest
      match read with
      | none => return valid
      | some candle => return if admissible targetMs candle then candle :: valid else valid

/-- The first of the candles that open last. -/
def latest : List (Int × Double) → Option (Int × Double)
  | [] => none
  | first :: rest => some (rest.foldl (fun best c => if best.1 < c.1 then c else best) first)

/-- Opening time and close of the canonical candle that contains `targetMs`. -/
def selectContainingCandle (candles : List PyValue) (targetMs : Int) :
    Py (Option (Int × Double)) := do
  return latest (← validCandles targetMs candles)

/-! ## Price evidence -/

/-- The evidence for a price, as the code writes it. -/
def evidence (source symbol : Text) (windowSeconds targetMs openMs : Int) (price : Double)
    (observed : Civil) : PyValue :=
  .ofMembers [
    (txt "version", .str (txt "historical-price-evidence-v1")),
    (txt "source", .str source),
    (txt "symbol", .str symbol),
    (txt "window_seconds", .int windowSeconds),
    (txt "target_epoch_ms", .int targetMs),
    (txt "candle_open_epoch_ms", .int openMs),
    (txt "candle_close_epoch_ms", .int (openMs + candleIntervalMs)),
    (txt "candle_interval_ms", .int candleIntervalMs),
    (txt "target_offset_from_candle_open_ms", .int (targetMs - openMs)),
    (txt "price", .float price),
    (txt "observed_at", .str (Datetime.isoformat observed)),
    (txt "selection_rule", .str (txt "ONE_MINUTE_CANDLE_CONTAINING_EXACT_TARGET")),
    (txt "maturity_rule", .str (txt "OBSERVED_AT_GTE_CANDLE_CLOSE_EPOCH_MS"))]

/-- `now` is what the clock reads where no `observed_at` is given. -/
def priceEvidenceFromCandles (candles : List PyValue) (exchange : PyValue) (symbol : Text)
    (tsIso : PyValue) (windowSeconds : Int) (observedAt : PyValue) (now : Civil) :
    Py (Option PyValue) := do
  let source := normalizeExchange exchange
  let normalizedSymbol := normalizeSymbol symbol
  let targetMs ← targetEpochMs tsIso windowSeconds
  match source, targetMs with
  | some source, some targetMs =>
      if normalizedSymbol = [] then return none
      match ← selectContainingCandle candles targetMs with
      | none => return none
      | some (openMs, price) =>
          match ← (if observedAt.isNone then .ok (some now) else parseUtc observedAt) with
          | none => return none
          | some observed =>
              -- The last candle is provisional until its interval closes.
              if timestampMs (Datetime.toMicros observed) < openMs + candleIntervalMs then return none
              return some (evidence source normalizedSymbol windowSeconds targetMs openMs price observed)
  | _, _ => return none

/-- The numbers of some evidence. -/
structure EvidenceNumbers where
  (window target openMs closeMs interval : Int)
  price : Double

def readEvidenceNumbers (evidence : PyValue) : Py EvidenceNumbers := do
  let window ← (evidence.get (txt "window_seconds")).toInt
  let target ← (evidence.get (txt "target_epoch_ms")).toInt
  let openMs ← (evidence.get (txt "candle_open_epoch_ms")).toInt
  let closeMs ← (evidence.get (txt "candle_close_epoch_ms")).toInt
  let interval ← (evidence.get (txt "candle_interval_ms")).toInt
  let price ← (evidence.get (txt "price")).toFloat
  return { window, target, openMs, closeMs, interval, price }

/-- The numbers are those of a candle of one minute around the target, with a price. -/
def EvidenceNumbers.fit (n : EvidenceNumbers) (windowSeconds targetMs : Int) : Bool :=
  decide (n.window = windowSeconds) && decide (n.target = targetMs) &&
    decide (n.interval = candleIntervalMs) && decide (n.closeMs = n.openMs + n.interval) &&
    decide (n.openMs ≤ targetMs) && decide (targetMs < n.closeMs) &&
    !notPositive n.price && n.price.isFinite

def validatePriceEvidence (evidence : PyValue) (expectedExchange : PyValue) (expectedSymbol : Text)
    (expectedTs : PyValue) (expectedWindowSeconds : Int) : Py Bool := do
  if !evidence.isDict || !(evidence.get (txt "version")).eqText (txt "historical-price-evidence-v1") then
    return false
  let source := normalizeExchange expectedExchange
  let symbol := normalizeSymbol expectedSymbol
  match source, ← targetEpochMs expectedTs expectedWindowSeconds with
  | some source, some targetMs =>
      if symbol = [] then return false
      if !(evidence.get (txt "source")).eqText source || !(evidence.get (txt "symbol")).eqText symbol then
        return false
      match ← attempt PyError.isTypeOrValue (readEvidenceNumbers evidence) with
      | none => return false
      | some n =>
          if !n.fit expectedWindowSeconds targetMs then return false
          match ← parseUtc (evidence.get (txt "observed_at")) with
          | none => return false
          | some observed => return decide (n.closeMs ≤ timestampMs (Datetime.toMicros observed))
  | _, _ => return false

/-! ## Outcomes -/

def outcomeOf (direction : Text) (origin later : Double) : Option Text :=
  if notPositive origin || notPositive later || !origin.isFinite || !later.isFinite then none
  else if upper direction = txt "LONG" then
    some (if origin.lt later then txt "WIN" else txt "LOSS")
  else if upper direction = txt "SHORT" then
    some (if later.lt origin then txt "WIN" else txt "LOSS")
  else none

def directionalOutcome (direction : Text) (origin later : PyValue) : Py (Option Text) := do
  match ← attempt PyError.isTypeOrValue (do return (← origin.toFloat, ← later.toFloat)) with
  | none => return none
  | some (origin, later) => return outcomeOf direction origin later

/-! ## Market data -/

/-- A public exchange: `fetch_ohlcv` of one minute candles since a time, or its failure, and the
    clock behind it. -/
structure Market where
  fetchOhlcv : (source symbol : Text) → (since : Int) → Option (List PyValue)
  now : Civil

def fetchHistoricalPriceEvidence (market : Market) (exchangeName : PyValue) (symbol : Text)
    (tsIso : PyValue) (windowSeconds : Int) : Py (Option PyValue) := do
  let source := normalizeExchange exchangeName
  let normalizedSymbol := normalizeSymbol symbol
  match source, ← targetEpochMs tsIso windowSeconds with
  | some source, some targetMs =>
      if normalizedSymbol = [] then return none
      match market.fetchOhlcv source normalizedSymbol (targetMs - candleIntervalMs) with
      | none => return none
      | some candles =>
          priceEvidenceFromCandles candles (.str source) normalizedSymbol tsIso windowSeconds .none market.now
  | _, _ => return none

/-! ## Names and instants are stable -/

theorem parseUtc_isoformat (c : Civil) : parseUtc (.str (Datetime.isoformat c)) = .ok (some c) := by
  simp [parseUtc, PyValue.text?, spellZone_eq_self (Datetime.not_mem_isoformat c),
    Datetime.fromIsoformat_isoformat, Datetime.toUtc]

theorem normalizeExchange_allowed {source : Text} (allowed : source ∈ allowedPublicExchanges) :
    normalizeExchange (.str source) = some source := by
  simp only [allowedPublicExchanges, List.mem_cons, List.not_mem_nil, or_false] at allowed
  rcases allowed with rfl | rfl | rfl | rfl | rfl <;> decide

/-- A source is named by its own name. -/
theorem normalizeExchange_source {value : PyValue} {source : Text}
    (normalized : normalizeExchange value = some source) :
    normalizeExchange (.str source) = some source := by
  simp only [normalizeExchange, Option.bind_eq_some_iff] at normalized
  obtain ⟨text, -, chosen⟩ := normalized
  split at chosen
  · rename_i allowed
    rw [← Option.some.inj chosen]
    exact normalizeExchange_allowed (by simpa using allowed)
  · cases chosen

private theorem upper_strip_upper (t : Text) : upper (strip (upper t)) = strip (upper t) := by
  have fixed : ∀ c ∈ strip (upper t), upperUnit c = c := by
    intro c member
    obtain ⟨d, -, rfl⟩ := List.mem_map.mp (mem_of_mem_stripBy member)
    simp only [upperUnit]
    split_ifs <;> omega
  rw [upper, List.map_congr_left fixed, List.map_id']

/-- A normalized symbol is its own normal form. -/
theorem normalizeSymbol_normalizeSymbol (symbol : Text) :
    normalizeSymbol (normalizeSymbol symbol) = normalizeSymbol symbol := by
  have raised := upper_strip_upper symbol
  have stripped : strip (strip (upper symbol)) = strip (upper symbol) := strip_strip _
  have head : ∀ c ∈ (strip (upper symbol)).head?, isPySpace c = false := head_stripBy _ _
  generalize normal : strip (upper symbol) = text at raised stripped head
  by_cases slash : text.contains 47 = true
  · have same : normalizeSymbol symbol = text := by rw [normalizeSymbol, normal, if_pos slash]
    rw [same, normalizeSymbol, raised, stripped, if_pos slash]
  · by_cases tether : (txt "USDT").isSuffixOf text = true ∧ 4 < text.length
    · have same : normalizeSymbol symbol = text.take (text.length - 4) ++ txt "/USDT" := by
        rw [normalizeSymbol, normal, if_neg slash, if_pos tether]
      have raisedPair : upper (text.take (text.length - 4) ++ txt "/USDT") =
          text.take (text.length - 4) ++ txt "/USDT" := by
        have tail : (txt "/USDT").map upperUnit = txt "/USDT" := by decide
        rw [upper, List.map_append, List.map_take, ← upper, raised, tail]
      have strippedPair : strip (text.take (text.length - 4) ++ txt "/USDT") =
          text.take (text.length - 4) ++ txt "/USDT" := by
        apply stripBy_eq_self
        · intro c hc
          apply head c
          cases text with
          | nil => simp at tether
          | cons d text =>
              have more : (d :: text).length - 4 = (text.length - 4) + 1 := by
                have long := tether.2
                simp only [List.length_cons] at long ⊢
                omega
              rw [more] at hc
              simpa using hc
        · intro c hc
          rw [List.getLast?_append] at hc
          cases hc
          decide
      have slashPair : (text.take (text.length - 4) ++ txt "/USDT").contains 47 = true := by
        simp [txt]
      rw [same, normalizeSymbol, raisedPair, strippedPair, if_pos slashPair]
    · have same : normalizeSymbol symbol = text := by
        rw [normalizeSymbol, normal, if_neg slash, if_neg tether]
      rw [same, normalizeSymbol, raised, stripped, if_neg slash, if_neg tether]

/-! ## Evidence that is made is valid -/

theorem admissible_of_mem_validCandles {targetMs : Int} {candles : List PyValue}
    {valid : List (Int × Double)} (read : validCandles targetMs candles = .ok valid) :
    ∀ c ∈ valid, admissible targetMs c = true := by
  induction candles generalizing valid with
  | nil =>
      cases read
      simp
  | cons candle candles ih =>
      simp only [validCandles, Py.bind_eq_ok] at read
      obtain ⟨one, -, others, rest, result⟩ := read
      cases one with
      | none =>
          cases result
          exact ih rest
      | some c =>
          simp only [Py.pure_eq_ok, Except.ok.injEq] at result
          subst result
          intro d hd
          split at hd
          · rename_i good
            rcases List.mem_cons.mp hd with rfl | old
            · exact good
            · exact ih rest d old
          · exact ih rest d hd

theorem latest_mem {candles : List (Int × Double)} {c : Int × Double} (chosen : latest candles = some c) :
    c ∈ candles := by
  cases candles with
  | nil => cases chosen
  | cons first rest =>
      rw [latest, Option.some.injEq] at chosen
      subst chosen
      have inside : ∀ (rest : List (Int × Double)) (best : Int × Double),
          rest.foldl (fun best c => if best.1 < c.1 then c else best) best ∈ best :: rest := by
        intro rest
        induction rest with
        | nil => simp
        | cons d rest ih =>
            intro best
            rw [List.foldl_cons]
            split
            · exact List.mem_cons_of_mem _ (ih d)
            · rcases List.mem_cons.mp (ih best) with same | later
              · rw [same]
                exact List.mem_cons_self
              · exact List.mem_cons_of_mem _ (List.mem_cons_of_mem _ later)
      exact inside rest first

/-- A price that a row's market data has for a window, with its candle and the time of the reading. -/
structure PriceReading (exchange : PyValue) (symbol : Text) (tsIso : PyValue) (windowSeconds : Int) where
  source : Text
  (targetMs openMs : Int)
  price : Double
  observed : Civil
  exchange_eq : normalizeExchange exchange = some source
  symbol_ne : normalizeSymbol symbol ≠ []
  target_eq : targetEpochMs tsIso windowSeconds = .ok (some targetMs)
  admissible : admissible targetMs (openMs, price) = true
  mature : openMs + candleIntervalMs ≤ timestampMs (Datetime.toMicros observed)

section
variable {exchange : PyValue} {symbol : Text} {tsIso : PyValue} {windowSeconds : Int}

/-- The evidence that is written for a reading. -/
def PriceReading.evidence (r : PriceReading exchange symbol tsIso windowSeconds) : PyValue :=
  Settlement.evidence r.source (normalizeSymbol symbol) windowSeconds r.targetMs r.openMs r.price r.observed

/-- Evidence from candles comes from a reading. -/
theorem reading_of_candles {candles : List PyValue} {observedAt : PyValue} {now : Civil} {ev : PyValue}
    (made : priceEvidenceFromCandles candles exchange symbol tsIso windowSeconds observedAt now = .ok (some ev)) :
    ∃ r : PriceReading exchange symbol tsIso windowSeconds, ev = r.evidence := by
  simp only [priceEvidenceFromCandles, Py.bind_eq_ok] at made
  obtain ⟨target, target_eq, rest⟩ := made
  split at rest
  · rename_i source targetMs exchange_eq
    split at rest
    · cases rest
    · rename_i symbol_ne
      obtain ⟨candle, selected, rest⟩ := Py.bind_eq_ok.mp rest
      cases candle with
      | none => cases rest
      | some candle =>
          obtain ⟨observed, -, rest⟩ := Py.bind_eq_ok.mp rest
          cases observed with
          | none => cases rest
          | some observed =>
              simp only at rest
              split at rest
              · cases rest
              · rename_i mature
                simp only [Py.pure_eq_ok, Except.ok.injEq, Option.some.injEq] at rest
                simp only [selectContainingCandle, Py.bind_eq_ok, Py.pure_eq_ok, Except.ok.injEq] at selected
                obtain ⟨valid, read, chosen⟩ := selected
                exact ⟨{
                  source, targetMs, openMs := candle.1, price := candle.2, observed
                  exchange_eq, symbol_ne, target_eq
                  admissible := admissible_of_mem_validCandles read candle (latest_mem chosen)
                  mature := Int.not_lt.mp mature }, rest.symm⟩
  · cases rest

/-- The evidence of a reading is valid, however the validation is told the source and the symbol. -/
theorem PriceReading.valid (r : PriceReading exchange symbol tsIso windowSeconds)
    {expectedExchange : PyValue} {expectedSymbol : Text}
    (sameSource : normalizeExchange expectedExchange = normalizeExchange exchange)
    (sameSymbol : normalizeSymbol expectedSymbol = normalizeSymbol symbol) :
    validatePriceEvidence r.evidence expectedExchange expectedSymbol tsIso windowSeconds = .ok true := by
  have numbers : readEvidenceNumbers r.evidence = .ok ⟨windowSeconds, r.targetMs, r.openMs,
      r.openMs + candleIntervalMs, candleIntervalMs, r.price⟩ := by
    simp [readEvidenceNumbers, PriceReading.evidence, Settlement.evidence, Json.lookup]
  have fit := r.admissible
  simp only [Settlement.admissible, Bool.and_eq_true, Bool.not_eq_true', decide_eq_true_eq] at fit
  obtain ⟨⟨⟨positive, finite⟩, opened⟩, closing⟩ := fit
  have observedAt : r.evidence.get (txt "observed_at") = .str (Datetime.isoformat r.observed) := by
    simp [PriceReading.evidence, Settlement.evidence, Json.lookup]
  have named : r.evidence.isDict = true ∧
      r.evidence.get (txt "version") = .str (txt "historical-price-evidence-v1") ∧
      r.evidence.get (txt "source") = .str r.source ∧
      r.evidence.get (txt "symbol") = .str (normalizeSymbol symbol) := by
    simp [PriceReading.evidence, Settlement.evidence, Json.lookup]
  obtain ⟨dict, version, source, symbolText⟩ := named
  simp [validatePriceEvidence, dict, version, source, symbolText, sameSource, sameSymbol, r.exchange_eq,
    r.target_eq, r.symbol_ne, numbers, EvidenceNumbers.fit, positive, finite, opened, closing, observedAt,
    parseUtc_isoformat, r.mature]

end

end Senex.Settlement
