import Senex.Settlement.Contract
import Mathlib

/-! # The candle behind some evidence

Price evidence comes from one candle of the list: of those that contain the target the one that opens last, and the
first one listed where several do.  The other candles leave no trace in it.
-/

namespace Senex.Settlement

open Text

/-- A candle that can be read, has a price and contains the target. -/
def contained (targetMs : Int) (candle : PyValue) : Option (Int × Double) :=
  match readCandle candle with
  | .ok (some c) => if admissible targetMs c then some c else none
  | _ => none

theorem contained_eq_some {targetMs : Int} {candle : PyValue} {c : Int × Double} :
    contained targetMs candle = some c ↔ readCandle candle = .ok (some c) ∧ admissible targetMs c = true := by
  cases read : readCandle candle with
  | error e => simp [contained, read]
  | ok found =>
      cases found with
      | none => simp [contained, read]
      | some d =>
          by_cases good : admissible targetMs d = true
          · simp only [contained, read, good, if_true, Option.some.injEq, Except.ok.injEq]
            constructor
            · rintro rfl
              exact ⟨rfl, good⟩
            · exact fun both => both.1
          · simp only [contained, read, good, if_false, reduceCtorEq, Bool.false_eq_true, Except.ok.injEq, Option.some.injEq,
              false_iff, not_and]
            rintro rfl
            exact good

/-- Where every candle can be looked at, the valid ones are those that contain the target. -/
theorem validCandles_eq {targetMs : Int} {candles : List PyValue} {valid : List (Int × Double)}
    (read : validCandles targetMs candles = .ok valid) : valid = candles.filterMap (contained targetMs) := by
  induction candles generalizing valid with
  | nil =>
      cases read
      rfl
  | cons candle candles ih =>
      simp only [validCandles, Py.bind_eq_ok] at read
      obtain ⟨one, first, others, rest, result⟩ := read
      cases one with
      | none =>
          have outside : contained targetMs candle = none := by simp [contained, first]
          cases result
          rw [List.filterMap_cons_none outside]
          exact ih rest
      | some c =>
          rw [List.filterMap_cons, ← ih rest]
          simp only [Py.pure_eq_ok, Except.ok.injEq] at result
          subst result
          by_cases good : admissible targetMs c = true <;> simp [contained, first, good]

/-- A candle with no later one in front, and none that opens later behind. -/
def Leads (candles : List (Int × Double)) (c : Int × Double) : Prop :=
  ∃ front back, candles = front ++ c :: back ∧ (∀ d ∈ front, d.1 < c.1) ∧ ∀ d ∈ back, d.1 ≤ c.1

theorem Leads.le {candles : List (Int × Double)} {c d : Int × Double} (leads : Leads candles c) (member : d ∈ candles) :
    d.1 ≤ c.1 := by
  obtain ⟨front, back, rfl, before, behind⟩ := leads
  rcases List.mem_append.mp member with early | late
  · exact (before d early).le
  · rcases List.mem_cons.mp late with rfl | after
    · exact le_rfl
    · exact behind d after

theorem Leads.cons_of_lt {candles : List (Int × Double)} {best d c : Int × Double} (later : best.1 < d.1)
    (leads : Leads (d :: candles) c) : Leads (best :: d :: candles) c := by
  have reached := leads.le List.mem_cons_self
  obtain ⟨front, back, split, before, behind⟩ := leads
  refine ⟨best :: front, back, by rw [split, List.cons_append], ?_, behind⟩
  intro e member
  rcases List.mem_cons.mp member with rfl | inner
  · exact later.trans_le reached
  · exact before e inner

theorem Leads.insert_of_le {candles : List (Int × Double)} {best d c : Int × Double} (notLater : d.1 ≤ best.1)
    (leads : Leads (best :: candles) c) : Leads (best :: d :: candles) c := by
  obtain ⟨front, back, split, before, behind⟩ := leads
  cases front with
  | nil =>
      obtain ⟨rfl, rfl⟩ := List.cons.inj split
      refine ⟨[], d :: candles, rfl, by simp, ?_⟩
      intro e member
      rcases List.mem_cons.mp member with rfl | inner
      · exact notLater
      · exact behind e inner
  | cons f front =>
      obtain ⟨rfl, rfl⟩ := List.cons.inj split
      refine ⟨best :: d :: front, back, rfl, ?_, behind⟩
      intro e member
      have first := before best List.mem_cons_self
      rcases List.mem_cons.mp member with rfl | inner
      · exact first
      · rcases List.mem_cons.mp inner with rfl | deeper
        · exact notLater.trans_lt first
        · exact before e (List.mem_cons_of_mem _ deeper)

theorem leads_foldl (rest : List (Int × Double)) (best : Int × Double) :
    Leads (best :: rest) (rest.foldl (fun best c => if best.1 < c.1 then c else best) best) := by
  induction rest generalizing best with
  | nil => exact ⟨[], [], rfl, by simp, by simp⟩
  | cons d rest ih =>
      rw [List.foldl_cons]
      split
      next later => exact (ih d).cons_of_lt later
      next notLater => exact (ih best).insert_of_le (not_lt.mp notLater)

/-- The first of the candles that open last. -/
theorem leads_latest {candles : List (Int × Double)} {c : Int × Double} (chosen : latest candles = some c) :
    Leads candles c := by
  cases candles with
  | nil => cases chosen
  | cons first rest =>
      rw [latest, Option.some.injEq] at chosen
      exact chosen ▸ leads_foldl rest first

section
variable {candles : List PyValue} {exchange : PyValue} {symbol : Text} {tsIso : PyValue} {windowSeconds : Int}
  {observedAt : PyValue} {now : Civil}

/-- What the evidence is made of, but for the candle. -/
structure Frame (exchange : PyValue) (symbol : Text) (tsIso : PyValue) (windowSeconds : Int) (observedAt : PyValue)
    (now : Civil) where
  source : Text
  targetMs : Int
  observed : Civil
  exchange_eq : normalizeExchange exchange = some source
  symbol_ne : normalizeSymbol symbol ≠ []
  target_eq : targetEpochMs tsIso windowSeconds = .ok (some targetMs)
  observed_eq : (if observedAt.isNone then .ok (some now) else parseUtc observedAt) = .ok (some observed)

/-- Evidence is made exactly of a frame and a mature candle that is selected. -/
theorem evidence_iff {ev : PyValue} :
    priceEvidenceFromCandles candles exchange symbol tsIso windowSeconds observedAt now = .ok (some ev) ↔
      ∃ (f : Frame exchange symbol tsIso windowSeconds observedAt now) (c : Int × Double),
        selectContainingCandle candles f.targetMs = .ok (some c) ∧
        c.1 + candleIntervalMs ≤ timestampMs (Datetime.toMicros f.observed) ∧
        ev = evidence f.source (normalizeSymbol symbol) windowSeconds f.targetMs c.1 c.2 f.observed := by
  constructor
  · intro made
    simp only [priceEvidenceFromCandles, Py.bind_eq_ok] at made
    obtain ⟨target, target_eq, rest⟩ := made
    split at rest
    next source targetMs exchange_eq =>
      split at rest
      next => cases rest
      next symbol_ne =>
        obtain ⟨candle, selected, rest⟩ := Py.bind_eq_ok.mp rest
        cases candle with
        | none => cases rest
        | some candle =>
            obtain ⟨observed, observed_eq, rest⟩ := Py.bind_eq_ok.mp rest
            cases observed with
            | none => cases rest
            | some observed =>
                simp only at rest
                split at rest
                next => cases rest
                next mature =>
                  simp only [Py.pure_eq_ok, Except.ok.injEq, Option.some.injEq] at rest
                  exact ⟨{ source, targetMs, observed, exchange_eq, symbol_ne, target_eq, observed_eq }, candle,
                    selected, Int.not_lt.mp mature, rest.symm⟩
    next => cases rest
  · rintro ⟨f, c, selected, mature, rfl⟩
    have notEarly : ¬ timestampMs (Datetime.toMicros f.observed) < c.1 + candleIntervalMs := not_lt.mpr mature
    simp [priceEvidenceFromCandles, f.exchange_eq, f.target_eq, f.symbol_ne, selected, f.observed_eq, notEarly]

theorem selectContainingCandle_eq {targetMs : Int} {c : Option (Int × Double)} :
    selectContainingCandle candles targetMs = .ok c ↔
      ∃ valid, validCandles targetMs candles = .ok valid ∧ latest valid = c := by
  simp only [selectContainingCandle, Py.bind_eq_ok, Py.pure_eq_ok, Except.ok.injEq]

/-- A candle alone is selected where it contains the target. -/
theorem selectContainingCandle_singleton {targetMs : Int} {candle : PyValue} {c : Int × Double}
    (inside : contained targetMs candle = some c) : selectContainingCandle [candle] targetMs = .ok (some c) := by
  obtain ⟨read, good⟩ := contained_eq_some.mp inside
  refine selectContainingCandle_eq.mpr ⟨[c], ?_, rfl⟩
  simp [validCandles, read, good]

end

/-- What some evidence says of the candles it is made from. -/
structure OneCandle (candles : List PyValue) (exchange : PyValue) (symbol : Text) (tsIso : PyValue)
    (windowSeconds : Int) (observedAt : PyValue) (now : Civil) (ev : PyValue) : Prop where
  /-- It is valid for the same source, symbol, target and window. -/
  valid : ∀ expectedExchange expectedSymbol, normalizeExchange expectedExchange = normalizeExchange exchange →
    normalizeSymbol expectedSymbol = normalizeSymbol symbol →
      validatePriceEvidence ev expectedExchange expectedSymbol tsIso windowSeconds = .ok true
  /-- It has the close of the candle that contains the target, the first of those that open last, which had closed by
      the time of the observation, and it is what that candle alone makes. -/
  candle : ∃ front candle back targetMs openMs price observed, candles = front ++ candle :: back ∧
    targetEpochMs tsIso windowSeconds = .ok (some targetMs) ∧
    readCandle candle = .ok (some (openMs, price)) ∧
    openMs ≤ targetMs ∧ targetMs < openMs + candleIntervalMs ∧
    ev.get (txt "price") = .float price ∧
    (if observedAt.isNone then .ok (some now) else parseUtc observedAt) = .ok (some observed) ∧
    openMs + candleIntervalMs ≤ timestampMs (Datetime.toMicros observed) ∧
    (∀ other ∈ front, ∀ c, contained targetMs other = some c → c.1 < openMs) ∧
    (∀ other ∈ back, ∀ c, contained targetMs other = some c → c.1 ≤ openMs) ∧
    priceEvidenceFromCandles [candle] exchange symbol tsIso windowSeconds observedAt now = .ok (some ev)
  /-- It does not depend on the candles that do not contain the target. -/
  others : ∀ targetMs candles', targetEpochMs tsIso windowSeconds = .ok (some targetMs) →
    validCandles targetMs candles' = validCandles targetMs candles →
      priceEvidenceFromCandles candles' exchange symbol tsIso windowSeconds observedAt now = .ok (some ev)

/-- Evidence is valid, sees no future, and is that of one candle. -/
theorem oneCandle_of_evidence {candles : List PyValue} {exchange : PyValue} {symbol : Text} {tsIso : PyValue}
    {windowSeconds : Int} {observedAt : PyValue} {now : Civil} {ev : PyValue}
    (made : priceEvidenceFromCandles candles exchange symbol tsIso windowSeconds observedAt now = .ok (some ev)) :
    OneCandle candles exchange symbol tsIso windowSeconds observedAt now ev := by
  obtain ⟨f, c, selected, mature, ev_eq⟩ := evidence_iff.mp made
  obtain ⟨valid, read, chosen⟩ := selectContainingCandle_eq.mp selected
  refine ⟨?_, ?_, ?_⟩
  · intro expectedExchange expectedSymbol sameSource sameSymbol
    obtain ⟨r, rfl⟩ := reading_of_candles made
    exact r.valid sameSource sameSymbol
  · obtain ⟨before, behind, split, earlier, notLater⟩ := leads_latest chosen
    rw [validCandles_eq read] at split
    obtain ⟨front, rest, rfl, before_eq, rest_eq⟩ := List.filterMap_eq_append_iff.mp split
    obtain ⟨skipped, candle, back, rfl, outside, inside, back_eq⟩ := List.filterMap_eq_cons_iff.mp rest_eq
    obtain ⟨read_one, good⟩ := contained_eq_some.mp inside
    simp only [admissible, Bool.and_eq_true, decide_eq_true_eq] at good
    refine ⟨front ++ skipped, candle, back, f.targetMs, c.1, c.2, f.observed, by simp, f.target_eq, read_one, good.1.2,
      good.2, ?_, f.observed_eq, mature, ?_, ?_, ?_⟩
    · rw [ev_eq]
      simp [evidence, Json.lookup]
    · intro other member d found
      rcases List.mem_append.mp member with early | late
      · exact earlier d (before_eq ▸ List.mem_filterMap.mpr ⟨other, early, found⟩)
      · have absent := (outside other late).symm.trans found
        cases absent
    · intro other member d found
      exact notLater d (back_eq ▸ List.mem_filterMap.mpr ⟨other, member, found⟩)
    · exact evidence_iff.mpr ⟨f, c, selectContainingCandle_singleton inside, mature, ev_eq⟩
  · intro targetMs candles' target_eq same
    obtain rfl : targetMs = f.targetMs := Option.some.inj (Except.ok.inj (target_eq.symm.trans f.target_eq))
    refine evidence_iff.mpr ⟨f, c, selectContainingCandle_eq.mpr ⟨valid, same.trans read, chosen⟩, mature, ev_eq⟩

/-! Two candles of one minute with different closes. -/

/-- A candle of the minute from 00:15 on 1 January 2026. -/
def minuteCandle (close : Int) : PyValue :=
  .list [.int 1767226500000, .int 100, .int 100, .int 100, .int close, .int 1]

/-- The evidence for the quarter past midnight, seen at one. -/
def quarterEvidence (candles : List PyValue) : Py (Option PyValue) :=
  priceEvidenceFromCandles candles (.str (txt "okx")) (txt "BTC/USDT") (.str (txt "2026-01-01T00:00:00Z")) window15mS
    (.str (txt "2026-01-01T01:00:00Z")) ⟨2026, 1, 1, 1, 0, 0, 0, by decide⟩

/-- Its price. -/
def quarterPrice (candles : List PyValue) : Option ℚ :=
  (quarterEvidence candles).toOption.join.bind fun ev => (ev.get (txt "price")).toFloat.toOption.map Double.value

theorem oneCandle_of_evidence_quarter : ∃ ev, quarterEvidence [minuteCandle 100] = .ok (some ev) ∧
    OneCandle [minuteCandle 100] (.str (txt "okx")) (txt "BTC/USDT") (.str (txt "2026-01-01T00:00:00Z")) window15mS
      (.str (txt "2026-01-01T01:00:00Z")) ⟨2026, 1, 1, 1, 0, 0, 0, by decide⟩ ev := by
  have some_price : quarterPrice [minuteCandle 100] = some 100 := by decide +kernel
  cases made : quarterEvidence [minuteCandle 100] with
  | error e =>
      rw [quarterPrice, made] at some_price
      exact nomatch some_price
  | ok result =>
      cases result with
      | none =>
          rw [quarterPrice, made] at some_price
          exact nomatch some_price
      | some ev => exact ⟨ev, rfl, oneCandle_of_evidence made⟩

/-- Both candles contain the target, and the evidence has the close of the one that is listed first: another
    candle in front of the first one changes its price. -/
theorem quarterPrice_of_two :
    (contained 1767226500000 (minuteCandle 100)).isSome = true ∧
    (contained 1767226500000 (minuteCandle 200)).isSome = true ∧
    quarterPrice [minuteCandle 100] = some 100 ∧
    quarterPrice [minuteCandle 100, minuteCandle 200] = some 100 ∧
    quarterPrice [minuteCandle 200, minuteCandle 100] = some 200 := by
  decide +kernel

end Senex.Settlement
