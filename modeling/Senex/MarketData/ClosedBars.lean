import Senex.MarketData.Klines

/-! # Partial bars

The rows show the bars as they stood when the exchange answered the first request; the server time is
read in a second one.  A bar that closes between the two is kept with values that were not final.
-/

namespace Senex.MarketData

open Text

/-! ## The exchange -/

def openOf (row : PyValue) : Option Int :=
  match row with
  | .list fields => (wholeNumber (fields.getD 0 .none)).filter (0 ≤ ·)
  | _ => none

def closeOf (row : PyValue) : Option Int :=
  match row with
  | .list fields => (wholeNumber (fields.getD 6 .none)).filter (0 ≤ ·)
  | _ => none

/-- The row of the bar that opens at one instant as it stands at another.  A closed bar does not change. -/
structure Exchange where
  row : Int → Int → PyValue
  final (openMs : Int) {t later close : Int} (known : closeOf (row openMs t) = some close) (closed : close < t)
    (le : t ≤ later) : row openMs later = row openMs t

/-- The rows are bars as they stand at an instant. -/
def Shows (exchange : Exchange) (t : Int) (rows : List PyValue) : Prop :=
  ∀ row ∈ rows, ∀ openMs, openOf row = some openMs → exchange.row openMs t = row

/-- No bar closes from one instant up to another. -/
def NoneCloses (rows : List PyValue) (t0 t1 : Int) : Prop :=
  ∀ row ∈ rows, ∀ close, closeOf row = some close → ¬(t0 ≤ close ∧ close < t1)

/-! ## What a fetch promises -/

/-- The number of an instant's month. -/
def monthOf (ms : Int) : Nat :=
  ((Datetime.ofMicros (epochMicros + ms.toNat * 1000)).map fun c => c.year * 12 + c.month).getD 0

/-- Part of the time between the two opens belongs to neither bar. -/
def missing (step : Option Int) (previous next : Int) : Bool :=
  match step with
  | some step => decide (previous + step < next)
  | none => decide (monthOf previous + 1 < monthOf next)

/-- A gap with the number of the missing intervals, where it is a whole one. -/
structure Gap.Describes {α : Type} (name : α → Text) (step : Option Int) (gap : Gap) (previous next : Bar α) :
    Prop where
  previousOpenTime : gap.previousOpenTime = name previous.candle
  nextOpenTime : gap.nextOpenTime = name next.candle
  missingIntervals (count : Int) : gap.missingIntervals = some count ↔
    match step with
    | some step => next.openMs = previous.openMs + (count + 1) * step
    | none => (monthOf next.openMs : Int) = monthOf previous.openMs + (count + 1)
  nonMultipleGap : gap.nonMultipleGap = gap.missingIntervals.isNone

def consecutive {α : Type} (bars : List α) : List (α × α) := bars.zip bars.tail

/-- What is promised of the kept bars and the gaps between them. -/
structure Faithful {α : Type} (exchange : Exchange) (t0 : Int) (name : α → Text) (step : Option Int)
    (kept : List (Bar α)) (gaps : List Gap) : Prop where
  closed : ∀ bar ∈ kept, bar.closeMs < t0
  final : ∀ bar ∈ kept, ∀ t, t0 ≤ t → exchange.row bar.openMs t = exchange.row bar.openMs t0
  increasing : kept.Pairwise fun a b => a.openMs < b.openMs
  reported : List.Forall₂ (fun gap pair => gap.Describes name step pair.1 pair.2) gaps
    ((consecutive kept).filter fun pair => missing step pair.1.openMs pair.2.openMs)

/-! ## Rows -/

/-- What every reader of a row checks. -/
structure ReadsRow {α : Type} (one : Option Int → Nat → PyValue → Fetch (Bar α)) : Prop where
  times {previous : Option Int} {index : Nat} {row : PyValue} {bar : Bar α} (read : one previous index row = .ok bar) :
    openOf row = some bar.openMs ∧ closeOf row = some bar.closeMs
  ascends {previous : Int} {index : Nat} {row : PyValue} {bar : Bar α}
    (read : one (some previous) index row = .ok bar) : previous < bar.openMs

section Prepared

variable {α : Type} {one : Option Int → Nat → PyValue → Fetch (Bar α)} (reads : ReadsRow one)
include reads

theorem prepared_times {previous : Option Int} {index : Nat} {rows : List PyValue} {bars : List (Bar α)}
    (prepared : prepareRows one previous index rows = .ok bars) :
    List.Forall₂ (fun row bar => openOf row = some bar.openMs ∧ closeOf row = some bar.closeMs) rows bars := by
  induction rows generalizing previous index bars with
  | nil =>
      cases prepared
      exact .nil
  | cons row rows ih =>
      obtain ⟨bar, read, prepared⟩ := Fetch.bind_eq_ok.mp prepared
      obtain ⟨rest, others, prepared⟩ := Fetch.bind_eq_ok.mp prepared
      cases prepared
      exact .cons (reads.times read) (ih others)

theorem prepared_ascends {previous : Option Int} {index : Nat} {rows : List PyValue} {bars : List (Bar α)}
    (prepared : prepareRows one previous index rows = .ok bars) :
    bars.Pairwise (fun a b => a.openMs < b.openMs) ∧ ∀ p ∈ previous, ∀ bar ∈ bars, p < bar.openMs := by
  induction rows generalizing previous index bars with
  | nil =>
      cases prepared
      exact ⟨.nil, by simp⟩
  | cons row rows ih =>
      obtain ⟨bar, read, prepared⟩ := Fetch.bind_eq_ok.mp prepared
      obtain ⟨rest, others, prepared⟩ := Fetch.bind_eq_ok.mp prepared
      cases prepared
      obtain ⟨ascends, above⟩ := ih others
      refine ⟨List.pairwise_cons.mpr ⟨above _ rfl, ascends⟩, ?_⟩
      intro p first later member
      cases first
      have least := reads.ascends read
      rcases List.mem_cons.mp member with rfl | behind
      · exact least
      · exact least.trans (above _ rfl later behind)

end Prepared

/-! ## Gaps -/

theorem consecutive_cons {α : Type} (a b : α) (rest : List α) :
    consecutive (a :: b :: rest) = (a, b) :: consecutive (b :: rest) := rfl

theorem gapOf_describes {α : Type} (name : α → Text) {step : Int} (positive : 0 < step) (previous next : Bar α) :
    (gapOf name step previous next).Describes name (some step) previous next where
  previousOpenTime := rfl
  nextOpenTime := rfl
  missingIntervals count := by
    have whole := Int.emod_add_mul_ediv (next.openMs - previous.openMs) step
    simp only [gapOf]
    split
    · rename_i multiple
      rw [multiple] at whole
      rw [Option.some_inj]
      constructor
      · intro counted
        have quotient : (next.openMs - previous.openMs) / step = count + 1 := by omega
        rw [quotient, mul_comm] at whole
        omega
      · intro apart
        have difference : next.openMs - previous.openMs = (count + 1) * step := by omega
        rw [difference, Int.mul_ediv_cancel _ positive.ne']
        omega
    · rename_i odd
      refine ⟨nofun, fun apart => absurd ?_ odd⟩
      have difference : next.openMs - previous.openMs = (count + 1) * step := by omega
      rw [difference, Int.mul_emod_left]
  nonMultipleGap := by
    simp only [gapOf]
    split <;> simp [*]

theorem scanGaps_reported {α : Type} {overlap : Refused} {name : α → Text} {step : Int} (positive : 0 < step)
    {bars : List (Bar α)} {gaps : List Gap} (scanned : scanGaps overlap name step bars = .ok gaps) :
    List.Forall₂ (fun gap pair => gap.Describes name (some step) pair.1 pair.2) gaps
      ((consecutive bars).filter fun pair => missing (some step) pair.1.openMs pair.2.openMs) := by
  induction bars generalizing gaps with
  | nil =>
      cases scanned
      exact .nil
  | cons previous rest ih =>
      cases rest with
      | nil =>
          cases scanned
          exact .nil
      | cons next rest =>
          obtain ⟨-, -, scanned⟩ := Fetch.bind_eq_ok.mp scanned
          obtain ⟨others, scan_rest, scanned⟩ := Fetch.bind_eq_ok.mp scanned
          have behind := ih scan_rest
          have apart : missing (some step) previous.openMs next.openMs = decide (step < next.openMs - previous.openMs) := by
            simp only [missing, decide_eq_decide]
            omega
          rw [consecutive_cons, List.filter_cons]
          simp only [apart]
          by_cases gapped : step < next.openMs - previous.openMs
          · simp only [gapped, if_true] at scanned
            cases scanned
            simp only [gapped, decide_true, if_true]
            exact .cons (gapOf_describes name positive previous next) behind
          · simp only [gapped, if_false] at scanned
            cases scanned
            simpa only [gapped, decide_false, Bool.false_eq_true, if_false] using behind

/-! ## What the server time decides -/

theorem exists_related {α β : Type} {R : α → β → Prop} {first : List α} {second : List β}
    (related : List.Forall₂ R first second) {a : α} (member : a ∈ first) : ∃ b ∈ second, R a b := by
  induction related with
  | nil => cases member
  | cons head rest ih =>
      rcases List.mem_cons.mp member with rfl | later
      · exact ⟨_, List.mem_cons_self, head⟩
      · obtain ⟨b, listed, holds⟩ := ih later
        exact ⟨b, List.mem_cons_of_mem _ listed, holds⟩

/-- The kept bars are what is promised exactly where no bar closes between the two requests and the gaps are
    reported. -/
theorem faithful_iff {α : Type} {one : Option Int → Nat → PyValue → Fetch (Bar α)} (reads : ReadsRow one)
    {exchange : Exchange} {t0 t1 : Int} {rows : List PyValue} (shows : Shows exchange t0 rows)
    {bars : List (Bar α)} (prepared : prepareRows one none 0 rows = .ok bars) (name : α → Text)
    (step : Option Int) (gaps : List Gap) (le : t0 ≤ t1) :
    Faithful exchange t0 name step (closedBars t1 bars) gaps ↔ NoneCloses rows t0 t1 ∧
      List.Forall₂ (fun gap pair => gap.Describes name step pair.1 pair.2) gaps
        ((consecutive (closedBars t1 bars)).filter fun pair => missing step pair.1.openMs pair.2.openMs) := by
  have times := prepared_times reads prepared
  constructor
  · intro faithful
    refine ⟨?_, faithful.reported⟩
    rintro row member close closes ⟨after, before⟩
    obtain ⟨bar, listed, -, bar_close⟩ := exists_related times member
    obtain rfl := Option.some.inj (closes.symm.trans bar_close)
    have kept : bar ∈ closedBars t1 bars := List.mem_filter.mpr ⟨listed, by simpa using before⟩
    have closed := faithful.closed bar kept
    omega
  · rintro ⟨clear, reported⟩
    have settled : ∀ bar ∈ closedBars t1 bars, ∃ row ∈ rows, openOf row = some bar.openMs ∧
        closeOf row = some bar.closeMs ∧ bar.closeMs < t0 := by
      intro bar kept
      obtain ⟨listed, before⟩ := List.mem_filter.mp kept
      obtain ⟨row, member, opens, closes⟩ := exists_related times.flip listed
      refine ⟨row, member, opens, closes, ?_⟩
      have none := clear row member _ closes
      simp only [decide_eq_true_eq] at before
      omega
    refine ⟨?_, ?_, (prepared_ascends reads prepared).1.filter _, reported⟩
    · intro bar kept
      obtain ⟨row, -, -, -, closed⟩ := settled bar kept
      exact closed
    · intro bar kept t later
      obtain ⟨row, member, opens, closes, closed⟩ := settled bar kept
      have shown := shows row member _ opens
      exact exchange.final _ (by rw [shown]; exact closes) closed later

/-! ## The two readers -/

section Spot

variable {D : Type} [Decimal D]

theorem Spot.readsRow (window : Spot.Window) (step : Option Int) :
    ReadsRow (@Spot.prepareRow D _ window step) where
  times {previous index row bar} read := by
    cases row with
    | list fields =>
        simp only [Spot.prepareRow, timestampMs, Fetch.bind_eq_ok, integerWith_eq_ok] at read
        obtain ⟨-, -, opens, ⟨opened, opens_nonneg⟩, closes, ⟨closed, closes_nonneg⟩, read⟩ := read
        obtain ⟨-, -, -, -, -, -, -, -, -, -, candle, -, read⟩ := read
        cases read
        refine ⟨?_, ?_⟩
        · rw [openOf, opened]
          exact Option.filter_some_pos (decide_eq_true opens_nonneg)
        · rw [closeOf, closed]
          exact Option.filter_some_pos (decide_eq_true closes_nonneg)
    | _ => cases read
  ascends {previous index row bar} read := by
    cases row with
    | list fields =>
        simp only [Spot.prepareRow, Fetch.bind_eq_ok] at read
        obtain ⟨-, -, opens, -, closes, -, -, -, _, ascending, read⟩ := read
        obtain ⟨-, -, -, -, -, -, candle, -, read⟩ := read
        cases read
        simpa using ascending
    | _ => cases read

theorem Market.readsRow (step : Int) : ReadsRow (Market.prepareRow D step) where
  times {previous index row bar} read := by
    cases row with
    | list fields =>
        simp only [Market.prepareRow, integer, Fetch.bind_eq_ok, integerWith_eq_ok] at read
        obtain ⟨-, -, opens, ⟨opened, opens_nonneg⟩, closes, ⟨closed, closes_nonneg⟩, read⟩ := read
        obtain ⟨-, -, -, -, item, -, read⟩ := read
        cases read
        refine ⟨?_, ?_⟩
        · rw [openOf, opened]
          exact Option.filter_some_pos (decide_eq_true opens_nonneg)
        · rw [closeOf, closed]
          exact Option.filter_some_pos (decide_eq_true closes_nonneg)
    | _ => cases read
  ascends {previous index row bar} read := by
    cases row with
    | list fields =>
        simp only [Market.prepareRow, Fetch.bind_eq_ok] at read
        obtain ⟨-, -, opens, -, closes, -, -, -, _, ascending, item, -, read⟩ := read
        cases read
        simpa using ascending
    | _ => cases read

/-- The times of the rows that close before the server time. -/
def keptTimes (t1 : Int) (rows : List PyValue) : List (Int × Int) :=
  (rows.filterMap fun row => (openOf row).bind fun openMs => (closeOf row).map fun closeMs => (openMs, closeMs)).filter
    fun times => decide (times.2 < t1)

/-- No month is missing between the kept rows. -/
def NoMonthMissing (t1 : Int) (rows : List PyValue) : Prop :=
  ∀ pair ∈ consecutive (keptTimes t1 rows), missing none pair.1.1 pair.2.1 = false

theorem keptTimes_eq {α : Type} {one : Option Int → Nat → PyValue → Fetch (Bar α)} (reads : ReadsRow one)
    {rows : List PyValue} {bars : List (Bar α)} (prepared : prepareRows one none 0 rows = .ok bars) (t1 : Int) :
    (closedBars t1 bars).map (fun bar => (bar.openMs, bar.closeMs)) = keptTimes t1 rows := by
  have related := prepared_times reads prepared
  clear prepared
  rw [keptTimes, closedBars]
  induction related with
  | nil => rfl
  | @cons row bar rows bars times rest ih =>
      simp only [times.1, times.2, List.filterMap_cons, List.filter_cons, Option.bind_some, Option.map_some]
      split
      · exact congrArg _ ih
      · exact ih

/-- The exchange answers the first request at `t0` with the bars as they stand, and the second at a later `t1`. -/
structure Timed (loads : Bytes → Option PyValue) (transport : Transport) (url : Text) (exchange : Exchange)
    (t0 t1 : Int) (rows : List PyValue) : Prop where
  klines {status : Nat} {raw : Bytes} (answered : transport url = .ok (status, raw)) : loads raw = some (.list rows)
  shows : Shows exchange t0 rows
  time {status : Nat} {raw : Bytes} {payload value : PyValue} (answered : transport serverTimeUrl = .ok (status, raw))
    (read : loads raw = some payload) (given : serverTime payload = some value) : wholeNumber value = some t1
  later : t0 ≤ t1

variable {loads : Bytes → Option PyValue} {transport : Transport}

theorem Spot.getJson_eq_ok {url : Text} {payload : PyValue} {raw : Bytes}
    (called : Spot.getJson loads transport url = .ok (payload, raw)) :
    ∃ status, transport url = .ok (status, raw) ∧ loads raw = some payload := by
  simp only [Spot.getJson, Fetch.bind_eq_ok] at called
  obtain ⟨⟨status, bytes⟩, answered, -, -, value, read, -, -, called⟩ := called
  cases called
  exact ⟨status, answered, orRefuse_eq_ok.mp read⟩

theorem Market.readJson_eq_ok {url : Text} {payload : PyValue} {raw : Bytes}
    (called : Market.readJson loads transport url = .ok (payload, raw)) :
    ∃ status, transport url = .ok (status, raw) ∧ loads raw = some payload := by
  simp only [Market.readJson, Fetch.bind_eq_ok] at called
  obtain ⟨⟨status, bytes⟩, answered, -, -, value, read, -, -, called⟩ := called
  cases called
  exact ⟨status, answered, orRefuse_eq_ok.mp read⟩

/-- What a returned snapshot was made of. -/
theorem Spot.fetch_inversion {now : Text} {query : Spot.Query} {snapshot : Spot.Snapshot D}
    (fetched : Spot.fetchPublicKlines loads transport now query = .ok snapshot) {exchange : Exchange} {t0 t1 : Int}
    {rows : List PyValue} (timed : Timed loads transport snapshot.sourceUrl exchange t0 t1 rows) :
    ∃ window prepared, prepareRows (Spot.prepareRow window
        ((intervalMs Spot.intervals snapshot.interval).getD none)) none 0 rows = .ok prepared ∧
      snapshot.candles = (closedBars t1 prepared).map (·.candle) ∧
      Spot.gapsOf ((intervalMs Spot.intervals snapshot.interval).getD none) (closedBars t1 prepared) =
        .ok snapshot.gaps := by
  simp only [Spot.fetchPublicKlines, Fetch.bind_eq_ok] at fetched
  obtain ⟨symbol, -, interval, -, limit, -, window, -, ⟨payload, raw⟩, klines, fetched⟩ := fetched
  obtain ⟨⟨timePayload, timeRaw⟩, times, value, given, serverMs, stamped, parsed⟩ := fetched
  simp only [Spot.parseKlinesResponse, Fetch.bind_eq_ok] at parsed
  obtain ⟨symbol', -, interval', -, limit', -, server, server_eq, window', -, parsed⟩ := parsed
  obtain ⟨document, read, parsed⟩ := parsed
  cases document with
  | list listed =>
      simp only [Fetch.bind_eq_ok] at parsed
      obtain ⟨-, -, -, -, prepared, prepared_eq, -, -, gaps, scanned, parsed⟩ := parsed
      cases parsed
      obtain ⟨status, answered, -⟩ := Spot.getJson_eq_ok klines
      obtain ⟨timeStatus, timeAnswered, timeRead⟩ := Spot.getJson_eq_ok times
      have same := (timed.klines answered).symm.trans (orRefuse_eq_ok.mp read)
      obtain rfl := PyValue.list.inj (Option.some.inj same)
      have clock := timed.time timeAnswered timeRead (orRefuse_eq_ok.mp given)
      obtain ⟨stamped, -⟩ := integerWith_eq_ok.mp stamped
      obtain ⟨server_eq, -⟩ := integerWith_eq_ok.mp server_eq
      obtain rfl := Option.some.inj (clock.symm.trans stamped)
      cases server_eq
      exact ⟨window', prepared, prepared_eq, rfl, scanned⟩
  | _ => cases parsed

/-- What a returned result was made of. -/
theorem Market.fetch_inversion {now symbol interval : Text} {limit : Int} {result : Market.Result}
    (fetched : Market.fetchUncached D loads transport now symbol interval limit = .ok result) {exchange : Exchange}
    {t0 t1 : Int} {rows : List PyValue} (timed : Timed loads transport result.url exchange t0 t1 rows) :
    ∃ step prepared, (intervalMs Market.intervals interval).bind id = some step ∧
      prepareRows (Market.prepareRow D step) none 0 rows = .ok prepared ∧
      result.candles = (closedBars t1 prepared).map (·.candle) ∧
      scanGaps (Market.badData (txt "kline intervals overlap")) (·.openTimeUtc) step (closedBars t1 prepared) =
        .ok result.gaps := by
  simp only [Market.fetchUncached, Fetch.bind_eq_ok] at fetched
  obtain ⟨⟨document, raw⟩, klines, ⟨timePayload, timeRaw⟩, times, value, given, serverMs, stamped, parsed⟩ := fetched
  cases document with
  | list listed =>
      simp only [Fetch.bind_eq_ok] at parsed
      obtain ⟨-, -, -, -, step, known, prepared, prepared_eq, -, -, gaps, scanned, parsed⟩ := parsed
      obtain ⟨serverTimeUtc, -, latest, -, parsed⟩ := parsed
      cases parsed
      obtain ⟨status, answered, read⟩ := Market.readJson_eq_ok klines
      obtain ⟨timeStatus, timeAnswered, timeRead⟩ := Market.readJson_eq_ok times
      obtain rfl := PyValue.list.inj (Option.some.inj ((timed.klines answered).symm.trans read))
      have clock := timed.time timeAnswered timeRead (orRefuse_eq_ok.mp given)
      obtain ⟨stamped, -⟩ := integerWith_eq_ok.mp stamped
      obtain rfl := Option.some.inj (clock.symm.trans stamped)
      exact ⟨step, prepared, orRefuse_eq_ok.mp known, prepared_eq, rfl, scanned⟩
  | _ => cases parsed

/-- The intervals of a table are longer than nothing. -/
theorem interval_positive {table : List (String × Option Int)} (long : ∀ entry ∈ table, ∀ step ∈ entry.2, 0 < step)
    {interval : Text} {step : Int} (known : intervalMs table interval = some (some step)) : 0 < step := by
  obtain ⟨entry, found, same⟩ := Option.map_eq_some_iff.mp known
  exact long entry (List.mem_of_find?_eq_some found) step same

theorem Spot.intervals_long : ∀ entry ∈ Spot.intervals, ∀ step ∈ entry.2, 0 < step := by decide

theorem Market.intervals_long : ∀ entry ∈ Market.intervals, ∀ step ∈ entry.2, 0 < step := by decide

/-- The gaps of the research intake are reported, but for those between months. -/
theorem Spot.gaps_reported {step : Option Int} (positive : ∀ s ∈ step, 0 < s) {kept : List (Bar (Research.Candle D))}
    {gaps : List Gap} (scanned : Spot.gapsOf step kept = .ok gaps) :
    List.Forall₂ (fun gap pair => gap.Describes (·.timestamp) step pair.1 pair.2) gaps
      ((consecutive kept).filter fun pair => missing step pair.1.openMs pair.2.openMs) ↔
    (step = none → ∀ pair ∈ consecutive kept, missing none pair.1.openMs pair.2.openMs = false) := by
  cases step with
  | some step => exact ⟨nofun, fun _ => scanGaps_reported (positive step rfl) scanned⟩
  | none =>
      cases scanned
      rw [List.forall₂_nil_left_iff, List.filter_eq_nil_iff]
      simp

theorem noMonthMissing_iff {α : Type} {kept : List (Bar α)} {t1 : Int} {rows : List PyValue}
    (same : kept.map (fun bar => (bar.openMs, bar.closeMs)) = keptTimes t1 rows) :
    NoMonthMissing t1 rows ↔ ∀ pair ∈ consecutive kept, missing none pair.1.openMs pair.2.openMs = false := by
  have pairs : consecutive (keptTimes t1 rows) = (consecutive kept).map fun pair =>
      ((pair.1.openMs, pair.1.closeMs), (pair.2.openMs, pair.2.closeMs)) := by
    rw [← same, consecutive, ← List.map_tail, List.zip_map]
    rfl
  rw [NoMonthMissing, pairs, List.forall_mem_map]

/-- Both readers keep only closed bars, and report exactly the gaps between them, if and only if no bar closes
    between their two requests and, for months, none is missing. -/
theorem faithful_iff_noneCloses (loads : Bytes → Option PyValue) (transport : Transport) (now : Text)
    (exchange : Exchange) (t0 t1 : Int) (rows : List PyValue) :
    (∀ (query : Spot.Query) (snapshot : Spot.Snapshot D),
      Spot.fetchPublicKlines loads transport now query = .ok snapshot →
      Timed loads transport snapshot.sourceUrl exchange t0 t1 rows →
      ∃ kept : List (Bar (Research.Candle D)), kept.map (·.candle) = snapshot.candles ∧
        kept.map (fun bar => (bar.openMs, bar.closeMs)) = keptTimes t1 rows ∧
        (Faithful exchange t0 (·.timestamp) ((intervalMs Spot.intervals snapshot.interval).getD none) kept
            snapshot.gaps ↔
          NoneCloses rows t0 t1 ∧ ((intervalMs Spot.intervals snapshot.interval).getD none = none →
            NoMonthMissing t1 rows))) ∧
    ∀ (symbol interval : Text) (limit : Int) (result : Market.Result),
      Market.fetchUncached D loads transport now symbol interval limit = .ok result →
      Timed loads transport result.url exchange t0 t1 rows →
      ∃ kept : List (Bar Market.Item), kept.map (·.candle) = result.candles ∧
        kept.map (fun bar => (bar.openMs, bar.closeMs)) = keptTimes t1 rows ∧
        (Faithful exchange t0 (·.openTimeUtc) ((intervalMs Market.intervals interval).getD none) kept result.gaps ↔
          NoneCloses rows t0 t1) := by
  constructor
  · intro query snapshot fetched timed
    obtain ⟨window, prepared, prepared_eq, candles, scanned⟩ := Spot.fetch_inversion fetched timed
    have times := keptTimes_eq (Spot.readsRow window _) prepared_eq t1
    refine ⟨closedBars t1 prepared, candles.symm, times, ?_⟩
    have positive : ∀ s ∈ (intervalMs Spot.intervals snapshot.interval).getD none, 0 < s := by
      intro s long
      cases known : intervalMs Spot.intervals snapshot.interval with
      | none => simp [known] at long
      | some step =>
          obtain rfl : step = some s := by simpa [known] using long
          exact interval_positive Spot.intervals_long known
    rw [faithful_iff (Spot.readsRow window _) timed.shows prepared_eq _ _ _ timed.later,
      Spot.gaps_reported positive scanned, noMonthMissing_iff times]
  · intro symbol interval limit result fetched timed
    obtain ⟨step, prepared, known, prepared_eq, candles, scanned⟩ := Market.fetch_inversion fetched timed
    have times := keptTimes_eq (@Market.readsRow D _ step) prepared_eq t1
    have entry : intervalMs Market.intervals interval = some (some step) := by
      cases found : intervalMs Market.intervals interval <;> simp_all
    refine ⟨closedBars t1 prepared, candles.symm, times, ?_⟩
    rw [entry, Option.getD_some, faithful_iff (@Market.readsRow D _ step) timed.shows prepared_eq _ _ _ timed.later]
    exact and_iff_left (scanGaps_reported (interval_positive Market.intervals_long entry) scanned)

end Spot

/-! ### A bar that closes between the requests -/

/-- The row of a minute at its open, with a closing price. -/
private def minuteRow (openMs : Int) (close : String) : PyValue :=
  .list [.int openMs, .str (txt "1"), .str (txt "2"), .str (txt "1"), .str (txt close), .str (txt "5"),
    .int (openMs + 59999), .str (txt "0"), .int 1, .str (txt "0"), .str (txt "0"), .str (txt "0")]

private theorem closeOf_minuteRow (openMs close : Int) (price : String)
    (known : closeOf (minuteRow openMs price) = some close) : close = openMs + 59999 := by
  have last : (some (openMs + 59999)).filter (0 ≤ ·) = some close := known
  exact (Option.some.inj (Option.filter_eq_some_iff.mp last).1).symm

/-- The price is one until a minute closes, and two from then on. -/
private def rising : Exchange where
  row openMs t := minuteRow openMs (if openMs + 59999 < t then "2" else "1")
  final openMs t later close known closed le := by
    obtain rfl := closeOf_minuteRow _ _ _ known
    rw [if_pos closed, if_pos (lt_of_lt_of_le closed le)]

private def twoMinutes (t : Int) : List PyValue := [rising.row 0 t, rising.row 60000 t]

/-- The answers: the rows as they stand at `t0`, and the time `t1`. -/
private def answer (t0 t1 : Int) (raw : Bytes) : Option PyValue :=
  if raw = [1] then some (.dict [(txt "serverTime", .int t1)]) else some (.list (twoMinutes t0))

private def route : Transport := fun url => .ok (200, if url = serverTimeUrl then [1] else [0])

private def minutes : Spot.Query := ⟨txt "BTCUSDT", txt "1m", 10, none, none⟩

private theorem timed_route {t0 t1 : Int} (le : t0 ≤ t1) {url : Text} (other : url ≠ serverTimeUrl) :
    Timed (answer t0 t1) route url rising t0 t1 (twoMinutes t0) where
  klines {status raw} answered := by
    simp only [route, other, if_false, Except.ok.injEq, Prod.mk.injEq] at answered
    obtain ⟨-, rfl⟩ := answered
    rfl
  shows := by
    intro row member openMs opens
    rcases List.mem_cons.mp member with rfl | member
    · cases opens
      rfl
    · obtain rfl := List.mem_singleton.mp member
      cases opens
      rfl
  time {status raw payload value} answered read given := by
    simp only [route, if_true, Except.ok.injEq, Prod.mk.injEq] at answered
    obtain ⟨-, rfl⟩ := answered
    obtain rfl := Option.some.inj read
    obtain rfl := Option.some.inj given
    rfl
  later := le

private theorem exists_fetched {α : Type} {call : Fetch α} {p : α → Bool} (fetched : call.toOption.any p = true) :
    ∃ a, call = .ok a ∧ p a = true := by
  cases call with
  | ok a => exact ⟨a, rfl, fetched⟩
  | error e => cases fetched

/-- A snapshot is fetched, from another URL than that of the server time. -/
private theorem spot_fetched (t0 t1 : Int) (fetched : ((Spot.fetchPublicKlines (answer t0 t1) route [] minutes :
      Fetch (Spot.Snapshot ℚ)).toOption.any fun s => decide (s.sourceUrl ≠ serverTimeUrl)) = true) :
    ∃ snapshot : Spot.Snapshot ℚ, Spot.fetchPublicKlines (answer t0 t1) route [] minutes = .ok snapshot ∧
      snapshot.sourceUrl ≠ serverTimeUrl := by
  obtain ⟨snapshot, eq, other⟩ := exists_fetched fetched
  exact ⟨snapshot, eq, of_decide_eq_true other⟩

private theorem market_fetched (t0 t1 : Int) (fetched : ((Market.fetchUncached ℚ (answer t0 t1) route []
      (txt "BTCUSDT") (txt "1m") 10).toOption.any fun r => decide (r.url ≠ serverTimeUrl)) = true) :
    ∃ result, Market.fetchUncached ℚ (answer t0 t1) route [] (txt "BTCUSDT") (txt "1m") 10 = .ok result ∧
      result.url ≠ serverTimeUrl := by
  obtain ⟨result, eq, other⟩ := exists_fetched fetched
  exact ⟨result, eq, of_decide_eq_true other⟩

theorem faithful_iff_noneCloses_twoMinutes :
    (∃ (snapshot : Spot.Snapshot ℚ) (kept : List (Bar (Research.Candle ℚ))),
      kept.map (·.candle) = snapshot.candles ∧
      (Faithful rising 120000 (·.timestamp) ((intervalMs Spot.intervals snapshot.interval).getD none) kept
          snapshot.gaps ↔
        NoneCloses (twoMinutes 120000) 120000 130000 ∧
          ((intervalMs Spot.intervals snapshot.interval).getD none = none →
            NoMonthMissing 130000 (twoMinutes 120000)))) ∧
    ∃ (result : Market.Result) (kept : List (Bar Market.Item)), kept.map (·.candle) = result.candles ∧
      (Faithful rising 120000 (·.openTimeUtc) (some 60000) kept result.gaps ↔
        NoneCloses (twoMinutes 120000) 120000 130000) := by
  have both := @faithful_iff_noneCloses ℚ _ (answer 120000 130000) route [] rising 120000 130000 (twoMinutes 120000)
  constructor
  · obtain ⟨snapshot, fetched, other⟩ := spot_fetched 120000 130000 (by decide +kernel)
    obtain ⟨kept, candles, -, exact⟩ := both.1 minutes snapshot fetched (timed_route (by decide) other)
    exact ⟨snapshot, kept, candles, exact⟩
  · obtain ⟨result, fetched, other⟩ := market_fetched 120000 130000 (by decide +kernel)
    obtain ⟨kept, candles, -, exact⟩ := both.2 _ _ _ result fetched (timed_route (by decide) other)
    exact ⟨result, kept, candles, exact⟩

private theorem keptTimes_twoMinutes : keptTimes 130000 (twoMinutes 100000) = [(0, 59999), (60000, 119999)] := by
  decide

private theorem not_faithful {α : Type} {name : α → Text} {step : Option Int} {kept : List (Bar α)}
    {gaps : List Gap} (times : kept.map (fun bar => (bar.openMs, bar.closeMs)) = keptTimes 130000 (twoMinutes 100000)) :
    ¬ Faithful rising 100000 name step kept gaps := by
  intro faithful
  rw [keptTimes_twoMinutes] at times
  have listed : ((60000, 119999) : Int × Int) ∈ kept.map fun bar => (bar.openMs, bar.closeMs) := by
    rw [times]
    simp
  obtain ⟨bar, member, same⟩ := List.mem_map.mp listed
  have closed := faithful.closed bar member
  have close : bar.closeMs = 119999 := congrArg Prod.snd same
  omega

/-- Both readers keep a minute that was still open when its values were read. -/
theorem not_faithful_closedBetween :
    (∃ snapshot : Spot.Snapshot ℚ,
      Spot.fetchPublicKlines (answer 100000 130000) route [] minutes = .ok snapshot ∧
      Timed (answer 100000 130000) route snapshot.sourceUrl rising 100000 130000 (twoMinutes 100000) ∧
      ∀ kept : List (Bar (Research.Candle ℚ)),
        kept.map (fun bar => (bar.openMs, bar.closeMs)) = keptTimes 130000 (twoMinutes 100000) →
        ¬ Faithful rising 100000 (·.timestamp) (some 60000) kept snapshot.gaps) ∧
    ∃ result, Market.fetchUncached ℚ (answer 100000 130000) route [] (txt "BTCUSDT") (txt "1m") 10 = .ok result ∧
      Timed (answer 100000 130000) route result.url rising 100000 130000 (twoMinutes 100000) ∧
      ∀ kept : List (Bar Market.Item),
        kept.map (fun bar => (bar.openMs, bar.closeMs)) = keptTimes 130000 (twoMinutes 100000) →
        ¬ Faithful rising 100000 (·.openTimeUtc) (some 60000) kept result.gaps := by
  constructor
  · obtain ⟨snapshot, fetched, other⟩ := spot_fetched 100000 130000 (by decide +kernel)
    exact ⟨snapshot, fetched, timed_route (by decide) other, fun kept times => not_faithful times⟩
  · obtain ⟨result, fetched, other⟩ := market_fetched 100000 130000 (by decide +kernel)
    exact ⟨result, fetched, timed_route (by decide) other, fun kept times => not_faithful times⟩

end Senex.MarketData
