import Senex.Foundation.Float
import Senex.Foundation.JsonLine
import Senex.Foundation.PyValue
import Senex.Research.Replay

/-! # Public klines

`binance_spot_public.py` and `binance_public_market_data.py`: each asks for klines first and for the
server time afterwards, and keeps the rows that the server time has behind it.  The manifest, the cache
and the timeouts of the requests are left out.
-/

namespace Senex.MarketData

open Text Paper Research

/-- What a fetch raises. -/
inductive Refused where
  /-- `BinancePublicDataError` -/
  | spot (message : Text)
  /-- `PublicMarketDataError` -/
  | market (code message : Text) (httpStatus : Nat)
  /-- Anything else. -/
  | uncaught (error : PyError)

abbrev Fetch := Except Refused

def refuseIf (failed : Bool) (refused : Refused) : Fetch Unit := if failed then .error refused else .ok ()

@[simp] theorem refuseIf_eq_ok {failed : Bool} {refused : Refused} {u : Unit} :
    refuseIf failed refused = .ok u ↔ failed = false := by
  cases failed <;> simp [refuseIf]

def orRefuse {α : Type} (value : Option α) (refused : Refused) : Fetch α :=
  match value with
  | some a => .ok a
  | none => .error refused

@[simp] theorem orRefuse_eq_ok {α : Type} {value : Option α} {refused : Refused} {a : α} :
    orRefuse value refused = .ok a ↔ value = some a := by
  cases value <;> simp [orRefuse]

theorem Fetch.bind_eq_ok {α β : Type} {x : Fetch α} {f : α → Fetch β} {b : β} :
    x >>= f = .ok b ↔ ∃ a, x = .ok a ∧ f a = .ok b := by
  cases x with
  | error e => simp [bind, Except.bind]
  | ok a => simp [bind, Except.bind]

/-! ## Values -/

/-- `int(value)` of a value that stands for a whole number. -/
def wholeNumber (value : PyValue) : Option Int :=
  match value with
  | .bool _ => none
  | .float x => ((PyValue.float x).toInt.toOption).filter fun parsed => decide (x.value = parsed)
  | value => value.toInt.toOption

def integerWith (refuse : Text → Refused) (wanted : Text) (value : PyValue) (field : Text) : Fetch Int :=
  match wholeNumber value with
  | none => .error (refuse (field ++ wanted))
  | some parsed => if parsed < 0 then .error (refuse (field ++ txt " must be non-negative")) else .ok parsed

theorem integerWith_eq_ok {refuse : Text → Refused} {wanted : Text} {value : PyValue} {field : Text} {n : Int} :
    integerWith refuse wanted value field = .ok n ↔ wholeNumber value = some n ∧ 0 ≤ n := by
  unfold integerWith
  cases wholeNumber value with
  | none => simp
  | some parsed => grind

/-- `_timestamp_ms` -/
def timestampMs : PyValue → Text → Fetch Int := integerWith .spot (txt " must be an integer millisecond timestamp")

/-- `_integer` -/
def integer : PyValue → Text → Fetch Int :=
  integerWith (fun message => .market (txt "BAD_MARKET_DATA") message 502) (txt " must be an integer")

def epochMicros : Nat := 62135596800000000

/-- `datetime.fromtimestamp(value / 1000, timezone.utc)`: the float's fraction in whole microseconds. -/
def utcOfMs (value : Int) : Option Civil :=
  let seconds := (Double.round (value / 1000)).value
  let fraction := Double.round (seconds - ⌊seconds⌋) * Double.round 1000000
  let micros := ⌊seconds⌋ * 1000000 + Double.halfEven fraction.value + epochMicros
  if micros < 0 then none else Datetime.ofMicros micros.toNat

/-- `isoformat(timespec="milliseconds")` with `Z` for the offset of UTC. -/
def isoMillis (c : Civil) : Text :=
  Datetime.isoDate c ++ 84 :: padded 2 c.hour ++ 58 :: padded 2 c.minute ++ 58 :: padded 2 c.second ++
    46 :: padded 3 (c.microsecond / 1000) ++ [90]

/-- What `str` makes of a member of a row; no decimal is spelled with a bracket. -/
def asArg : PyValue → PyArg
  | .bool b => .bool b
  | .str t => .str t
  | other => .other (other.text?.getD [91])

/-! ## Rows -/

structure Bar (α : Type) where
  openMs : Int
  closeMs : Int
  candle : α

/-- The rows in order, each read with the open time before it. -/
def prepareRows {α : Type} (one : Option Int → Nat → PyValue → Fetch (Bar α)) :
    Option Int → Nat → List PyValue → Fetch (List (Bar α))
  | _, _, [] => .ok []
  | previous, index, row :: rows => do
      let bar ← one previous index row
      let bars ← prepareRows one (some bar.openMs) (index + 1) rows
      return bar :: bars

/-- The rows that close before the server time. -/
def closedBars {α : Type} (serverMs : Int) (bars : List (Bar α)) : List (Bar α) :=
  bars.filter fun bar => decide (bar.closeMs < serverMs)

structure Gap where
  previousOpenTime : Text
  nextOpenTime : Text
  missingIntervals : Option Int
  nonMultipleGap : Bool
  deriving DecidableEq

def gapOf {α : Type} (name : α → Text) (step : Int) (previous next : Bar α) : Gap where
  previousOpenTime := name previous.candle
  nextOpenTime := name next.candle
  missingIntervals :=
    if (next.openMs - previous.openMs) % step = 0 then some ((next.openMs - previous.openMs) / step - 1) else none
  nonMultipleGap := decide ((next.openMs - previous.openMs) % step ≠ 0)

def scanGaps {α : Type} (overlap : Refused) (name : α → Text) (step : Int) : List (Bar α) → Fetch (List Gap)
  | previous :: next :: rest => do
      refuseIf (decide (next.openMs - previous.openMs < step)) overlap
      let gaps ← scanGaps overlap name step (next :: rest)
      return if step < next.openMs - previous.openMs then gapOf name step previous next :: gaps else gaps
  | _ => .ok []

/-! ## Requests -/

/-- `transport(url, timeout)` -/
abbrev Transport := Text → Fetch (Nat × Bytes)

def serverTimeUrl : Text := txt "https://api.binance.com/api/v3/time"

/-- `isinstance(payload, dict) and "code" in payload and "msg" in payload` -/
def isApiError (payload : PyValue) : Bool :=
  match payload with
  | .dict members => (Json.lookup (txt "code") members).isSome && (Json.lookup (txt "msg") members).isSome
  | _ => false

/-- `payload["serverTime"]` of a `dict` that has one. -/
def serverTime (payload : PyValue) : Option PyValue :=
  match payload with
  | .dict members => Json.lookup (txt "serverTime") members
  | _ => none

def intervalMs (table : List (String × Option Int)) (interval : Text) : Option (Option Int) :=
  (table.find? fun entry => decide (txt entry.1 = interval)).map Prod.snd

/-! ## The research intake -/

namespace Spot

/-- `INTERVAL_MS`; a month has no fixed length. -/
def intervals : List (String × Option Int) := [("1s", some 1000), ("1m", some 60000), ("3m", some 180000),
  ("5m", some 300000), ("15m", some 900000), ("30m", some 1800000), ("1h", some 3600000), ("2h", some 7200000),
  ("4h", some 14400000), ("6h", some 21600000), ("8h", some 28800000), ("12h", some 43200000),
  ("1d", some 86400000), ("3d", some 259200000), ("1w", some 604800000), ("1M", none)]

def maxLimit : Int := 1000

/-- `str.upper`, as far as its letters can be ASCII ones. -/
def upperText (t : Text) : Text := t.flatMap fun c =>
  if c = 0xDF then txt "SS" else if c = 0xFB00 then txt "FF" else if c = 0xFB01 then txt "FI"
  else if c = 0xFB02 then txt "FL" else if c = 0xFB03 then txt "FFI" else if c = 0xFB04 then txt "FFL"
  else if c = 0xFB05 ∨ c = 0xFB06 then txt "ST" else [upperUnit c]

/-- `re.fullmatch(r"[A-Z0-9]{3,20}", value)` -/
def isSymbol (t : Text) : Bool :=
  decide (3 ≤ t.length) && decide (t.length ≤ 20) &&
    t.all fun c => isDigit c || (decide (65 ≤ c) && decide (c ≤ 90))

def validateSymbol (symbol : Text) : Fetch Text := do
  let value := upperText (strip symbol)
  refuseIf (!isSymbol value) (.spot (txt "symbol must contain 3-20 ASCII letters/digits"))
  return value

def validateInterval (interval : Text) : Fetch Text := do
  let value := strip interval
  refuseIf (intervalMs intervals value).isNone (.spot (txt "unsupported Binance Spot interval"))
  return value

def validateLimit (limit : Int) : Fetch Int := do
  refuseIf (decide (limit < 1) || decide (maxLimit < limit))
    (.spot (txt "limit must be an integer between 1 and 1000"))
  return limit

/-- A bound of the request, checked where one is given. -/
def boundMs (value : Option Int) (field : Text) : Fetch (Option Int) :=
  match value with
  | none => .ok none
  | some ms => (timestampMs (.int ms) field).map some

structure Query where
  symbol : Text
  interval : Text
  limit : Int
  startTimeMs : Option Int
  endTimeMs : Option Int

structure Window where
  startMs : Option Int
  endMs : Option Int

def Query.window (query : Query) : Fetch Window := do
  let startMs ← boundMs query.startTimeMs (txt "start_time_ms")
  let endMs ← boundMs query.endTimeMs (txt "end_time_ms")
  refuseIf (startMs.any fun s => endMs.any fun e => decide (e < s))
    (.spot (txt "end_time_ms must not be earlier than start_time_ms"))
  return ⟨startMs, endMs⟩

section
variable {D : Type} [Decimal D]

def rowText (index : Nat) (tail : String) : Refused := .spot (txt "kline row " ++ ofNat index ++ txt tail)

def fieldText (index : Nat) (field : String) : Text := txt "kline[" ++ ofNat index ++ txt "]." ++ txt field

/-- The candle of a row; the text of the exception behind a refusal is left out. -/
def rowCandle (openMs : Int) (fields : List PyValue) : Option (Candle D) :=
  (utcOfMs openMs).bind fun opened =>
    (Candle.construct (.str (isoMillis opened)) (asArg (fields.getD 1 .none)) (asArg (fields.getD 2 .none))
      (asArg (fields.getD 3 .none)) (asArg (fields.getD 4 .none)) (asArg (fields.getD 5 .none))).toOption

def prepareRow (window : Window) (step : Option Int) (previous : Option Int) (index : Nat) (row : PyValue) :
    Fetch (Bar (Candle D)) :=
  match row with
  | .list fields => do
      refuseIf (decide (fields.length ≠ 12)) (rowText index " must contain exactly 12 fields")
      let openMs ← timestampMs (fields.getD 0 .none) (fieldText index "open_time")
      let closeMs ← timestampMs (fields.getD 6 .none) (fieldText index "close_time")
      refuseIf (decide (closeMs < openMs)) (rowText index " closes before it opens")
      refuseIf (previous.any fun p => decide (openMs ≤ p))
        (.spot (txt "kline open times must be strictly increasing and unique"))
      refuseIf (window.startMs.any fun s => decide (openMs < s)) (rowText index " precedes startTime")
      refuseIf (window.endMs.any fun e => decide (e < openMs)) (rowText index " follows endTime")
      refuseIf (step.any fun s => decide (openMs + s ≤ closeMs)) (rowText index " close time exceeds its interval")
      let candle ← orRefuse (rowCandle openMs fields) (rowText index " violates the OHLCV contract")
      return ⟨openMs, closeMs, candle⟩
  | _ => .error (rowText index " must contain exactly 12 fields")

structure Snapshot (D : Type) [Decimal D] where
  symbol : Text
  interval : Text
  requestedLimit : Int
  serverTimeMs : Int
  capturedAtUtc : Text
  sourceUrl : Text
  rawResponseSha256 : Text
  canonicalCandlesSha256 : Text
  rawResponseBytes : Bytes
  rawRowsReturned : Nat
  incompleteCandlesDropped : Nat
  candles : List (Candle D)
  gaps : List Gap

/-- The canonical text of a candle in the digest. -/
def canonicalCandle (c : Candle D) : Json :=
  Json.ofMembers [(txt "timestamp", .str c.timestamp), (txt "open", .str (Decimal.str c.«open»)),
    (txt "high", .str (Decimal.str c.high)), (txt "low", .str (Decimal.str c.low)),
    (txt "close", .str (Decimal.str c.close)), (txt "volume", .str (Decimal.str c.volume))]

variable (loads : Bytes → Option PyValue)

/-- The gaps between the kept candles; a month has none. -/
def gapsOf (step : Option Int) (closed : List (Bar (Candle D))) : Fetch (List Gap) :=
  match step with
  | none => .ok []
  | some step =>
      scanGaps (.spot (txt "kline intervals overlap or are shorter than requested interval")) (·.timestamp) step closed

/-- `parse_klines_response`; `loads` is `json.loads(raw.decode("utf-8"))`, nothing for what is not JSON in UTF-8. -/
def parseKlinesResponse (raw : Bytes) (query : Query) (serverTimeMs : Int) (sourceUrl capturedAtUtc : Text) :
    Fetch (Snapshot D) := do
  let symbol ← validateSymbol query.symbol
  let interval ← validateInterval query.interval
  let limit ← validateLimit query.limit
  let serverMs ← timestampMs (.int serverTimeMs) (txt "server_time_ms")
  let window ← query.window
  let rows ← orRefuse (loads raw) (.spot (txt "klines payload was not valid UTF-8 JSON"))
  match rows with
  | .list rows => do
      refuseIf rows.isEmpty (.spot (txt "Binance returned zero kline rows"))
      refuseIf (decide (limit < rows.length)) (.spot (txt "Binance returned more rows than the requested limit"))
      let step := (intervalMs intervals interval).getD none
      let prepared ← prepareRows (prepareRow window step) none 0 rows
      let closed := closedBars serverMs prepared
      refuseIf closed.isEmpty (.spot (txt "no fully closed candles in response; refusing partial-bar evaluation"))
      let gaps ← gapsOf step closed
      let candles := closed.map (·.candle)
      return {
        symbol, interval, capturedAtUtc, sourceUrl, candles, gaps
        requestedLimit := limit
        serverTimeMs := serverMs
        rawResponseSha256 := Sha256.hexdigest raw
        canonicalCandlesSha256 := Sha256.hexdigest ((Json.bytes (.arr (candles.map canonicalCandle))).getD [])
        rawResponseBytes := raw
        rawRowsReturned := rows.length
        incompleteCandlesDropped := prepared.length - closed.length }
  | _ => .error (.spot (txt "klines response must be a JSON array"))

def klineUrl (symbol interval : Text) (limit : Int) (window : Window) : Text :=
  txt "https://api.binance.com/api/v3/klines?symbol=" ++ symbol ++ txt "&interval=" ++ interval ++ txt "&limit=" ++
    intText limit ++ txt "&timeZone=0" ++ ((window.startMs.map fun s => txt "&startTime=" ++ intText s).getD []) ++
    ((window.endMs.map fun e => txt "&endTime=" ++ intText e).getD [])

/-- `_get_json` -/
def getJson (transport : Transport) (url : Text) : Fetch (PyValue × Bytes) := do
  let (status, raw) ← transport url
  refuseIf (decide (status ≠ 200)) (.spot (txt "public GET returned HTTP " ++ ofNat status))
  let payload ← orRefuse (loads raw) (.spot (txt "Binance public response was not valid UTF-8 JSON"))
  refuseIf (isApiError payload) (.spot (txt "Binance API error " ++ (payload.get (txt "code")).text?.getD [] ++
    txt ": " ++ (payload.get (txt "msg")).text?.getD []))
  return (payload, raw)

/-- `fetch_public_klines` -/
def fetchPublicKlines (transport : Transport) (now : Text) (query : Query) : Fetch (Snapshot D) := do
  let symbol ← validateSymbol query.symbol
  let interval ← validateInterval query.interval
  let limit ← validateLimit query.limit
  let window ← query.window
  let url := klineUrl symbol interval limit window
  let (_, raw) ← getJson loads transport url
  let (payload, _) ← getJson loads transport serverTimeUrl
  let time ← orRefuse (serverTime payload) (.spot (txt "server-time response lacks serverTime"))
  let serverMs ← timestampMs time (txt "serverTime")
  parseKlinesResponse loads raw ⟨symbol, interval, limit, window.startMs, window.endMs⟩ serverMs url now

end

end Spot

/-! ## The dashboard's market data -/

namespace Market

/-- `INTERVAL_MS` -/
def intervals : List (String × Option Int) := [("1m", some 60000), ("3m", some 180000), ("5m", some 300000),
  ("15m", some 900000), ("30m", some 1800000), ("1h", some 3600000), ("2h", some 7200000), ("4h", some 14400000),
  ("6h", some 21600000), ("8h", some 28800000), ("12h", some 43200000), ("1d", some 86400000)]

def badData (message : Text) : Refused := .market (txt "BAD_MARKET_DATA") message 502

section
variable {D : Type} [Decimal D]

/-- `_decimal` -/
def decimal (value : PyValue) (field : Text) (bound : Bound) : Fetch D :=
  match value with
  | .bool _ => .error (badData (field ++ txt " must be numeric"))
  | value =>
      match Decimal.parse (asArg value).text with
      | .invalid => .error (badData (field ++ txt " must be a finite decimal"))
      | .nonFinite => .error (badData (field ++ txt " must be finite"))
      | .finite d => if bound.admits d then .ok d else .error (badData (field ++ bound.message))

/-- `_iso_ms` -/
def isoMs (value : Int) : Fetch Text := orRefuse ((utcOfMs value).map isoMillis) (.uncaught .valueError)

/-- A candle of the result, its numbers as texts. -/
structure Item where
  openTimeUtc : Text
  closeTimeUtc : Text
  «open» : Text
  high : Text
  low : Text
  close : Text
  volume : Text

def rowText (index : Nat) (tail : String) : Refused := badData (txt "kline row " ++ ofNat index ++ txt tail)

def fieldText (index : Nat) (field : String) : Text := txt "kline[" ++ ofNat index ++ txt "]." ++ txt field

variable (D) in
def rowItem (openMs closeMs : Int) (index : Nat) (fields : List PyValue) : Fetch Item := do
  let «open» : D ← decimal (fields.getD 1 .none) (txt "open") .positive
  let high : D ← decimal (fields.getD 2 .none) (txt "high") .positive
  let low : D ← decimal (fields.getD 3 .none) (txt "low") .positive
  let close : D ← decimal (fields.getD 4 .none) (txt "close") .positive
  let volume : D ← decimal (fields.getD 5 .none) (txt "volume") .nonNegative
  refuseIf (Decimal.lt high (larger «open» close) || Decimal.lt (smaller «open» close) low || Decimal.lt high low)
    (rowText index " violates OHLC ordering")
  let opened ← isoMs openMs
  let closed ← isoMs closeMs
  return ⟨opened, closed, Decimal.str «open», Decimal.str high, Decimal.str low, Decimal.str close, Decimal.str volume⟩

variable (D) in
def prepareRow (step : Int) (previous : Option Int) (index : Nat) (row : PyValue) : Fetch (Bar Item) :=
  match row with
  | .list fields => do
      refuseIf (decide (fields.length ≠ 12)) (rowText index " must contain 12 fields")
      let openMs ← integer (fields.getD 0 .none) (fieldText index "openTime")
      let closeMs ← integer (fields.getD 6 .none) (fieldText index "closeTime")
      refuseIf (decide (closeMs < openMs) || decide (openMs + step ≤ closeMs))
        (rowText index " has invalid interval timestamps")
      refuseIf (previous.any fun p => decide (openMs ≤ p)) (badData (txt "kline open times are not strictly increasing"))
      let item ← rowItem D openMs closeMs index fields
      return ⟨openMs, closeMs, item⟩
  | _ => .error (rowText index " must contain 12 fields")

structure Result where
  symbol : Text
  interval : Text
  requestedLimit : Int
  serverTimeUtc : Text
  fetchedAtUtc : Text
  url : Text
  rawResponseSha256 : Text
  canonicalClosedCandlesSha256 : Text
  rawRowsReturned : Nat
  incompleteRowsDropped : Nat
  gaps : List Gap
  latestClosedCandle : Item
  candles : List Item

def canonicalItem (item : Item) : Json :=
  Json.ofMembers [(txt "open_time_utc", .str item.openTimeUtc), (txt "close_time_utc", .str item.closeTimeUtc),
    (txt "open", .str item.«open»), (txt "high", .str item.high), (txt "low", .str item.low),
    (txt "close", .str item.close), (txt "volume", .str item.volume)]

variable (loads : Bytes → Option PyValue)

/-- `_read_json` -/
def readJson (transport : Transport) (url : Text) : Fetch (PyValue × Bytes) := do
  let (status, raw) ← transport url
  refuseIf (decide (status ≠ 200))
    (.market (txt "UPSTREAM_HTTP_ERROR") (txt "Binance public GET returned HTTP " ++ ofNat status) 502)
  let value ← orRefuse (loads raw) (.market (txt "BAD_UPSTREAM_JSON") (txt "Binance returned invalid JSON") 502)
  refuseIf (isApiError value) (.market (txt "BINANCE_API_ERROR") (txt "Binance error " ++
    (value.get (txt "code")).text?.getD [] ++ txt ": " ++ (value.get (txt "msg")).text?.getD []) 502)
  return (value, raw)

def klineUrl (symbol interval : Text) (limit : Int) : Text :=
  txt "https://api.binance.com/api/v3/klines?symbol=" ++ symbol ++ txt "&interval=" ++ interval ++ txt "&limit=" ++
    intText limit ++ txt "&timeZone=0"

variable (D) in
/-- `_fetch_uncached` -/
def fetchUncached (transport : Transport) (now : Text) (symbol interval : Text) (limit : Int) : Fetch Result := do
  let url := klineUrl symbol interval limit
  let (rawRows, raw) ← readJson loads transport url
  let (payload, _) ← readJson loads transport serverTimeUrl
  let time ← orRefuse (serverTime payload)
    (.market (txt "BAD_SERVER_TIME") (txt "Binance server-time response lacked serverTime") 502)
  let serverMs ← integer time (txt "serverTime")
  match rawRows with
  | .list rows => do
      refuseIf rows.isEmpty (.market (txt "EMPTY_KLINES") (txt "Binance returned no klines") 502)
      refuseIf (decide (limit < rows.length)) (badData (txt "Binance returned more klines than requested"))
      let step ← orRefuse ((intervalMs intervals interval).bind id) (.uncaught .keyError)
      let prepared ← prepareRows (prepareRow D step) none 0 rows
      let closed := closedBars serverMs prepared
      refuseIf (decide (closed.length < 2)) (.market (txt "NO_CLOSED_KLINES")
        (txt "fewer than two fully closed candles; no partial-bar fallback") 502)
      let gaps ← scanGaps (badData (txt "kline intervals overlap")) (·.openTimeUtc) step closed
      let candles := closed.map (·.candle)
      let serverTimeUtc ← isoMs serverMs
      let latestClosedCandle ← orRefuse candles.getLast? (.uncaught .runtimeError)
      return {
        symbol, interval, url, gaps, candles, serverTimeUtc, latestClosedCandle
        requestedLimit := limit
        fetchedAtUtc := now
        rawResponseSha256 := Sha256.hexdigest raw
        canonicalClosedCandlesSha256 :=
          Sha256.hexdigest ((Json.bytes (.arr (candles.map canonicalItem))).getD [])
        rawRowsReturned := rows.length
        incompleteRowsDropped := prepared.length - closed.length }
  | _ => .error (.market (txt "EMPTY_KLINES") (txt "Binance returned no klines") 502)

end

end Market

end Senex.MarketData
