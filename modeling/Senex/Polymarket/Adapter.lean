import Senex.Foundation.Float
import Senex.Foundation.PyValue

/-! # The Polymarket order-book cache

The adapter keeps one book for each outcome of the market, as the last full message left it with
the later deltas and quotes merged into it.  The list of recent events is for display and left out.
-/

namespace Senex.Polymarket

open Text

inductive Side where
  | bids
  | asks
  deriving DecidableEq

def Side.key : Side → Text
  | .bids => txt "bids"
  | .asks => txt "asks"

/-- The scalar under which a side's best price is quoted. -/
def Side.quote : Side → Text
  | .bids => txt "best_bid"
  | .asks => txt "best_ask"

structure Level where
  price : Double
  size : Double
  deriving DecidableEq

/-! ## Levels -/

/-- `_float(value, None)` -/
def float (value : PyValue) : Py (Option Double) := attempt PyError.isTypeOrValue value.toFloat

def Level.ofPair (price size : PyValue) : Py (Option Level) := do
  let price ← float price
  let size ← float size
  return price.bind fun price => size.map fun size => ⟨price, size⟩

/-- A level of a message, or nothing where its numbers cannot be read. -/
def Level.read (item : PyValue) : Py (Option Level) :=
  match item with
  | .dict _ => ofPair (item.get (txt "price")) (item.get (txt "size"))
  | .list (price :: size :: _) => ofPair price size
  | _ => .ok none

def Level.toValue (level : Level) : PyValue :=
  PyValue.ofMembers [(txt "price", .float level.price), (txt "size", .float level.size)]

/-- The best price first.  Python leaves the order open where a price is a NaN. -/
def Side.le (side : Side) (a b : Level) : Bool :=
  match side with
  | .bids => decide (b.price.value ≤ a.price.value)
  | .asks => decide (a.price.value ≤ b.price.value)

/-- `out.sort(key=price, reverse=bids)` -/
def Side.sort (side : Side) (levels : List Level) : List Level := levels.mergeSort side.le

/-- `_levels` -/
def levels (raw : PyValue) (side : Side) : Py (List Level) :=
  match raw with
  | .list items => do
      let out ← items.mapM Level.read
      return side.sort (out.filterMap id)
  | _ => .ok []

/-- `by_price[price] = size` -/
def assign (price size : Double) : List Level → List Level
  | [] => [⟨price, size⟩]
  | level :: rest =>
      if level.price.eq price then ⟨level.price, size⟩ :: rest else level :: assign price size rest

/-- `by_price.pop(price, None)` -/
def pop (price : Double) (levels : List Level) : List Level :=
  levels.filter fun level => !level.price.eq price

/-! ## Deltas -/

def sideOf (change : PyValue) : Option Side :=
  let side := upper ((change.get (txt "side")).textOrEmpty.getD [])
  if side = txt "BUY" then some .bids else if side = txt "SELL" then some .asks else none

structure Delta where
  side : Side
  price : Double
  size : Double
  deriving DecidableEq

/-- The delta that an entry carries, if it is a usable one. -/
def readChange (change : PyValue) : Py (Option Delta) := do
  let price ← float (change.get (txt "price"))
  let size ← float (change.get (txt "size"))
  return (sideOf change).bind fun side => price.bind fun price => size.map fun size => ⟨side, price, size⟩

def Delta.merge (delta : Delta) (cached : List Level) : List Level :=
  let byPrice := cached.foldl (fun byPrice level => assign level.price level.size byPrice) []
  let byPrice :=
    if delta.size.le (.round 0) then pop delta.price byPrice else assign delta.price delta.size byPrice
  delta.side.sort byPrice

/-- `_apply_price_change` -/
def applyPriceChange (book change : PyValue) : Py (PyValue × Bool) := do
  match ← readChange change with
  | none => return (book, false)
  | some delta =>
      let cached ← levels (book.get delta.side.key) delta.side
      return (book.set delta.side.key (.list ((delta.merge cached).map Level.toValue)), true)

/-- `_stamp_metric_update`; every caller says whether the depth is current. -/
def stampMetricUpdate (book : PyValue) (source : Text) (depthCurrent : Bool) (timestamp : PyValue)
    (monotonic : Double) : PyValue :=
  let book := book.set (txt "_metric_update_monotonic") (.float monotonic)
  let book := book.set (txt "_metric_source") (.str source)
  let book := book.set (txt "depth_current") (.bool depthCurrent)
  if timestamp.isNone then book else book.set (txt "metric_timestamp") timestamp

/-! ## Messages -/

/-- The label of an outcome. -/
inductive Label where
  | up
  | down
  deriving DecidableEq

structure Tokens where
  up : Text
  down : Text

/-- `token_to_label.get(asset)`, where the second of two equal keys of the literal stays. -/
def Tokens.label (tokens : Tokens) (asset : Text) : Option Label :=
  if asset = tokens.down then some .down else if asset = tokens.up then some .up else none

/-- `self._books` -/
abbrev Books := Label → PyValue

/-- What the clocks show while a message is handled. -/
structure Clock where
  isoNow : Text
  monotonic : Double

/-- `value or other` -/
def orElse (value other : PyValue) : PyValue := if value.truthy then value else other

def eventType (msg : PyValue) : Option Text :=
  (orElse (msg.get (txt "event_type")) (.str (txt "unknown"))).text?

/-- `token_to_label.get(str(msg.get("asset_id") or ""))` -/
def labelOf (tokens : Tokens) (msg : PyValue) : Option Label :=
  (msg.get (txt "asset_id")).textOrEmpty.bind tokens.label

def quoted (book change : PyValue) (side : Side) : PyValue :=
  if (change.get side.quote).isNone then book else book.set side.quote (change.get side.quote)

/-- One entry of a `price_change` message. -/
def priceChange (tokens : Tokens) (clock : Clock) (eventTs : PyValue) (books : Books) (change : PyValue) :
    Py Books :=
  if !change.isDict then .ok books
  else match labelOf tokens change with
    | none => .ok books
    | some label => do
        let (book, depthUpdated) ← applyPriceChange (books label) change
        let book := quoted (quoted book change .bids) change .asks
        let book := stampMetricUpdate book (txt "ws_price_change") depthUpdated
          (orElse (change.get (txt "timestamp")) eventTs) clock.monotonic
        return Function.update books label book

/-- The entries in order; an exception leaves the books as the entries before it made them. -/
def priceChanges (tokens : Tokens) (clock : Clock) (eventTs : PyValue) : Books → List PyValue → Books
  | books, [] => books
  | books, change :: rest =>
      match priceChange tokens clock eventTs books change with
      | .ok books => priceChanges tokens clock eventTs books rest
      | .error _ => books

def entries (msg : PyValue) : List PyValue :=
  match msg.get (txt "price_changes") with
  | .list changes => changes
  | _ => []

/-- `_handle_ws_message`, as far as it writes the books. -/
def handleWsMessage (tokens : Tokens) (clock : Clock) (books : Books) (msg : PyValue) : Books :=
  let eventTs := orElse (msg.get (txt "timestamp")) (.str clock.isoNow)
  if eventType msg = some (txt "book") then
    match labelOf tokens msg with
    | none => books
    | some label =>
        Function.update books label (stampMetricUpdate msg (txt "ws_book") true eventTs clock.monotonic)
  else if eventType msg = some (txt "best_bid_ask") then
    match labelOf tokens msg with
    | none => books
    | some label =>
        let book := (books label).set (txt "best_bid") (msg.get (txt "best_bid"))
        let book := book.set (txt "best_ask") (msg.get (txt "best_ask"))
        Function.update books label (stampMetricUpdate book (txt "ws_best_bid_ask") false eventTs clock.monotonic)
  else if eventType msg = some (txt "price_change") then
    priceChanges tokens clock eventTs books (entries msg)
  else if eventType msg = some (txt "last_trade_price") then
    match labelOf tokens msg with
    | none => books
    | some label => Function.update books label ((books label).set (txt "last_trade_price") (msg.get (txt "price")))
  else books

/-- The books that `_refresh_market` starts with, from the answers of the REST endpoint. -/
def bootstrap (monotonic : Double) (answers : Label → PyValue) : Books := fun label =>
  let book := if (answers label).isDict then answers label else .dict []
  stampMetricUpdate book (txt "rest_book") (orElse (book.get (txt "bids")) (book.get (txt "asks"))).truthy
    (book.get (txt "timestamp")) monotonic

/-! ## Metrics -/

structure Metrics where
  bestBid : Option Double
  bestAsk : Option Double
  mid : Option Double
  spread : Option Double
  bidDepth5 : Option Double
  askDepth5 : Option Double
  depthImbalance : Option Double
  depthCurrent : Bool
  lastTradePrice : Option Double
  timestamp : PyValue
  hash : PyValue
  metricSource : PyValue
  metricUpdateMonotonic : PyValue

/-- `bool(book.get("depth_current", bool(bids or asks)))` -/
def depthCurrent (book : PyValue) (bids asks : List Level) : Bool :=
  match book with
  | .dict members =>
      match Json.lookup (txt "depth_current") members with
      | some flag => flag.truthy
      | none => !bids.isEmpty || !asks.isEmpty
  | _ => false

/-- The latest scalar quote wins over the array. -/
def bestOf (scalar : Option Double) (levels : List Level) : Option Double :=
  scalar.or (levels.head?.map (·.price))

def depth5 (levels : List Level) : Double := (levels.take 5).foldl (fun sum level => sum + level.size) (.round 0)

def imbalance (bidDepth askDepth : Double) : Double :=
  if Double.lt (.round 0) (bidDepth + askDepth) then (bidDepth - askDepth) / (bidDepth + askDepth) else .round 0

/-- `book_metrics` -/
def bookMetrics (book : PyValue) : Py Metrics := do
  let bids ← levels (book.get (txt "bids")) .bids
  let asks ← levels (book.get (txt "asks")) .asks
  let scalarBid ← float (book.get (txt "best_bid"))
  let scalarAsk ← float (book.get (txt "best_ask"))
  let lastTradePrice ← float (book.get (txt "last_trade_price"))
  let bestBid := bestOf scalarBid bids
  let bestAsk := bestOf scalarAsk asks
  let current := depthCurrent book bids asks
  let onlyCurrent (x : Double) : Option Double := if current then some (x.roundDigits 6) else none
  return {
    bestBid, bestAsk, lastTradePrice
    mid := bestBid.bind fun bid => bestAsk.map fun ask => (bid + ask) / Double.round 2
    spread := bestBid.bind fun bid => bestAsk.map fun ask => PyFloat.maximum (Double.round 0) (ask - bid)
    bidDepth5 := onlyCurrent (depth5 bids)
    askDepth5 := onlyCurrent (depth5 asks)
    depthImbalance := onlyCurrent (imbalance (depth5 bids) (depth5 asks))
    depthCurrent := current
    timestamp := orElse (book.get (txt "metric_timestamp")) (book.get (txt "timestamp"))
    hash := book.get (txt "hash")
    metricSource := book.get (txt "_metric_source")
    metricUpdateMonotonic := book.get (txt "_metric_update_monotonic") }

end Senex.Polymarket
