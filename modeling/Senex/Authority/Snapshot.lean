import Senex.Foundation.Dict
import Senex.Foundation.Float
import Senex.Foundation.PyJson
import Senex.Foundation.Sorting
import Senex.Foundation.Transition
import Senex.Foundation.Utf8
import Senex.Scoring.Cohort

/-! # The authority snapshot store

`authority_snapshot.py` keeps the last good snapshot of each symbol.  A call of `get` that must
refresh takes the lock of its symbol, waits for the history and the count, and publishes what it has
captured, unless the capture fails or its content is that of the snapshot it found.  Calls of other
symbols go on in between, and a call can be cancelled while it waits.
-/

namespace Senex.Authority

open Text

/-! ## What the module calls -/

/-- A Python exception: the name of its type and its text. -/
structure Exc where
  (typeName message : Text)
  deriving DecidableEq

/-- `AuthoritySnapshotRefreshError(message)` -/
def refreshErrorType : Text := txt "AuthoritySnapshotRefreshError"

def refreshError (message : Text) : Exc := ⟨refreshErrorType, message⟩

/-- `str(exc) or type(exc).__name__` -/
def Exc.detail (e : Exc) : Text := if e.message = [] then e.typeName else e.message

/-- The functions of other modules and of Python that the store calls, whatever they do: the members of the
    score, the digest of some bytes, `str` of what is no text, and `str.upper`. -/
structure Calls where
  buildAuthoritativeScore : List PyValue → Text → Except Exc (List (Text × PyValue))
  sha256 : Bytes → Text
  str : PyValue → Text
  upper : Text → Text

/-- The time of a call, as text and on the monotonic clock. -/
structure Clock where
  utcnow : Text
  monotonic : Double

/-- What a capture reads: what the two requests answer or raise, and the provenance. -/
structure CaptureInput where
  clock : Clock
  (history count provenance : Except Exc PyValue)
  liveGateBuilder : PyValue → Except Exc PyValue

/-! ## Snapshots -/

structure AuthoritySnapshot where
  snapshotId : Text
  generation : Nat
  capturedAt : Text
  capturedMonotonic : Double
  (canonicalSha256 symbol : Text)
  authorityHistoryComplete : Bool
  authorityHistoryRows : Nat
  exactTotalPredictions : Int
  exactCountComplete : Bool
  (lastCursorOrEquivalent score liveGate provenance : PyValue)
  failureReason : Option Text

structure CapturedAuthority where
  capturedAt : Text
  capturedMonotonic : Double
  (canonicalSha256 canonicalHex symbol : Text)
  authorityHistoryRows : Nat
  exactTotalPredictions : Int
  (lastCursorOrEquivalent score liveGate provenance : PyValue)
  recentPredictions : List PyValue

/-! ## Capturing -/

section

variable (calls : Calls)

/-- `normalize_symbol` -/
def normalizeSymbol (value : Text) : Text :=
  strip (((calls.upper value).filter (· != 47)).filter (· != 45))

/-- `str(value or "")` -/
def textOf (value : PyValue) : Text :=
  if value.truthy then (match value with | .str t => t | other => calls.str other) else []

/-- `_canonical_rows`; a row that is no `dict` has no `get`. -/
def canonicalRows (rows : List PyValue) : Except Exc (List PyValue) :=
  if rows.all PyValue.isDict then
    .ok (sortedBy (fun row => toLex (textOf calls (row.get (txt "ts")), textOf calls (row.get (txt "id")))) rows)
  else .error ⟨txt "AttributeError", txt "object has no attribute 'get'"⟩

/-- `_last_cursor` -/
def lastCursor (rows : List PyValue) : PyValue :=
  match rows.getLast? with
  | none => .none
  | some last =>
      let ts := textOf calls (last.get (txt "ts"))
      let rowId := textOf calls (last.get (txt "id"))
      if ts = [] ∧ rowId = [] then .none else .ofMembers [(txt "ts", .str ts), (txt "id", .str rowId)]

/-- `_canonical_sha256`; an `int` of more than 4300 digits has no text. -/
def canonicalHexOf (value : PyValue) : Except Exc Text :=
  if (PyJson.dumps value).isSome then .ok (calls.sha256 (Scoring.canonicalText value))
  else .error ⟨txt "ValueError", txt "Exceeds the limit (4300 digits) for integer string conversion"⟩

/-- What went wrong in a request, under its name. -/
def requestFailure (name : Text) : Except Exc PyValue → List Text
  | .ok _ => []
  | .error e => [name ++ txt ":" ++ e.typeName ++ txt ":" ++ e.detail]

/-- `";".join(failures)` -/
def joinFailures (failures : List Text) : Text := [59].intercalate failures

/-- `dict[key] = value` for some keys. -/
def setAll (value : PyValue) (members : List (Text × PyValue)) : PyValue :=
  members.foldl (fun value m => value.set m.1 m.2) value

/-- What the canonical hash is taken of: nothing of the clocks. -/
def canonicalAuthority (symbol : Text) (rows : List PyValue) (cursor : PyValue) (exactTotal : Int)
    (score liveGate provenance : PyValue) : PyValue :=
  .ofMembers [
    (txt "contract", .str (txt "senex-authority-snapshot-v2")),
    (txt "symbol", .str symbol),
    (txt "authority_rows", .list rows),
    (txt "authority_history_rows", .int rows.length),
    (txt "last_cursor_or_equivalent", cursor),
    (txt "exact_total_predictions", .int exactTotal),
    (txt "score", score),
    (txt "live_gate", liveGate),
    (txt "provenance", provenance)]

/-- `except Exception as exc: raise AuthoritySnapshotRefreshError(...)` around the live gate. -/
def liveGateOf (builder : PyValue → Except Exc PyValue) (score : PyValue) : Except Exc PyValue :=
  match builder score with
  | .error e => .error (refreshError (txt "LIVE_GATE:" ++ e.typeName))
  | .ok gate => if gate.isDict then .ok gate else .error (refreshError (txt "LIVE_GATE:RESPONSE_NOT_OBJECT"))

/-- `_capture_complete` from the answers of the two requests on. -/
def captureAnswers (symbol : Text) (input : CaptureInput) (historyResult countResult : PyValue) :
    Except Exc CapturedAuthority := do
  match historyResult, countResult with
  | .list history, .int exactTotal =>
      let rows ← canonicalRows calls history
      let members ← calls.buildAuthoritativeScore rows symbol
      let score := setAll (.ofMembers members) [
        (txt "authority_history_complete", .bool true),
        (txt "authority_history_rows", .int rows.length),
        (txt "exact_total_predictions", .int exactTotal),
        (txt "exact_count_complete", .bool true)]
      let gate ← liveGateOf input.liveGateBuilder score
      let liveGate := setAll gate [
        (txt "authority_history_complete", .bool true),
        (txt "authority_history_rows", .int rows.length)]
      let provenance ← input.provenance
      let cursor := lastCursor calls rows
      let canonicalHex ← canonicalHexOf calls
        (canonicalAuthority symbol rows cursor exactTotal score liveGate provenance)
      return {
        capturedAt := input.clock.utcnow
        capturedMonotonic := input.clock.monotonic
        canonicalSha256 := txt "sha256:" ++ canonicalHex
        canonicalHex := canonicalHex
        symbol := symbol
        authorityHistoryRows := rows.length
        exactTotalPredictions := exactTotal
        lastCursorOrEquivalent := cursor
        score := score
        liveGate := liveGate
        provenance := provenance
        recentPredictions := (rows.drop (rows.length - 50)).reverse }
  | .list _, _ => .error (refreshError (txt "EXACT_COUNT:RESPONSE_NOT_INT"))
  | _, _ => .error (refreshError (txt "AUTHORITY_HISTORY:RESPONSE_NOT_LIST"))

/-- `_capture_complete` -/
def captureComplete (symbol : Text) (input : CaptureInput) : Except Exc CapturedAuthority :=
  match input.history, input.count with
  | .ok historyResult, .ok countResult => captureAnswers calls symbol input historyResult countResult
  | history, count =>
      .error (refreshError (joinFailures
        (requestFailure (txt "AUTHORITY_HISTORY") history ++ requestFailure (txt "EXACT_COUNT") count)))

end

/-! ## The store -/

structure RefreshState where
  lastRefreshAttemptAt : Option Text
  lastRefreshAttemptMonotonic : Option Double
  lastRefreshSuccessAt : Option Text
  lastRefreshSuccessMonotonic : Option Double
  lastRefreshError : Option Text
  refreshInProgress : Bool

def RefreshState.empty : RefreshState := ⟨none, none, none, none, none, false⟩

structure AuthoritySnapshotStore where
  ttlS : Double
  cache : Dict Text AuthoritySnapshot
  generation : Dict Text Nat
  refresh : Dict Text RefreshState
  recent : Dict Text (List PyValue)
  /-- The locks that are held, each with the snapshot that its holder has found. -/
  locked : Dict Text (Option AuthoritySnapshot)

namespace AuthoritySnapshotStore

def start (ttlS : Double) : AuthoritySnapshotStore := ⟨ttlS, .empty, .empty, .empty, .empty, .empty⟩

variable (store : AuthoritySnapshotStore)

/-- `_refresh_state` -/
def refreshState (symbol : Text) : RefreshState := (store.refresh.get? symbol).getD .empty

/-- `_mark_attempt` -/
def markAttempt (symbol : Text) (clock : Clock) : AuthoritySnapshotStore :=
  { store with refresh := store.refresh.set symbol { store.refreshState symbol with
      lastRefreshAttemptAt := some clock.utcnow
      lastRefreshAttemptMonotonic := some clock.monotonic
      refreshInProgress := true } }

/-- `_mark_success` -/
def markSuccess (symbol : Text) (clock : Clock) : AuthoritySnapshotStore :=
  { store with refresh := store.refresh.set symbol { store.refreshState symbol with
      lastRefreshSuccessAt := some clock.utcnow
      lastRefreshSuccessMonotonic := some clock.monotonic
      lastRefreshError := none
      refreshInProgress := false } }

/-- `_mark_failure` -/
def markFailure (symbol : Text) (error : Exc) : AuthoritySnapshotStore :=
  { store with refresh := store.refresh.set symbol { store.refreshState symbol with
      lastRefreshError := some error.detail
      refreshInProgress := false } }

/-- `snapshot_stale` of `refresh_status` -/
def snapshotStale (symbol : Text) (now : Double) : Bool :=
  match (store.refreshState symbol).lastRefreshSuccessMonotonic with
  | none => true
  | some success =>
      (store.cache.get? symbol).isNone ||
        (PyFloat.maximum (Double.round 0) store.ttlS).lt (PyFloat.maximum (Double.round 0) (now.sub success))

/-- `_fresh` -/
def fresh (symbol : Text) (now : Double) : Bool :=
  (store.cache.get? symbol).isSome && !store.snapshotStale symbol now &&
    (store.refreshState symbol).lastRefreshError.isNone

/-- The snapshot that `get` returns without a refresh. -/
def unrefreshed (symbol : Text) (force : Bool) (now : Double) : Option AuthoritySnapshot :=
  if !force && store.fresh symbol now then store.cache.get? symbol else none

/-! ## Calls of `get` -/

/-- A call takes the lock of its symbol, when it is free.  It has its answer if the snapshot is fresh, or goes on
    to capture. -/
def enter (symbol : Text) (force : Bool) (clock : Clock) : AuthoritySnapshotStore :=
  if (store.locked.get? symbol).isSome then store
  else if (store.unrefreshed symbol force clock.monotonic).isSome then store
  else { store.markAttempt symbol clock with locked := store.locked.set symbol (store.cache.get? symbol) }

/-- `async with lock` ends. -/
def release (symbol : Text) : AuthoritySnapshotStore := { store with locked := store.locked.erase symbol }

/-- The snapshot of a new generation. -/
def publish (symbol : Text) (captured : CapturedAuthority) : AuthoritySnapshot :=
  let generation := (store.generation.get? symbol).getD 0 + 1
  let identity : List (Text × PyValue) := [
    (txt "authority_snapshot_id", .str captured.canonicalHex),
    (txt "authority_generation", .int generation),
    (txt "authority_canonical_sha256", .str captured.canonicalSha256)]
  { snapshotId := captured.canonicalHex
    generation := generation
    capturedAt := captured.capturedAt
    capturedMonotonic := captured.capturedMonotonic
    canonicalSha256 := captured.canonicalSha256
    symbol := symbol
    authorityHistoryComplete := true
    authorityHistoryRows := captured.authorityHistoryRows
    exactTotalPredictions := captured.exactTotalPredictions
    exactCountComplete := true
    lastCursorOrEquivalent := captured.lastCursorOrEquivalent
    score := setAll captured.score identity
    liveGate := setAll captured.liveGate identity
    provenance := captured.provenance
    failureReason := none }

/-- A new generation takes the place of the snapshot. -/
def replace (symbol : Text) (captured : CapturedAuthority) (clock : Clock) :
    AuthoritySnapshotStore × Except Exc AuthoritySnapshot :=
  let snapshot := store.publish symbol captured
  let next : AuthoritySnapshotStore := { store with
    cache := store.cache.set symbol snapshot
    generation := store.generation.set symbol snapshot.generation }
  (next.markSuccess symbol clock, .ok snapshot)

/-- What follows the capture, with the snapshot that the call has found; and what the call returns or raises. -/
def conclude (symbol : Text) (cached : Option AuthoritySnapshot) (outcome : Except Exc CapturedAuthority)
    (clock : Clock) : AuthoritySnapshotStore × Except Exc AuthoritySnapshot :=
  match outcome, cached with
  | .error exc, _ =>
      let error := if exc.typeName = refreshErrorType then exc else refreshError exc.typeName
      -- The last good generation stays.
      (store.markFailure symbol error, cached.elim (.error error) .ok)
  | .ok captured, some snapshot =>
      let store := { store with recent := store.recent.set symbol captured.recentPredictions }
      if snapshot.canonicalSha256 = captured.canonicalSha256 then (store.markSuccess symbol clock, .ok snapshot)
      else store.replace symbol captured clock
  | .ok captured, none =>
      let store := { store with recent := store.recent.set symbol captured.recentPredictions }
      store.replace symbol captured clock

/-- The call that holds the lock goes on when its requests are answered. -/
def finish (calls : Calls) (symbol : Text) (input : CaptureInput) (clock : Clock) :
    AuthoritySnapshotStore × Option (Except Exc AuthoritySnapshot) :=
  match store.locked.get? symbol with
  | none => (store, none)
  | some cached =>
      let concluded := store.conclude symbol cached (captureComplete calls symbol input) clock
      (concluded.1.release symbol, some concluded.2)

/-- The call that holds the lock is cancelled while it waits. -/
def cancel (symbol : Text) : AuthoritySnapshotStore := store.release symbol

inductive Label where
  | enter (symbol : Text) (force : Bool) (clock : Clock)
  | finish (symbol : Text) (input : CaptureInput) (clock : Clock)
  | cancel (symbol : Text)

/-- One step of the store; a call without a symbol raises before all else. -/
def step (calls : Calls) (store : AuthoritySnapshotStore) : Label → AuthoritySnapshotStore
  | .enter symbol force clock =>
      if normalizeSymbol calls symbol = [] then store else store.enter (normalizeSymbol calls symbol) force clock
  | .finish symbol input clock => (store.finish calls (normalizeSymbol calls symbol) input clock).1
  | .cancel symbol => store.cancel (normalizeSymbol calls symbol)

end AuthoritySnapshotStore

end Senex.Authority
