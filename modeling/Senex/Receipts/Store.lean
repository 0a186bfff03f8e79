import Senex.Foundation.Disk
import Senex.Foundation.TornTail

/-! # The receipt store

`PredictionPersistenceStore`: a file of events, from which every call reconstructs the state of
each receipt.  A call takes the bytes of the file and the time of `_now()`.
-/

namespace Senex.Receipts

open Text

/-- `CONTRACT` -/
def contract : Text := txt "senex-prediction-persistence-receipt-v1"

/-- `_RECOVERY_MARKER_KEY` -/
def recoveryMarkerKey : Text := txt "_prediction_persistence_recovery_v1"

/-- `raise PredictionPersistenceError(message)` -/
def fail {α : Type} (message : Text) : Py α := raise .predictionPersistenceError message

def refuse (failed : Bool) (message : Text) : Py Unit := guardNot failed .predictionPersistenceError message

abbrev StoreCall (α : Type) := DiskCall Bytes α

/-! ## The file -/

def receiptFormat : LogFormat Json.Document :=
  TornTail.format recoveryMarkerKey fun lineNo =>
    ⟨.predictionPersistenceError, txt "invalid persistence receipt JSON at line " ++ ofNat lineNo⟩

/-- What `_read` does with a decoded line. -/
def acceptRow (lineNo : Nat) (rows : List Json) (row : Json.Document) : Py (List Json) := do
  refuse (row.1.isObject && row.1.keys.contains recoveryMarkerKey)
    (txt "orphan persistence recovery marker at line " ++ ofNat lineNo)
  refuse (!row.1.isObject || !(row.1.get (txt "contract")).pyEq (.str contract))
    (txt "invalid persistence receipt contract at line " ++ ofNat lineNo)
  return rows ++ [row.1]

/-- What `_read` puts behind a damaged end. -/
def recovery : Ending → Bytes
  | .whole => []
  | .torn raw lineNo => 10 :: (receiptFormat.marker raw lineNo ++ [10])
  | .unended => [10]

/-- `_read` -/
def readRows : StoreCall (List Json) := do
  let data ← DiskCall.read
  let scan ← DiskCall.lift (receiptFormat.scan acceptRow [] data)
  if scan.ending ≠ .whole then
    DiskCall.write (recovery scan.ending)
  return scan.state

/-- `_append` -/
def append (row : Json) : StoreCall Unit := do
  let encoded ← DiskCall.lift (orRaise row.bytes .unicodeEncodeError (txt "surrogates not allowed"))
  DiskCall.write (encoded ++ [10])

/-! ## States -/

/-- The state of one receipt, with the values its events carry. -/
structure State where
  sourcePacketHash : Text
  sourcePacketId : Json
  sourcePredictionSha256 : Json
  prediction : Option Json
  status : Json
  d1PredictionId : Json
  lastReason : Json
  lastEventIndex : Nat

/-- `str(value or "")`; no caller passes a list or a `dict`. -/
def textOrEmpty (value : Json) : Text :=
  if value.truthy then
    match value with
    | .str t => t
    | .num raw => raw
    | .bool _ => txt "True"
    | _ => txt "[...]"
  else []

/-- `_sha256_json` -/
def sha256Json (value : Json) : Py Text :=
  (orRaise value.bytes .unicodeEncodeError (txt "surrogates not allowed")).map Sha256.hexdigest

/-- `states.get(source_hash)` -/
def find (sourceHash : Text) (states : List State) : Option State :=
  states.find? fun state => state.sourcePacketHash == sourceHash

/-- `states[source_hash] = state`: in its old place, or last. -/
def put (state : State) (states : List State) : List State :=
  if states.any fun other => other.sourcePacketHash == state.sourcePacketHash then
    states.map fun other => if other.sourcePacketHash == state.sourcePacketHash then state else other
  else states ++ [state]

/-- The payload that an event leaves in a state. -/
def eventPrediction (sourceHash : Text) (state : State) (event : Json) : Py (Option Json) :=
  let prediction := event.get (txt "prediction")
  if prediction = .null then .ok state.prediction
  else do
    refuse (!prediction.isObject) (txt "receipt prediction must be an object")
    let computed ← sha256Json prediction
    refuse (!(Json.str computed).pyEq (event.get (txt "source_prediction_sha256")))
      (txt "receipt prediction payload hash mismatch")
    refuse (state.prediction.any fun known => !known.pyEq prediction)
      (txt "source packet " ++ sourceHash ++ txt " payload conflict")
    return some prediction

/-- The body of the loop of `_states`. -/
def applyEvent (eventIndex : Nat) (states : List State) (event : Json) : Py (List State) := do
  let sourceHash := textOrEmpty (event.get (txt "source_packet_hash"))
  refuse (sourceHash.length != 64) (txt "invalid source packet hash")
  let state := (find sourceHash states).getD
    ⟨sourceHash, event.get (txt "source_packet_id"), event.get (txt "source_prediction_sha256"), none,
      .null, .null, .null, 0⟩
  let payloadHash := event.get (txt "source_prediction_sha256")
  refuse (state.sourcePredictionSha256.truthy && payloadHash.truthy &&
      !state.sourcePredictionSha256.pyEq payloadHash)
    (txt "source packet " ++ sourceHash ++ txt " payload hash conflict")
  let prediction ← eventPrediction sourceHash state event
  let d1PredictionId := event.get (txt "d1_prediction_id")
  let reason := event.get (txt "reason")
  return put
    { state with
      prediction := prediction
      status := event.get (txt "event")
      d1PredictionId := if d1PredictionId = .null then state.d1PredictionId else d1PredictionId
      lastReason := if reason = .null then state.lastReason else reason
      lastEventIndex := eventIndex } states

def applyEvents : Nat → List State → List Json → Py (List State)
  | _, states, [] => .ok states
  | eventIndex, states, event :: events => do
      applyEvents (eventIndex + 1) (← applyEvent eventIndex states event) events

/-- `_states` -/
def loadStates : StoreCall (List State) := do
  let rows ← readRows
  DiskCall.lift (applyEvents 1 [] rows)

/-! ## Operations -/

/-- The members that every event has. -/
def eventMembers (event now : Text) (sourceHash sourceId sourcePredictionSha256 : Json) :
    List (Text × Json) :=
  [(txt "contract", .str contract), (txt "event", .str event), (txt "recorded_at", .str now),
   (txt "source_packet_hash", sourceHash), (txt "source_packet_id", sourceId),
   (txt "source_prediction_sha256", sourcePredictionSha256)]

def enqueue (packet prediction : Json) (now : Text) : StoreCall State := do
  DiskCall.lift (refuse (!packet.isObject || !prediction.isObject)
    (txt "packet and prediction must be objects"))
  let sourceHash := textOrEmpty (packet.get (txt "packet_hash"))
  let sourceId := textOrEmpty (packet.get (txt "packet_id"))
  DiskCall.lift (refuse (sourceHash.length != 64 || sourceId.isEmpty)
    (txt "sealed packet identity is invalid"))
  let payloadHash ← DiskCall.lift (sha256Json prediction)
  let states ← loadStates
  match find sourceHash states with
  | some existing => do
      let conflict := txt "source packet " ++ sourceHash ++ txt " payload conflict"
      DiskCall.lift (refuse (!existing.sourcePredictionSha256.pyEq (.str payloadHash)) conflict)
      DiskCall.lift (refuse (existing.prediction.any fun known => !known.pyEq prediction) conflict)
      return existing
  | none => do
      append (.ofMembers (eventMembers (txt "ENQUEUED") now (.str sourceHash) (.str sourceId)
        (.str payloadHash) ++ [(txt "prediction", prediction)]))
      let states ← loadStates
      DiskCall.lift (orRaise (find sourceHash states) .keyError sourceHash)

/-- `states.get(source_packet_hash)` of a receipt with a payload. -/
def known (sourceHash : Text) (states : List State) (message : Text) : Py State :=
  match find sourceHash states with
  | some state => do
      refuse state.prediction.isNone message
      return state
  | none => fail message

def isPersisted (state : State) : Bool := state.status.pyEq (.str (txt "PERSISTED"))

def markFailed (sourceHash reason now : Text) : StoreCall Unit := do
  let states ← loadStates
  let state ← DiskCall.lift (known sourceHash states (txt "cannot fail unknown source packet"))
  if isPersisted state then return ()
  else
    append (.ofMembers (eventMembers (txt "FAILED") now (.str sourceHash) state.sourcePacketId
      state.sourcePredictionSha256 ++ [(txt "reason", .str (reason.take 240))]))

/-- `int(value)` of what a state has as its D1 id. -/
def asInt (value : Json) : Py Int :=
  match value with
  | .num raw =>
      let (negative, digits) := RationalDecimal.sign raw
      .ok (if negative then -(toNat digits) else toNat digits)
  | _ => raise .typeError (txt "int() argument must be a number")

def markPersisted (sourceHash : Text) (d1PredictionId : Int) (now : Text) : StoreCall Unit := do
  DiskCall.lift (refuse (decide (d1PredictionId ≤ 0)) (txt "D1 prediction id must be a positive integer"))
  let states ← loadStates
  let state ← DiskCall.lift (known sourceHash states (txt "cannot persist unknown source packet"))
  if isPersisted state then do
    let stored ← DiskCall.lift (asInt state.d1PredictionId)
    DiskCall.lift (refuse (stored != d1PredictionId) (txt "D1 prediction id conflict"))
  else
    append (.ofMembers (eventMembers (txt "PERSISTED") now (.str sourceHash) state.sourcePacketId
      state.sourcePredictionSha256 ++ [(txt "d1_prediction_id", .ofNat d1PredictionId.toNat)]))

/-! ## Queries -/

/-- `summary` -/
structure Summary where
  expected : Nat
  persisted : Nat
  unresolved : Nat
  deriving DecidableEq, Repr

def summarize (states : List State) : Summary :=
  let persisted := states.countP isPersisted
  ⟨states.length, persisted, states.length - persisted⟩

def summary : StoreCall Summary := do
  return summarize (← loadStates)

/-- The key by which `pending` sorts. -/
def pendingKey (state : State) : Nat × Text × Text :=
  (state.lastEventIndex, textOrEmpty ((state.prediction.getD .null).get (txt "timestamp")),
    state.sourcePacketHash)

/-- The order of Python's tuples and strings. -/
def keyLe (a b : Nat × Text × Text) : Bool :=
  decide (a.1 < b.1) || (a.1 == b.1 && (decide (a.2.1 < b.2.1) || (a.2.1 == b.2.1 && decide (a.2.2 ≤ b.2.2))))

def isPending (state : State) : Bool := !isPersisted state && state.prediction.isSome

def pendingOf (states : List State) : List State :=
  (states.filter isPending).mergeSort fun a b => keyLe (pendingKey a) (pendingKey b)

def pending (limit : Nat) : StoreCall (List State) := do
  DiskCall.lift (guardNot (decide (limit < 1) || decide (100 < limit)) .valueError
    (txt "limit must be between 1 and 100"))
  let states ← loadStates
  return (pendingOf states).take limit

end Senex.Receipts
