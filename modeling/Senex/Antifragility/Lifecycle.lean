import Senex.Antifragility.EventStore
import Senex.Foundation.Objects

/-! # The lifecycle of one prediction

`PredictionLifecycleAggregate`: its state is a `dict` whose `history` is a list object of its
own.  `World` is a process that emits events, takes snapshots and restores them, with the
event store and the snapshot files that outlive it.
-/

namespace Senex.Antifragility

/-- The state without its `history`. -/
structure Fields where
  predictionId : Json
  symbol : Json
  direction : Json
  confidence : Json
  features : Json
  signal : Json
  outcome : Json
  routed : Bool
  executed : Bool
  closed : Bool
  eventCount : Nat
  deriving DecidableEq

/-- An entry of `history`. -/
structure Entry where
  seq : Int
  type : Text
  ts : Text
  summary : List (Text × Json)
  deriving DecidableEq

/-- A state as a value. -/
abbrev Lifecycle := Fields × List Entry

/-- `payload.get(key, default)` -/
def payloadGet (payload : Json) (key : String) (default : Json) : Json :=
  (payload.get? (txt key)).getD default

/-- `initial_state` without `history`. -/
def initialFields : Fields where
  predictionId := .null
  symbol := .null
  direction := .null
  confidence := .num (txt "0.0")
  features := .obj []
  signal := .null
  outcome := .null
  routed := false
  executed := false
  closed := false
  eventCount := 0

/-- `_owns_event` -/
def owns (aggregateId : Text) (ev : Event) : Bool :=
  let pid := payloadGet ev.payload "prediction_id" .null
  pid == .null || pid == .str aggregateId

def summaryKeys : List Text :=
  [txt "direction", txt "confidence", txt "outcome", txt "status", txt "exit_reason", txt "fill_qty",
    txt "realized_pnl"]

/-- The members of a payload that the history keeps. -/
def summaryOf : Json → List (Text × Json)
  | .obj members => members.filter fun m => summaryKeys.contains m.1
  | _ => []

def entryOf (ev : Event) : Entry := ⟨ev.seq, ev.type, ev.ts, summaryOf ev.payload⟩

/-- `apply_event`, but for the entry of `history`. -/
def applyFields (aggregateId : Text) (ev : Event) (s : Fields) : Fields :=
  let p := ev.payload
  let s := { s with eventCount := s.eventCount + 1 }
  if ev.type = txt "PREDICTION_MADE" then
    { s with
      predictionId := payloadGet p "prediction_id" (.str aggregateId)
      symbol := payloadGet p "symbol" .null
      direction := payloadGet p "direction" .null
      confidence := payloadGet p "confidence" (.num (txt "0.0")) }
  else if ev.type = txt "FEATURES_COMPUTED" then { s with features := payloadGet p "features" (.obj []) }
  else if ev.type = txt "SIGNAL_GENERATED" then
    { s with signal := payloadGet p "signal" .null, confidence := payloadGet p "confidence" s.confidence }
  else if ev.type = txt "VERIFIED" then { s with outcome := payloadGet p "outcome" .null }
  else if ev.type = txt "ROUTED" then { s with routed := true }
  else if ev.type = txt "EXECUTED" then { s with executed := true }
  else if ev.type = txt "CLOSED" then { s with closed := true }
  else s

/-- `apply_event` on a state as a value. -/
def applyEvent (aggregateId : Text) (s : Lifecycle) (ev : Event) : Lifecycle :=
  (applyFields aggregateId ev s.1, s.2 ++ [entryOf ev])

/-- `load_from_store` on values: the owned events applied to the initial state. -/
def project (aggregateId : Text) (events : List Event) : Lifecycle :=
  (events.filter (owns aggregateId)).foldl (applyEvent aggregateId) (initialFields, [])

/-- A process with one aggregate.  The objects are the process's own; the events and the snapshot files
    outlive it.  `touched` is no part of the program: an event has been applied to an object of the
    latest snapshot since the snapshot was taken or loaded. -/
structure World where
  store : EventStore
  events : List Event
  files : List (Int × Option Lifecycle)
  heap : Objects Fields Entry
  /-- `state`; nothing is the empty `dict` of a new aggregate. -/
  state : Option Nat
  seq : Int
  /-- The snapshots of the manager, each with its sequence number and its state. -/
  cache : List (Int × Option Nat)
  touched : Bool

inductive Move where
  /-- The aggregate emits an event. -/
  | emit (c : Call)
  /-- Another component appends to the store. -/
  | other (c : Call)
  | snapshot
  | restore
  | load
  /-- A new process: the snapshots are read from their files. -/
  | newProcess

namespace World

def start : World := ⟨EventStore.start, [], [], ⟨[], []⟩, none, 0, [], false⟩

/-- The state as a value. -/
def value (w : World) : Option Lifecycle := w.state.bind w.heap.read

def latest (w : World) : Option (Int × Option Nat) := w.cache.getLast?

/-- The state and the latest snapshot have one `history`. -/
def shares (w : World) : Bool :=
  match w.state, w.latest with
  | some r, some (_, some s) => w.heap.listOf r == w.heap.listOf s
  | _, _ => false

/-- A snapshot file of its sequence number replaces the one before it; files are read in the order of their
    numbers. -/
def saveFile (seq : Int) (state : Option Lifecycle) : List (Int × Option Lifecycle) → List (Int × Option Lifecycle)
  | [] => [(seq, state)]
  | file :: files =>
      if seq < file.1 then (seq, state) :: file :: files
      else if seq = file.1 then (seq, state) :: files
      else file :: saveFile seq state files

/-- The objects of a snapshot that is read from its file. -/
def loadFile (w : Objects Fields Entry × List (Int × Option Nat)) (file : Int × Option Lifecycle) :
    Objects Fields Entry × List (Int × Option Nat) :=
  match file.2 with
  | none => (w.1, w.2 ++ [(file.1, none)])
  | some state => (w.1.alloc state.1 state.2, w.2 ++ [(file.1, some w.1.next)])

variable (aggregateId : Text)

/-- Events applied in order to the state at `r`. -/
def replayInto (heap : Objects Fields Entry) (r : Nat) (events : List Event) : Objects Fields Entry :=
  heap.extendAll r (applyFields aggregateId) entryOf events

/-- The sequence number of the last event, or the one before them. -/
def lastSeq (seq : Int) (events : List Event) : Int := events.foldl (fun _ ev => ev.seq) seq

/-- The owned events from a number on. -/
def owned (w : World) (fromSeq : Int) : List Event :=
  (replay fromSeq none w.events).filter (owns aggregateId)

/-- `load_from_store` -/
def load (w : World) : World :=
  { w with
    heap := replayInto aggregateId (w.heap.alloc initialFields []) w.heap.next (w.owned aggregateId 0)
    state := some w.heap.next
    seq := lastSeq 0 (w.owned aggregateId 0) }

/-- `restore`.  On a snapshot of the empty `dict` the first event raises `KeyError`. -/
def restore (w : World) : World :=
  match w.latest with
  | none => w.load aggregateId
  | some (seq, none) => { w with state := none, seq := seq }
  | some (seq, some r) => { w with
      heap := replayInto aggregateId (w.heap.copy r) w.heap.next (w.owned aggregateId (seq + 1))
      state := some w.heap.next
      seq := lastSeq seq (w.owned aggregateId (seq + 1))
      touched := w.touched || !(w.owned aggregateId (seq + 1)).isEmpty }

/-- `emit`: the event is in the store also when `apply_event` raises on an empty `dict`. -/
def emit (w : World) (c : Call) : World :=
  let ev := c.event w.store
  let stored := { w with store := w.store.appended c, events := w.events ++ [ev] }
  match w.state with
  | none => stored
  | some r => { stored with
      heap := w.heap.extend r (applyFields aggregateId ev) (entryOf ev)
      seq := ev.seq
      touched := w.touched || w.shares }

def step (w : World) : Move → World
  | .emit c => w.emit aggregateId c
  | .other c => { w with store := w.store.appended c, events := w.events ++ [c.event w.store] }
  | .snapshot => { w with
      cache := w.cache ++ [(w.seq, w.state)]
      files := saveFile w.seq w.value w.files
      touched := false }
  | .restore => w.restore aggregateId
  | .load => w.load aggregateId
  | .newProcess =>
      let loaded := w.files.foldl loadFile (⟨[], []⟩, [])
      { w with heap := loaded.1, cache := loaded.2, state := none, seq := 0, touched := false }

end World

end Senex.Antifragility
