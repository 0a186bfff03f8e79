import Senex.Foundation.JsonAscii
import Senex.Foundation.Sha256

/-! # The event store

`EventStore` of `event_sourcing.py`: events in a chain of hashes, one a line.
The hash of an event covers the hash before it and the canonical JSON of its
payload, and nothing else of the event.
-/

namespace Senex.Antifragility

/-- `GENESIS_HASH` -/
def genesisHash : Text := List.replicate 64 48

/-- `_canonical_json`: keys in order, no white space. -/
def canonicalJson (payload : Json) : Text := payload.render Json.asciiQuote

/-- `_hash_payload`.  Hashes and canonical JSON are ASCII, so their UTF-8 bytes are their characters. -/
def hashPayload (prevHash : Text) (payload : Json) : Text :=
  Sha256.hexdigest (prevHash ++ canonicalJson payload)

structure Event where
  id : Text
  type : Text
  payload : Json
  ts : Text
  seq : Int
  prevHash : Text
  hash : Text
  deriving DecidableEq

/-- `Event.verify` -/
def Event.verify (ev : Event) (prevHash : Text) : Bool := ev.hash == hashPayload prevHash ev.payload

/-- The arguments of `EventStore.append`, with the id that `uuid4` draws and the time of the clock. -/
structure Call where
  type : Text
  payload : Json
  ts : Option Text
  id : Text
  now : Text

/-- What a store keeps in memory. -/
structure EventStore where
  seqCounter : Int
  lastHash : Text

/-- The event that `append` makes. -/
def Call.event (c : Call) (store : EventStore) : Event where
  id := c.id
  type := c.type
  payload := c.payload
  ts := match c.ts with
    | some ts => if ts = [] then c.now else ts
    | none => c.now
  seq := store.seqCounter + 1
  prevHash := store.lastHash
  hash := hashPayload store.lastHash c.payload

namespace EventStore

def start : EventStore := ⟨0, genesisHash⟩

/-- `_load_tail`, over the events that the file's lines hold. -/
def loadTail (events : List Event) : EventStore :=
  events.foldl (fun store ev => ⟨max store.seqCounter ev.seq, ev.hash⟩) start

/-- The store behind `append`: counter and last hash are set before the line is written. -/
def appended (store : EventStore) (c : Call) : EventStore := ⟨store.seqCounter + 1, (c.event store).hash⟩

/-- The events that a sequence of calls appends. -/
def stream (store : EventStore) : List Call → List Event
  | [] => []
  | c :: calls => c.event store :: (store.appended c).stream calls

end EventStore

/-- `replay(from_seq, to_seq)`, over the events that the file's lines hold. -/
def replay (fromSeq : Int) (toSeq : Option Int) : List Event → List Event
  | [] => []
  | ev :: events =>
      if ev.seq < fromSeq then replay fromSeq toSeq events
      else if toSeq.any (· < ev.seq) then []
      else ev :: replay fromSeq toSeq events

/-- The events that do not follow the hash of the event before them. -/
def brokenSeqs (prev : Text) : List Event → List Int
  | [] => []
  | ev :: events =>
      (if ev.verify prev then [] else [ev.seq]) ++ brokenSeqs ev.hash events

/-- `verify_chain` -/
def verifyChain (events : List Event) : Bool × List Int :=
  let broken := brokenSeqs genesisHash (replay 0 none events)
  (broken.length == 0, broken)

/-! ## Links -/

/-- Each event's hash follows from its predecessor's. -/
def Linked (prev : Text) : List Event → Prop
  | [] => True
  | ev :: events => ev.hash = hashPayload prev ev.payload ∧ Linked ev.hash events

/-- The hash that an event behind `events` is checked against. -/
def headHash (prev : Text) (events : List Event) : Text := events.foldl (fun _ ev => ev.hash) prev

theorem brokenSeqs_eq_nil_iff (prev : Text) (events : List Event) :
    brokenSeqs prev events = [] ↔ Linked prev events := by
  induction events generalizing prev with
  | nil => simp [brokenSeqs, Linked]
  | cons ev events ih =>
      simp only [brokenSeqs, List.append_eq_nil_iff, ih, Linked, Event.verify, beq_iff_eq]
      apply and_congr_left'
      split <;> simp_all

/-- The chain is reported whole when it is linked. -/
theorem verifyChain_iff (events : List Event) :
    (verifyChain events).1 = true ↔ Linked genesisHash (replay 0 none events) := by
  simp [verifyChain, ← brokenSeqs_eq_nil_iff]

theorem linked_append (prev : Text) (first second : List Event) :
    Linked prev (first ++ second) ↔ Linked prev first ∧ Linked (headHash prev first) second := by
  induction first generalizing prev with
  | nil => simp [Linked, headHash]
  | cons ev first ih => simp [Linked, ih, headHash, and_assoc]

@[simp] theorem headHash_append (prev : Text) (first second : List Event) :
    headHash prev (first ++ second) = headHash (headHash prev first) second :=
  List.foldl_append

theorem headHash_mem (prev : Text) (events : List Event) :
    headHash prev events ∈ prev :: events.map Event.hash := by
  induction events generalizing prev with
  | nil => simp [headHash]
  | cons ev events ih =>
      apply List.mem_cons_of_mem
      exact ih ev.hash

/-! ## Reading -/

/-- Without an upper bound, a replay reads every event from its first number on. -/
theorem replay_eq_filter (fromSeq : Int) (events : List Event) :
    replay fromSeq none events = events.filter fun ev => decide (fromSeq ≤ ev.seq) := by
  induction events with
  | nil => rfl
  | cons ev events ih =>
      by_cases before : ev.seq < fromSeq
      · have left : ¬ fromSeq ≤ ev.seq := by omega
        simp [replay, before, ih, left]
      · have kept : fromSeq ≤ ev.seq := by omega
        simp [replay, before, ih, kept]

/-! ## The events of a store -/

namespace EventStore

theorem linked_stream (store : EventStore) (calls : List Call) :
    Linked store.lastHash (store.stream calls) := by
  induction calls generalizing store with
  | nil => trivial
  | cons c calls ih => exact ⟨rfl, ih (store.appended c)⟩

theorem seq_stream (store : EventStore) (calls : List Call) :
    ∀ ev ∈ store.stream calls, store.seqCounter < ev.seq := by
  induction calls generalizing store with
  | nil => simp [stream]
  | cons c calls ih =>
      intro ev member
      rcases List.mem_cons.mp member with rfl | member
      · simp only [Call.event]
        omega
      · have later := ih (store.appended c) ev member
        simp only [appended] at later
        omega

/-- Every event of a fresh store is read. -/
theorem replay_stream {store : EventStore} (nonneg : 0 ≤ store.seqCounter) (calls : List Call) :
    replay 0 none (store.stream calls) = store.stream calls := by
  rw [replay_eq_filter, List.filter_eq_self]
  intro ev member
  have later := store.seq_stream calls ev member
  simp only [decide_eq_true_eq]
  omega

/-- A hash is a text of sixty-four characters. -/
theorem length_hash_stream (store : EventStore) (calls : List Call) :
    ∀ ev ∈ store.stream calls, ev.hash.length = 64 := by
  induction calls generalizing store with
  | nil => simp [stream]
  | cons c calls ih =>
      intro ev member
      rcases List.mem_cons.mp member with rfl | member
      · have hex := Sha256.isHex64_hexdigest (store.lastHash ++ canonicalJson c.payload)
        simp only [Sha256.isHex64, Bool.and_eq_true, beq_iff_eq] at hex
        exact hex.1
      · exact ih (store.appended c) ev member

end EventStore

end Senex.Antifragility
