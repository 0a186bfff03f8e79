import Senex.Antifragility.EventStore
import Senex.Foundation.JsonLine
import Senex.Foundation.LineCodec
import Senex.Foundation.Transition

/-! # Appends that fail and tails that are torn

A store appends to its file; an append may fail after any number of bytes, and
a crash may cut the last line anywhere.  The events survive as long as no append
is made by a store whose counter and last hash are not those of the file, or to a
file whose last line has no newline.
-/

namespace Senex.Antifragility

/-- A store, its file, and each event whose `append` returned and whose text is still whole, with the
    length of the file up to the end of that text. -/
structure Host where
  store : EventStore
  data : Bytes
  completed : List (Event × Nat)

inductive Act where
  | append (c : Call)
  /-- The write raises behind its first `n` bytes. -/
  | fail (c : Call) (n : Nat)
  /-- The process ends, `n` bytes of the last line are left, and a store is loaded from the file. -/
  | crash (n : Nat)
  | reload

namespace Host

variable (codec : LineCodec Event)

def start : Host := ⟨EventStore.start, [], []⟩

/-- The events that `replay()` reads. -/
def events (h : Host) : List Event := replay 0 none (codec.values h.data)

def step (h : Host) : Act → Host
  | .append c => {
      store := h.store.appended c
      data := h.data ++ (codec.line (c.event h.store) ++ [10])
      completed := h.completed ++ [(c.event h.store, (h.data ++ codec.line (c.event h.store)).length)] }
  | .fail c n => { h with
      store := h.store.appended c
      data := h.data ++ (codec.line (c.event h.store) ++ [10]).take n }
  | .crash n => {
      store := EventStore.loadTail (codec.values (h.data.cutLast n))
      data := h.data.cutLast n
      completed := h.completed.filter fun p => decide (p.2 ≤ (h.data.cutLast n).length) }
  | .reload => { h with store := EventStore.loadTail (codec.values h.data) }

/-- The event of a call can be written. -/
def Writes (h : Host) : Act → Prop
  | .append c | .fail c _ => codec.Admits (c.event h.store)
  | .crash _ | .reload => True

/-- An append is made to a file that ends at a line, by a store that stands where the file does. -/
def Fresh (h : Host) : Act → Prop
  | .append _ | .fail _ _ =>
      (h.data = [] ∨ h.data.endsWithNewline = true) ∧ h.store = EventStore.loadTail (codec.values h.data)
  | .crash _ | .reload => True

/-- Every completed event is kept once, the numbers are consecutive and the chain is whole. -/
structure Recovered (h : Host) : Prop where
  once : ∀ p ∈ h.completed, (h.events codec).count p.1 = 1
  consecutive : (h.events codec).map Event.seq = (List.range (h.events codec).length).map fun i : Nat => (i : Int) + 1
  verified : verifyChain (codec.values h.data) = (true, [])

/-! ## Chains -/

/-- The events of a chain from the genesis hash on, numbered from one. -/
structure Chained (events : List Event) : Prop where
  linked : Linked genesisHash events
  numbered : events.map Event.seq = (List.range events.length).map fun i : Nat => (i : Int) + 1

theorem chained_nil : Chained [] := ⟨trivial, rfl⟩

namespace Chained

variable {events : List Event}

theorem front {more : List Event} (chained : Chained (events ++ more)) : Chained events where
  linked := ((linked_append genesisHash events more).mp chained.linked).1
  numbered := by
    have numbered := congrArg (List.take events.length) chained.numbered
    simpa [← List.map_take, List.take_range] using numbered

theorem positive (chained : Chained events) : ∀ ev ∈ events, 0 < ev.seq := by
  intro ev member
  have number : ev.seq ∈ events.map Event.seq := List.mem_map_of_mem member
  rw [chained.numbered, List.mem_map] at number
  obtain ⟨i, -, same⟩ := number
  omega

theorem replay_eq (chained : Chained events) : replay 0 none events = events := by
  rw [replay_eq_filter, List.filter_eq_self]
  intro ev member
  have positive := chained.positive ev member
  simp only [decide_eq_true_eq]
  omega

theorem nodup (chained : Chained events) : events.Nodup := by
  apply List.Nodup.of_map Event.seq
  rw [chained.numbered]
  refine List.nodup_range.map ?_
  intro i j same
  simpa using same

/-- A store that reads a chain stands behind its last event. -/
theorem loadTail_eq (chained : Chained events) :
    EventStore.loadTail events = ⟨events.length, headHash genesisHash events⟩ := by
  induction events using List.reverseRecOn with
  | nil => rfl
  | append_singleton events ev ih =>
      have before := ih chained.front
      have number : ev.seq = events.length + 1 := by
        have numbered := chained.numbered
        simp only [List.map_append, List.map_cons, List.map_nil, List.length_append, List.length_cons,
          List.length_nil, List.range_succ] at numbered
        have last := congrArg List.getLast? numbered
        simpa using last
      have next : max (events.length : Int) ev.seq = ((events ++ [ev]).length : Nat) := by
        simp only [List.length_append, List.length_singleton]
        omega
      rw [EventStore.loadTail, List.foldl_append, ← EventStore.loadTail, before, List.foldl_cons, List.foldl_nil,
        next, headHash_append]
      rfl

/-- The event of a store that stands behind a chain continues it. -/
theorem concat (chained : Chained events) (c : Call) :
    Chained (events ++ [c.event (EventStore.loadTail events)]) where
  linked := by
    refine (linked_append _ _ _).mpr ⟨chained.linked, ?_, trivial⟩
    rw [chained.loadTail_eq]
    rfl
  numbered := by
    rw [chained.loadTail_eq]
    simp [chained.numbered, List.range_succ, Call.event]

end Chained

/-! ## Runs -/

/-- The file has the shape of a chain of events, and the completed ones are among them. -/
structure Sound (h : Host) (events : List Event) : Prop where
  shape : codec.Shape h.data events
  chained : Chained events
  kept : ∀ p ∈ h.completed, ∃ front back, events = front ++ p.1 :: back ∧
    p.2 = (codec.text front ++ codec.line p.1).length

variable {codec}
variable {h : Host} {events : List Event}

theorem Sound.recovered (sound : Sound codec h events) : Recovered codec h := by
  have read : h.events codec = events := by rw [Host.events, sound.shape.values_eq, sound.chained.replay_eq]
  refine ⟨?_, ?_, ?_⟩
  · intro p member
    obtain ⟨front, back, split, -⟩ := sound.kept p member
    rw [read]
    exact List.count_eq_one_of_mem sound.chained.nodup (by simp [split])
  · rw [read]
    exact sound.chained.numbered
  · have whole := (brokenSeqs_eq_nil_iff genesisHash (replay 0 none events)).mpr
      (by rw [sound.chained.replay_eq]; exact sound.chained.linked)
    rw [sound.shape.values_eq, verifyChain, whole]
    rfl

/-- A store that stands where its file does adds the next event, or a part of its line. -/
theorem Sound.appended (sound : Sound codec h events) {c : Call} (writes : codec.Admits (c.event h.store))
    (ended : h.data = [] ∨ h.data.endsWithNewline = true)
    (current : h.store = EventStore.loadTail (codec.values h.data)) (n : Nat) :
    Sound codec ⟨h.store.appended c, h.data ++ (codec.line (c.event h.store) ++ [10]).take n, h.completed⟩
      (if (codec.line (c.event h.store)).length ≤ n then events ++ [c.event h.store] else events) := by
  have text := sound.shape.eq_text ended
  have chained := sound.chained.concat c
  rw [← sound.shape.values_eq, ← current, sound.shape.values_eq] at chained
  have shape := LineCodec.Shape.take_line sound.shape.admits writes n
  rw [← text] at shape
  refine ⟨shape, ?_, ?_⟩
  · split
    · exact chained
    · exact sound.chained
  · intro p member
    obtain ⟨front, back, split_, length⟩ := sound.kept p member
    split
    · exact ⟨front, back ++ [c.event h.store], by simp [split_], length⟩
    · exact ⟨front, back, split_, length⟩

/-- One step of a run whose appends are fresh. -/
theorem Sound.step (sound : Sound codec h events) {act : Act} (writes : h.Writes codec act)
    (fresh : h.Fresh codec act) : ∃ events, Sound codec (h.step codec act) events := by
  cases act with
  | append c =>
      obtain ⟨ended, current⟩ := fresh
      have next := sound.appended writes ended current ((codec.line (c.event h.store)).length + 1)
      rw [if_pos (Nat.le_succ _), List.take_of_length_le (by simp)] at next
      refine ⟨_, next.shape, next.chained, ?_⟩
      intro p member
      rcases List.mem_append.mp member with earlier | new
      · exact next.kept p earlier
      · rw [List.mem_singleton.mp new]
        refine ⟨events, [], rfl, ?_⟩
        rw [sound.shape.eq_text ended]
  | fail c n =>
      obtain ⟨ended, current⟩ := fresh
      exact ⟨_, sound.appended writes ended current n⟩
  | crash n =>
      obtain ⟨left, shape, same | ⟨lost, split, short⟩⟩ := sound.shape.cutLast n
      · refine ⟨left, shape, same ▸ sound.chained, ?_⟩
        intro p member
        rw [same]
        exact sound.kept p (List.mem_of_mem_filter member)
      · have chained := sound.chained
        rw [split] at chained
        refine ⟨left, shape, chained.front, ?_⟩
        intro p member
        obtain ⟨kept, whole⟩ := List.mem_filter.mp member
        obtain ⟨front, back, place, length⟩ := sound.kept p kept
        rw [split] at place
        rcases List.eq_nil_or_concat back with rfl | ⟨back, last, rfl⟩
        · -- the last event, whose text the crash has cut
          obtain ⟨rfl, same⟩ := List.append_inj' place rfl
          rw [List.singleton_inj.mp same] at short
          simp only [decide_eq_true_eq] at whole
          omega
        · have places : left ++ [lost] = (front ++ p.1 :: back) ++ [last] := by simpa using place
          exact ⟨front, back, (List.append_inj' places rfl).1, length⟩
  | reload => exact ⟨events, sound.shape, sound.chained, sound.kept⟩

/-- The store loaded behind a crash stands where the file does. -/
theorem store_crash (codec : LineCodec Event) (h : Host) (n : Nat) :
    (h.step codec (.crash n)).store = EventStore.loadTail (codec.values (h.step codec (.crash n)).data) := rfl

/-- In a run whose appends are made by stores that stand where their files do, to files that end at a line,
    every state is recovered. -/
theorem recovered_of_fresh (codec : LineCodec Event) {acts : List Act}
    (allowed : Allowed (Host.step codec) (fun h act => h.Writes codec act ∧ h.Fresh codec act) Host.start acts) :
    Recovered codec (run (Host.step codec) Host.start acts) := by
  have kept : ∀ h act, (∃ events, Sound codec h events) → Host.Writes codec h act ∧ Host.Fresh codec h act →
      ∃ events, Sound codec (Host.step codec h act) events := by
    rintro h act ⟨events, sound⟩ ⟨writes, fresh⟩
    exact sound.step writes fresh
  have opened : ∃ events, Sound codec start events :=
    ⟨[], @LineCodec.Shape.whole _ codec [] (by simp), chained_nil, fun p member => by cases member⟩
  obtain ⟨events, sound⟩ := run_invariant kept opened allowed
  exact sound.recovered

end Host

/-! ## The lines of a store -/

/-- `to_dict` -/
def Event.toDict (ev : Event) : Json := .ofMembers [
  (txt "id", .str ev.id),
  (txt "type", .str ev.type),
  (txt "payload", ev.payload),
  (txt "ts", .str ev.ts),
  (txt "seq", .ofNat ev.seq.toNat),
  (txt "prev_hash", .str ev.prevHash),
  (txt "hash", .str ev.hash)]

/-- `from_dict`, for the documents whose members are of the fields' types. -/
def Event.fromDict (d : Json) : Option Event := do
  return {
    id := ← (← d.get? (txt "id")).asText?
    type := ← (← d.get? (txt "type")).asText?
    payload := (d.get? (txt "payload")).getD (.obj [])
    ts := ← (← d.get? (txt "ts")).asText?
    seq := ← (← d.get? (txt "seq")).asNat?
    prevHash := ← (← d.get? (txt "prev_hash")).asText?
    hash := ← (← d.get? (txt "hash")).asText? }

theorem Event.fromDict_toDict {ev : Event} (nonneg : 0 ≤ ev.seq) : fromDict ev.toDict = some ev := by
  simp [fromDict, toDict, Json.get?_ofMembers, Json.lookup, txt, nonneg]

theorem Event.wellFormed_toDict {ev : Event} (wellFormed : ev.payload.WellFormed) : ev.toDict.WellFormed := by
  apply Json.wellFormed_ofMembers
  simp [wellFormed]

/-- Events as lines of JSON.  White space and the order of the members are left out of the line: no reader
    sees them. -/
def eventCodec : LineCodec Event where
  Admits ev := 0 ≤ ev.seq ∧ ev.payload.WellFormed ∧ ev.toDict.bytes.isSome = true
  line ev := ev.toDict.bytes.getD []
  read line := (Json.parseLine line).bind fun d => Event.fromDict d.1
  solid := by
    rintro ev ⟨-, wellFormed, coded⟩
    obtain ⟨line, coded⟩ := Option.isSome_iff_exists.mp coded
    rw [coded]
    exact Json.solid_bytes (d := ⟨ev.toDict, Event.wellFormed_toDict wellFormed⟩) coded
  nonblank := by
    rintro ev ⟨-, -, coded⟩
    obtain ⟨line, coded⟩ := Option.isSome_iff_exists.mp coded
    obtain ⟨tail, same⟩ := Json.head_bytes rfl coded
    rw [coded, Option.getD_some, same]
    rfl
  read_line := by
    rintro ev ⟨nonneg, wellFormed, coded⟩
    obtain ⟨line, coded⟩ := Option.isSome_iff_exists.mp coded
    rw [coded, Option.getD_some, Json.parseLine_bytes (d := ⟨ev.toDict, Event.wellFormed_toDict wellFormed⟩) coded]
    exact Event.fromDict_toDict nonneg
  read_torn := by
    rintro ev front ⟨-, wellFormed, coded⟩ cut proper
    obtain ⟨line, coded⟩ := Option.isSome_iff_exists.mp coded
    rw [coded, Option.getD_some] at cut proper
    by_cases empty : front = []
    · rw [empty]
      decide
    · have torn := Json.torn_line (d := ⟨ev.toDict, Event.wellFormed_toDict wellFormed⟩) rfl coded cut empty proper
      rw [torn.2]
      rfl

/-! ## An append behind a failed one -/

/-- The claim over runs: whatever fails or crashes in between, the events are recovered. -/
def AlwaysRecovered (codec : LineCodec Event) : Prop :=
  ∀ acts, Allowed (Host.step codec) (Host.Writes codec) Host.start acts →
    Host.Recovered codec (run (Host.step codec) Host.start acts)

/-- A call of the ledger of decisions. -/
def decision (id : String) : Call :=
  ⟨txt "DECISION", .obj [(txt "actor", .str (txt "oracle"))], none, txt id, txt "2026-01-01T00:00:00.000000Z"⟩

theorem wellFormed_decision (id : String) : (decision id).payload.WellFormed :=
  ⟨List.pairwise_singleton _ _, trivial, trivial⟩

/-- A crash cuts the only line to nothing; the store loaded then appends again. -/
def cutToNothing : List Act := [.append (decision "e1"), .crash 0, .append (decision "e2")]

theorem recovered_of_fresh_cutToNothing :
    Host.Recovered eventCodec (run (Host.step eventCodec) Host.start cutToNothing) := by
  apply Host.recovered_of_fresh
  refine ⟨⟨⟨by decide, wellFormed_decision "e1", by decide +kernel⟩, Or.inl rfl, rfl⟩, ⟨trivial, trivial⟩,
    ⟨⟨by decide +kernel, wellFormed_decision "e2", by decide +kernel⟩, ?_⟩, trivial⟩
  exact ⟨Or.inl (by decide +kernel), Host.store_crash _ _ _⟩

/-- The disk is full at the first append and has room at the second. -/
def failedThenAppended : List Act := [.fail (decision "e1") 0, .append (decision "e2")]

theorem not_alwaysRecovered_failedThenAppended : ¬ AlwaysRecovered eventCodec := by
  intro recovered
  have second : eventCodec.Admits ((decision "e2").event (EventStore.start.appended (decision "e1"))) :=
    ⟨by decide, wellFormed_decision "e2", by decide +kernel⟩
  have written := recovered failedThenAppended
    ⟨⟨by decide, wellFormed_decision "e1", by decide +kernel⟩, second, trivial⟩
  -- the file holds the second event alone, under the number two
  have file : (run (Host.step eventCodec) Host.start failedThenAppended).data =
      eventCodec.text [(decision "e2").event (EventStore.start.appended (decision "e1"))] := by
    simp only [failedThenAppended, run_cons, run_nil, Host.step, Host.start, List.take_zero, List.nil_append,
      LineCodec.text_singleton]
  have held := @LineCodec.values_text_append _ eventCodec
    [(decision "e2").event (EventStore.start.appended (decision "e1"))] (by simpa using second) []
  rw [List.append_nil, ← file] at held
  have numbered := written.consecutive
  rw [Host.events, held] at numbered
  revert numbered
  decide

end Senex.Antifragility
