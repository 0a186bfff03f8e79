import Senex.Receipts.Store

/-! # Events and receipts

The rows that the store writes, typed, and the receipts they make.  `Recorded` says which events
a store can have written; `applyEvents_json` says that `_states` makes of their rows just these
receipts.
-/

namespace Senex.Receipts

open Text

/-- A sealed packet's identity and its prediction, as `enqueue` takes them. -/
structure Source where
  hash : Text
  id : Text
  sha : Text
  prediction : Json.Document
  length : hash.length = 64
  filled : id ≠ []
  object : prediction.1.isObject = true
  digest : sha256Json prediction.1 = .ok sha

inductive Act where
  | enqueued
  | failed (reason : Text)
  | persisted (d1PredictionId : Nat)
  deriving DecidableEq

def Act.name : Act → Text
  | .enqueued => txt "ENQUEUED"
  | .failed _ => txt "FAILED"
  | .persisted _ => txt "PERSISTED"

/-- One row of the file; only the row of an enqueue holds the prediction. -/
structure Event where
  source : Source
  now : Text
  act : Act

def Event.members (e : Event) : List (Text × Json) :=
  match e.act with
  | .enqueued => [(txt "prediction", e.source.prediction.1)]
  | .failed reason => [(txt "reason", .str reason)]
  | .persisted d1PredictionId => [(txt "d1_prediction_id", .ofNat d1PredictionId)]

def Event.json (e : Event) : Json :=
  .ofMembers (eventMembers e.act.name e.now (.str e.source.hash) (.str e.source.id) (.str e.source.sha) ++
    e.members)

/-- A receipt: its source, its last act and what earlier acts left. -/
structure Receipt where
  source : Source
  act : Act
  d1PredictionId : Option Nat
  lastReason : Option Text
  lastEventIndex : Nat

/-- The receipt as the reconstructed state has it. -/
def Receipt.state (r : Receipt) : State where
  sourcePacketHash := r.source.hash
  sourcePacketId := .str r.source.id
  sourcePredictionSha256 := .str r.source.sha
  prediction := some r.source.prediction.1
  status := .str r.act.name
  d1PredictionId := r.d1PredictionId.elim .null .ofNat
  lastReason := r.lastReason.elim .null .str
  lastEventIndex := r.lastEventIndex

def Receipt.persisted (r : Receipt) : Bool :=
  match r.act with
  | .persisted _ => true
  | _ => false

/-- The receipt behind one more act. -/
def Receipt.update (r : Receipt) (act : Act) (index : Nat) : Receipt :=
  match act with
  | .enqueued => { r with act := act, lastEventIndex := index }
  | .failed reason => { r with act := act, lastReason := some reason, lastEventIndex := index }
  | .persisted id => { r with act := act, d1PredictionId := some id, lastEventIndex := index }

/-- The receipts behind one more event. -/
def record (index : Nat) (receipts : List Receipt) (e : Event) : List Receipt :=
  if e.act = .enqueued then receipts ++ [⟨e.source, .enqueued, none, none, index⟩]
  else receipts.map fun r => if r.source.hash = e.source.hash then r.update e.act index else r

/-- The event is one that a call records over these receipts. -/
def Admits (receipts : List Receipt) (e : Event) : Prop :=
  match e.act with
  | .enqueued => ∀ r ∈ receipts, r.source.hash ≠ e.source.hash
  | .failed _ => ∃ r ∈ receipts, r.source = e.source ∧ r.persisted = false
  | .persisted id => 0 < id ∧ ∃ r ∈ receipts, r.source = e.source ∧ r.persisted = false

/-- The events of a file, and the receipts they make. -/
inductive Recorded : List Event → List Receipt → Prop
  | nil : Recorded [] []
  | snoc {events : List Event} {receipts : List Receipt} (e : Event) (before : Recorded events receipts)
      (admits : Admits receipts e) (coded : ∃ line, e.json.bytes = some line) :
      Recorded (events ++ [e]) (record (events.length + 1) receipts e)

/-! ## Receipts of recorded events -/

def hashes (receipts : List Receipt) : List Text := receipts.map fun r => r.source.hash

theorem source_update (r : Receipt) (act : Act) (index : Nat) : (r.update act index).source = r.source := by
  cases act <;> rfl

theorem hashes_record_enqueued {e : Event} (enqueued : e.act = .enqueued) (index : Nat)
    (receipts : List Receipt) : hashes (record index receipts e) = hashes receipts ++ [e.source.hash] := by
  simp [record, enqueued, hashes]

theorem hashes_record {e : Event} (marked : e.act ≠ .enqueued) (index : Nat) (receipts : List Receipt) :
    hashes (record index receipts e) = hashes receipts := by
  simp only [record, if_neg marked, hashes, List.map_map]
  apply List.map_congr_left
  intro r _
  simp only [Function.comp_apply]
  split
  · rw [source_update]
  · rfl

theorem Recorded.nodup {events : List Event} {receipts : List Receipt} (recorded : Recorded events receipts) :
    (hashes receipts).Nodup := by
  induction recorded with
  | nil => exact List.nodup_nil
  | snoc e before admits coded ih =>
      by_cases enqueued : e.act = .enqueued
      · rw [hashes_record_enqueued enqueued]
        simp only [Admits, enqueued] at admits
        rw [List.nodup_append]
        refine ⟨ih, List.nodup_singleton _, ?_⟩
        intro hash known other fresh
        obtain ⟨r, hr, rfl⟩ := List.mem_map.mp known
        rw [List.mem_singleton.mp fresh]
        exact admits r hr
      · rwa [hashes_record enqueued]

theorem eq_of_hash {receipts : List Receipt} (nodup : (hashes receipts).Nodup) {r s : Receipt}
    (hr : r ∈ receipts) (hs : s ∈ receipts) (same : r.source.hash = s.source.hash) : r = s :=
  List.inj_on_of_nodup_map nodup hr hs same

/-- What later events leave of a receipt: its source, and all of it once it is persisted. -/
def Keeps (r s : Receipt) : Prop := s.source = r.source ∧ (r.persisted = true → s = r)

theorem keeps_refl (r : Receipt) : Keeps r r := ⟨rfl, fun _ => rfl⟩

theorem keeps_trans {r s t : Receipt} (first : Keeps r s) (second : Keeps s t) : Keeps r t := by
  refine ⟨second.1.trans first.1, ?_⟩
  intro persisted
  rw [second.2 (by rw [first.2 persisted, persisted]), first.2 persisted]

theorem exists_kept {receipts : List Receipt} (nodup : (hashes receipts).Nodup) {e : Event}
    (admits : Admits receipts e) (index : Nat) {r : Receipt} (hr : r ∈ receipts) :
    ∃ s ∈ record index receipts e, Keeps r s := by
  by_cases enqueued : e.act = .enqueued
  · exact ⟨r, by simp [record, enqueued, hr], keeps_refl r⟩
  · rw [record, if_neg enqueued]
    by_cases same : r.source.hash = e.source.hash
    · refine ⟨r.update e.act index, ?_, source_update r e.act index, ?_⟩
      · exact List.mem_map.mpr ⟨r, hr, if_pos same⟩
      · intro persisted
        -- the event is about an unpersisted receipt of this hash, which is `r`
        have unpersisted : ∃ s ∈ receipts, s.source = e.source ∧ s.persisted = false := by
          obtain ⟨source, now, act⟩ := e
          cases act with
          | enqueued => exact absurd rfl enqueued
          | failed reason => exact admits
          | persisted id => exact admits.2
        obtain ⟨s, hs, source, open_⟩ := unpersisted
        have equal : s = r := eq_of_hash nodup hs hr (by rw [source, same])
        rw [equal, persisted] at open_
        cases open_
    · exact ⟨r, List.mem_map.mpr ⟨r, hr, if_neg same⟩, keeps_refl r⟩

/-! ## Rows -/

theorem get_ofMembers (key : Text) (members : List (Text × Json)) :
    (Json.ofMembers members).get key = (Json.lookup key members.reverse).getD .null := by
  rw [Json.get, Json.get?_ofMembers]

/-- The fields of a row. -/
structure Event.Fields (e : Event) (row : Json) : Prop where
  contract : row.get (txt "contract") = .str contract
  event : row.get (txt "event") = .str e.act.name
  hash : row.get (txt "source_packet_hash") = .str e.source.hash
  id : row.get (txt "source_packet_id") = .str e.source.id
  sha : row.get (txt "source_prediction_sha256") = .str e.source.sha
  prediction : row.get (txt "prediction") =
    match e.act with
    | .enqueued => e.source.prediction.1
    | _ => .null
  d1PredictionId : row.get (txt "d1_prediction_id") =
    match e.act with
    | .persisted id => .ofNat id
    | _ => .null
  reason : row.get (txt "reason") =
    match e.act with
    | .failed reason => .str reason
    | _ => .null

theorem Event.fields (e : Event) : e.Fields e.json := by
  obtain ⟨source, now, act⟩ := e
  cases act <;> constructor <;>
    simp [Event.json, get_ofMembers, eventMembers, Event.members, Json.lookup, Act.name]

theorem Event.wellFormed (e : Event) : e.json.WellFormed := by
  apply Json.wellFormed_ofMembers
  intro m hm
  obtain ⟨source, now, act⟩ := e
  cases act with
  | enqueued =>
      simp only [eventMembers, Event.members, List.cons_append, List.nil_append, List.mem_cons,
        List.not_mem_nil, or_false] at hm
      rcases hm with rfl | rfl | rfl | rfl | rfl | rfl | rfl
      · trivial
      · trivial
      · trivial
      · trivial
      · trivial
      · trivial
      · exact source.prediction.2
  | failed reason =>
      simp only [eventMembers, Event.members, List.cons_append, List.nil_append, List.mem_cons,
        List.not_mem_nil, or_false] at hm
      rcases hm with rfl | rfl | rfl | rfl | rfl | rfl | rfl <;> trivial
  | persisted id =>
      simp only [eventMembers, Event.members, List.cons_append, List.nil_append, List.mem_cons,
        List.not_mem_nil, or_false] at hm
      rcases hm with rfl | rfl | rfl | rfl | rfl | rfl | rfl
      · trivial
      · trivial
      · trivial
      · trivial
      · trivial
      · trivial
      · exact Json.wellFormed_ofNat id

/-- The row of an event as a document. -/
def Event.document (e : Event) : Json.Document := ⟨e.json, e.wellFormed⟩

@[simp] theorem Event.isObject (e : Event) : e.json.isObject = true := rfl

theorem Event.no_marker (e : Event) : e.json.keys.contains recoveryMarkerKey = false := by
  obtain ⟨source, now, act⟩ := e
  cases act <;> simp only [Event.json, Json.keys_ofMembers, eventMembers, Event.members,
    List.cons_append, List.nil_append, List.map_cons, List.map_nil] <;> decide

@[simp] theorem textOrEmpty_str (t : Text) : textOrEmpty (.str t) = t := by
  cases t <;> simp [textOrEmpty, Json.truthy]

/-! ## `_states` over rows -/

theorem find_map_state (hash : Text) (receipts : List Receipt) :
    find hash (receipts.map Receipt.state) =
      (receipts.find? fun r => r.source.hash == hash).map Receipt.state := by
  rw [find, List.find?_map]
  rfl

theorem find_eq_none {hash : Text} {receipts : List Receipt}
    (absent : ∀ r ∈ receipts, r.source.hash ≠ hash) : find hash (receipts.map Receipt.state) = none := by
  rw [find_map_state, Option.map_eq_none_iff, List.find?_eq_none]
  intro r hr
  simpa using absent r hr

theorem find_eq_some {receipts : List Receipt} (nodup : (hashes receipts).Nodup) {r : Receipt}
    (hr : r ∈ receipts) : find r.source.hash (receipts.map Receipt.state) = some r.state := by
  rw [find_map_state]
  cases found : receipts.find? fun s => s.source.hash == r.source.hash with
  | none =>
      have := List.find?_eq_none.mp found r hr
      simp at this
  | some s =>
      have same : s.source.hash = r.source.hash := by simpa using List.find?_some found
      rw [eq_of_hash nodup (List.mem_of_find?_eq_some found) hr same]
      rfl

/-- A state of the store is that of a receipt. -/
theorem exists_of_find {hash : Text} {receipts : List Receipt} {state : State}
    (found : find hash (receipts.map Receipt.state) = some state) :
    ∃ r ∈ receipts, r.source.hash = hash ∧ r.state = state := by
  rw [find_map_state, Option.map_eq_some_iff] at found
  obtain ⟨r, hr, rfl⟩ := found
  exact ⟨r, List.mem_of_find?_eq_some hr, by simpa using List.find?_some hr, rfl⟩

theorem put_new {state : State} {receipts : List Receipt}
    (absent : ∀ r ∈ receipts, r.source.hash ≠ state.sourcePacketHash) :
    put state (receipts.map Receipt.state) = receipts.map Receipt.state ++ [state] := by
  rw [put, if_neg]
  simp only [List.any_map, List.any_eq_true, Function.comp_apply, beq_iff_eq, not_exists, not_and]
  exact absent

theorem put_known {receipts : List Receipt} (nodup : (hashes receipts).Nodup) {r : Receipt}
    (hr : r ∈ receipts) (f : Receipt → Receipt) (kept : (f r).source = r.source) :
    put (f r).state (receipts.map Receipt.state) =
      (receipts.map fun s => if s.source.hash = r.source.hash then f s else s).map Receipt.state := by
  have named : (f r).state.sourcePacketHash = r.source.hash := by
    rw [← kept]
    rfl
  have present : (receipts.map Receipt.state).any
      (fun other => other.sourcePacketHash == (f r).state.sourcePacketHash) = true := by
    rw [named, List.any_map, List.any_eq_true]
    exact ⟨r, hr, by simp [Receipt.state]⟩
  rw [put, if_pos present, List.map_map, List.map_map]
  apply List.map_congr_left
  intro s hs
  simp only [Function.comp_apply, named, beq_iff_eq]
  by_cases same : s.source.hash = r.source.hash
  · rw [eq_of_hash nodup hs hr same]
    simp [Receipt.state]
  · have apart : s.state.sourcePacketHash ≠ r.source.hash := same
    simp [apart, same]

/-- What an event's row does to the states. -/
theorem applyEvent_json {receipts : List Receipt} (nodup : (hashes receipts).Nodup) {e : Event}
    (admits : Admits receipts e) (index : Nat) :
    applyEvent index (receipts.map Receipt.state) e.json =
      .ok ((record index receipts e).map Receipt.state) := by
  have fields := e.fields
  have length : (e.source.hash.length != 64) = false := by simp [e.source.length]
  by_cases enqueued : e.act = .enqueued
  · have absent : ∀ r ∈ receipts, r.source.hash ≠ e.source.hash := by
      simpa only [Admits, enqueued] using admits
    have prediction := fields.prediction
    have d1PredictionId := fields.d1PredictionId
    have reason := fields.reason
    simp only [enqueued] at prediction d1PredictionId reason
    have payload : e.source.prediction.1 ≠ .null := by
      intro null
      have object := e.source.object
      rw [null] at object
      cases object
    have digest := e.source.digest
    have object := e.source.object
    simp only [applyEvent, eventPrediction, fields.hash, fields.id, fields.sha, fields.event, prediction,
      d1PredictionId, reason, textOrEmpty_str, length, find_eq_none absent, refuse, guardNot_false,
      Option.getD_none, Json.pyEq_refl, payload, object, digest, Py.ok_bind, if_false, if_true,
      Bool.not_true, Bool.and_false, Option.any_none, Py.pure_eq_ok, record, enqueued]
    rw [put_new absent, List.map_append]
    rfl
  · obtain ⟨r, hr, same⟩ : ∃ r ∈ receipts, r.source = e.source := by
      obtain ⟨source, now, act⟩ := e
      cases act with
      | enqueued => exact absurd rfl enqueued
      | failed reason =>
          obtain ⟨r, hr, same, -⟩ := admits
          exact ⟨r, hr, same⟩
      | persisted id =>
          obtain ⟨-, r, hr, same, -⟩ := admits
          exact ⟨r, hr, same⟩
    have found : find e.source.hash (receipts.map Receipt.state) = some r.state := by
      rw [← same]
      exact find_eq_some nodup hr
    have known := put_known nodup hr (fun s => s.update e.act index) (source_update r e.act index)
    have sha : r.state.sourcePredictionSha256 = .str e.source.sha := by rw [← same]; rfl
    have prediction : e.json.get (txt "prediction") = .null := by
      rw [fields.prediction]
      split
      · contradiction
      · rfl
    simp only [applyEvent, eventPrediction, fields.hash, fields.sha, fields.event, prediction,
      fields.d1PredictionId, fields.reason, textOrEmpty_str, length, found, refuse, guardNot_false,
      Option.getD_some, sha, Json.pyEq_refl, Py.ok_bind, if_true, Bool.not_true, Bool.and_false,
      Py.pure_eq_ok, record, enqueued, if_false]
    rw [← same, ← known]
    congr 2
    obtain ⟨source, now, act⟩ := e
    cases act with
    | enqueued => exact absurd rfl enqueued
    | failed reason => rfl
    | persisted id => rfl

theorem applyEvents_append (index : Nat) (states : List State) (front back : List Json) :
    applyEvents index states (front ++ back) =
      (applyEvents index states front) >>= fun states => applyEvents (index + front.length) states back := by
  induction front generalizing index states with
  | nil => rfl
  | cons event front ih =>
      simp only [List.cons_append, applyEvents, List.length_cons]
      cases applyEvent index states event with
      | error raised => rfl
      | ok states =>
          simp only [Py.ok_bind, ih]
          rw [Nat.add_right_comm, Nat.add_assoc]

/-- `_states` makes of the rows just the receipts. -/
theorem applyEvents_json {events : List Event} {receipts : List Receipt}
    (recorded : Recorded events receipts) :
    applyEvents 1 [] (events.map Event.json) = .ok (receipts.map Receipt.state) := by
  induction recorded with
  | nil => rfl
  | @snoc events receipts e before admits coded ih =>
      rw [List.map_append, applyEvents_append, ih, Py.ok_bind, List.length_map, Nat.add_comm 1]
      simp only [List.map_cons, List.map_nil, applyEvents, applyEvent_json before.nodup admits, Py.ok_bind]

end Senex.Receipts
