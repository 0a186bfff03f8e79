import Senex.Receipts.Events

/-! # Calls on a file

What each call does to a file that holds recorded events, damaged end or not: it closes the end,
and it may record one more event (`recordsOf`, `Op.call_cases`).
-/

namespace Senex.Receipts

open Text

/-- The events and receipts of a file. -/
structure Holds (file : LogFile receiptFormat) (events : List Event) (receipts : List Receipt) : Prop where
  values : file.values = events.map Event.document
  recorded : Recorded events receipts

theorem lawful : receiptFormat.Lawful := TornTail.lawful_format (by decide) _

/-- The line of a row. -/
def Event.entry (e : Event) (line : Bytes) : Entry Json.Document := TornTail.entry e.document line

theorem Event.sound_entry {e : Event} {line : Bytes} (coded : e.json.bytes = some line) :
    (e.entry line).Sound receiptFormat :=
  TornTail.sound_entry e.isObject coded

theorem acceptRow_document (e : Event) (lineNo : Nat) (rows : List Json) :
    acceptRow lineNo rows e.document = .ok (rows ++ [e.json]) := by
  simp only [acceptRow, Event.document, Event.isObject, e.no_marker, e.fields.contract, refuse,
    Json.pyEq_refl, Bool.and_false, Bool.not_true, Bool.or_false, guardNot_false, Py.ok_bind,
    Py.pure_eq_ok]

theorem acceptAll_rows {segs : List (Segment Json.Document)} {events : List Event}
    (values : segs.flatMap Segment.values = events.map Event.document) (lineNo : Nat) (rows : List Json) :
    Segment.acceptAll acceptRow lineNo rows segs = .ok (rows ++ events.map Event.json) := by
  induction segs generalizing lineNo rows events with
  | nil =>
      have empty : events = [] := by simpa using values.symm
      rw [empty, List.map_nil, List.append_nil]
      rfl
  | cons seg segs ih =>
      cases seg with
      | record entry =>
          cases events with
          | nil => simp [Segment.values] at values
          | cons e events =>
              simp only [List.flatMap_cons, Segment.values, List.cons_append, List.nil_append,
                List.map_cons, List.cons.injEq] at values
              simp only [Segment.acceptAll, values.1, acceptRow_document, Except.bind, ih values.2]
              simp
      | repaired raw => exact ih (by simpa [Segment.values] using values) _ rows

section
variable {file : LogFile receiptFormat} {events : List Event} {receipts : List Receipt}

/-- The writes of reading a file: what closes its end. -/
def repairs (file : LogFile receiptFormat) : List Bytes :=
  if file.ending = .whole then [] else [file.recovery]

theorem flatten_repairs (file : LogFile receiptFormat) : (repairs file).flatten = file.recovery := by
  unfold repairs LogFile.ending LogFile.recovery
  cases file.tail <;> simp

theorem repairs_clean (clean : file.tail = .clean) : repairs file = [] := by
  simp [repairs, LogFile.ending, clean]

theorem repairs_append (file : LogFile receiptFormat) (e : Entry Json.Document)
    (sound : e.Sound receiptFormat) : repairs (file.append e sound) = [] :=
  repairs_clean rfl

theorem recovery_ending (file : LogFile receiptFormat) : recovery file.ending = file.recovery := by
  unfold recovery LogFile.ending LogFile.recovery
  cases file.tail <;> rfl

theorem readRows_data (values : file.values = events.map Event.document) :
    readRows file.data = (repairs file, .ok (events.map Event.json)) := by
  have all : file.repaired.segments.flatMap Segment.values = events.map Event.document := by
    rw [← values, ← file.values_repaired, LogFile.values, LogFile.tail_repaired, Tail.values,
      List.append_nil]
  have scanned := @LogFile.scan_data _ _ _ file lawful acceptRow []
  rw [acceptAll_rows all, Except.bind, List.nil_append] at scanned
  simp only [readRows, DiskCall.read, bind, DiskCall.lift, scanned, DiskCall.written, List.foldl_nil,
    List.nil_append]
  by_cases whole : file.ending = .whole
  · simp [whole, repairs, pure]
  · simp [whole, repairs, DiskCall.write, recovery_ending, pure]

theorem loadStates_data (holds : Holds file events receipts) :
    loadStates file.data = (repairs file, .ok (receipts.map Receipt.state)) := by
  have read := readRows_data holds.values
  rw [loadStates, DiskCall.bind_of_ok read]
  simp [DiskCall.lift, applyEvents_json holds.recorded]

theorem written_repairs (file : LogFile receiptFormat) :
    DiskCall.written file.data (repairs file) = file.repaired.data := by
  rw [written_bytes, flatten_repairs, LogFile.data_repaired]

theorem append_of_coded {row : Json} {line : Bytes} (coded : row.bytes = some line) (data : Bytes) :
    append row data = ([line ++ [10]], .ok ()) := by
  simp [append, coded, DiskCall.write]

theorem append_of_not_coded {row : Json} (uncoded : row.bytes = none) (data : Bytes) :
    append row data = ([], raise .unicodeEncodeError (txt "surrogates not allowed")) := by
  simp [append, uncoded, orRaise, raise, DiskCall.lift]

/-! ## `enqueue` -/

/-- The row that `enqueue` writes. -/
def enqueuedRow (packet prediction : Json) (payloadHash now : Text) : Json :=
  .ofMembers (eventMembers (txt "ENQUEUED") now (.str (textOrEmpty (packet.get (txt "packet_hash"))))
    (.str (textOrEmpty (packet.get (txt "packet_id")))) (.str payloadHash) ++
      [(txt "prediction", prediction)])

/-- A packet with an identity and a prediction that have a row. -/
structure Acceptable (packet prediction : Json) (now : Text) : Prop where
  packetObject : packet.isObject = true
  predictionObject : prediction.isObject = true
  length : (textOrEmpty (packet.get (txt "packet_hash"))).length = 64
  filled : textOrEmpty (packet.get (txt "packet_id")) ≠ []
  coded : ∃ payloadHash line, sha256Json prediction = .ok payloadHash ∧
    (enqueuedRow packet prediction payloadHash now).bytes = some line

/-- What `enqueue` can do to a file with these receipts. -/
inductive Enqueued (file : LogFile receiptFormat) (receipts : List Receipt) (index : Nat)
    (packet prediction : Json.Document) (now : Text) : List Bytes × Py State → Prop
  /-- It raises before it reads. -/
  | refused (raised : Raised) (bad : ¬Acceptable packet.1 prediction.1 now) :
      Enqueued file receipts index packet prediction now ([], .error raised)
  | known (r : Receipt) (member : r ∈ receipts)
      (hash : r.source.hash = textOrEmpty (packet.1.get (txt "packet_hash")))
      (sha : sha256Json prediction.1 = .ok r.source.sha)
      (payload : r.source.prediction.1.pyEq prediction.1 = true) :
      Enqueued file receipts index packet prediction now (repairs file, .ok r.state)
  /-- The receipt is known with another payload, or the row has no encoding. -/
  | raised (raised : Raised)
      (why : (∃ r ∈ receipts, r.source.hash = textOrEmpty (packet.1.get (txt "packet_hash"))) ∨
        ¬Acceptable packet.1 prediction.1 now) :
      Enqueued file receipts index packet prediction now (repairs file, .error raised)
  | recorded (source : Source) (line : Bytes)
      (hash : source.hash = textOrEmpty (packet.1.get (txt "packet_hash")))
      (payload : source.prediction = prediction)
      (absent : ∀ r ∈ receipts, r.source.hash ≠ source.hash)
      (coded : (Event.mk source now .enqueued).json.bytes = some line) :
      Enqueued file receipts index packet prediction now
        (repairs file ++ [line ++ [10]],
          .ok (Receipt.state ⟨source, .enqueued, none, none, index⟩))

/-- The file behind a recorded event. -/
theorem Holds.append (holds : Holds file events receipts) {e : Event} (admits : Admits receipts e)
    {line : Bytes} (coded : e.json.bytes = some line) :
    Holds (file.repaired.append (e.entry line) (Event.sound_entry coded)) (events ++ [e])
      (record (events.length + 1) receipts e) where
  values := by
    rw [LogFile.values_append file.tail_repaired, LogFile.values_repaired, holds.values, List.map_append]
    rfl
  recorded := .snoc e holds.recorded admits ⟨line, coded⟩

theorem Holds.repaired (holds : Holds file events receipts) : Holds file.repaired events receipts :=
  ⟨by rw [LogFile.values_repaired, holds.values], holds.recorded⟩

/-- The bytes behind a recorded event. -/
theorem written_append (file : LogFile receiptFormat) {e : Event} {line : Bytes}
    (coded : e.json.bytes = some line) :
    DiskCall.written file.data (repairs file ++ [line ++ [10]]) =
      (file.repaired.append (e.entry line) (Event.sound_entry coded)).data := by
  rw [LogFile.data_append file.tail_repaired, LogFile.data_repaired, written_bytes, List.flatten_append,
    flatten_repairs]
  simp [Event.entry, TornTail.entry]

private theorem refuse_lift {α : Type} {failed : Bool} (bad : failed = true) (message : Text)
    (next : StoreCall α) (data : Bytes) :
    ((DiskCall.lift (refuse failed message) : StoreCall Unit) >>= fun _ => next) data =
      ([], .error ⟨.predictionPersistenceError, message⟩) := by
  rw [bad]
  rfl

private theorem pass_lift {α : Type} {failed : Bool} (good : failed = false) (message : Text)
    (next : StoreCall α) :
    ((DiskCall.lift (refuse failed message) : StoreCall Unit) >>= fun _ => next) = next := by
  rw [good]
  rfl

private theorem absent_of_find (recorded : Recorded events receipts) {hash : Text}
    (found : find hash (receipts.map Receipt.state) = none) : ∀ r ∈ receipts, r.source.hash ≠ hash := by
  intro r hr same
  have known := find_eq_some recorded.nodup hr
  rw [same, found] at known
  cases known

/-- The append of a fresh receipt, and the state read back. -/
private theorem enqueue_fresh (holds : Holds file events receipts) {source : Source} {now : Text}
    (absent : ∀ r ∈ receipts, r.source.hash ≠ source.hash) {line : Bytes}
    (coded : (Event.mk source now .enqueued).json.bytes = some line) :
    (append (Event.mk source now .enqueued).json >>= fun _ => loadStates >>= fun states =>
      DiskCall.lift (orRaise (find source.hash states) .keyError source.hash) : StoreCall State)
        file.repaired.data =
      ([line ++ [10]], .ok (Receipt.state ⟨source, .enqueued, none, none, events.length + 1⟩)) := by
  have after := holds.append (e := ⟨source, now, .enqueued⟩) absent coded
  have data : DiskCall.written file.repaired.data [line ++ [10]] =
      (file.repaired.append ((Event.mk source now .enqueued).entry line) (Event.sound_entry coded)).data := by
    rw [← written_append file coded, ← written_repairs]
    simp [DiskCall.written]
  let fresh : Receipt := ⟨source, .enqueued, none, none, events.length + 1⟩
  have member : fresh ∈ record (events.length + 1) receipts ⟨source, now, .enqueued⟩ := by
    simp [record, fresh]
  have present := find_eq_some after.recorded.nodup member
  rw [DiskCall.bind_of_ok (append_of_coded coded _), data, DiskCall.bind_of_ok (loadStates_data after),
    repairs_append, show source.hash = fresh.source.hash from rfl, present]
  rfl

theorem enqueue_data (holds : Holds file events receipts) (packet prediction : Json.Document) (now : Text) :
    Enqueued file receipts (events.length + 1) packet prediction now
      (enqueue packet.1 prediction.1 now file.data) := by
  unfold enqueue
  by_cases objects : (!packet.1.isObject || !prediction.1.isObject) = true
  · rw [refuse_lift objects]
    apply Enqueued.refused
    intro acceptable
    simp [acceptable.packetObject, acceptable.predictionObject] at objects
  rw [pass_lift (by simpa using objects)]
  dsimp only
  generalize hash_eq : textOrEmpty (packet.1.get (txt "packet_hash")) = hash
  generalize id_eq : textOrEmpty (packet.1.get (txt "packet_id")) = id
  by_cases identity : (hash.length != 64 || id.isEmpty) = true
  · rw [refuse_lift identity]
    apply Enqueued.refused
    intro acceptable
    have length := acceptable.length
    have filled := acceptable.filled
    rw [hash_eq] at length
    rw [id_eq] at filled
    simp [length, filled] at identity
  rw [pass_lift (by simpa using identity)]
  cases digest : sha256Json prediction.1 with
  | error raised =>
      rw [DiskCall.lift_raised_bind]
      apply Enqueued.refused
      intro acceptable
      obtain ⟨sha, line, digested, -⟩ := acceptable.coded
      rw [digest] at digested
      cases digested
  | ok sha =>
      rw [DiskCall.lift_ok_bind, DiskCall.bind_of_ok (loadStates_data holds), written_repairs]
      cases found : find hash (receipts.map Receipt.state) with
      | some existing =>
          obtain ⟨r, hr, same, rfl⟩ := exists_of_find found
          have isKnown : ∃ r ∈ receipts, r.source.hash = textOrEmpty (packet.1.get (txt "packet_hash")) :=
            ⟨r, hr, by rw [hash_eq, same]⟩
          dsimp only
          by_cases other : (!r.state.sourcePredictionSha256.pyEq (.str sha)) = true
          · rw [refuse_lift other, List.append_nil]
            exact .raised _ (Or.inl isKnown)
          rw [pass_lift (by simpa using other)]
          by_cases payload : (r.state.prediction.any fun known => !known.pyEq prediction.1) = true
          · rw [refuse_lift payload, List.append_nil]
            exact .raised _ (Or.inl isKnown)
          rw [pass_lift (by simpa using payload), DiskCall.pure_apply, List.append_nil]
          have equal : r.source.sha = sha := by simpa [Receipt.state, Json.pyEq] using other
          exact .known r hr (by rw [hash_eq, same]) (by rw [digest, equal])
            (by simpa [Receipt.state] using payload)
      | none =>
          simp only [Bool.or_eq_true, bne_iff_ne, ne_eq, List.isEmpty_iff, not_or, Decidable.not_not,
            Bool.not_eq_true', Bool.not_eq_false] at identity objects
          let source : Source := ⟨hash, id, sha, prediction, identity.1, identity.2, objects.2, digest⟩
          let e : Event := ⟨source, now, .enqueued⟩
          have absent : ∀ r ∈ receipts, r.source.hash ≠ source.hash := absent_of_find holds.recorded found
          have row : Json.ofMembers (eventMembers (txt "ENQUEUED") now (.str hash) (.str id) (.str sha) ++
              [(txt "prediction", prediction.1)]) = e.json := rfl
          have admits : Admits receipts e := absent
          dsimp only
          rw [row]
          cases coded : e.json.bytes with
          | none =>
              rw [DiskCall.bind_of_error (append_of_not_coded coded _), List.append_nil]
              refine .raised _ (Or.inr ?_)
              intro acceptable
              obtain ⟨sha', line, digested, written⟩ := acceptable.coded
              rw [digest] at digested
              cases digested
              rw [enqueuedRow, hash_eq, id_eq, row, coded] at written
              cases written
          | some line =>
              rw [enqueue_fresh holds admits coded]
              exact .recorded source line hash_eq.symm rfl absent coded

/-! ## Marks -/

/-- What a mark can do to a file with these receipts: `act` is what it would record. -/
inductive Marked (file : LogFile receiptFormat) (receipts : List Receipt) (sourceHash now : Text)
    (act : Act) : List Bytes × Py Unit → Prop
  /-- It raises before it reads. -/
  | refused (raised : Raised) : Marked file receipts sourceHash now act ([], .error raised)
  | raised (raised : Raised) : Marked file receipts sourceHash now act (repairs file, .error raised)
  | settled (r : Receipt) (member : r ∈ receipts) (hash : r.source.hash = sourceHash)
      (persisted : r.persisted = true)
      (same : ∀ id, act = .persisted id → r.d1PredictionId = some id) :
      Marked file receipts sourceHash now act (repairs file, .ok ())
  | recorded (r : Receipt) (line : Bytes) (member : r ∈ receipts) (hash : r.source.hash = sourceHash)
      (admits : Admits receipts ⟨r.source, now, act⟩)
      (coded : (Event.mk r.source now act).json.bytes = some line) :
      Marked file receipts sourceHash now act (repairs file ++ [line ++ [10]], .ok ())

theorem isPersisted_state (r : Receipt) : isPersisted r.state = r.persisted := by
  obtain ⟨source, act, d1PredictionId, lastReason, index⟩ := r
  cases act <;> simp [isPersisted, Receipt.state, Receipt.persisted, Json.pyEq, Act.name]

theorem known_eq_ok {receipts : List Receipt} {sourceHash message : Text} {state : State} :
    known sourceHash (receipts.map Receipt.state) message = .ok state →
      ∃ r ∈ receipts, r.source.hash = sourceHash ∧ r.state = state := by
  intro named
  unfold known at named
  cases found : find sourceHash (receipts.map Receipt.state) with
  | none =>
      rw [found] at named
      cases named
  | some state' =>
      obtain ⟨r, hr, hash, rfl⟩ := exists_of_find found
      rw [found] at named
      simp only [Receipt.state, Option.isNone_some, refuse, guardNot_false, Py.ok_bind,
        Py.pure_eq_ok, Except.ok.injEq] at named
      exact ⟨r, hr, hash, named⟩

theorem markFailed_data (holds : Holds file events receipts) (sourceHash reason now : Text) :
    Marked file receipts sourceHash now (.failed (reason.take 240))
      (markFailed sourceHash reason now file.data) := by
  unfold markFailed
  rw [DiskCall.bind_of_ok (loadStates_data holds), written_repairs]
  cases named : known sourceHash (receipts.map Receipt.state) (txt "cannot fail unknown source packet") with
  | error raised =>
      rw [DiskCall.lift_raised_bind]
      simp only [DiskCall.lift, List.append_nil]
      exact .raised raised
  | ok state =>
      obtain ⟨r, hr, rfl, rfl⟩ := known_eq_ok named
      rw [DiskCall.lift_ok_bind, isPersisted_state]
      by_cases persisted : r.persisted = true
      · rw [if_pos persisted, DiskCall.pure_apply, List.append_nil]
        exact .settled r hr rfl persisted (by simp)
      · rw [if_neg persisted]
        have row : Json.ofMembers (eventMembers (txt "FAILED") now (.str r.source.hash) r.state.sourcePacketId
            r.state.sourcePredictionSha256 ++ [(txt "reason", .str (reason.take 240))]) =
              (Event.mk r.source now (.failed (reason.take 240))).json := rfl
        rw [row]
        cases coded : (Event.mk r.source now (.failed (reason.take 240))).json.bytes with
        | none =>
            rw [append_of_not_coded coded, List.append_nil]
            exact .raised _
        | some line =>
            rw [append_of_coded coded]
            exact .recorded r line hr rfl ⟨r, hr, rfl, by simpa using persisted⟩ coded

private theorem asInt_ofNat (n : Nat) : asInt (.ofNat n) = .ok (n : Int) := by
  obtain ⟨c, ds, shape, digit, -⟩ := ofNat_shape n
  have unsigned : RationalDecimal.sign (Text.ofNat n) = (false, Text.ofNat n) := by
    simp only [isDigit, Bool.and_eq_true, decide_eq_true_eq] at digit
    rw [shape, RationalDecimal.sign.eq_def]
    split <;> simp_all
  simp [asInt, Json.ofNat, unsigned]

theorem markPersisted_data (holds : Holds file events receipts) (sourceHash : Text)
    (d1PredictionId : Int) (now : Text) :
    Marked file receipts sourceHash now (.persisted d1PredictionId.toNat)
      (markPersisted sourceHash d1PredictionId now file.data) := by
  unfold markPersisted
  by_cases bad : decide (d1PredictionId ≤ 0) = true
  · rw [refuse_lift bad]
    exact .refused _
  rw [pass_lift (by simpa using bad), DiskCall.bind_of_ok (loadStates_data holds), written_repairs]
  have positive : 0 < d1PredictionId.toNat := by
    simp only [decide_eq_true_eq] at bad
    omega
  cases named : known sourceHash (receipts.map Receipt.state) (txt "cannot persist unknown source packet") with
  | error raised =>
      rw [DiskCall.lift_raised_bind]
      simp only [DiskCall.lift, List.append_nil]
      exact .raised raised
  | ok state =>
      obtain ⟨r, hr, rfl, rfl⟩ := known_eq_ok named
      rw [DiskCall.lift_ok_bind, isPersisted_state]
      by_cases persisted : r.persisted = true
      · rw [if_pos persisted]
        cases stored : asInt r.state.d1PredictionId with
        | error raised =>
            rw [DiskCall.lift_raised_bind]
            simp only [DiskCall.lift, List.append_nil]
            exact .raised raised
        | ok id =>
            rw [DiskCall.lift_ok_bind]
            by_cases other : (id != d1PredictionId) = true
            · simp only [DiskCall.lift, other, refuse, guardNot_true, List.append_nil]
              exact .raised _
            · have equal : id = d1PredictionId := by simpa using other
              simp only [DiskCall.lift, equal, bne_self_eq_false, refuse, guardNot_false, List.append_nil]
              apply Marked.settled r hr rfl persisted
              intro n act
              cases act
              cases known : r.d1PredictionId with
              | none =>
                  rw [Receipt.state, known] at stored
                  cases stored
              | some m =>
                  rw [Receipt.state, known] at stored
                  simp only [Option.elim_some, asInt_ofNat, Except.ok.injEq] at stored
                  rw [← equal, ← stored, Int.toNat_natCast]
      · rw [if_neg persisted]
        have row : Json.ofMembers (eventMembers (txt "PERSISTED") now (.str r.source.hash)
            r.state.sourcePacketId r.state.sourcePredictionSha256 ++
              [(txt "d1_prediction_id", .ofNat d1PredictionId.toNat)]) =
              (Event.mk r.source now (.persisted d1PredictionId.toNat)).json := rfl
        rw [row]
        cases coded : (Event.mk r.source now (.persisted d1PredictionId.toNat)).json.bytes with
        | none =>
            rw [append_of_not_coded coded, List.append_nil]
            exact .raised _
        | some line =>
            rw [append_of_coded coded]
            exact .recorded r line hr rfl ⟨positive, r, hr, rfl, by simpa using persisted⟩ coded

/-! ## Any call -/

/-- A call with its arguments; `load` is a reload of the states, as every query makes it. -/
inductive Op where
  | enqueue (packet prediction : Json.Document) (now : Text)
  | markFailed (sourceHash reason now : Text)
  | markPersisted (sourceHash : Text) (d1PredictionId : Int) (now : Text)
  | load

/-- The call, with the states it returns. -/
def Op.call : Op → StoreCall (List State)
  | .enqueue packet prediction now => do return [← Receipts.enqueue packet.1 prediction.1 now]
  | .markFailed sourceHash reason now => do
      Receipts.markFailed sourceHash reason now
      return []
  | .markPersisted sourceHash d1PredictionId now => do
      Receipts.markPersisted sourceHash d1PredictionId now
      return []
  | .load => loadStates

/-- A call records at most one event, behind the closed end of the file. -/
inductive Recording (file : LogFile receiptFormat) (receipts : List Receipt) :
    List Bytes × Py (List State) → Prop
  /-- It raises before it reads. -/
  | refused (raised : Raised) : Recording file receipts ([], .error raised)
  | read (result : Py (List State)) : Recording file receipts (repairs file, result)
  | recorded (e : Event) (line : Bytes) (admits : Admits receipts e) (coded : e.json.bytes = some line)
      (reply : List State) : Recording file receipts (repairs file ++ [line ++ [10]], .ok reply)

/-! ## Results -/

/-- A file that was never damaged, with these rows. -/
def intact (rows : List Json) : Bytes := rows.flatMap fun row => row.bytes.getD [] ++ [10]

theorem Recorded.exists_intact (recorded : Recorded events receipts) :
    ∃ whole : LogFile receiptFormat, Holds whole events receipts ∧ whole.tail = .clean ∧
      whole.data = intact (events.map Event.json) := by
  induction recorded with
  | nil => exact ⟨.empty, ⟨rfl, .nil⟩, rfl, rfl⟩
  | snoc e before admits coded ih =>
      obtain ⟨whole, holds, clean, data⟩ := ih
      obtain ⟨line, coded⟩ := coded
      refine ⟨_, holds.append admits coded, rfl, ?_⟩
      rw [LogFile.data_append whole.tail_repaired, LogFile.data_repaired,
        LogFile.recovery_of_clean clean, data]
      simp [intact, coded, Event.entry, TornTail.entry]

/-- The result does not depend on the file. -/
private def Fixed {α : Type} (call : StoreCall α) : Prop := ∀ data other, (call data).2 = (call other).2

private theorem fixed_lift {α : Type} (call : Py α) : Fixed (DiskCall.lift call : StoreCall α) :=
  fun _ _ => rfl

private theorem fixed_pure {α : Type} (a : α) : Fixed (pure a : StoreCall α) := fun _ _ => rfl

private theorem fixed_append (row : Json) : Fixed (append row) := by
  intro data other
  cases coded : row.bytes with
  | none => rw [append_of_not_coded coded, append_of_not_coded coded]
  | some line => rw [append_of_coded coded, append_of_coded coded]

/-- Equal results are continued alike. -/
private theorem result_bind {α β : Type} {call : StoreCall α} {next : α → StoreCall β} {data other : Bytes}
    (same : (call data).2 = (call other).2) (fixed : ∀ a, Fixed (next a)) :
    ((call >>= next) data).2 = ((call >>= next) other).2 := by
  cases first : call data with
  | mk writes result =>
      cases second : call other with
      | mk writes' result' =>
          rw [first, second] at same
          cases same
          cases result with
          | error raised => rw [DiskCall.bind_of_error first, DiskCall.bind_of_error second]
          | ok a =>
              rw [DiskCall.bind_of_ok first, DiskCall.bind_of_ok second]
              exact fixed a _ _

private theorem fixed_bind {α β : Type} {call : StoreCall α} {next : α → StoreCall β} (first : Fixed call)
    (fixed : ∀ a, Fixed (next a)) : Fixed (call >>= next) :=
  fun data other => result_bind (first data other) fixed

private theorem result_lift {α β : Type} {call : Py α} {next : α → StoreCall β} {data other : Bytes}
    (same : ∀ a, (next a data).2 = (next a other).2) :
    (((DiskCall.lift call : StoreCall α) >>= next) data).2 = ((DiskCall.lift call >>= next) other).2 := by
  cases call with
  | error raised => rfl
  | ok a => exact same a

variable {other : LogFile receiptFormat}

private theorem enqueue_congr (holds : Holds file events receipts) (holds' : Holds other events receipts)
    (packet prediction : Json.Document) (now : Text) :
    (Receipts.enqueue packet.1 prediction.1 now file.data).2 =
      (Receipts.enqueue packet.1 prediction.1 now other.data).2 := by
  unfold Receipts.enqueue
  by_cases objects : (!packet.1.isObject || !prediction.1.isObject) = true
  · rw [refuse_lift objects, refuse_lift objects]
  rw [pass_lift (by simpa using objects)]
  dsimp only
  generalize hash_eq : textOrEmpty (packet.1.get (txt "packet_hash")) = hash
  generalize id_eq : textOrEmpty (packet.1.get (txt "packet_id")) = id
  by_cases identity : (hash.length != 64 || id.isEmpty) = true
  · rw [refuse_lift identity, refuse_lift identity]
  rw [pass_lift (by simpa using identity)]
  cases digest : sha256Json prediction.1 with
  | error raised => rfl
  | ok sha =>
      rw [DiskCall.lift_ok_bind, DiskCall.bind_of_ok (loadStates_data holds),
        DiskCall.bind_of_ok (loadStates_data holds'), written_repairs, written_repairs]
      cases found : find hash (receipts.map Receipt.state) with
      | some existing =>
          apply fixed_bind (fixed_lift _)
          intro u
          apply fixed_bind (fixed_lift _)
          intro u
          exact fixed_pure _
      | none =>
          simp only [Bool.or_eq_true, bne_iff_ne, ne_eq, List.isEmpty_iff, not_or, Decidable.not_not,
            Bool.not_eq_true', Bool.not_eq_false] at identity objects
          let source : Source := ⟨hash, id, sha, prediction, identity.1, identity.2, objects.2, digest⟩
          have absent : ∀ r ∈ receipts, r.source.hash ≠ source.hash := absent_of_find holds.recorded found
          have row : Json.ofMembers (eventMembers (txt "ENQUEUED") now (.str hash) (.str id) (.str sha) ++
              [(txt "prediction", prediction.1)]) = (Event.mk source now .enqueued).json := rfl
          dsimp only
          rw [row]
          cases coded : (Event.mk source now .enqueued).json.bytes with
          | none =>
              rw [DiskCall.bind_of_error (append_of_not_coded coded _),
                DiskCall.bind_of_error (append_of_not_coded coded _)]
          | some line => rw [enqueue_fresh holds absent coded, enqueue_fresh holds' absent coded]

/-- Two files of the same events give every call the same result. -/
theorem Op.result_congr (holds : Holds file events receipts) (holds' : Holds other events receipts)
    (op : Op) : (op.call file.data).2 = (op.call other.data).2 := by
  have states : (loadStates file.data).2 = (loadStates other.data).2 := by
    rw [loadStates_data holds, loadStates_data holds']
  cases op with
  | enqueue packet prediction now =>
      exact result_bind (enqueue_congr holds holds' packet prediction now) fun _ => fixed_pure _
  | markFailed sourceHash reason now =>
      refine result_bind (result_bind states ?_) fun _ => fixed_pure _
      intro states
      apply fixed_bind (fixed_lift _)
      intro state
      split
      · exact fixed_pure _
      · exact fixed_append _
  | markPersisted sourceHash d1PredictionId now =>
      refine result_bind (result_lift fun _ => result_bind states ?_) fun _ => fixed_pure _
      intro states
      apply fixed_bind (fixed_lift _)
      intro state
      split
      · exact fixed_bind (fixed_lift _) fun _ => fixed_lift _
      · exact fixed_append _
  | load => exact states

private theorem call_marked {sourceHash now : Text} {act : Act} {call : StoreCall Unit}
    (marked : Marked file receipts sourceHash now act (call file.data)) :
    Recording file receipts ((do call; return [] : StoreCall (List State)) file.data) := by
  generalize outcome : call file.data = result at marked
  cases marked with
  | refused raised =>
      rw [DiskCall.bind_of_error outcome]
      exact .refused raised
  | raised raised =>
      rw [DiskCall.bind_of_error outcome]
      exact .read _
  | settled r member hash persisted same =>
      rw [DiskCall.bind_of_ok outcome, DiskCall.pure_apply, List.append_nil]
      exact .read _
  | recorded r line member hash admits coded =>
      rw [DiskCall.bind_of_ok outcome, DiskCall.pure_apply, List.append_nil]
      exact .recorded _ line admits coded []

theorem Op.call_data (holds : Holds file events receipts) (op : Op) :
    Recording file receipts (op.call file.data) := by
  cases op with
  | enqueue packet prediction now =>
      have enqueued := enqueue_data holds packet prediction now
      generalize outcome : Receipts.enqueue packet.1 prediction.1 now file.data = result at enqueued
      simp only [Op.call]
      cases enqueued with
      | refused raised bad =>
          rw [DiskCall.bind_of_error outcome]
          exact .refused raised
      | known r member hash sha payload =>
          rw [DiskCall.bind_of_ok outcome, DiskCall.pure_apply, List.append_nil]
          exact .read _
      | raised raised why =>
          rw [DiskCall.bind_of_error outcome]
          exact .read _
      | recorded source line hash payload absent coded =>
          rw [DiskCall.bind_of_ok outcome, DiskCall.pure_apply, List.append_nil]
          exact .recorded ⟨source, now, .enqueued⟩ line absent coded _
  | markFailed sourceHash reason now => exact call_marked (markFailed_data holds sourceHash reason now)
  | markPersisted sourceHash d1PredictionId now =>
      exact call_marked (markPersisted_data holds sourceHash d1PredictionId now)
  | load =>
      rw [Op.call, loadStates_data holds]
      exact .read _

end

end Senex.Receipts
