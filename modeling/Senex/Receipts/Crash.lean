import Senex.Foundation.Transition
import Senex.Receipts.Calls

/-! # Crashes of the receipt store

A crash cuts the write then in flight.  Every cut is survived but that of the marker which a
reader appends behind a torn line: what is left of such a write reads as nothing, and no later
reader takes it back.
-/

namespace Senex.Receipts

open Text

/-- A call, and the crash that cuts its write `k` behind `n` bytes, if one does. -/
structure Label where
  op : Op
  crash : Option (Nat × Nat)

def step (data : Bytes) (a : Label) : Bytes :=
  match a.crash with
  | none => a.op.call.after data
  | some (k, n) => a.op.call.interrupted data k n

/-- The writes that were completed. -/
def completed (data : Bytes) (a : Label) : List Bytes :=
  match a.crash with
  | none => (a.op.call data).1
  | some (k, n) => (a.op.call data).1.take k ++ (a.op.call data).1[k]?.toList.filter fun w => w.length ≤ n

/-- What the next call that reads the file appends to close its end. -/
def pendingRecovery (data : Bytes) : Bytes :=
  match receiptFormat.scan acceptRow [] data with
  | .ok scan => recovery scan.ending
  | .error _ => []

/-- No crash cuts the write that closes the end of the file. -/
def SparesRecovery (data : Bytes) (a : Label) : Prop :=
  ∀ n, a.crash = some (0, n) → n = 0 ∨ (pendingRecovery data).length ≤ n

/-- The rows of a file, as the store reads them. -/
def rows (data : Bytes) : Py (List Json) := (readRows data).2

section
variable {file : LogFile receiptFormat} {events : List Event} {receipts : List Receipt}

theorem pendingRecovery_data (holds : Holds file events receipts) :
    pendingRecovery file.data = file.recovery := by
  have scanned := @LogFile.scan_data _ _ _ file lawful acceptRow []
  have all : file.repaired.segments.flatMap Segment.values = events.map Event.document := by
    rw [← holds.values, ← file.values_repaired, LogFile.values, LogFile.tail_repaired, Tail.values,
      List.append_nil]
  rw [acceptAll_rows all, Except.bind] at scanned
  simp only [pendingRecovery, scanned, recovery_ending]

/-- What a label makes of a file: at most one event more, and that one if its row was completed. -/
structure Left (file : LogFile receiptFormat) (events : List Event) (receipts : List Receipt) (a : Label)
    (left : LogFile receiptFormat) (events' : List Event) (receipts' : List Receipt) : Prop where
  holds : Holds left events' receipts'
  data : left.data = step file.data a
  grown : events' = events ∧ receipts' = receipts ∨
    ∃ e, Admits receipts e ∧ events' = events ++ [e] ∧
      receipts' = record (events.length + 1) receipts e
  kept : ∀ row : Json.Document, row.1.isObject = true → ∀ line, row.1.bytes = some line →
    line ++ [10] ∈ completed file.data a → row.1 ∈ events'.map Event.json

theorem not_mem_repairs {row : Json} (object : row.isObject = true) {line : Bytes}
    (coded : row.bytes = some line) (file : LogFile receiptFormat) : line ++ [10] ∉ repairs file := by
  obtain ⟨tail, rfl⟩ := Json.head_bytes object coded
  intro member
  unfold repairs at member
  split at member
  · simp at member
  · have same := List.mem_singleton.mp member
    unfold LogFile.recovery at same
    split at same <;> simp at same

/-- What a label makes of the bytes. -/
theorem step_of_call {data : Bytes} {a : Label} {writes : List Bytes} {result : Py (List State)}
    (outcome : a.op.call data = (writes, result)) :
    step data a =
      match a.crash with
      | none => data ++ writes.flatten
      | some (k, n) =>
          match writes[k]? with
          | some w => data ++ (writes.take k).flatten ++ w.take n
          | none => data ++ writes.flatten := by
  unfold step
  cases a.crash with
  | none => simp only [DiskCall.after, outcome, written_bytes]
  | some cut =>
      obtain ⟨k, n⟩ := cut
      simp only [DiskCall.interrupted, DiskCall.after, outcome, written_bytes]
      cases writes[k]? <;> rfl

/-- A cut append leaves the events as they were, or one more. -/
theorem Holds.cut (holds : Holds file events receipts) (clean : file.tail = .clean) {e : Event}
    (admits : Admits receipts e) {line : Bytes} (coded : e.json.bytes = some line) (n : Nat) :
    ∃ left events' receipts', Holds left events' receipts' ∧
      left.data = file.data ++ (line ++ [10]).take n ∧
      (events' = events ∧ receipts' = receipts ∨
        events' = events ++ [e] ∧ receipts' = record (events.length + 1) receipts e) ∧
      (line.length < n → events' = events ++ [e]) := by
  obtain ⟨left, data, cases_⟩ := LogFile.exists_cut clean (Event.sound_entry coded) n
  have recorded : Recorded (events ++ [e]) (record (events.length + 1) receipts e) :=
    .snoc e holds.recorded admits ⟨line, coded⟩
  have values {vs : List Json.Document} (same : vs = file.values ++ [(e.entry line).value]) :
      vs = (events ++ [e]).map Event.document := by
    rw [same, holds.values, List.map_append]
    rfl
  rcases cases_ with ⟨short, same, -⟩ | ⟨exact_, same, -⟩ | ⟨long, same, -⟩
  · refine ⟨left, events, receipts, ⟨same.trans holds.values, holds.recorded⟩, data, Or.inl ⟨rfl, rfl⟩, ?_⟩
    intro long
    have : n < line.length := short
    omega
  · exact ⟨left, _, _, ⟨values same, recorded⟩, data, Or.inr ⟨rfl, rfl⟩, fun _ => rfl⟩
  · exact ⟨left, _, _, ⟨values same, recorded⟩, data, Or.inr ⟨rfl, rfl⟩, fun _ => rfl⟩

/-- Lines of one text are lines of one row. -/
theorem row_eq {row : Json.Document} {line : Bytes} (coded : row.1.bytes = some line) {e : Event}
    (coded' : e.json.bytes = some line) : row.1 = e.json := by
  have first := Json.parseLine_bytes coded
  rw [@Json.parseLine_bytes e.document line coded'] at first
  exact (congrArg Subtype.val (Option.some.inj first)).symm

theorem mem_of_completed {data w : Bytes} {a : Label} (member : w ∈ completed data a) :
    w ∈ (a.op.call data).1 := by
  unfold completed at member
  split at member
  · exact member
  · rename_i k n _
    rcases List.mem_append.mp member with h | h
    · exact List.mem_of_mem_take h
    · have found := (List.mem_filter.mp h).1
      rw [Option.mem_toList] at found
      exact List.mem_of_getElem? found

/-- A spared recovery is not written at all, or whole. -/
theorem cut_recovery (holds : Holds file events receipts) {a : Label} (spares : SparesRecovery file.data a)
    {n : Nat} (crash : a.crash = some (0, n)) :
    file.data ++ file.recovery.take n = file.data ∨
      file.data ++ file.recovery.take n = file.repaired.data := by
  have cut := spares n crash
  rw [pendingRecovery_data holds] at cut
  rcases cut with none_ | whole
  · left
    rw [none_, List.take_zero, List.append_nil]
  · right
    rw [List.take_of_length_le whole, LogFile.data_repaired]

private theorem left_read (holds : Holds file events receipts) {a : Label}
    (spares : SparesRecovery file.data a) {result : Py (List State)}
    (outcome : a.op.call file.data = (repairs file, result)) :
    ∃ left, Left file events receipts a left events receipts := by
  have quiet : ∀ row : Json.Document, row.1.isObject = true → ∀ line, row.1.bytes = some line →
      line ++ [10] ∈ completed file.data a → row.1 ∈ events.map Event.json := by
    intro row object line coded member
    have written := mem_of_completed member
    rw [outcome] at written
    exact absurd written (not_mem_repairs object coded file)
  have done (data : file.repaired.data = step file.data a) :
      ∃ left, Left file events receipts a left events receipts :=
    ⟨file.repaired, holds.repaired, data, Or.inl ⟨rfl, rfl⟩, quiet⟩
  have same (data : file.data = step file.data a) :
      ∃ left, Left file events receipts a left events receipts :=
    ⟨file, holds, data, Or.inl ⟨rfl, rfl⟩, quiet⟩
  have stepped := step_of_call outcome
  rw [flatten_repairs, ← LogFile.data_repaired] at stepped
  cases crash : a.crash with
  | none =>
      rw [crash] at stepped
      exact done stepped.symm
  | some cut =>
      obtain ⟨k, n⟩ := cut
      rw [crash] at stepped
      by_cases whole : file.ending = .whole
      · simp only [repairs, whole, if_true, List.getElem?_nil] at stepped
        exact done stepped.symm
      · simp only [repairs, whole, if_false] at stepped
        cases k with
        | zero =>
            simp only [List.getElem?_cons_zero, List.take_zero, List.flatten_nil, List.append_nil] at stepped
            rcases cut_recovery holds spares crash with h | h
            · exact same (by rw [stepped, h])
            · exact done (by rw [stepped, h])
        | succ k =>
            simp only [List.getElem?_cons_succ, List.getElem?_nil] at stepped
            exact done stepped.symm

private theorem left_recorded (holds : Holds file events receipts) {a : Label}
    (spares : SparesRecovery file.data a) {e : Event} (admits : Admits receipts e) {line : Bytes}
    (coded : e.json.bytes = some line) {reply : List State}
    (outcome : a.op.call file.data = (repairs file ++ [line ++ [10]], .ok reply)) :
    ∃ left events' receipts', Left file events receipts a left events' receipts' := by
  -- the only row among the writes is that of the event
  have only : ∀ row : Json.Document, row.1.isObject = true → ∀ l, row.1.bytes = some l →
      l ++ [10] ∈ completed file.data a → row.1 = e.json := by
    intro row object l coded' member
    have written := mem_of_completed member
    rw [outcome] at written
    rcases List.mem_append.mp written with h | h
    · exact absurd h (not_mem_repairs object coded' file)
    · have same : l = line := List.append_cancel_right (List.mem_singleton.mp h)
      exact row_eq coded' (same ▸ coded)
  have whole_ : Holds (file.repaired.append (e.entry line) (Event.sound_entry coded)) (events ++ [e])
      (record (events.length + 1) receipts e) := holds.append admits coded
  have done (data : (file.repaired.append (e.entry line) (Event.sound_entry coded)).data = step file.data a) :
      ∃ left events' receipts', Left file events receipts a left events' receipts' := by
    refine ⟨_, _, _, whole_, data, Or.inr ⟨e, admits, rfl, rfl⟩, ?_⟩
    intro row object l coded' member
    rw [only row object l coded' member]
    simp
  have cutAt {base : LogFile receiptFormat} (held : Holds base events receipts)
      (clean : base.tail = .clean) {n : Nat} (data : step file.data a = base.data ++ (line ++ [10]).take n)
      (full : line ++ [10] ∈ completed file.data a → line.length < n) :
      ∃ left events' receipts', Left file events receipts a left events' receipts' := by
    obtain ⟨left, events', receipts', after, same, grown, added⟩ := held.cut clean admits coded n
    refine ⟨left, events', receipts', after, by rw [same, data], ?_, ?_⟩
    · rcases grown with h | h
      · exact Or.inl h
      · exact Or.inr ⟨e, admits, h⟩
    · intro row object l coded' member
      have row_ := only row object l coded' member
      have equal : l = line := by
        rw [row_] at coded'
        exact Option.some.inj (coded'.symm.trans coded)
      rw [added (full (equal ▸ member)), row_]
      simp
  have stepped := step_of_call outcome
  have all : file.data ++ (repairs file ++ [line ++ [10]]).flatten =
      (file.repaired.append (e.entry line) (Event.sound_entry coded)).data := by
    rw [← written_append file coded, written_bytes]
  rw [all] at stepped
  cases crash : a.crash with
  | none =>
      rw [crash] at stepped
      exact done stepped.symm
  | some cut =>
      obtain ⟨k, n⟩ := cut
      rw [crash] at stepped
      by_cases whole : file.ending = .whole
      · have clean : file.tail = .clean := LogFile.clean_of_ending whole
        simp only [repairs, whole, if_true, List.nil_append] at stepped outcome
        cases k with
        | zero =>
            simp only [List.getElem?_cons_zero, List.take_zero, List.flatten_nil, List.append_nil] at stepped
            apply cutAt holds clean stepped
            intro member
            simp [completed, outcome, crash] at member
            omega
        | succ k =>
            simp only [List.getElem?_cons_succ, List.getElem?_nil] at stepped
            exact done stepped.symm
      · simp only [repairs, whole, if_false, List.cons_append, List.nil_append] at stepped outcome
        cases k with
        | zero =>
            simp only [List.getElem?_cons_zero, List.take_zero, List.flatten_nil, List.append_nil] at stepped
            have none_ : ∀ row : Json.Document, row.1.isObject = true → ∀ l, row.1.bytes = some l →
                l ++ [10] ∈ completed file.data a → row.1 ∈ events.map Event.json := by
              intro row object l coded' member
              have here := not_mem_repairs object coded' file
              simp only [completed, outcome, crash, List.take_zero, List.nil_append,
                List.getElem?_cons_zero, Option.toList_some] at member
              rw [repairs, if_neg whole] at here
              exact absurd (List.mem_of_mem_filter member) here
            rcases cut_recovery holds spares crash with h | h
            · exact ⟨file, events, receipts, holds, by rw [stepped, h], Or.inl ⟨rfl, rfl⟩, none_⟩
            · exact ⟨file.repaired, events, receipts, holds.repaired, by rw [stepped, h],
                Or.inl ⟨rfl, rfl⟩, none_⟩
        | succ k =>
            cases k with
            | zero =>
                simp only [List.getElem?_cons_succ, List.getElem?_cons_zero, List.take_succ_cons,
                  List.take_zero, List.flatten_cons, List.flatten_nil, List.append_nil,
                  ← LogFile.data_repaired] at stepped
                apply cutAt holds.repaired file.tail_repaired stepped
                intro member
                have here := not_mem_repairs e.isObject coded file
                rw [repairs, if_neg whole, List.mem_singleton] at here
                simp [completed, outcome, crash, here] at member
                omega
            | succ k =>
                simp only [List.getElem?_cons_succ, List.getElem?_nil] at stepped
                exact done stepped.symm

theorem exists_left (holds : Holds file events receipts) {a : Label} (spares : SparesRecovery file.data a) :
    ∃ left events' receipts', Left file events receipts a left events' receipts' := by
  have recording := a.op.call_data holds
  generalize outcome : a.op.call file.data = result at recording
  cases recording with
  | refused raised =>
      refine ⟨file, events, receipts, holds, ?_, Or.inl ⟨rfl, rfl⟩, ?_⟩
      · rw [step_of_call outcome]
        cases a.crash <;> simp
      · intro row object line coded member
        have written := mem_of_completed member
        rw [outcome] at written
        cases written
  | read result =>
      obtain ⟨left, here⟩ := left_read holds spares outcome
      exact ⟨left, events, receipts, here⟩
  | recorded e line admits coded reply => exact left_recorded holds spares admits coded outcome

end

/-! ## Runs -/

/-- A file that the store can have left, with its events. -/
def Reached (data : Bytes) (events : List Event) (receipts : List Receipt) : Prop :=
  ∃ file : LogFile receiptFormat, file.data = data ∧ Holds file events receipts

theorem reached_empty : Reached [] [] [] := ⟨.empty, rfl, rfl, .nil⟩

theorem Reached.rows {data : Bytes} {events : List Event} {receipts : List Receipt}
    (reached : Reached data events receipts) : rows data = .ok (events.map Event.json) := by
  obtain ⟨file, rfl, holds⟩ := reached
  rw [Receipts.rows, readRows_data holds.values]

theorem Reached.states {data : Bytes} {events : List Event} {receipts : List Receipt}
    (reached : Reached data events receipts) :
    (loadStates data).2 = .ok (receipts.map Receipt.state) := by
  obtain ⟨file, rfl, holds⟩ := reached
  rw [loadStates_data holds]

/-- What a run adds to a file that the store left: events behind those that were there. -/
structure Later (events events' : List Event) (receipts receipts' : List Receipt) : Prop where
  grown : events <+: events'
  kept : ∀ r ∈ receipts, ∃ s ∈ receipts', Keeps r s

theorem later_step {data : Bytes} {events : List Event} {receipts : List Receipt}
    (reached : Reached data events receipts) {a : Label} (spares : SparesRecovery data a) :
    ∃ events' receipts', Reached (step data a) events' receipts' ∧ Later events events' receipts receipts' ∧
      ∀ row : Json.Document, row.1.isObject = true → ∀ line, row.1.bytes = some line →
        line ++ [10] ∈ completed data a → row.1 ∈ events'.map Event.json := by
  obtain ⟨file, rfl, holds⟩ := reached
  obtain ⟨left, events', receipts', here⟩ := exists_left holds spares
  refine ⟨events', receipts', ⟨left, here.data, here.holds⟩, ?_, here.kept⟩
  rcases here.grown with ⟨rfl, rfl⟩ | ⟨e, admits, rfl, rfl⟩
  · exact ⟨List.prefix_rfl, fun r hr => ⟨r, hr, keeps_refl r⟩⟩
  · exact ⟨List.prefix_append events [e], fun r hr => exists_kept holds.recorded.nodup admits _ hr⟩

theorem later_run {data : Bytes} {events : List Event} {receipts : List Receipt}
    (reached : Reached data events receipts) {labels : List Label}
    (allowed : Allowed step SparesRecovery data labels) :
    ∃ events' receipts', Reached (run step data labels) events' receipts' ∧
      Later events events' receipts receipts' := by
  induction labels generalizing data events receipts with
  | nil => exact ⟨events, receipts, reached, List.prefix_rfl, fun r hr => ⟨r, hr, keeps_refl r⟩⟩
  | cons a labels ih =>
      obtain ⟨between, receipts₁, first, later₁, -⟩ := later_step reached allowed.1
      obtain ⟨events', receipts', last, later₂⟩ := ih first allowed.2
      refine ⟨events', receipts', last, later₁.grown.trans later₂.grown, ?_⟩
      intro r hr
      obtain ⟨s, hs, keeps₁⟩ := later₁.kept r hr
      obtain ⟨t, ht, keeps₂⟩ := later₂.kept s hs
      exact ⟨t, ht, keeps_trans keeps₁ keeps₂⟩

/-- Every file that a spared run leaves is one that the store can have left. -/
theorem exists_reached {labels : List Label} (allowed : Allowed step SparesRecovery [] labels) :
    ∃ events receipts, Reached (run step [] labels) events receipts := by
  obtain ⟨events, receipts, reached, -⟩ := later_run reached_empty allowed
  exact ⟨events, receipts, reached⟩

/-- The state keeps the receipt's payload, and all of the receipt once it is persisted. -/
def Survives (old later : State) : Prop :=
  later.sourcePacketHash = old.sourcePacketHash ∧ later.sourcePacketId = old.sourcePacketId ∧
    later.sourcePredictionSha256 = old.sourcePredictionSha256 ∧ later.prediction = old.prediction ∧
    (isPersisted old = true → later = old)

theorem survives_of_keeps {r s : Receipt} (keeps : Keeps r s) : Survives r.state s.state := by
  refine ⟨?_, ?_, ?_, ?_, ?_⟩
  · simp [Receipt.state, keeps.1]
  · simp [Receipt.state, keeps.1]
  · simp [Receipt.state, keeps.1]
  · simp [Receipt.state, keeps.1]
  · intro persisted
    rw [isPersisted_state] at persisted
    rw [keeps.2 persisted]

/-- What crashes leave of a store: it loads; the rows of every earlier moment are still there, in
    order, and those of every completed append with them; every receipt state survives; a packet
    it does not know is accepted; and every call returns what it returns on a file with the same
    rows that no crash ever touched. -/
structure CrashSafe (labels : List Label) : Prop where
  loads : ∃ states, (loadStates (run step [] labels)).2 = .ok states
  grows : ∀ first rest, labels = first ++ rest → ∃ old more,
    rows (run step [] first) = .ok old ∧ rows (run step [] labels) = .ok (old ++ more)
  completed : ∀ first a rest, labels = first ++ a :: rest →
    ∀ row : Json.Document, row.1.isObject = true → ∀ line, row.1.bytes = some line →
      line ++ [10] ∈ completed (run step [] first) a →
        ∃ all, rows (run step [] labels) = .ok all ∧ row.1 ∈ all
  survives : ∀ first rest, labels = first ++ rest → ∀ old later,
    (loadStates (run step [] first)).2 = .ok old → (loadStates (run step [] labels)).2 = .ok later →
      ∀ state ∈ old, ∃ state' ∈ later, Survives state state'
  accepts : ∀ states, (loadStates (run step [] labels)).2 = .ok states →
    ∀ packet prediction : Json.Document, ∀ now, Acceptable packet.1 prediction.1 now →
      find (textOrEmpty (packet.1.get (txt "packet_hash"))) states = none →
        ∃ state, (enqueue packet.1 prediction.1 now (run step [] labels)).2 = .ok state
  undamaged : ∀ all, rows (run step [] labels) = .ok all →
    ∀ op : Op, (op.call (run step [] labels)).2 = (op.call (intact all)).2

/-- The store survives every run in which no crash cuts the marker of a torn line. -/
theorem crashSafe_of_spared {labels : List Label} (allowed : Allowed step SparesRecovery [] labels) :
    CrashSafe labels := by
  obtain ⟨events, receipts, reached⟩ := exists_reached allowed
  -- a moment of the run, and the end as seen from there
  have since (first rest : List Label) (split : labels = first ++ rest) :
      ∃ before receipts₀, Reached (run step [] first) before receipts₀ ∧ ∃ after receipts₁,
        Reached (run step [] labels) after receipts₁ ∧ Later before after receipts₀ receipts₁ := by
    rw [split, allowed_append] at allowed
    obtain ⟨before, receipts₀, here⟩ := exists_reached allowed.1
    obtain ⟨after, receipts₁, there, later⟩ := later_run here allowed.2
    refine ⟨before, receipts₀, here, after, receipts₁, ?_, later⟩
    rw [split, run_append]
    exact there
  constructor
  · exact ⟨_, reached.states⟩
  · intro first rest split
    obtain ⟨before, receipts₀, here, after, receipts₁, there, later⟩ := since first rest split
    obtain ⟨more, rfl⟩ := later.grown
    refine ⟨before.map Event.json, more.map Event.json, here.rows, ?_⟩
    rw [there.rows, List.map_append]
  · intro first a rest split row object line coded member
    rw [split, allowed_append] at allowed
    obtain ⟨before, receipts₀, here⟩ := exists_reached allowed.1
    obtain ⟨between, receipts₁, there, -, kept⟩ := later_step here allowed.2.1
    obtain ⟨after, receipts₂, last, later⟩ := later_run there allowed.2.2
    refine ⟨after.map Event.json, ?_, ?_⟩
    · rw [split, run_append]
      exact last.rows
    · obtain ⟨more, rfl⟩ := later.grown
      rw [List.map_append]
      exact List.mem_append_left _ (kept row object line coded member)
  · intro first rest split old later loaded loaded' state member
    obtain ⟨before, receipts₀, here, after, receipts₁, there, grown⟩ := since first rest split
    rw [here.states] at loaded
    rw [there.states] at loaded'
    cases loaded
    cases loaded'
    obtain ⟨r, hr, rfl⟩ := List.mem_map.mp member
    obtain ⟨s, hs, keeps⟩ := grown.kept r hr
    exact ⟨s.state, List.mem_map.mpr ⟨s, hs, rfl⟩, survives_of_keeps keeps⟩
  · intro states loaded packet prediction now acceptable unknown
    rw [reached.states] at loaded
    cases loaded
    obtain ⟨file, data, holds⟩ := reached
    have enqueued := enqueue_data holds packet prediction now
    rw [data] at enqueued
    generalize enqueue packet.1 prediction.1 now (run step [] labels) = result at enqueued
    cases enqueued with
    | refused raised bad => exact absurd acceptable bad
    | known r member hash sha payload => exact ⟨_, rfl⟩
    | raised raised why =>
        rcases why with ⟨r, hr, hash⟩ | bad
        · rw [← hash, find_eq_some holds.recorded.nodup hr] at unknown
          cases unknown
        · exact absurd acceptable bad
    | recorded source line hash payload absent coded => exact ⟨_, rfl⟩
  · intro all loaded op
    rw [reached.rows] at loaded
    cases loaded
    obtain ⟨file, data, holds⟩ := reached
    obtain ⟨whole, holds', -, data'⟩ := holds.recorded.exists_intact
    rw [← data, ← data']
    exact Op.result_congr holds holds' op

/-! ## One run that loses the store, and one that keeps it -/

/-- A packet and a prediction. -/
def samplePacket : Json.Document :=
  ⟨.ofMembers [(txt "packet_hash", .str (List.replicate 64 97)), (txt "packet_id", .str (txt "gpt0-a"))],
    Json.wellFormed_ofMembers (by simp)⟩

def samplePrediction : Json.Document :=
  ⟨.ofMembers [(txt "symbol", .str (txt "ETH/USDT"))], Json.wellFormed_ofMembers (by simp)⟩

def sampleEnqueue : Op := .enqueue samplePacket samplePrediction (txt "2026-01-01T00:00:00Z")

/-- A crash leaves five bytes of a row; the next call starts to mark them, and a second crash leaves
    the newline in front of its marker. -/
def lostRun : List Label := [⟨sampleEnqueue, some (0, 5)⟩, ⟨.load, some (0, 1)⟩]

theorem not_crashSafe_lostRun : ¬CrashSafe lostRun := by
  intro safe
  have raises : (loadStates (run step [] lostRun)).2.isOk = false := by decide +kernel
  obtain ⟨states, loaded⟩ := safe.loads
  rw [loaded] at raises
  cases raises

theorem crashSafe_torn_row : CrashSafe [⟨sampleEnqueue, some (0, 5)⟩, ⟨.load, some (0, 0)⟩,
    ⟨sampleEnqueue, none⟩, ⟨.markPersisted (List.replicate 64 97) 7 (txt "2026-01-01T00:00:01Z"), some (0, 3)⟩] := by
  apply crashSafe_of_spared
  refine ⟨?_, ?_, ?_, ?_, trivial⟩
  · intro n crash
    cases crash
    exact Or.inr (by decide +kernel)
  · intro n crash
    cases crash
    exact Or.inl rfl
  · intro n crash
    cases crash
  · intro n crash
    cases crash
    exact Or.inr (by decide +kernel)

end Senex.Receipts
