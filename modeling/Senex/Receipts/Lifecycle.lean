import Mathlib.Data.List.Lex
import Mathlib.Data.Prod.Lex
import Senex.Receipts.Crash

/-! # The life of a receipt

Runs of calls without crashes: what a receipt keeps, what the totals count, and how soon
`pending` comes to each receipt when every returned receipt is marked as failed.
-/

namespace Senex.Receipts

open Text

/-- The file behind a run of calls. -/
def behind (ops : List Op) : Bytes := run (fun data op => op.call.after data) [] ops

/-! ## Calls without crashes -/

private theorem spares_of_none (data : Bytes) (op : Op) : SparesRecovery data ⟨op, none⟩ := by
  intro n crash
  cases crash

theorem later_calls {data : Bytes} {events : List Event} {receipts : List Receipt}
    (reached : Reached data events receipts) (ops : List Op) :
    ∃ events' receipts', Reached (run (fun data op => op.call.after data) data ops) events' receipts' ∧
      Later events events' receipts receipts' := by
  have allowed : Allowed step SparesRecovery data (ops.map fun op => ⟨op, none⟩) := by
    induction ops generalizing data events receipts with
    | nil => trivial
    | cons op ops ih =>
        obtain ⟨events', receipts', here, -⟩ := later_step reached (spares_of_none data op)
        exact ⟨spares_of_none data op, ih here⟩
  have later := later_run reached allowed
  have same : run step data (ops.map fun op => (⟨op, none⟩ : Label)) =
      run (fun data op => op.call.after data) data ops := by
    rw [run, run, List.foldl_map]
    rfl
  rwa [same] at later

/-- A file behind a call on it. -/
theorem after_of_call {α : Type} {call : StoreCall α} {data : Bytes} {writes : List Bytes} {result : Py α}
    (outcome : call data = (writes, result)) : call.after data = data ++ writes.flatten := by
  rw [DiskCall.after, outcome, written_bytes]

section
variable {data : Bytes} {events : List Event} {receipts : List Receipt}

theorem reached_repaired {file : LogFile receiptFormat} (holds : Holds file events receipts) :
    Reached (file.data ++ (repairs file).flatten) events receipts :=
  ⟨file.repaired, by rw [flatten_repairs, LogFile.data_repaired], holds.repaired⟩

theorem reached_append {file : LogFile receiptFormat} (holds : Holds file events receipts) {e : Event}
    (admits : Admits receipts e) {line : Bytes} (coded : e.json.bytes = some line) :
    Reached (file.data ++ (repairs file ++ [line ++ [10]]).flatten) (events ++ [e])
      (record (events.length + 1) receipts e) :=
  ⟨_, by rw [← written_append file coded, written_bytes], holds.append admits coded⟩

/-- What an `enqueue` leaves: the hash of its packet is known if it returned, and nothing else is new. -/
theorem reached_enqueue (reached : Reached data events receipts) (packet prediction : Json.Document)
    (now : Text) :
    ∃ events' receipts',
      Reached ((enqueue packet.1 prediction.1 now).after data) events' receipts' ∧
        ∀ hash, hash ∈ hashes receipts' ↔ hash ∈ hashes receipts ∨
          (enqueue packet.1 prediction.1 now data).2.isOk = true ∧
            hash = textOrEmpty (packet.1.get (txt "packet_hash")) := by
  obtain ⟨file, rfl, holds⟩ := reached
  have enqueued := enqueue_data holds packet prediction now
  generalize outcome : enqueue packet.1 prediction.1 now file.data = result at enqueued
  cases enqueued with
  | refused raised bad =>
      refine ⟨events, receipts, ⟨file, by simp [after_of_call outcome], holds⟩, ?_⟩
      simp [Except.isOk, Except.toBool]
  | known r member hash sha payload =>
      refine ⟨events, receipts, by rw [after_of_call outcome]; exact reached_repaired holds, ?_⟩
      intro h
      constructor
      · exact Or.inl
      · rintro (known | ⟨-, rfl⟩)
        · exact known
        · exact List.mem_map.mpr ⟨r, member, hash⟩
  | raised raised why =>
      refine ⟨events, receipts, by rw [after_of_call outcome]; exact reached_repaired holds, ?_⟩
      simp [Except.isOk, Except.toBool]
  | recorded source line hash payload absent coded =>
      have after := reached_append holds (e := ⟨source, now, .enqueued⟩) absent coded
      refine ⟨_, _, by rw [after_of_call outcome]; exact after, ?_⟩
      intro h
      rw [hashes_record_enqueued rfl, List.mem_append, List.mem_singleton, hash]
      simp [Except.isOk, Except.toBool]

theorem reached_mark {sourceHash now : Text} {act : Act} {call : StoreCall Unit} {file : LogFile receiptFormat}
    (holds : Holds file events receipts) (marks : act ≠ .enqueued)
    (marked : Marked file receipts sourceHash now act (call file.data)) :
    ∃ events' receipts', Reached (call.after file.data) events' receipts' ∧
      hashes receipts' = hashes receipts := by
  generalize outcome : call file.data = result at marked
  cases marked with
  | refused raised =>
      exact ⟨events, receipts, ⟨file, by simp [after_of_call outcome], holds⟩, rfl⟩
  | raised raised =>
      exact ⟨events, receipts, by rw [after_of_call outcome]; exact reached_repaired holds, rfl⟩
  | settled r member hash persisted same =>
      exact ⟨events, receipts, by rw [after_of_call outcome]; exact reached_repaired holds, rfl⟩
  | recorded r line member hash admits coded =>
      exact ⟨_, _, by rw [after_of_call outcome]; exact reached_append holds admits coded,
        hashes_record marks _ _⟩

end

/-! ## Totals -/

/-- The packet hashes of the enqueues of a run that returned. -/
def enqueuedHashes (data : Bytes) : List Op → List Text
  | [] => []
  | op :: ops =>
      (match op with
        | .enqueue packet prediction now =>
            if (enqueue packet.1 prediction.1 now data).2.isOk then
              [textOrEmpty (packet.1.get (txt "packet_hash"))]
            else []
        | _ => []) ++ enqueuedHashes (op.call.after data) ops

/-- The writes of an operation are those of its call. -/
private theorem after_bind_pure {α : Type} (call : StoreCall α) (f : α → List State) (data : Bytes) :
    (call >>= fun a => pure (f a) : StoreCall (List State)).after data = call.after data := by
  cases outcome : call data with
  | mk writes result =>
      cases result with
      | error raised => simp only [DiskCall.after, DiskCall.bind_of_error outcome, outcome]
      | ok a =>
          simp only [DiskCall.after, DiskCall.bind_of_ok outcome, outcome, DiskCall.pure_apply,
            List.append_nil]

theorem mem_hashes_run {data : Bytes} {events : List Event} {receipts : List Receipt}
    (reached : Reached data events receipts) (ops : List Op) :
    ∃ events' receipts', Reached (run (fun data op => op.call.after data) data ops) events' receipts' ∧
      ∀ hash, hash ∈ hashes receipts' ↔ hash ∈ hashes receipts ∨ hash ∈ enqueuedHashes data ops := by
  induction ops generalizing data events receipts with
  | nil => exact ⟨events, receipts, reached, by simp [enqueuedHashes]⟩
  | cons op ops ih =>
      have mark {call : StoreCall Unit} {sourceHash now : Text} {act : Act} (marks : act ≠ .enqueued)
          (marked : ∀ file : LogFile receiptFormat, Holds file events receipts →
            Marked file receipts sourceHash now act (call file.data)) :
          ∃ events₁ receipts₁, Reached (call.after data) events₁ receipts₁ ∧
            hashes receipts₁ = hashes receipts := by
        obtain ⟨file, rfl, holds⟩ := reached
        exact reached_mark holds marks (marked file holds)
      have first : ∃ events₁ receipts₁, Reached (op.call.after data) events₁ receipts₁ ∧
          ∀ hash, hash ∈ hashes receipts₁ ↔ hash ∈ hashes receipts ∨ hash ∈ enqueuedHashes data [op] := by
        cases op with
        | enqueue packet prediction now =>
            obtain ⟨events₁, receipts₁, here, known⟩ := reached_enqueue reached packet prediction now
            refine ⟨events₁, receipts₁, ?_, ?_⟩
            · rw [Op.call, after_bind_pure]
              exact here
            · intro hash
              rw [known]
              simp only [enqueuedHashes, List.append_nil]
              split <;> simp_all
        | markFailed sourceHash reason now =>
            obtain ⟨events₁, receipts₁, here, same⟩ := mark (by simp)
              fun file holds => markFailed_data holds sourceHash reason now
            refine ⟨events₁, receipts₁, ?_, by simp [same, enqueuedHashes]⟩
            rw [Op.call, after_bind_pure]
            exact here
        | markPersisted sourceHash d1PredictionId now =>
            obtain ⟨events₁, receipts₁, here, same⟩ := mark (by simp)
              fun file holds => markPersisted_data holds sourceHash d1PredictionId now
            refine ⟨events₁, receipts₁, ?_, by simp [same, enqueuedHashes]⟩
            rw [Op.call, after_bind_pure]
            exact here
        | load =>
            obtain ⟨file, rfl, holds⟩ := reached
            refine ⟨events, receipts, ?_, by simp [enqueuedHashes]⟩
            rw [Op.call, after_of_call (loadStates_data holds)]
            exact reached_repaired holds
      obtain ⟨events₁, receipts₁, here, known⟩ := first
      obtain ⟨events', receipts', last, all⟩ := ih here
      refine ⟨events', receipts', last, ?_⟩
      intro hash
      rw [all, known]
      simp only [enqueuedHashes, List.append_nil, List.mem_append, or_assoc]

/-- The states of a store that made no crash, and how many of them there are. -/
theorem length_states {ops : List Op} {events : List Event} {receipts : List Receipt}
    (reached : Reached (behind ops) events receipts) :
    receipts.length = (enqueuedHashes [] ops).dedup.length := by
  obtain ⟨events', receipts', reached', known⟩ := mem_hashes_run reached_empty ops
  have same : receipts'.map Receipt.state = receipts.map Receipt.state := by
    have first := reached'.states
    have second := reached.states
    rw [behind] at second
    rw [first] at second
    exact Except.ok.inj second
  have nodup : (hashes receipts').Nodup := by
    obtain ⟨file, -, holds⟩ := reached'
    exact holds.recorded.nodup
  have length : receipts.length = (hashes receipts').length := by
    have := congrArg List.length same
    simpa [hashes] using this.symm
  have perm : (hashes receipts').Perm (enqueuedHashes [] ops).dedup := by
    rw [List.perm_ext_iff_of_nodup nodup (List.nodup_dedup _)]
    intro hash
    rw [known, List.mem_dedup]
    simp [hashes]
  rw [length, perm.length_eq]

/-! ## The queue of pending receipts -/

/-- The receipts that are not persisted, in the order of `pending`. -/
def queue (receipts : List Receipt) : List Receipt :=
  (receipts.filter fun r => !r.persisted).mergeSort fun a b => keyLe (pendingKey a.state) (pendingKey b.state)

private theorem keyLe_iff (a b : Nat × Text × Text) :
    keyLe a b = true ↔
      (toLex (a.1, toLex a.2) : ℕ ×ₗ (List ℕ ×ₗ List ℕ)) ≤ toLex (b.1, toLex b.2) := by
  obtain ⟨n, s, t⟩ := a
  obtain ⟨m, u, v⟩ := b
  simp [keyLe, Prod.Lex.le_iff]

theorem isPending_state (r : Receipt) : isPending r.state = !r.persisted := by
  rw [isPending, isPersisted_state]
  simp [Receipt.state]

theorem pendingOf_state (receipts : List Receipt) :
    pendingOf (receipts.map Receipt.state) = (queue receipts).map Receipt.state := by
  have same : (receipts.map Receipt.state).filter isPending =
      (receipts.filter fun r => !r.persisted).map Receipt.state := by
    rw [List.filter_map]
    congr 1
    apply List.filter_congr
    intro r _
    exact isPending_state r
  rw [pendingOf, same, queue]
  symm
  apply List.map_mergeSort
  intro a _ b _
  rfl

theorem perm_queue (receipts : List Receipt) : (queue receipts).Perm (receipts.filter fun r => !r.persisted) :=
  List.mergeSort_perm _ _

theorem mem_queue {receipts : List Receipt} {r : Receipt} :
    r ∈ queue receipts ↔ r ∈ receipts ∧ r.persisted = false := by
  rw [(perm_queue receipts).mem_iff, List.mem_filter, Bool.not_eq_true']

/-- The queue is ordered by the last event. -/
theorem pairwise_queue (receipts : List Receipt) :
    (queue receipts).Pairwise fun a b => a.lastEventIndex ≤ b.lastEventIndex := by
  have sorted := @List.pairwise_mergeSort Receipt
    (fun a b => keyLe (pendingKey a.state) (pendingKey b.state))
    (fun a b c hab hbc => (keyLe_iff _ _).mpr (le_trans ((keyLe_iff _ _).mp hab) ((keyLe_iff _ _).mp hbc)))
    (fun a b => by
      rw [Bool.or_eq_true, keyLe_iff, keyLe_iff]
      exact le_total _ _)
    (receipts.filter fun r => !r.persisted)
  apply sorted.imp
  intro a b le
  rw [keyLe_iff, Prod.Lex.le_iff] at le
  rcases le with h | h
  · exact Nat.le_of_lt h
  · exact Nat.le_of_eq h.1

/-- Behind the first `k` of an ordered list there are `k` fewer of the elements up to a bound. -/
theorem countP_drop_le {α : Type} (f : α → Nat) (bound : Nat) {items : List α}
    (sorted : items.Pairwise fun a b => f a ≤ f b) (k : Nat) :
    (items.drop k).countP (fun a => decide (f a ≤ bound)) ≤
      items.countP (fun a => decide (f a ≤ bound)) - k := by
  induction items generalizing k with
  | nil => simp
  | cons a items ih =>
      obtain ⟨least, rest⟩ := List.pairwise_cons.mp sorted
      cases k with
      | zero => simp
      | succ k =>
          have later := ih rest k
          by_cases early : f a ≤ bound
          · rw [List.drop_succ_cons, List.countP_cons_of_pos (by simpa using early)]
            omega
          · have none_ : (items.drop k).countP (fun a => decide (f a ≤ bound)) = 0 := by
              rw [List.countP_eq_zero]
              intro b hb
              have := least b (List.mem_of_mem_drop hb)
              simp only [decide_eq_true_eq]
              omega
            rw [List.drop_succ_cons, none_]
            exact Nat.zero_le _

theorem Recorded.lastEventIndex_le {events : List Event} {receipts : List Receipt}
    (recorded : Recorded events receipts) : ∀ r ∈ receipts, r.lastEventIndex ≤ events.length := by
  induction recorded with
  | nil => simp
  | @snoc events receipts e before admits coded ih =>
      intro r hr
      rw [List.length_append, List.length_singleton]
      unfold record at hr
      split at hr
      · rcases List.mem_append.mp hr with h | h
        · exact Nat.le_succ_of_le (ih r h)
        · rw [List.mem_singleton.mp h]
      · obtain ⟨s, hs, rfl⟩ := List.mem_map.mp hr
        split
        · obtain ⟨source, now, act⟩ := e
          cases act <;> exact Nat.le_refl _
        · exact Nat.le_succ_of_le (ih s hs)

/-! ## Rounds of `pending` and `mark_failed` -/

/-- `mark_failed` on each of some states, every call returning. -/
inductive MarkAll : Bytes → List State → Bytes → Prop
  | nil (data : Bytes) : MarkAll data [] data
  | cons {data last : Bytes} {others : List State} (state : State) (reason now : Text)
      (marked : (markFailed state.sourcePacketHash reason now data).2 = .ok ())
      (rest : MarkAll ((markFailed state.sourcePacketHash reason now).after data) others last) :
      MarkAll data (state :: others) last

/-- Calls of `pending(limit)`, each followed by `mark_failed` on every state it returned, in any
    order. -/
inductive Rounds (limit : Nat) : Bytes → List (List State) → Bytes → Prop
  | nil (data : Bytes) : Rounds limit data [] data
  | cons {data marked last : Bytes} {returned order : List State} {batches : List (List State)}
      (asked : (pending limit data).2 = .ok returned) (same : order.Perm returned)
      (marks : MarkAll ((pending limit).after data) order marked)
      (rest : Rounds limit marked batches last) : Rounds limit data (returned :: batches) last

section
variable {data : Bytes} {events : List Event} {receipts : List Receipt}

theorem reached_nodup (reached : Reached data events receipts) : (hashes receipts).Nodup := by
  obtain ⟨file, -, holds⟩ := reached
  exact holds.recorded.nodup

theorem mark_one (reached : Reached data events receipts) {r : Receipt} (hr : r ∈ receipts)
    (open_ : r.persisted = false) {reason now : Text}
    (marked : (markFailed r.source.hash reason now data).2 = .ok ()) :
    ∃ events', Reached ((markFailed r.source.hash reason now).after data) events'
        (receipts.map fun s =>
          if s.source.hash = r.source.hash then s.update (.failed (reason.take 240)) (events.length + 1) else s) ∧
      events'.length = events.length + 1 := by
  obtain ⟨file, rfl, holds⟩ := reached
  have outcomes := markFailed_data holds r.source.hash reason now
  generalize outcome : markFailed r.source.hash reason now file.data = result at outcomes
  rw [outcome] at marked
  cases outcomes with
  | refused raised => cases marked
  | raised raised => cases marked
  | settled s member hash persisted same =>
      rw [eq_of_hash holds.recorded.nodup member hr hash, open_] at persisted
      cases persisted
  | recorded s line member hash admits coded =>
      have equal := eq_of_hash holds.recorded.nodup member hr hash
      rw [equal] at admits coded
      refine ⟨_, by rw [after_of_call outcome]; exact reached_append holds admits coded, by simp⟩

/-- What marks leave of a receipt: all of it, or a later last event if it was among the marked. -/
structure Remarked (marked : List Text) (bound : Nat) (r s : Receipt) : Prop where
  source : s.source = r.source
  persisted : s.persisted = r.persisted
  untouched : r.source.hash ∉ marked → s = r
  later : r.source.hash ∈ marked → bound < s.lastEventIndex

theorem persisted_failed (r : Receipt) (reason : Text) (index : Nat) :
    (r.update (.failed reason) index).persisted = false := rfl

theorem mark_all {order : List State} {last : Bytes} (reached : Reached data events receipts)
    (pending_ : ∀ state ∈ order, ∃ r ∈ receipts, r.source.hash = state.sourcePacketHash ∧ r.persisted = false)
    (marks : MarkAll data order last) :
    ∃ events' f, Reached last events' (receipts.map f) ∧ events.length ≤ events'.length ∧
      ∀ r ∈ receipts, Remarked (order.map State.sourcePacketHash) events.length r (f r) := by
  induction marks generalizing events receipts with
  | nil data =>
      refine ⟨events, id, by simpa using reached, Nat.le_refl _, ?_⟩
      intro r _
      exact ⟨rfl, rfl, fun _ => rfl, fun member => by simp at member⟩
  | @cons data last others state reason now marked rest ih =>
      obtain ⟨r, hr, hash, open_⟩ := pending_ state (by simp)
      rw [← hash] at marked rest ih
      obtain ⟨events₁, here, length⟩ := mark_one reached hr open_ marked
      let g : Receipt → Receipt := fun s =>
        if s.source.hash = r.source.hash then s.update (.failed (reason.take 240)) (events.length + 1) else s
      have nodup := reached_nodup reached
      have g_source (s : Receipt) : (g s).source = s.source := by
        by_cases same : s.source.hash = r.source.hash
        · simp [g, same, source_update]
        · simp [g, same]
      have g_persisted {s : Receipt} (hs : s ∈ receipts) : (g s).persisted = s.persisted := by
        by_cases same : s.source.hash = r.source.hash
        · rw [eq_of_hash nodup hs hr same, open_]
          simp [g, persisted_failed]
        · simp [g, same]
      obtain ⟨events', f, there, more, kept⟩ := ih here (by
        intro state' member
        obtain ⟨s, hs, hash', open'⟩ := pending_ state' (List.mem_cons_of_mem _ member)
        exact ⟨g s, List.mem_map.mpr ⟨s, hs, rfl⟩, by rw [g_source, hash'], by rw [g_persisted hs, open']⟩)
      refine ⟨events', f ∘ g, by rwa [List.map_map] at there, by omega, ?_⟩
      intro s hs
      have after := kept (g s) (List.mem_map.mpr ⟨s, hs, rfl⟩)
      refine ⟨?_, ?_, ?_, ?_⟩
      · rw [Function.comp_apply, after.source, g_source]
      · rw [Function.comp_apply, after.persisted, g_persisted hs]
      · intro absent
        simp only [List.map_cons, List.mem_cons, not_or] at absent
        rw [← hash] at absent
        have alone : g s = s := if_neg absent.1
        rw [Function.comp_apply, after.untouched (by rw [g_source]; exact absent.2), alone]
      · intro member
        rw [Function.comp_apply]
        by_cases again : s.source.hash ∈ others.map State.sourcePacketHash
        · have := after.later (by rw [g_source]; exact again)
          omega
        · rw [after.untouched (by rw [g_source]; exact again)]
          simp only [List.map_cons, List.mem_cons, again, or_false] at member
          have same : s.source.hash = r.source.hash := by rw [member, hash]
          simp [g, same, Receipt.update]

/-- The receipts to be returned whose last event is not behind a bound. -/
def early (bound : Nat) (receipts : List Receipt) : Nat :=
  receipts.countP fun r => !r.persisted && decide (r.lastEventIndex ≤ bound)

theorem early_queue (bound : Nat) (receipts : List Receipt) :
    early bound receipts = (queue receipts).countP fun r => decide (r.lastEventIndex ≤ bound) := by
  rw [(perm_queue receipts).countP_eq, List.countP_filter]
  apply List.countP_congr
  intro r _
  rw [Bool.and_comm]

theorem pending_data (reached : Reached data events receipts) {limit : Nat} (positive : 1 ≤ limit)
    (bounded : limit ≤ 100) :
    (pending limit data).2 = .ok (((queue receipts).take limit).map Receipt.state) ∧
      Reached ((pending limit).after data) events receipts := by
  obtain ⟨file, rfl, holds⟩ := reached
  have asked : (decide (limit < 1) || decide (100 < limit)) = false := by simp; omega
  have outcome : pending limit file.data =
      (repairs file, .ok (((queue receipts).take limit).map Receipt.state)) := by
    rw [pending, asked, guardNot_false, DiskCall.lift_ok_bind, DiskCall.bind_of_ok (loadStates_data holds),
      DiskCall.pure_apply, List.append_nil, pendingOf_state, List.map_take]
  refine ⟨by rw [outcome], ?_⟩
  rw [after_of_call outcome]
  exact reached_repaired holds

/-- Marking the first `limit` of the queue leaves `limit` fewer of the early receipts. -/
theorem early_remarked {bound limit : Nat} (old : bound ≤ events.length) {f : Receipt → Receipt}
    {marked : List Text} (all : ∀ r, r ∈ (queue receipts).take limit → r.source.hash ∈ marked)
    (remarked : ∀ r ∈ receipts, Remarked marked events.length r (f r)) :
    early bound (receipts.map f) ≤ early bound receipts - limit := by
  have dropped := countP_drop_le Receipt.lastEventIndex bound (pairwise_queue receipts) limit
  rw [← early_queue] at dropped
  refine le_trans ?_ dropped
  have unmarked : early bound (receipts.map f) ≤
      receipts.countP fun r => (decide (r.lastEventIndex ≤ bound) && decide (r.source.hash ∉ marked)) &&
        !r.persisted := by
    rw [early, List.countP_map]
    apply List.countP_mono_left
    intro r hr counted
    have after := remarked r hr
    simp only [Function.comp_apply, Bool.and_eq_true, Bool.not_eq_true', decide_eq_true_eq] at counted ⊢
    have absent : r.source.hash ∉ marked := by
      intro member
      have := after.later member
      omega
    rw [after.untouched absent] at counted
    exact ⟨⟨counted.2, absent⟩, counted.1⟩
  have split_ : ∀ p : Receipt → Bool, (queue receipts).countP p =
      ((queue receipts).take limit).countP p + ((queue receipts).drop limit).countP p := by
    intro p
    rw [← List.countP_append, List.take_append_drop]
  rw [← List.countP_filter, ← (perm_queue receipts).countP_eq, split_] at unmarked
  have front : ((queue receipts).take limit).countP
      (fun r => decide (r.lastEventIndex ≤ bound) && decide (r.source.hash ∉ marked)) = 0 := by
    rw [List.countP_eq_zero]
    intro r hr
    simp [all r hr]
  rw [front, Nat.zero_add] at unmarked
  refine le_trans unmarked (List.countP_mono_left ?_)
  intro r _ counted
  exact (Bool.and_eq_true _ _ ▸ counted).1

/-- Enough rounds return every receipt whose last event is not behind a bound that lies in the past. -/
theorem returned_of_rounds {limit : Nat} (positive : 1 ≤ limit) (bounded : limit ≤ 100)
    {batches : List (List State)} {last : Bytes} (rounds : Rounds limit data batches last)
    (reached : Reached data events receipts) {bound : Nat} (old : bound ≤ events.length) {r : Receipt}
    (hr : r ∈ receipts) (open_ : r.persisted = false) (within : r.lastEventIndex ≤ bound)
    (enough : early bound receipts ≤ limit * batches.length) :
    ∃ batch ∈ batches, ∃ state ∈ batch, state.sourcePacketHash = r.source.hash := by
  induction rounds generalizing events receipts r with
  | nil data =>
      have counted : 0 < early bound receipts := by
        rw [early, List.countP_pos_iff]
        exact ⟨r, hr, by simp [open_, within]⟩
      simp at enough
      omega
  | @cons data marked last returned order batches asked same marks rest ih =>
      obtain ⟨reply, here⟩ := pending_data reached positive bounded
      rw [reply] at asked
      cases asked
      by_cases now : r ∈ (queue receipts).take limit
      · exact ⟨_, by simp, r.state, List.mem_map.mpr ⟨r, now, rfl⟩, rfl⟩
      have nodup := reached_nodup reached
      have hashes_order : ∀ h, h ∈ order.map State.sourcePacketHash ↔
          ∃ s ∈ (queue receipts).take limit, s.source.hash = h := by
        intro h
        rw [(same.map State.sourcePacketHash).mem_iff, List.map_map, List.mem_map]
        rfl
      obtain ⟨events', f, there, more, remarked⟩ := mark_all here (by
        intro state member
        obtain ⟨s, hs, rfl⟩ := List.mem_map.mp (same.mem_iff.mp member)
        obtain ⟨known, open'⟩ := mem_queue.mp (List.mem_of_mem_take hs)
        exact ⟨s, known, rfl, open'⟩) marks
      have unmarked : r.source.hash ∉ order.map State.sourcePacketHash := by
        intro member
        obtain ⟨s, hs, hash⟩ := (hashes_order _).mp member
        have known := (mem_queue.mp (List.mem_of_mem_take hs)).1
        exact now (eq_of_hash nodup known hr hash ▸ hs)
      have kept : f r = r := (remarked r hr).untouched unmarked
      have fewer : early bound (receipts.map f) ≤ early bound receipts - limit :=
        early_remarked old (fun s hs => (hashes_order _).mpr ⟨s, hs, rfl⟩) remarked
      obtain ⟨batch, member, state, found⟩ := ih there (le_trans old more)
        (List.mem_map.mpr ⟨r, hr, kept⟩) open_ within (by
          rw [List.length_cons, Nat.mul_succ] at enough
          omega)
      exact ⟨batch, List.mem_cons_of_mem _ member, state, found⟩

end

/-! ## The lifecycle -/

/-- The prediction is the payload of the receipt, by its hash and by its value. -/
def SamePayload (state : State) (prediction : Json) : Prop :=
  ∃ sha known, sha256Json prediction = .ok sha ∧ state.sourcePredictionSha256 = .str sha ∧
    state.prediction = some known ∧ known.pyEq prediction = true

/-- What holds behind every run of calls. -/
structure Lifecycle (ops : List Op) : Prop where
  loads : ∃ states, (loadStates (behind ops)).2 = .ok states
  absorbing : ∀ first rest, ops = first ++ rest → ∀ old later,
    (loadStates (behind first)).2 = .ok old → (loadStates (behind ops)).2 = .ok later →
      ∀ state ∈ old, isPersisted state = true → find state.sourcePacketHash later = some state
  payload : ∀ first rest, ops = first ++ rest → ∀ old later,
    (loadStates (behind first)).2 = .ok old → (loadStates (behind ops)).2 = .ok later →
      ∀ state ∈ old, ∃ state', find state.sourcePacketHash later = some state' ∧
        state'.sourcePredictionSha256 = state.sourcePredictionSha256 ∧ state'.prediction = state.prediction
  conflict : ∀ states, (loadStates (behind ops)).2 = .ok states →
    ∀ packet prediction : Json.Document, ∀ now state,
      find (textOrEmpty (packet.1.get (txt "packet_hash"))) states = some state →
        ¬SamePayload state prediction.1 →
          (∃ raised, (enqueue packet.1 prediction.1 now (behind ops)).2 = .error raised) ∧
            rows ((enqueue packet.1 prediction.1 now).after (behind ops)) = rows (behind ops)
  totals : ∃ s : Summary, (summary (behind ops)).2 = .ok s ∧
    s.expected = (enqueuedHashes [] ops).dedup.length ∧ s.expected = s.unresolved + s.persisted ∧
      ∀ states, (loadStates (behind ops)).2 = .ok states → s.unresolved = (pendingOf states).length
  fair : ∀ limit, 1 ≤ limit → limit ≤ 100 → ∀ states, (loadStates (behind ops)).2 = .ok states →
    ∀ batches last, Rounds limit (behind ops) batches last →
      batches.length = ((pendingOf states).length + limit - 1) / limit →
        ∀ state ∈ pendingOf states,
          ∃ batch ∈ batches, ∃ returned ∈ batch, returned.sourcePacketHash = state.sourcePacketHash

section
variable {data : Bytes} {events : List Event} {receipts : List Receipt}

theorem rejected (reached : Reached data events receipts) {packet prediction : Json.Document} {now : Text}
    {state : State}
    (found : find (textOrEmpty (packet.1.get (txt "packet_hash"))) (receipts.map Receipt.state) = some state)
    (conflict : ¬SamePayload state prediction.1) :
    (∃ raised, (enqueue packet.1 prediction.1 now data).2 = .error raised) ∧
      rows ((enqueue packet.1 prediction.1 now).after data) = rows data := by
  have before := reached.rows
  obtain ⟨file, rfl, holds⟩ := reached
  have nodup := holds.recorded.nodup
  obtain ⟨r, hr, hash, rfl⟩ := exists_of_find found
  have enqueued := enqueue_data holds packet prediction now
  generalize outcome : enqueue packet.1 prediction.1 now file.data = result at enqueued
  rw [after_of_call outcome, before]
  cases enqueued with
  | refused raised bad => exact ⟨⟨raised, rfl⟩, by simpa using before⟩
  | known s member same sha payload =>
      rw [eq_of_hash nodup member hr (same.trans hash.symm)] at sha payload
      exact absurd ⟨_, _, sha, rfl, rfl, payload⟩ conflict
  | raised raised why => exact ⟨⟨raised, rfl⟩, (reached_repaired holds).rows⟩
  | recorded source line same payload absent coded =>
      exact absurd (hash.trans same.symm) (absent r hr)

theorem length_queue (receipts : List Receipt) :
    (queue receipts).length = receipts.length - receipts.countP Receipt.persisted := by
  have all : receipts.length = receipts.countP Receipt.persisted +
      receipts.countP fun r => decide (¬r.persisted = true) := List.length_eq_countP_add_countP _
  rw [(perm_queue receipts).length_eq, ← List.countP_eq_length_filter]
  have same : receipts.countP (fun r => !r.persisted) =
      receipts.countP fun r => decide (¬r.persisted = true) := by
    apply List.countP_congr
    intro r _
    simp
  omega

theorem summarize_state (receipts : List Receipt) :
    summarize (receipts.map Receipt.state) =
      ⟨receipts.length, receipts.countP Receipt.persisted, (queue receipts).length⟩ := by
  have persisted : (receipts.map Receipt.state).countP isPersisted = receipts.countP Receipt.persisted := by
    rw [List.countP_map]
    apply List.countP_congr
    intro r _
    rw [Function.comp_apply, isPersisted_state]
  simp only [summarize, persisted, List.length_map, length_queue]

end

/-- A receipt's life, over every run of calls. -/
theorem lifecycle (ops : List Op) : Lifecycle ops := by
  obtain ⟨events, receipts, reached, -⟩ := later_calls reached_empty ops
  have since (first rest : List Op) (split : ops = first ++ rest) (old later : List State)
      (loaded : (loadStates (behind first)).2 = .ok old) (loaded' : (loadStates (behind ops)).2 = .ok later) :
      ∀ state ∈ old, ∃ r s, state = Receipt.state r ∧ Keeps r s ∧
        find state.sourcePacketHash later = some s.state := by
    obtain ⟨events₀, receipts₀, here, -⟩ := later_calls reached_empty first
    obtain ⟨events₁, receipts₁, there, grown⟩ := later_calls here rest
    rw [← run_append, ← split] at there
    intro state member
    rw [behind, here.states] at loaded
    rw [behind, there.states] at loaded'
    cases loaded
    cases loaded'
    obtain ⟨r, hr, rfl⟩ := List.mem_map.mp member
    obtain ⟨s, hs, keeps⟩ := grown.kept r hr
    refine ⟨r, s, rfl, keeps, ?_⟩
    have found := find_eq_some (reached_nodup there) hs
    rwa [keeps.1] at found
  constructor
  · exact ⟨_, reached.states⟩
  · intro first rest split old later loaded loaded' state member persisted
    obtain ⟨r, s, rfl, keeps, found⟩ := since first rest split old later loaded loaded' state member
    rw [isPersisted_state] at persisted
    rw [found, keeps.2 persisted]
  · intro first rest split old later loaded loaded' state member
    obtain ⟨r, s, rfl, keeps, found⟩ := since first rest split old later loaded loaded' state member
    refine ⟨s.state, found, ?_, ?_⟩
    · simp [Receipt.state, keeps.1]
    · simp [Receipt.state, keeps.1]
  · intro states loaded packet prediction now state found conflict
    rw [behind, reached.states] at loaded
    cases loaded
    exact rejected reached found conflict
  · refine ⟨summarize (receipts.map Receipt.state), ?_, ?_, ?_, ?_⟩
    · obtain ⟨file, data, holds⟩ := reached
      rw [behind, ← data, summary, DiskCall.bind_of_ok (loadStates_data holds)]
      rfl
    · rw [summarize_state]
      exact length_states reached
    · rw [summarize_state, length_queue]
      have most : receipts.countP Receipt.persisted ≤ receipts.length := List.countP_le_length
      dsimp only
      omega
    · intro states loaded
      rw [behind, reached.states] at loaded
      cases loaded
      rw [summarize_state, pendingOf_state, List.length_map]
  · intro limit positive bounded states loaded batches last rounds count state member
    rw [behind, reached.states] at loaded
    cases loaded
    rw [pendingOf_state] at member count
    rw [List.length_map] at count
    obtain ⟨r, hr, rfl⟩ := List.mem_map.mp member
    obtain ⟨known, open_⟩ := mem_queue.mp hr
    have recorded : ∀ r ∈ receipts, r.lastEventIndex ≤ events.length := by
      obtain ⟨file, -, holds⟩ := reached
      exact holds.recorded.lastEventIndex_le
    apply returned_of_rounds positive bounded rounds reached (Nat.le_refl _) known open_ (recorded r known)
    have all : early events.length receipts ≤ (queue receipts).length := by
      rw [early_queue]
      exact List.countP_le_length
    have ceil := Nat.div_add_mod ((queue receipts).length + limit - 1) limit
    have rest := Nat.mod_lt ((queue receipts).length + limit - 1) positive
    rw [count]
    omega

end Senex.Receipts
