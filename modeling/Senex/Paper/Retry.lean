import Senex.Paper.Freeze
import Senex.Paper.Session

/-! # Retries

A committed command that is issued again finds its own event.  What its retry
reads besides is the order it names, which cannot have changed for a closed one,
the open discrepancies and the current account.  `Session.retry_iff` says exactly
when the retry changes nothing and raises nothing.
-/

namespace Senex.Paper

open Text

variable {D : Type} [Decimal D]

/-! ## Engines that agree on orders -/

/-- Two engines with the same orders, closed orders and events. -/
structure Core.Agrees (c d : Core D) : Prop where
  orders : c.state.orders = d.state.orders
  closed : c.terminalStatuses = d.terminalStatuses
  events : c.eventsById = d.eventsById

theorem registerOrder_orders {s t s' t' : PaperState D} {orderId clientOrderId side : Text}
    {quantity : PyArg} (same : s.orders = t.orders)
    (first : registerOrder s orderId clientOrderId side quantity = .ok s')
    (second : registerOrder t orderId clientOrderId side quantity = .ok t') :
    s'.orders = t'.orders := by
  simp only [registerOrder, Py.bind_eq_ok, orRaise_eq_ok] at first second
  obtain ⟨qty, hqty, sd, hsd, -, -, first⟩ := first
  obtain ⟨qty', hqty', sd', hsd', -, -, second⟩ := second
  obtain rfl : qty = qty' := Except.ok.inj (hqty.symm.trans hqty')
  obtain rfl : sd = sd' := Option.some.inj (hsd.symm.trans hsd')
  rw [same] at first
  split at first
  · rename_i existing found
    rw [found] at second
    simp only [Py.bind_eq_ok, Py.pure_eq_ok, Except.ok.injEq] at first second
    obtain ⟨-, -, rfl⟩ := first
    obtain ⟨-, -, rfl⟩ := second
    exact same
  · rename_i none
    rw [none] at second
    simp only [Py.bind_eq_ok] at first second
    obtain ⟨order, built, replaced⟩ := first
    obtain ⟨order', built', replaced'⟩ := second
    obtain rfl : order = order' := Except.ok.inj (built.symm.trans built')
    rw [PaperState.replace_eq_ok replaced s.valid.source s.valid.config s.valid.timestamp,
      PaperState.replace_eq_ok replaced' t.valid.source t.valid.config t.valid.timestamp]

/-- The order that a payload names, and the one that the fill event names, depend on the orders only. -/
theorem Core.Agrees.payloadOrder {c d : Core D} (agrees : c.Agrees d) (payload : Json) :
    c.payloadOrder payload = d.payloadOrder payload := by
  simp only [Core.payloadOrder, agrees.orders]

theorem Core.Agrees.fill {c d : Core D} (agrees : c.Agrees d) {payload : Json}
    {order order' : PaperOrder D} {event event' : FillEvent D} {f f' : FillFigures D}
    {after after' : PaperState D} {application application' : FillApplication D}
    (first : c.FillReduced payload order event f after application)
    (second : d.FillReduced payload order' event' f' after' application') :
    after.orders = after'.orders := by
  obtain rfl : event = event' := Except.ok.inj (first.built.symm.trans second.built)
  have found := first.found
  rw [PaperState.findOrder?, agrees.orders] at found
  obtain rfl : order = order' := Option.some.inj (found.symm.trans second.found)
  have filled : f.filled = f'.filled :=
    Except.ok.inj (first.effect.filled.symm.trans second.effect.filled)
  have changed : f.changedOrder = f'.changedOrder := by
    ext1
    rw [first.effect.changed, second.effect.changed, filled]
  simp only [first.effect.after, second.effect.after, agrees.orders, changed]

/-- What one record does to the orders of one engine, it does to those of the other. -/
theorem Core.Agrees.advance {c d : Core D} (agrees : c.Agrees d) {r : Record} {x y : Candidate D}
    (first : c.reduce r = .ok x) (second : d.reduce r = .ok y) :
    (c.advance r x).Agrees (d.advance r y) := by
  have events : (c.advance r x).eventsById = (d.advance r y).eventsById := by
    simp only [Core.advance, agrees.events]
  have closing : ∀ {eventType status s t},
      c.reduceTerminal eventType status r.payload.1 = .ok s →
      d.reduceTerminal eventType status r.payload.1 = .ok t → s = t := by
    intro eventType status s t hs ht
    obtain ⟨order, found, -, -, rfl⟩ := Core.reduceTerminal_eq_ok hs
    obtain ⟨order', found', -, -, rfl⟩ := Core.reduceTerminal_eq_ok ht
    rw [agrees.payloadOrder] at found
    obtain rfl : order = order' := Option.some.inj (found.symm.trans found')
    rw [agrees.closed]
  have hx := Core.reduce_orders first
  have hy := Core.reduce_orders second
  cases type : r.eventType <;> simp only [type] at hx hy
  case orderRegistered =>
    obtain ⟨-, registered⟩ := Core.reduceRegistered_eq_ok hx.1
    obtain ⟨-, registered'⟩ := Core.reduceRegistered_eq_ok hy.1
    exact ⟨registerOrder_orders agrees.orders registered registered',
      hx.2.trans (agrees.closed.trans hy.2.symm), events⟩
  case fillApplied =>
    obtain ⟨⟨_, inner⟩, closed⟩ := hx
    obtain ⟨⟨_, inner'⟩, closed'⟩ := hy
    obtain ⟨_, _, _, fill⟩ := Core.reduceFill_eq_ok inner
    obtain ⟨_, _, _, fill'⟩ := Core.reduceFill_eq_ok inner'
    exact ⟨agrees.fill fill fill', closed.trans (agrees.closed.trans closed'.symm), events⟩
  case orderCancelled =>
    refine ⟨?_, closing hx.2 hy.2, events⟩
    simpa [Core.advance, hx.1, hy.1] using agrees.orders
  case orderExpired =>
    refine ⟨?_, closing hx.2 hy.2, events⟩
    simpa [Core.advance, hx.1, hy.1] using agrees.orders
  case snapshotReconciled =>
    refine ⟨?_, hx.2.trans (agrees.closed.trans hy.2.symm), events⟩
    simpa [Core.advance, hx.1, hy.1] using agrees.orders
  case divergenceResolved =>
    refine ⟨?_, hx.2.trans (agrees.closed.trans hy.2.symm), events⟩
    simpa [Core.advance, hx.1, hy.1] using agrees.orders

theorem Core.Agrees.replay {c d c' d' : Core D} {rs : List Record} (agrees : c.Agrees d)
    (first : c.replay rs = .ok c') (second : d.replay rs = .ok d') : c'.Agrees d' := by
  induction rs generalizing c d with
  | nil =>
      cases first
      cases second
      exact agrees
  | cons r rs ih =>
      simp only [Core.replay, Py.bind_eq_ok] at first second
      obtain ⟨_, step, rest⟩ := first
      obtain ⟨_, step', rest'⟩ := second
      obtain ⟨-, x, reduced, rfl⟩ := Core.replayRecord_eq_ok.mp step
      obtain ⟨-, y, reduced', rfl⟩ := Core.replayRecord_eq_ok.mp step'
      exact ih (agrees.advance reduced reduced') rest rest'

/-! ## What an engine keeps of a committed event -/

/-- The engine still has the event, and of the order that it names what the command read. -/
structure Core.Keeps (c : Core D) (r : Record) : Prop where
  indexed : Json.lookup r.eventId c.eventsById = some r
  closed : r.Closes → ∃ o ∈ c.state.orders, field r.payload.1 (txt "order_id") = .str o.orderId ∧
    c.isTerminal o.orderId = true ∧ ∃ remaining, o.remainingQty = .ok remaining ∧
      field r.payload.1 (txt "remaining_qty") = .str (Decimal.str remaining)
  filled : r.eventType = .fillApplied → ∃ o ∈ c.state.orders,
    field r.payload.1 (txt "order_id") = .str o.orderId ∧ ∃ remaining, o.remainingQty = .ok remaining

theorem Core.Keeps.of_agrees {c d : Core D} {r : Record} (keeps : c.Keeps r) (agrees : c.Agrees d) :
    d.Keeps r where
  indexed := agrees.events ▸ keeps.indexed
  closed := by
    intro closes
    obtain ⟨o, ho, named, closed, rest⟩ := keeps.closed closes
    refine ⟨o, agrees.orders ▸ ho, named, ?_, rest⟩
    simpa only [Core.isTerminal, agrees.closed] using closed
  filled := by
    intro isFill
    obtain ⟨o, ho, rest⟩ := keeps.filled isFill
    exact ⟨o, agrees.orders ▸ ho, rest⟩

theorem Core.isTerminal_insert {c : Core D} {id other : Text} {status : OrderStatus}
    (closed : c.isTerminal id = true) :
    (Json.lookup id (Json.insert other status c.terminalStatuses)).isSome = true := by
  by_cases same : id = other
  · subst same
    simp [Json.lookup_insert_self]
  · rw [Json.lookup_insert_of_ne _ same]
    exact closed

/-- What an event leaves of the other orders: a closed order stays as it is, and any order
    stays with a remaining quantity that can be computed. -/
theorem Core.reduce_keeps_order {c : Core D} {r : Record} {x : Candidate D}
    (reduced : c.reduce r = .ok x) :
    (∀ id, c.isTerminal id = true → (c.advance r x).isTerminal id = true) ∧
      (∀ o ∈ c.state.orders, c.isTerminal o.orderId = true → o ∈ x.state.orders) ∧
      ∀ o ∈ c.state.orders, (∃ remaining, o.remainingQty = .ok remaining) →
        ∃ p ∈ x.state.orders, p.orderId = o.orderId ∧ ∃ remaining, p.remainingQty = .ok remaining := by
  have stays : ∀ {s : PaperState D}, (∀ o ∈ c.state.orders, o ∈ s.orders) →
      (∀ o ∈ c.state.orders, c.isTerminal o.orderId = true → o ∈ s.orders) ∧
      ∀ o ∈ c.state.orders, (∃ remaining, o.remainingQty = .ok remaining) →
        ∃ p ∈ s.orders, p.orderId = o.orderId ∧ ∃ remaining, p.remainingQty = .ok remaining :=
    fun all => ⟨fun o ho _ => all o ho, fun o ho some_ => ⟨o, all o ho, rfl, some_⟩⟩
  obtain ⟨-, event⟩ := Core.reduce_cases reduced
  cases event with
  | registered state type inner =>
      refine ⟨fun _ closed => closed, stays ?_⟩
      obtain ⟨-, done⟩ := Core.reduceRegistered_eq_ok inner
      rcases registerOrder_eq_ok done with rfl | ⟨order, -, -, fields⟩
      · exact fun _ ho => ho
      · intro o ho
        rw [fields]
        exact List.mem_append_left _ ho
  | filled state application type inner =>
      obtain ⟨order, event, f, fill⟩ := Core.reduceFill_eq_ok inner
      have orders : state.orders =
          c.state.orders.map fun o => if o.orderId = order.orderId then f.changedOrder else o := by
        rw [fill.effect.after]
      have sameId : f.changedOrder.orderId = order.orderId := by rw [fill.effect.changed]
      refine ⟨fun _ closed => closed, ?_, ?_⟩
      · intro o ho closed
        have apart : o.orderId ≠ order.orderId := by
          intro same
          rw [same, fill.live] at closed
          cases closed
        rw [orders]
        exact List.mem_map.mpr ⟨o, ho, by simp [apart]⟩
      · intro o ho computes
        rw [orders]
        by_cases same : o.orderId = order.orderId
        · exact ⟨f.changedOrder, List.mem_map.mpr ⟨o, ho, by simp [same]⟩, by rw [sameId, same],
            _, fill.effect.stillOpen⟩
        · exact ⟨o, List.mem_map.mpr ⟨o, ho, by simp [same]⟩, rfl, computes⟩
  | terminated status statuses type inner =>
      obtain ⟨order, -, -, -, rfl⟩ := Core.reduceTerminal_eq_ok inner
      exact ⟨fun _ closed => Core.isTerminal_insert closed, stays fun _ ho => ho⟩
  | reconciled => exact ⟨fun _ closed => closed, stays fun _ ho => ho⟩
  | diverged => exact ⟨fun _ closed => closed, stays fun _ ho => ho⟩
  | resolved => exact ⟨fun _ closed => closed, stays fun _ ho => ho⟩

theorem Core.Keeps.advance {c : Core D} {r s : Record} (keeps : c.Keeps r) {x : Candidate D}
    (reduced : c.reduce s = .ok x) (fresh : Json.lookup s.eventId c.eventsById = none) :
    (c.advance s x).Keeps r := by
  obtain ⟨stillClosed, closedStay, computeStay⟩ := Core.reduce_keeps_order reduced
  have apart : r.eventId ≠ s.eventId := by
    intro same
    rw [← same, keeps.indexed] at fresh
    cases fresh
  refine ⟨?_, ?_, ?_⟩
  · simp only [Core.advance]
    rw [Json.lookup_insert_of_ne _ apart]
    exact keeps.indexed
  · intro closes
    obtain ⟨o, ho, named, closed, rest⟩ := keeps.closed closes
    exact ⟨o, closedStay o ho closed, named, stillClosed _ closed, rest⟩
  · intro isFill
    obtain ⟨o, ho, named, computes⟩ := keeps.filled isFill
    obtain ⟨p, hp, same, computes'⟩ := computeStay o ho computes
    exact ⟨p, hp, by rw [named, same], computes'⟩

/-- Over a chain no later event takes the identifier of the kept one. -/
theorem Core.Keeps.replay {c after : Core D} {r : Record} {rs : List Record} {a : JournalAnchor}
    (keeps : c.Keeps r) (anchored : c.Anchored a) (chain : journalFormat.Chain a rs)
    (replayed : c.replay rs = .ok after) : after.Keeps r := by
  induction rs generalizing c a with
  | nil =>
      cases replayed
      exact keeps
  | cons s rs ih =>
      simp only [Core.replay, Py.bind_eq_ok] at replayed
      obtain ⟨_, step, rest⟩ := replayed
      obtain ⟨-, x, reduced, rfl⟩ := Core.replayRecord_eq_ok.mp step
      have fresh := (anchored.used s.eventId).mpr chain.1.fresh
      exact ih (keeps.advance reduced fresh) (anchored.advance s x) chain.2 rest

/-- A command that commits leaves what its retry will read. -/
theorem Core.keeps_committed {c : Core D} {command : Command D} {r : Record} {x : Candidate D}
    (planned : c.plan command = .ok (.append r x)) : (c.advance r x).Keeps r := by
  have appends := (Core.plan_append planned).1
  refine ⟨by simp [Core.advance, Json.lookup_insert_self], ?_, ?_⟩
  · intro closes
    -- the order of the command is the one that the reducer closes
    have terminal : ∀ {eventType eventId timestamp orderId reason},
        c.planTerminal eventType eventId timestamp orderId reason = .ok (.append r x) →
        ∃ o ∈ (c.advance r x).state.orders, field r.payload.1 (txt "order_id") = .str o.orderId ∧
          (c.advance r x).isTerminal o.orderId = true ∧ ∃ remaining, o.remainingQty = .ok remaining ∧
            field r.payload.1 (txt "remaining_qty") = .str (Decimal.str remaining) := by
      intro eventType eventId timestamp orderId reason terminates
      obtain ⟨_, order, remaining, why, -, found, computes, -, -, recorded, -⟩ :=
        Core.planTerminal_append terminates
      have member : order ∈ c.state.orders := by
        simp only [Core.findOrder, Py.bind_eq_ok] at found
        obtain ⟨key, -, found⟩ := found
        split at found
        · rename_i o only
          obtain rfl : o = order := Except.ok.inj found
          exact (List.mem_filter.mp (only ▸ List.mem_singleton_self o)).1
        · simp at found
      have named : field r.payload.1 (txt "order_id") = .str order.orderId := by
        rw [recorded.carries, field_terminal_orderId]
      obtain ⟨-, event⟩ := Core.reduce_cases appends.reduced
      cases event with
      | terminated status statuses type inner =>
          obtain ⟨order', found', -, -, rfl⟩ := Core.reduceTerminal_eq_ok inner
          have named' := List.find?_some found'
          rw [named, beq_iff_eq] at named'
          have same : order'.orderId = order.orderId := Json.str.inj named'
          refine ⟨order, member, named, ?_, remaining, computes, ?_⟩
          · simp [Core.isTerminal, Core.advance, same, Json.lookup_insert_self]
          · rw [recorded.carries, field_terminal_remaining]
      | registered _ type => rcases closes with h | h <;> rw [h] at type <;> cases type
      | filled _ _ type => rcases closes with h | h <;> rw [h] at type <;> cases type
      | reconciled _ type => rcases closes with h | h <;> rw [h] at type <;> cases type
      | diverged _ type => rcases closes with h | h <;> rw [h] at type <;> cases type
      | resolved type => rcases closes with h | h <;> rw [h] at type <;> cases type
    have notClosing : ∀ {eventType}, r.eventType = eventType → eventType ≠ .orderCancelled →
        eventType ≠ .orderExpired → False := by
      rintro _ rfl notCancelled notExpired
      exact closes.elim notCancelled notExpired
    cases command with
    | cancelOrder => exact terminal planned
    | expireOrder => exact terminal planned
    | registerOrder =>
        obtain ⟨_, _, _, _, _, -, -, -, -, -, recorded, -⟩ := Core.planRegisterOrder_append planned
        exact (notClosing recorded.type (by decide) (by decide)).elim
    | applyFill =>
        obtain ⟨_, -, -, -, -, recorded, -⟩ := Core.planApplyFill_append planned
        exact (notClosing recorded.type (by decide) (by decide)).elim
    | reconcile =>
        obtain ⟨_, _, _, -, -, -, recorded, -⟩ := Core.planReconcile_append planned
        exact (notClosing recorded.type (by decide) (by decide)).elim
    | resolveDivergence =>
        obtain ⟨_, _, _, -, -, -, -, recorded, -⟩ := Core.planResolveDivergence_append planned
        exact (notClosing recorded.type (by decide) (by decide)).elim
  · intro isFill
    have effect := Core.reduce_orders appends.reduced
    simp only [isFill] at effect
    obtain ⟨⟨application, inner⟩, -⟩ := effect
    obtain ⟨order, event, f, fill⟩ := Core.reduceFill_eq_ok inner
    obtain ⟨member, named⟩ := PaperState.findOrder?_eq_some fill.found
    have sameId : f.changedOrder.orderId = order.orderId := by rw [fill.effect.changed]
    refine ⟨f.changedOrder, ?_, ?_, _, fill.effect.stillOpen⟩
    · simp only [Core.advance, fill.effect.after]
      exact List.mem_map.mpr ⟨order, member, by simp⟩
    · rw [fill.orderId, sameId, named]

/-! ## One retry -/

theorem Core.existingEvent_indexed {c : Core D} {r : Record}
    (indexed : Json.lookup r.eventId c.eventsById = some r) {payload : Json} {ignored : List Text}
    (same : r.payload.1.without ignored = payload.without ignored) :
    c.existingEvent r.eventId r.eventType r.timestamp payload ignored = .ok (some r) := by
  simp [existingEvent, indexed, same]

theorem Core.existingEvent_conflict {c : Core D} {r : Record}
    (indexed : Json.lookup r.eventId c.eventsById = some r) {payload : Json.Document}
    (other : r.payload ≠ payload) :
    ∃ raised, c.existingEvent r.eventId r.eventType r.timestamp payload.1 [] = .error raised := by
  have apart : canonicalJson r.payload.1 ≠ canonicalJson payload.1 := by
    intro same
    exact other (Subtype.ext
      (Json.render_injective Json.reads_pyQuote r.payload.2 payload.2 same))
  simp [existingEvent, indexed, apart, guardNot, raise]

/-- An order is found under any spelling of its identifier. -/
theorem Core.findOrder_member {c : Core D} {o : PaperOrder D} (member : o ∈ c.state.orders)
    {orderId : PyArg} (named : nonempty orderId (txt "order_id") = .ok o.orderId) :
    c.findOrder orderId = .ok o := by
  have only : ∀ orders : List (PaperOrder D), (orders.map (·.orderId)).Nodup → o ∈ orders →
      orders.filter (fun p => p.orderId == o.orderId) = [o] := by
    intro orders distinct inside
    induction orders with
    | nil => cases inside
    | cons p orders ih =>
        obtain ⟨apart, distinct⟩ := List.nodup_cons.mp distinct
        rcases List.mem_cons.mp inside with rfl | inside
        · have none : orders.filter (fun q => q.orderId == o.orderId) = [] := by
            apply List.filter_eq_nil_iff.mpr
            intro q hq same
            exact apart (List.mem_map.mpr ⟨q, hq, by simpa using same⟩)
          simp [none]
        · have different : (p.orderId == o.orderId) = false := by
            rw [beq_eq_false_iff_ne]
            intro same
            exact apart (List.mem_map.mpr ⟨o, inside, same.symm⟩)
          simpa [different] using ih distinct inside
  simp [findOrder, named, only _ c.state.valid.orderIds member]

/-- The duplicate of a fill is reported whenever its order has a remaining quantity. -/
theorem Core.duplicateFill_member {c : Core D} {o : PaperOrder D} (member : o ∈ c.state.orders)
    {orderId : PyArg} (named : nonempty orderId (txt "order_id") = .ok o.orderId) {remaining : D}
    (computes : o.remainingQty = .ok remaining) :
    ∃ application, c.duplicateFill orderId = .ok application := by
  have again := Core.findOrder_member member (nonempty_idem named (txt "order_id"))
  simp [duplicateFill, status, Core.findOrder_member member named, again, computes]

/-- What the retry of a committed command still needs: the discrepancies that a resolution
    has cited are the current ones, and a reconciliation can be computed again. -/
def Core.Repeats (c : Core D) (command : Command D) (r : Record) : Prop :=
  match command with
  | .resolveDivergence .. =>
      field r.payload.1 (txt "prior_discrepancies") = .arr (c.discrepancies.map .str)
  | .reconcile .. => ∃ report, c.makeReconciliationReport r.payload.1 = .ok report
  | _ => True

/-- The call to `_record` of a retry stops at the existing event. -/
theorem Core.record_retry {c : Core D} {eventId stamp : PyArg} {payload : Json.Document}
    {r : Record} (allowed : Bool) (indexed : Json.lookup r.eventId c.eventsById = some r)
    (id : nonempty eventId (txt "event_id") = .ok r.eventId)
    (stamped : normalizeEventTimestamp stamp = .ok r.timestamp)
    (carries : r.payload = payload) :
    c.record eventId r.eventType stamp payload allowed =
      match r.eventType with
      | .fillApplied => do
          let application ← c.duplicateFill (jsonArg (field payload.1 (txt "order_id")))
          return .reply (.fill application)
      | .snapshotReconciled => do
          let report ← c.makeReconciliationReport payload.1
          return .reply (.report report)
      | _ => .ok (.reply (.recorded false)) := by
  have existing : c.existingEvent r.eventId r.eventType r.timestamp payload.1
      r.eventType.ignoredKeys = .ok (some r) :=
    Core.existingEvent_indexed indexed (by rw [carries])
  simp only [record, id, stamped, existing, Py.ok_bind]
  cases r.eventType <;> rfl

/-- The order of a closed event is as it was, so its retry writes the same payload. -/
theorem Core.planTerminal_retry {c planner : Core D} {eventType : EventType}
    {eventId timestamp orderId reason : PyArg} {r : Record} {x : Candidate D}
    (closing : eventType = .orderCancelled ∨ eventType = .orderExpired)
    (planned : planner.planTerminal eventType eventId timestamp orderId reason =
      .ok (.append r x)) (keeps : c.Keeps r) :
    c.planTerminal eventType eventId timestamp orderId reason = .ok (.reply (.recorded false)) := by
  obtain ⟨ts, order, remaining, why, hts, found, -, hwhy, hid, recorded, -⟩ :=
    Core.planTerminal_append planned
  have closes : r.Closes := by
    unfold Record.Closes
    rw [recorded.type]
    exact closing
  obtain ⟨o, member, named, -, left, computes, leftText⟩ := keeps.closed closes
  rw [recorded.carries, field_terminal_orderId] at named
  rw [recorded.carries, field_terminal_remaining] at leftText
  have sameId : order.orderId = o.orderId := Json.str.inj named
  have sameText : Decimal.str remaining = Decimal.str left := Json.str.inj leftText
  have key : nonempty orderId (txt "order_id") = .ok o.orderId := by
    simp only [findOrder, Py.bind_eq_ok] at found
    obtain ⟨k, hk, found⟩ := found
    split at found
    · rename_i p only
      obtain rfl : p = order := Except.ok.inj found
      have inside : p ∈ planner.state.orders.filter fun q => q.orderId == k :=
        only ▸ List.mem_singleton_self p
      have spelled : p.orderId = k := by simpa using (List.mem_filter.mp inside).2
      rw [hk, ← spelled, sameId]
    · simp at found
  have samePayload : terminalPayload o.orderId left why = terminalPayload order.orderId remaining why := by
    simp only [terminalPayload, sameId, sameText]
  have stamped : r.timestamp = ts := by
    have again := normalizeEventTimestamp_idem hts
    rw [recorded.stamped] at again
    exact Except.ok.inj again
  have existing : c.existingEvent r.eventId r.eventType r.timestamp
      (terminalPayload o.orderId left why).1 [] = .ok (some r) :=
    Core.existingEvent_indexed keeps.indexed (by rw [recorded.carries, samePayload])
  rw [recorded.type, stamped] at existing
  simp only [planTerminal, hts, Core.findOrder_member member key, computes, hwhy, hid, existing,
    Py.ok_bind, Py.pure_eq_ok]

/-- Whatever engine planned the event, an engine that keeps it replies to the retry exactly
    when it `Repeats`; otherwise the retry raises. -/
theorem Core.plan_retry {c planner : Core D} {command : Command D} {r : Record} {x : Candidate D}
    (planned : planner.plan command = .ok (.append r x)) (keeps : c.Keeps r) :
    (c.Repeats command r → ∃ reply, c.plan command = .ok (.reply reply)) ∧
      (¬ c.Repeats command r → ∃ raised, c.plan command = .error raised) := by
  have indexed := keeps.indexed
  cases command with
  | registerOrder eventId timestamp orderId clientOrderId side quantity =>
      obtain ⟨ts, oid, cid, s, qty, hts, hoid, hcid, hs, hqty, recorded, -⟩ :=
        Core.planRegisterOrder_append planned
      have retry := Core.record_retry false indexed recorded.id recorded.stamped
        recorded.carries
      rw [recorded.type] at retry
      refine ⟨fun _ => ⟨.recorded false, ?_⟩, fun never => absurd trivial never⟩
      simp only [plan, planRegisterOrder, hts, hoid, hcid, hs, hqty, orRaise_some, Py.ok_bind, retry]
  | applyFill eventId fillId orderId side quantity price fee spreadCost slippageCost timestamp =>
      obtain ⟨f, hf, hid, -, -, recorded, -⟩ := Core.planApplyFill_append planned
      have isFill := recorded.type
      obtain ⟨o, member, named, remaining, computes⟩ := keeps.filled isFill
      rw [recorded.carries, f.field_orderId] at named
      have sameId : f.orderId = o.orderId := Json.str.inj named
      have request := hf
      simp only [fillRequest, Py.bind_eq_ok, Py.pure_eq_ok, Except.ok.injEq] at request
      obtain ⟨ts, hts, _, _, oid, hoid, _, _, _, _, _, _, _, _, _, _, shape⟩ := request
      have orderKey : oid = f.orderId := by rw [← shape]
      have stamp : ts = f.timestamp := by rw [← shape]
      have timestamp_ : r.timestamp = f.timestamp := by
        have again := normalizeEventTimestamp_idem hts
        rw [stamp, recorded.stamped] at again
        exact Except.ok.inj again
      have existing : c.existingEvent r.eventId r.eventType r.timestamp f.basePayload
          [txt "fill_seq"] = .ok (some r) :=
        Core.existingEvent_indexed indexed (by rw [recorded.carries, f.without_fillSeq])
      rw [isFill, timestamp_] at existing
      have key : nonempty (.str f.orderId) (txt "order_id") = .ok o.orderId := by
        rw [← sameId, ← orderKey]
        exact nonempty_idem hoid _
      obtain ⟨application, duplicate⟩ := Core.duplicateFill_member member key computes
      refine ⟨fun _ => ⟨.fill application, ?_⟩, fun never => absurd trivial never⟩
      simp only [plan, planApplyFill, hf, hid, existing, duplicate, Py.ok_bind, Py.pure_eq_ok]
  | cancelOrder eventId timestamp orderId reason =>
      exact ⟨fun _ => ⟨.recorded false, Core.planTerminal_retry (Or.inl rfl) planned keeps⟩,
        fun never => absurd trivial never⟩
  | expireOrder eventId timestamp orderId reason =>
      exact ⟨fun _ => ⟨.recorded false, Core.planTerminal_retry (Or.inr rfl) planned keeps⟩,
        fun never => absurd trivial never⟩
  | reconcile observed eventId timestamp tolerance =>
      obtain ⟨ts, snapshot, tol, hts, hsnapshot, htol, recorded, -⟩ :=
        Core.planReconcile_append planned
      have retry := Core.record_retry false indexed recorded.id recorded.stamped
        recorded.carries
      rw [recorded.type] at retry
      have whole : c.plan (.reconcile observed eventId timestamp tolerance) = (do
          let report ← c.makeReconciliationReport r.payload.1
          return .reply (.report report)) := by
        simp only [plan, planReconcile, hts, hsnapshot, htol, orRaise_some, Py.ok_bind, retry,
          recorded.carries]
      rw [whole]
      constructor
      · rintro ⟨report, made⟩
        exact ⟨.report report, by rw [made]; rfl⟩
      · intro fails
        cases made : c.makeReconciliationReport r.payload.1 with
        | error raised => exact ⟨raised, rfl⟩
        | ok report => exact absurd ⟨report, made⟩ fails
  | resolveDivergence eventId timestamp approvalRef reason =>
      obtain ⟨ts, approval, why, hts, happroval, hwhy, hid, recorded, -⟩ :=
        Core.planResolveDivergence_append planned
      have stamped : r.timestamp = ts := by
        have again := normalizeEventTimestamp_idem hts
        rw [recorded.stamped] at again
        exact Except.ok.inj again
      have prior : field r.payload.1 (txt "prior_discrepancies") =
          .arr (planner.discrepancies.map .str) := by
        rw [recorded.carries, field_resolved_prior]
      constructor
      · intro current
        have same : r.payload = resolvedPayload approval why c.discrepancies := by
          have texts : planner.discrepancies = c.discrepancies := by
            have lists := prior.symm.trans current
            exact List.map_injective_iff.mpr (fun _ _ => Json.str.inj) (Json.arr.inj lists)
          rw [recorded.carries, texts]
        have existing : c.existingEvent r.eventId r.eventType r.timestamp
            (resolvedPayload approval why c.discrepancies).1 [] = .ok (some r) :=
          Core.existingEvent_indexed indexed (by rw [same])
        rw [recorded.type, stamped] at existing
        refine ⟨.recorded false, ?_⟩
        simp only [plan, planResolveDivergence, hts, happroval, hwhy, hid, existing, Py.ok_bind,
          Py.pure_eq_ok]
      · intro moved
        have other : r.payload ≠ resolvedPayload approval why c.discrepancies := by
          intro same
          apply moved
          show field r.payload.1 (txt "prior_discrepancies") = _
          rw [same, field_resolved_prior]
        obtain ⟨raised, conflict⟩ := Core.existingEvent_conflict indexed other
        rw [recorded.type, stamped] at conflict
        refine ⟨raised, ?_⟩
        simp only [plan, planResolveDivergence, hts, happroval, hwhy, hid, conflict, Py.ok_bind,
          Py.error_bind]

/-! ## Retries in a session -/

/-- What a session remembers of the commands that have committed. -/
structure Session.Remembered (s : Session D) : Prop where
  filed : ∃ rs tail, s.Filed rs tail
  replays : ∀ (start : PaperState D) (limits : RiskLimits D) (d : Core D), start.orders = [] →
    (Core.fresh start limits).replay s.log = .ok d → s.world.engine.core.Agrees d
  keeps : ∀ command r, (command, r) ∈ s.history →
    (∃ (planner : Core D) (x : Candidate D), planner.plan command = .ok (.append r x)) ∧
      s.world.engine.core.Keeps r

theorem PaperState.initial_orders {cash : PyArg} {source config : Text} {start : PaperState D}
    (initialised : PaperState.initial cash source config = .ok start) : start.orders = [] := by
  obtain ⟨_, fields⟩ := PaperState.initial_eq_ok initialised
  rw [fields]

theorem Session.remembered_fresh {start : PaperState D} (limits : RiskLimits D)
    (empty : start.orders = []) : (Session.fresh start limits).Remembered where
  filed := ⟨[], [], Session.filed_fresh _ _⟩
  replays := by
    intro other limits' d empty' replayed
    cases replayed
    exact ⟨empty.trans empty'.symm, rfl, rfl⟩
  keeps := by
    intro command r member
    cases member

/-- A recovered engine holds the orders and the events of the one before it, and those of the
    records that were written without being acknowledged. -/
theorem Session.Remembered.recovered {s : Session D} (remembered : s.Remembered)
    {reading : Recovery D} {engine : Engine D}
    (start : ∃ cash source config, PaperState.initial cash source config = .ok reading.starting)
    (journal : readJournal s.world.disk = .ok reading.records)
    (replayed : (Core.fresh reading.starting reading.riskLimits).replay reading.records =
      .ok engine.core) {r : Record} (keeps : s.world.engine.core.Keeps r) : engine.core.Keeps r := by
  obtain ⟨rs, tail, filed⟩ := remembered.filed
  obtain ⟨-, same, chain⟩ := filed.read journal
  obtain ⟨extra, shape, -⟩ := filed.ahead chain
  obtain ⟨_, _, _, initialised⟩ := start
  have empty := PaperState.initial_orders initialised
  rw [same, shape] at replayed
  obtain ⟨mid, first, rest⟩ := Core.replay_append.mp replayed
  have agrees := remembered.replays _ _ _ empty first
  have anchored := (Core.anchored_fresh reading.starting reading.riskLimits).replay first
  rw [shape] at chain
  exact (keeps.of_agrees agrees).replay anchored ((journalFormat.chain_append _ _ _).mp chain).2 rest

theorem Session.Remembered.step {s : Session D} (remembered : s.Remembered)
    (move : Session.Move D) : (s.step move).Remembered := by
  obtain ⟨rs, tail, filed⟩ := remembered.filed
  have filed' := filed.step move
  have moved := s.step_moved move
  generalize s.step move = after at moved filed'
  cases moved with
  | kept reason size disk =>
      refine ⟨filed', ?_, ?_⟩
      · intro start limits d empty replayed
        have agrees := remembered.replays start limits d empty replayed
        exact ⟨agrees.orders, agrees.closed, agrees.events⟩
      · intro command r member
        obtain ⟨planned, keeps⟩ := remembered.keeps command r member
        exact ⟨planned, keeps.indexed, keeps.closed, keeps.filled⟩
  | committed command record candidate size disk planned =>
      have appends := (Core.plan_append planned).1
      refine ⟨filed', ?_, ?_⟩
      · intro start limits d empty replayed
        obtain ⟨mid, first, last⟩ := Core.replay_append.mp replayed
        simp only [Core.replay, Py.bind_eq_ok] at last
        obtain ⟨_, one, done⟩ := last
        cases done
        obtain ⟨-, y, reduced, rfl⟩ := Core.replayRecord_eq_ok.mp one
        exact (remembered.replays start limits mid empty first).advance appends.reduced reduced
      · intro earlier r member
        rcases List.mem_append.mp member with old | new
        · obtain ⟨origin, keeps⟩ := remembered.keeps earlier r old
          exact ⟨origin, keeps.advance appends.reduced appends.fresh⟩
        · obtain ⟨rfl, rfl⟩ := Prod.mk.inj (List.mem_singleton.mp new)
          exact ⟨⟨_, candidate, planned⟩, Core.keeps_committed planned⟩
  | recovered reading engine start journal replayed =>
      refine ⟨filed', ?_, ?_⟩
      · intro other limits d empty replayed'
        obtain ⟨_, _, _, initialised⟩ := start
        have fresh := PaperState.initial_orders initialised
        have alike : (Core.fresh reading.starting reading.riskLimits).Agrees
            (Core.fresh other limits) := ⟨fresh.trans empty.symm, rfl, rfl⟩
        exact alike.replay replayed replayed'
      · intro command r member
        obtain ⟨planned, keeps⟩ := remembered.keeps command r member
        exact ⟨planned, remembered.recovered start journal replayed keeps⟩

/-- A plan that replies touches nothing, and one that fails raises. -/
theorem World.execute_retry (w : World D) (command : Command D) {repeats : Prop}
    (succeeds : repeats → ∃ reply, w.engine.core.plan command = .ok (.reply reply))
    (fails : ¬ repeats → ∃ raised, w.engine.core.plan command = .error raised) :
    (∀ io, ∃ reply, w.execute command io = (.ok reply, w)) ↔ repeats := by
  constructor
  · intro replies
    by_contra never
    obtain ⟨raised, failed⟩ := fails never
    obtain ⟨reply, done⟩ := replies .clean
    simp [World.execute, failed] at done
  · intro holds io
    obtain ⟨reply, planned⟩ := succeeds holds
    exact ⟨reply, by simp [World.execute, planned]⟩

/-- At any point of a session the retry of a committed command raises nothing and changes
    nothing exactly when the engine still repeats it. -/
theorem Session.retry_iff {cash : PyArg} {source config : Text} {start : PaperState D}
    (initialised : PaperState.initial cash source config = .ok start) (limits : RiskLimits D)
    (moves : List (Session.Move D)) (command : Command D) (r : Record)
    (committed : (command, r) ∈ ((Session.fresh start limits).run moves).history) :
    (∀ io, ∃ reply, ((Session.fresh start limits).run moves).world.execute command io =
        (.ok reply, ((Session.fresh start limits).run moves).world)) ↔
      ((Session.fresh start limits).run moves).world.engine.core.Repeats command r := by
  have kept : ∀ (s : Session D) move, s.Remembered → (s.step move).Remembered :=
    fun _ move remembered => remembered.step move
  have remembered := run_invariant_of_step kept (Session.remembered_fresh limits (PaperState.initial_orders initialised)) moves
  obtain ⟨⟨planner, x, planned⟩, keeps⟩ := remembered.keeps command r committed
  obtain ⟨succeeds, fails⟩ := Core.plan_retry planned keeps
  exact World.execute_retry _ command succeeds fails

/-- A snapshot of an account without stock or orders. -/
def sampleSnapshot (cash : ℚ) (nonNegative : Bound.nonNegative.admits cash = true) :
    ExecutionSnapshot ℚ :=
  ⟨cash, 0, [], 0, nonNegative, by decide +kernel, by simp⟩

def sampleReconcile (eventId stamp : String) (observed : ExecutionSnapshot ℚ) : Command ℚ :=
  .reconcile (some observed) (.str (txt eventId)) (.str (txt stamp)) (.str (txt "0"))

/-- Two divergences; the first is resolved. -/
def divergedTwice : List (Session.Move ℚ) :=
  [.command (sampleReconcile "E1" "2026-01-01T00:00:00Z" (sampleSnapshot 999 (by decide +kernel))) .clean,
   .command sampleResolve .clean,
   .command (sampleReconcile "E3" "2026-01-01T00:02:00Z" (sampleSnapshot 998 (by decide +kernel))) .clean]

def divergedTwiceSession : Session ℚ := (Session.fresh sampleState sampleLimits).run divergedTwice

/-- The two reconciliations and the resolution all commit. -/
theorem divergedTwice_commits : divergedTwiceSession.history.length = 3 := by
  decide +kernel


/-- The committed resolution, with its record. -/
def resolution : Command ℚ × Record :=
  divergedTwiceSession.history.get ⟨1, by rw [divergedTwice_commits]; decide⟩

theorem resolution_committed : (resolution.1, resolution.2) ∈ divergedTwiceSession.history := by
  rw [Prod.mk.eta, resolution]
  exact List.get_mem _ _

theorem Session.retry_iff_resolution :
    (∀ io, ∃ reply, divergedTwiceSession.world.execute resolution.1 io =
        (.ok reply, divergedTwiceSession.world)) ↔
      divergedTwiceSession.world.engine.core.Repeats resolution.1 resolution.2 := by
  have committed := resolution_committed
  unfold divergedTwiceSession at committed ⊢
  exact Session.retry_iff sampleState_initial sampleLimits divergedTwice resolution.1 resolution.2 committed

/-- After the second divergence the retry of the resolution is refused. -/
theorem Session.not_retry_resolution :
    (resolution.1, resolution.2) ∈ divergedTwiceSession.history ∧
      ¬ ∀ io, ∃ reply, divergedTwiceSession.world.execute resolution.1 io =
        (.ok reply, divergedTwiceSession.world) := by
  refine ⟨resolution_committed, ?_⟩
  intro replies
  obtain ⟨reply, done⟩ := replies .clean
  have refused : (divergedTwiceSession.world.execute resolution.1 .clean).1.toOption.isNone = true := by
    decide +kernel
  rw [done] at refused
  simp [Except.toOption] at refused

end Senex.Paper
