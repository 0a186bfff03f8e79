import Senex.Paper.Recover

/-! # What a command can append

One inversion lemma for `_record` and one for each command.  Whatever the
command, the record it appends extends the engine's own journal and reduces on
the engine's own state: this is `Appends`, and the later proofs use nothing else.
-/

namespace Senex.Paper

open Text

variable {D : Type} [Decimal D]

/-- The record follows the engine's journal and reduces to the candidate. -/
structure Core.Appends (c : Core D) (r : Record) (candidate : Candidate D) : Prop where
  seq : r.journalSeq = c.journalSeq + 1
  prev : r.prevSha256 = c.journalHead
  fresh : Json.lookup r.eventId c.eventsById = none
  filled : strip r.eventId ≠ []
  timestamp : normalizeTimestamp (.str r.timestamp) = .ok r.timestamp
  time : isBefore r.timestamp c.lastTimestamp = false
  isSealed : digest r.base = .ok r.eventSha256
  reduced : c.reduce r = .ok candidate

/-- The `_record` call behind an append. -/
structure Core.Recorded (c : Core D) (eventId : PyArg) (eventType : EventType) (stamp : PyArg)
    (payload : Json.Document) (r : Record) (candidate : Candidate D) : Prop where
  toAppends : c.Appends r candidate
  id : nonempty eventId (txt "event_id") = .ok r.eventId
  stamped : normalizeEventTimestamp stamp = .ok r.timestamp
  type : r.eventType = eventType
  carries : r.payload = payload

theorem normalizeEventTimestamp_eq_ok {timestamp : PyArg} {t : Text} :
    normalizeEventTimestamp timestamp = .ok t ↔ normalizeTimestamp timestamp = .ok t := by
  simp [normalizeEventTimestamp]

theorem normalizeEventTimestamp_idem {timestamp : PyArg} {t : Text}
    (normalized : normalizeEventTimestamp timestamp = .ok t) :
    normalizeEventTimestamp (.str t) = .ok t :=
  normalizeEventTimestamp_eq_ok.mpr
    (normalizeTimestamp_idem (normalizeEventTimestamp_eq_ok.mp normalized))

theorem Core.checkEventTime_eq_ok {c : Core D} {timestamp : PyArg} {t : Text} :
    c.checkEventTime timestamp = .ok t ↔
      normalizeTimestamp timestamp = .ok t ∧ isBefore t c.lastTimestamp = false := by
  simp only [checkEventTime, Py.bind_eq_ok, normalizeEventTimestamp_eq_ok, guardNot_eq_ok,
    Py.pure_eq_ok, Except.ok.injEq]
  constructor
  · rintro ⟨u, normalized, -, time, rfl⟩
    exact ⟨normalized, time⟩
  · rintro ⟨normalized, time⟩
    exact ⟨t, normalized, (), time, rfl⟩

theorem Core.checkUnblocked_eq_ok {c : Core D} {u : Unit} :
    c.checkUnblocked = .ok u ↔ c.blockedReason = none := by
  unfold checkUnblocked
  cases c.blockedReason <;> simp

theorem Core.existingEvent_eq_none {c : Core D} {eventId : Text} {eventType : EventType}
    {timestamp : Text} {payload : Json} {ignored : List Text} :
    c.existingEvent eventId eventType timestamp payload ignored = .ok none ↔
      Json.lookup eventId c.eventsById = none := by
  unfold existingEvent
  cases Json.lookup eventId c.eventsById with
  | none => simp
  | some prior => simp [Py.bind_eq_ok]

theorem Core.record_append {c : Core D} {eventId : PyArg} {eventType : EventType} {timestamp : PyArg}
    {payload : Json.Document} {allowed : Bool} {r : Record} {candidate : Candidate D}
    (planned : c.record eventId eventType timestamp payload allowed = .ok (.append r candidate)) :
    c.Recorded eventId eventType timestamp payload r candidate ∧
      (allowed = false → c.blockedReason = none) := by
  simp only [record, Py.bind_eq_ok] at planned
  obtain ⟨id, hid, ts, hts, existing, hexisting, planned⟩ := planned
  cases existing with
  | some prior => cases eventType <;> simp [Py.bind_eq_ok] at planned
  | none =>
      simp only [Py.bind_eq_ok, onlyWhen_eq_ok, Py.pure_eq_ok, Except.ok.injEq, Plan.append.injEq] at planned
      obtain ⟨_, unblocked, ts', hts', built, hbuilt, candidate', reduced, rfl, rfl⟩ := planned
      have normal := normalizeTimestamp_idem (normalizeEventTimestamp_eq_ok.mp hts)
      obtain ⟨again, time⟩ := checkEventTime_eq_ok.mp hts'
      obtain rfl : ts = ts' := by simpa [normal] using again
      simp only [buildRecord, Py.bind_eq_ok, Py.pure_eq_ok, Except.ok.injEq] at hbuilt
      obtain ⟨sha, digested, rfl⟩ := hbuilt
      obtain ⟨stripped, filled⟩ := strip_of_nonempty hid
      refine ⟨⟨⟨rfl, rfl, existingEvent_eq_none.mp hexisting, ?_, normal, time, digested, reduced⟩, hid,
        hts, rfl, rfl⟩, ?_⟩
      · rwa [stripped]
      · intro notAllowed
        exact checkUnblocked_eq_ok.mp (unblocked (by simp [notAllowed]))

theorem Core.planRegisterOrder_append {c : Core D}
    {eventId timestamp orderId clientOrderId side quantity : PyArg} {r : Record}
    {candidate : Candidate D}
    (planned : c.planRegisterOrder eventId timestamp orderId clientOrderId side quantity =
      .ok (.append r candidate)) :
    ∃ (ts oid cid : Text) (s : Side) (qty : D),
      normalizeEventTimestamp timestamp = .ok ts ∧ nonempty orderId (txt "order_id") = .ok oid ∧
      nonempty clientOrderId (txt "client_order_id") = .ok cid ∧ Side.parse side.text = some s ∧
      decimal quantity (txt "quantity") .positive = .ok qty ∧
      c.Recorded eventId .orderRegistered (.str ts) (registeredPayload oid cid s qty) r candidate ∧
      c.blockedReason = none := by
  simp only [planRegisterOrder, Py.bind_eq_ok, orRaise_eq_ok] at planned
  obtain ⟨ts, hts, oid, hoid, cid, hcid, s, hs, qty, hqty, planned⟩ := planned
  obtain ⟨recorded, unblocked⟩ := record_append planned
  exact ⟨ts, oid, cid, s, qty, hts, hoid, hcid, hs, hqty, recorded, unblocked rfl⟩

theorem Core.planApplyFill_append {c : Core D}
    {eventId fillId orderId side quantity price fee spreadCost slippageCost timestamp : PyArg}
    {r : Record} {candidate : Candidate D}
    (planned : c.planApplyFill eventId fillId orderId side quantity price fee spreadCost slippageCost
      timestamp = .ok (.append r candidate)) :
    ∃ f : FillRequest D,
      fillRequest fillId orderId side quantity price fee spreadCost slippageCost timestamp = .ok f ∧
      nonempty eventId (txt "event_id") = .ok r.eventId ∧
      Json.lookup f.fillId c.fillPayloads = none ∧ (∃ side : Side, f.side = side.text) ∧
      c.Recorded (.str r.eventId) .fillApplied (.str f.timestamp) (f.payload (c.state.lastEventSeq + 1))
        r candidate ∧ c.blockedReason = none := by
  simp only [planApplyFill, Py.bind_eq_ok] at planned
  obtain ⟨f, hf, id, hid, existing, hexisting, planned⟩ := planned
  cases existing with
  | some prior => simp [Py.bind_eq_ok] at planned
  | none =>
      cases fresh : Json.lookup f.fillId c.fillPayloads with
      | some prior => simp [fresh, Py.bind_eq_ok] at planned
      | none =>
          simp only [fresh, planUnseenFill, Py.bind_eq_ok] at planned
          obtain ⟨_, -, _, named, -, -, -, -, -, -, -, -, -, -, -, -, planned⟩ := planned
          obtain ⟨recorded, unblocked⟩ := record_append planned
          have spelled : ∃ side : Side, f.side = side.text := by
            simp only [guardNot_eq_ok, Bool.and_eq_false_iff, bne_eq_false_iff_eq] at named
            rcases named with buy | sell
            · exact ⟨.buy, buy⟩
            · exact ⟨.sell, sell⟩
          have same : id = r.eventId := by
            have := nonempty_idem hid (txt "event_id")
            rw [recorded.id] at this
            exact (Except.ok.inj this).symm
          exact ⟨f, hf, same ▸ hid, fresh, spelled, same ▸ recorded, unblocked rfl⟩

theorem Core.planTerminal_append {c : Core D} {eventType : EventType}
    {eventId timestamp orderId reason : PyArg} {r : Record} {candidate : Candidate D}
    (planned : c.planTerminal eventType eventId timestamp orderId reason = .ok (.append r candidate)) :
    ∃ (ts : Text) (order : PaperOrder D) (remaining : D) (why : Text),
      normalizeEventTimestamp timestamp = .ok ts ∧ c.findOrder orderId = .ok order ∧
      order.remainingQty = .ok remaining ∧ nonempty reason (txt "reason") = .ok why ∧
      nonempty eventId (txt "event_id") = .ok r.eventId ∧
      c.Recorded (.str r.eventId) eventType (.str ts) (terminalPayload order.orderId remaining why) r
        candidate ∧ c.blockedReason = none := by
  simp only [planTerminal, Py.bind_eq_ok] at planned
  obtain ⟨ts, hts, order, horder, remaining, hremaining, why, hwhy, id, hid, existing, hexisting,
    planned⟩ := planned
  cases existing with
  | some prior => simp at planned
  | none =>
      simp only [Py.bind_eq_ok] at planned
      obtain ⟨-, -, -, -, -, -, planned⟩ := planned
      obtain ⟨recorded, unblocked⟩ := record_append planned
      have same : id = r.eventId := by
        have := nonempty_idem hid (txt "event_id")
        rw [recorded.id] at this
        exact (Except.ok.inj this).symm
      exact ⟨ts, order, remaining, why, hts, horder, hremaining, hwhy, same ▸ hid, same ▸ recorded,
        unblocked rfl⟩

theorem Core.planReconcile_append {c : Core D} {observed : Option (ExecutionSnapshot D)}
    {eventId timestamp tolerance : PyArg} {r : Record} {candidate : Candidate D}
    (planned : c.planReconcile observed eventId timestamp tolerance = .ok (.append r candidate)) :
    ∃ (ts : Text) (snapshot : ExecutionSnapshot D) (tol : D),
      normalizeEventTimestamp timestamp = .ok ts ∧ observed = some snapshot ∧
      decimal tolerance (txt "tolerance") .nonNegative = .ok tol ∧
      c.Recorded eventId .snapshotReconciled (.str ts) (reconciledPayload snapshot tol) r candidate ∧
      c.blockedReason = none := by
  simp only [planReconcile, Py.bind_eq_ok, orRaise_eq_ok] at planned
  obtain ⟨ts, hts, snapshot, hsnapshot, tol, htol, planned⟩ := planned
  obtain ⟨recorded, unblocked⟩ := record_append planned
  exact ⟨ts, snapshot, tol, hts, hsnapshot, htol, recorded, unblocked rfl⟩

theorem Core.planResolveDivergence_append {c : Core D}
    {eventId timestamp approvalRef reason : PyArg} {r : Record} {candidate : Candidate D}
    (planned : c.planResolveDivergence eventId timestamp approvalRef reason =
      .ok (.append r candidate)) :
    ∃ ts approval why : Text,
      normalizeEventTimestamp timestamp = .ok ts ∧
      nonempty approvalRef (txt "approval_ref") = .ok approval ∧
      nonempty reason (txt "reason") = .ok why ∧
      nonempty eventId (txt "event_id") = .ok r.eventId ∧
      c.Recorded (.str r.eventId) .divergenceResolved (.str ts)
        (resolvedPayload approval why c.discrepancies) r candidate ∧
      c.blockedReason.isSome = true := by
  simp only [planResolveDivergence, Py.bind_eq_ok] at planned
  obtain ⟨ts, hts, approval, happroval, why, hwhy, id, hid, existing, hexisting, planned⟩ := planned
  cases existing with
  | some prior => simp at planned
  | none =>
      simp only [Py.bind_eq_ok, guardNot_eq_ok] at planned
      obtain ⟨-, blocked, planned⟩ := planned
      obtain ⟨recorded, -⟩ := record_append planned
      have same : id = r.eventId := by
        have := nonempty_idem hid (txt "event_id")
        rw [recorded.id] at this
        exact (Except.ok.inj this).symm
      exact ⟨ts, approval, why, hts, happroval, hwhy, same ▸ hid, same ▸ recorded,
        by simpa [Option.isNone_eq_false_iff] using blocked⟩

/-- Whether the command is the one that may append while the engine is blocked. -/
def Command.resolves : Command D → Bool
  | .resolveDivergence .. => true
  | _ => false

/-- Every appended record extends the engine; only a resolution is appended while blocked. -/
theorem Core.plan_append {c : Core D} {command : Command D} {r : Record} {candidate : Candidate D}
    (planned : c.plan command = .ok (.append r candidate)) :
    c.Appends r candidate ∧ c.blockedReason.isSome = command.resolves ∧
      (r.eventType = .divergenceResolved ↔ command.resolves = true) := by
  cases command with
  | registerOrder =>
      obtain ⟨_, _, _, _, _, -, -, -, -, -, recorded, unblocked⟩ := planRegisterOrder_append planned
      exact ⟨recorded.toAppends, by simp [unblocked, Command.resolves], by simp [recorded.type, Command.resolves]⟩
  | applyFill =>
      obtain ⟨_, -, -, -, -, recorded, unblocked⟩ := planApplyFill_append planned
      exact ⟨recorded.toAppends, by simp [unblocked, Command.resolves], by simp [recorded.type, Command.resolves]⟩
  | cancelOrder =>
      obtain ⟨_, _, _, _, -, -, -, -, -, recorded, unblocked⟩ := planTerminal_append planned
      exact ⟨recorded.toAppends, by simp [unblocked, Command.resolves], by simp [recorded.type, Command.resolves]⟩
  | expireOrder =>
      obtain ⟨_, _, _, _, -, -, -, -, -, recorded, unblocked⟩ := planTerminal_append planned
      exact ⟨recorded.toAppends, by simp [unblocked, Command.resolves], by simp [recorded.type, Command.resolves]⟩
  | reconcile =>
      obtain ⟨_, _, _, -, -, -, recorded, unblocked⟩ := planReconcile_append planned
      exact ⟨recorded.toAppends, by simp [unblocked, Command.resolves], by simp [recorded.type, Command.resolves]⟩
  | resolveDivergence =>
      obtain ⟨_, _, _, -, -, -, -, recorded, blocked⟩ := planResolveDivergence_append planned
      exact ⟨recorded.toAppends, by simp [blocked, Command.resolves], by simp [recorded.type, Command.resolves]⟩

end Senex.Paper
