import Senex.Foundation.Transition
import Senex.Paper.Effect

/-! # Replay and the journal

What a reduction does, event type by event type, and the link between an engine
and the records behind it: an engine is `Journaled` when replaying its journal
from the genesis engine gives it back.
-/

namespace Senex.Paper

open Text

variable {D : Type} [Decimal D]

/-! ## What a reduction does -/

inductive Core.Reduces (c : Core D) (r : Record) : Candidate D → Prop
  | registered (state : PaperState D) (type : r.eventType = .orderRegistered)
      (reduced : c.reduceRegistered r.payload.1 = .ok state) :
      Reduces c r { c.candidate with state }
  | filled (state : PaperState D) (application : FillApplication D)
      (type : r.eventType = .fillApplied)
      (reduced : c.reduceFill r.timestamp r.payload.1 = .ok (state, application)) :
      Reduces c r { c.candidate with state, result := .fill application }
  | terminated (status : OrderStatus) (terminalStatuses : List (Text × OrderStatus))
      (type : r.eventType = .orderCancelled ∧ status = .cancelled ∨
        r.eventType = .orderExpired ∧ status = .expired)
      (reduced : c.reduceTerminal r.eventType status r.payload.1 = .ok terminalStatuses) :
      Reduces c r { c.candidate with terminalStatuses }
  | reconciled (report : ReconciliationReport) (type : r.eventType = .snapshotReconciled)
      (made : c.makeReconciliationReport r.payload.1 = .ok report) (isMatch : report.matched = true) :
      Reduces c r { c.candidate with result := .report report }
  | diverged (report : ReconciliationReport) (type : r.eventType = .snapshotReconciled)
      (made : c.makeReconciliationReport r.payload.1 = .ok report) (isMatch : report.matched = false) :
      Reduces c r { c.candidate with
        discrepancies := report.discrepancies
        blockedReason := some (.divergence r.journalSeq)
        result := .report report }
  | resolved (type : r.eventType = .divergenceResolved) (checked : c.checkResolved r.payload.1 = .ok ()) :
      Reduces c r { c.candidate with blockedReason := none }

theorem Core.reduce_cases {c : Core D} {r : Record} {candidate : Candidate D}
    (reduced : c.reduce r = .ok candidate) :
    (c.blockedReason = none ∨ r.eventType = .divergenceResolved) ∧ c.Reduces r candidate := by
  simp only [reduce, Py.bind_eq_ok, guardNot_eq_ok, Bool.and_eq_false_iff, Option.isSome_eq_false_iff,
    Option.isNone_iff_eq_none, bne_eq_false_iff_eq] at reduced
  obtain ⟨-, -, -, -, -, open_, reduced⟩ := reduced
  refine ⟨open_, ?_⟩
  unfold reduceEvent at reduced
  cases type : r.eventType with
  | orderRegistered =>
      simp only [type, Py.bind_eq_ok, Py.pure_eq_ok, Except.ok.injEq] at reduced
      obtain ⟨state, reduced, rfl⟩ := reduced
      exact .registered state type reduced
  | fillApplied =>
      simp only [type, Py.bind_eq_ok, Py.pure_eq_ok, Except.ok.injEq] at reduced
      obtain ⟨⟨state, application⟩, reduced, rfl⟩ := reduced
      exact .filled state application type reduced
  | orderCancelled =>
      simp only [type, Py.bind_eq_ok, Py.pure_eq_ok, Except.ok.injEq] at reduced
      obtain ⟨statuses, reduced, rfl⟩ := reduced
      exact .terminated .cancelled statuses (Or.inl ⟨type, rfl⟩) (type ▸ reduced)
  | orderExpired =>
      simp only [type, Py.bind_eq_ok, Py.pure_eq_ok, Except.ok.injEq] at reduced
      obtain ⟨statuses, reduced, rfl⟩ := reduced
      exact .terminated .expired statuses (Or.inr ⟨type, rfl⟩) (type ▸ reduced)
  | snapshotReconciled =>
      simp only [type, Py.bind_eq_ok] at reduced
      obtain ⟨-, -, report, made, reduced⟩ := reduced
      cases isMatch : report.matched with
      | true =>
          simp only [isMatch, if_true, Py.pure_eq_ok, Except.ok.injEq] at reduced
          subst reduced
          exact .reconciled report type made isMatch
      | false =>
          simp only [isMatch, Bool.false_eq_true, if_false, Py.pure_eq_ok, Except.ok.injEq] at reduced
          subst reduced
          exact .diverged report type made isMatch
  | divergenceResolved =>
      simp only [type, Py.bind_eq_ok, Py.pure_eq_ok, Except.ok.injEq] at reduced
      obtain ⟨_, checked, rfl⟩ := reduced
      exact .resolved type checked

theorem Core.reduceRegistered_eq_ok {c : Core D} {payload : Json} {state : PaperState D}
    (reduced : c.reduceRegistered payload = .ok state) :
    (∀ o ∈ c.state.orders, Json.str o.orderId ≠ field payload (txt "order_id")) ∧
      registerOrder c.state (jsonArg (field payload (txt "order_id"))).text
        (jsonArg (field payload (txt "client_order_id"))).text
        (jsonArg (field payload (txt "side"))).text (jsonArg (field payload (txt "quantity"))) =
          .ok state := by
  simp only [reduceRegistered, Py.bind_eq_ok, guardNot_eq_ok, List.any_eq_false, Bool.or_eq_true,
    beq_iff_eq, not_or] at reduced
  obtain ⟨-, -, -, apart, registered⟩ := reduced
  exact ⟨fun o ho => (apart o ho).1, registered⟩

/-- The fill that a `FILL_APPLIED` payload describes. -/
def fillOf (payload : Json) : Py (FillEvent D) := do
  FillEvent.construct {
    fillId := ← textArg (field payload (txt "fill_id"))
    orderId := ← textArg (field payload (txt "order_id"))
    side := ← textArg (field payload (txt "side"))
    quantity := jsonArg (field payload (txt "quantity"))
    price := jsonArg (field payload (txt "price"))
    fee := jsonArg (field payload (txt "fee"))
    spreadCost := jsonArg (field payload (txt "spread_cost"))
    slippageCost := jsonArg (field payload (txt "slippage_cost"))
    timestamp := jsonArg (field payload (txt "timestamp"))
    eventSeq := (field payload (txt "fill_seq")).asNat?.getD 0 }

/-- What `_reduce` has checked when a fill changes the state. -/
structure Core.FillReduced (c : Core D) (payload : Json) (order : PaperOrder D) (event : FillEvent D)
    (f : FillFigures D) (after : PaperState D) (application : FillApplication D) : Prop where
  built : fillOf payload = .ok event
  orderId : field payload (txt "order_id") = .str event.orderId
  fillId : field payload (txt "fill_id") = .str event.fillId
  side : ∃ text, field payload (txt "side") = .str text ∧ Side.parse text = some event.side
  quantity : decimal (jsonArg (field payload (txt "quantity"))) (txt "quantity") .positive =
    .ok event.quantity
  live : c.isTerminal order.orderId = false
  size : Decimal.lt c.riskLimits.maxFillQty event.quantity = false
  inventory : field payload (txt "side") = .str (txt "buy") → c.checkInventory event.quantity = .ok ()
  unseen : event.fillId ∉ c.state.processedFillIds
  found : c.state.findOrder? event.orderId = some order
  effect : FillApplied c.state event order f after application

theorem textArg_eq_ok {value : Json} {t : Text} : textArg value = .ok t ↔ value = .str t := by
  cases value <;> simp [textArg]

theorem Core.reduceFill_eq_ok {c : Core D} {timestamp : Text} {payload : Json} {after : PaperState D}
    {application : FillApplication D}
    (reduced : c.reduceFill timestamp payload = .ok (after, application)) :
    ∃ order event f, c.FillReduced payload order event f after application := by
  simp only [reduceFill, checkFill, Py.bind_eq_ok, guardNot_eq_ok, orRaise_eq_ok, onlyWhen_eq_ok,
    rewrap_eq_ok, textArg_eq_ok, beq_iff_eq, Bool.not_eq_eq_eq_not, Bool.not_false, Py.pure_eq_ok,
    Except.ok.injEq] at reduced
  obtain ⟨-, ⟨-, -, named, hnamed, -, live, qty, hqty, -, size, _, inventory, -, seq, -⟩, fillId, hfill,
    orderId, horder, side, hside, event, built, ⟨state, result⟩, applied, -, isApplied, same⟩ := reduced
  cases same
  have described : fillOf payload = .ok event := by
    simp only [bne_eq_false_iff_eq] at seq
    simp only [fillOf, hfill, horder, hside, textArg, Py.ok_bind, seq, Json.asNat?_ofNat,
      Option.getD_some]
    exact built
  obtain ⟨unseen, order, f, found, effect⟩ := applyFill_applied applied isApplied
  have accepted := FillEvent.construct_eq_ok.mp built
  simp only [FillEvent.postInit, Py.bind_eq_ok, orRaise_eq_ok, Py.pure_eq_ok, Except.ok.injEq]
    at accepted
  obtain ⟨-, -, s, hs, quantity, hquantity, _, -, _, -, _, -, _, -, -, -, _, -, fields⟩ := accepted
  have ids : event.fillId = fillId ∧ event.orderId = orderId ∧ event.side = s ∧
      event.quantity = quantity := by rw [← fields]; exact ⟨rfl, rfl, rfl, rfl⟩
  obtain ⟨sameFill, sameOrder, sameSide, sameQuantity⟩ := ids
  have sameQty : qty = quantity := by
    have first : asDecimal _ _ _ = Except.ok qty := rewrap_eq_ok.mp hqty
    have second : asDecimal _ _ _ = Except.ok quantity := rewrap_eq_ok.mp hquantity
    exact Except.ok.inj (first.symm.trans second)
  have sameNamed : named = order := by
    unfold payloadOrder at hnamed
    unfold PaperState.findOrder? at found
    rw [horder] at hnamed
    have : (c.state.orders.find? fun o => Json.str o.orderId == Json.str orderId) = some order := by
      rw [← found, sameOrder]
      congr 1
      funext o
      by_cases h : o.orderId = orderId <;> simp [h]
    exact Option.some.inj (hnamed.symm.trans this)
  refine ⟨order, event, f, described, by rw [horder, sameOrder], by rw [hfill, sameFill],
    ⟨side, hside, by rw [hs, sameSide]⟩, by rw [hqty, sameQty, sameQuantity],
    sameNamed ▸ live, by rw [sameQuantity, ← sameQty]; exact size,
    fun buy => by rw [sameQuantity, ← sameQty]; exact inventory buy, unseen, found, effect⟩

theorem Core.reduceTerminal_eq_ok {c : Core D} {eventType : EventType} {status : OrderStatus}
    {payload : Json} {terminalStatuses : List (Text × OrderStatus)}
    (reduced : c.reduceTerminal eventType status payload = .ok terminalStatuses) :
    ∃ order : PaperOrder D, c.payloadOrder payload = some order ∧ order.status ≠ .filled ∧
      c.isTerminal order.orderId = false ∧
      terminalStatuses = Json.insert order.orderId status c.terminalStatuses := by
  simp only [reduceTerminal, Py.bind_eq_ok, guardNot_eq_ok, orRaise_eq_ok, Bool.or_eq_false_iff,
    beq_eq_false_iff_ne, Py.pure_eq_ok, Except.ok.injEq] at reduced
  obtain ⟨-, -, order, found, -, ⟨unfilled, live⟩, _, -, _, -, -, -, _, -, rfl⟩ := reduced
  exact ⟨order, found, unfilled, live, rfl⟩

/-! ## What no event changes -/

/-- The fields of a state that identify its replay. -/
def PaperState.genesis (s : PaperState D) : Text × Text × D :=
  (s.sourceSha256, s.configSha256, s.startingCash)

theorem Core.reduce_genesis {c : Core D} {r : Record} {candidate : Candidate D}
    (reduced : c.reduce r = .ok candidate) : candidate.state.genesis = c.state.genesis := by
  obtain ⟨-, event⟩ := reduce_cases reduced
  cases event with
  | registered state type inner =>
      obtain ⟨-, registered⟩ := reduceRegistered_eq_ok inner
      rcases registerOrder_eq_ok registered with rfl | ⟨order, -, -, fields⟩
      · rfl
      · simp [PaperState.genesis, fields]
  | filled state application type inner =>
      obtain ⟨order, event, f, fill⟩ := reduceFill_eq_ok inner
      simp [PaperState.genesis, fill.effect.after]
  | _ => rfl

/-! ## Replay -/

theorem Core.replayRecord_eq_ok {c after : Core D} {r : Record} :
    c.replayRecord r = .ok after ↔
      (∃ t, normalizeTimestamp (.str r.timestamp) = .ok t ∧ isBefore t c.lastTimestamp = false) ∧
        ∃ candidate, c.reduce r = .ok candidate ∧ after = c.advance r candidate := by
  simp only [replayRecord, Py.bind_eq_ok, checkEventTime_eq_ok, Py.pure_eq_ok, Except.ok.injEq,
    eq_comm (a := after)]
  constructor
  · rintro ⟨t, time, candidate, reduced, rfl⟩
    exact ⟨⟨t, time⟩, candidate, reduced, rfl⟩
  · rintro ⟨⟨t, time⟩, candidate, reduced, rfl⟩
    exact ⟨t, time, candidate, reduced, rfl⟩

theorem Core.Appends.replayed {c : Core D} {r : Record} {candidate : Candidate D}
    (appends : c.Appends r candidate) : c.replayRecord r = .ok (c.advance r candidate) :=
  replayRecord_eq_ok.mpr ⟨⟨_, appends.timestamp, appends.time⟩, candidate, appends.reduced, rfl⟩

theorem Core.replay_append {c after : Core D} {xs ys : List Record} :
    c.replay (xs ++ ys) = .ok after ↔ ∃ mid, c.replay xs = .ok mid ∧ mid.replay ys = .ok after := by
  induction xs generalizing c with
  | nil => simp [replay]
  | cons x xs ih =>
      simp only [List.cons_append, replay, Py.bind_eq_ok, ih]
      constructor
      · rintro ⟨next, first, mid, front, back⟩
        exact ⟨mid, ⟨next, first, front⟩, back⟩
      · rintro ⟨mid, ⟨next, first, front⟩, back⟩
        exact ⟨next, first, mid, front, back⟩

theorem Core.replay_concat {c mid after : Core D} {rs : List Record} {r : Record}
    (replayed : c.replay rs = .ok mid) (step : mid.replayRecord r = .ok after) :
    c.replay (rs ++ [r]) = .ok after :=
  replay_append.mpr ⟨mid, replayed, by simp [replay, step]⟩

/-- What every replayed record keeps, a replay keeps. -/
theorem Core.replay_invariant {inv : Core D → Prop}
    (kept : ∀ c r candidate, inv c → c.reduce r = .ok candidate → inv (c.advance r candidate))
    {c after : Core D} {rs : List Record} (start : inv c) (replayed : c.replay rs = .ok after) :
    inv after := by
  induction rs generalizing c with
  | nil =>
      cases replayed
      exact start
  | cons r rs ih =>
      simp only [replay, Py.bind_eq_ok] at replayed
      obtain ⟨next, first, rest⟩ := replayed
      obtain ⟨-, candidate, reduced, rfl⟩ := replayRecord_eq_ok.mp first
      exact ih (kept c r candidate start reduced) rest

theorem Core.replay_genesis {c after : Core D} {rs : List Record} (replayed : c.replay rs = .ok after) :
    after.state.genesis = c.state.genesis ∧ after.riskLimits = c.riskLimits := by
  have kept : ∀ (d : Core D) r candidate,
      (d.state.genesis = c.state.genesis ∧ d.riskLimits = c.riskLimits) →
      d.reduce r = .ok candidate →
      (d.advance r candidate).state.genesis = c.state.genesis ∧
        (d.advance r candidate).riskLimits = c.riskLimits := by
    rintro d r candidate ⟨same, limits⟩ reduced
    exact ⟨(reduce_genesis reduced).trans same, limits⟩
  exact replay_invariant kept ⟨rfl, rfl⟩ replayed

/-- The loop of `recover` replays, whatever it compares on the way. -/
theorem Core.replay_of_replayChecked {checkpoint : Json} {seq idx : Nat} {c after : Core D}
    {rs : List Record} (done : replayChecked checkpoint seq c idx rs = .ok after) :
    c.replay rs = .ok after := by
  induction rs generalizing c idx with
  | nil => exact done
  | cons r rs ih =>
      simp only [replayChecked, Py.bind_eq_ok] at done
      obtain ⟨next, first, -, -, rest⟩ := done
      exact Py.bind_eq_ok.mpr ⟨next, first, ih rest⟩

/-- A recovered engine is a replay, and expects the size it finds at its construction. -/
theorem Recovery.build_eq_ok {reading : Recovery D} {fileSize : Nat} {e : Engine D}
    (built : reading.build fileSize = .ok e) :
    (Core.fresh reading.starting reading.riskLimits).replay reading.records = .ok e.core ∧
      e.journalSize = fileSize := by
  simp only [build, Py.bind_eq_ok, Py.pure_eq_ok, Except.ok.injEq] at built
  obtain ⟨-, -, core, replayed, -, -, rfl⟩ := built
  exact ⟨Core.replay_of_replayChecked replayed, rfl⟩

theorem recoverRead_eq_ok {checkpoint disk : Bytes} {source config : PyArg} {limits : RiskLimits D}
    {reading : Recovery D} (read : recoverRead checkpoint disk source config limits = .ok reading) :
    readJournal disk = .ok reading.records ∧ reading.riskLimits = limits ∧
      ∃ cash source' config', PaperState.initial cash source' config' = .ok reading.starting := by
  simp only [recoverRead, Py.bind_eq_ok, Py.pure_eq_ok, Except.ok.injEq] at read
  obtain ⟨checked, -, records, journal, -, -, -, -, starting, initial, rfl⟩ := read
  exact ⟨journal, rfl, _, _, _, initial⟩

/-- The engine stands at this place of a chain. -/
structure Core.Anchored (c : Core D) (a : JournalAnchor) : Prop where
  seq : c.journalSeq = a.seq
  head : c.journalHead = a.head
  used : ∀ id, Json.lookup id c.eventsById = none ↔ id ∉ a.used

theorem Core.anchored_fresh (state : PaperState D) (limits : RiskLimits D) :
    (Core.fresh state limits).Anchored genesisAnchor :=
  ⟨rfl, rfl, by simp [Core.fresh, genesisAnchor, Json.lookup]⟩

theorem Core.Anchored.advance {c : Core D} {a : JournalAnchor} (anchored : c.Anchored a) (r : Record)
    (candidate : Candidate D) : (c.advance r candidate).Anchored (journalFormat.advance a r) := by
  refine ⟨rfl, rfl, fun id => ?_⟩
  by_cases same : id = r.eventId
  · subst same
    simp [Core.advance, Json.lookup_insert_self, ChainFormat.advance, journalFormat]
  · simp [Core.advance, Json.lookup_insert_of_ne _ same, ChainFormat.advance, journalFormat, same,
      anchored.used]

theorem Core.Anchored.replay {c after : Core D} {a : JournalAnchor} {rs : List Record}
    (anchored : c.Anchored a) (replayed : c.replay rs = .ok after) :
    after.Anchored (journalFormat.after a rs) := by
  induction rs generalizing c a with
  | nil =>
      cases replayed
      exact anchored
  | cons r rs ih =>
      simp only [Core.replay, Py.bind_eq_ok] at replayed
      obtain ⟨next, first, rest⟩ := replayed
      obtain ⟨-, candidate, -, rfl⟩ := Core.replayRecord_eq_ok.mp first
      exact ih (anchored.advance r candidate) rest

/-- A record that an engine appends extends the chain the engine stands on. -/
theorem Core.Appends.extends {c : Core D} {r : Record} {candidate : Candidate D} {a : JournalAnchor}
    (appends : c.Appends r candidate) (anchored : c.Anchored a) : journalFormat.Extends a r where
  seq := by rw [← anchored.seq]; exact appends.seq
  prev := by rw [← anchored.head]; exact appends.prev
  fresh := (anchored.used _).mp appends.fresh
  isSealed := ⟨appends.filled, appends.timestamp, appends.isSealed⟩

/-! ## An engine and its journal -/

/-- The records on disk are a chain, and replaying them gives the engine. -/
structure World.Journaled (start : Core D) (w : World D) (rs : List Record) : Prop where
  chain : journalFormat.Chain genesisAnchor rs
  written : journalBytes rs = .ok w.disk
  replayed : start.replay rs = .ok w.engine.core
  size : w.engine.journalSize = w.disk.length

theorem World.journaled_fresh (state : PaperState D) (limits : RiskLimits D) :
    (World.fresh state limits).Journaled (.fresh state limits) [] :=
  ⟨trivial, rfl, rfl, rfl⟩

/-- The engine stands at the end of its journal. -/
theorem World.Journaled.anchored {state : PaperState D} {limits : RiskLimits D} {w : World D}
    {rs : List Record} (journaled : w.Journaled (.fresh state limits) rs) :
    w.engine.core.Anchored (journalFormat.after genesisAnchor rs) :=
  (Core.anchored_fresh state limits).replay journaled.replayed

/-- A commit appends its record to the journal. -/
theorem World.Journaled.commit {state : PaperState D} {limits : RiskLimits D} {w : World D}
    {rs : List Record} {r : Record} {candidate : Candidate D} {data : Bytes}
    (journaled : w.Journaled (.fresh state limits) rs) (appends : w.engine.core.Appends r candidate)
    (coded : r.data = .ok data) :
    World.Journaled (.fresh state limits)
      ⟨⟨w.engine.core.advance r candidate, w.engine.journalSize + data.length⟩, w.disk ++ data⟩
      (rs ++ [r]) where
  chain := journalFormat.chain_concat journaled.chain (appends.extends journaled.anchored)
  written := journalBytes_concat journaled.written coded
  replayed := Core.replay_concat journaled.replayed appends.replayed
  size := by simp [journaled.size]

end Senex.Paper
