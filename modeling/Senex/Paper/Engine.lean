import Senex.Paper.Journal

/-! # The paper engine

The in-memory half of `PaperExecutionEngine`: its state, the reducer, and each
command up to the point where it either replies or has a record to append.
-/

namespace Senex.Paper

open Text

variable {D : Type} [Decimal D]

structure RiskLimits (D : Type) [Decimal D] where
  maxInventory : D
  maxFillQty : D
  valid : Bound.positive.admits maxInventory = true ∧ Bound.positive.admits maxFillQty = true

/-- `RiskLimits(...)` -/
def RiskLimits.construct (maxInventory maxFillQty : PyArg) : Py (RiskLimits D) :=
  match h₁ : decimal (D := D) maxInventory (txt "max_inventory") .positive with
  | .error e => .error e
  | .ok inventory =>
      match h₂ : decimal (D := D) maxFillQty (txt "max_fill_qty") .positive with
      | .error e => .error e
      | .ok fillQty => .ok ⟨inventory, fillQty, decimal_admits h₁, decimal_admits h₂⟩

def RiskLimits.toPayload (limits : RiskLimits D) : Json :=
  .ofMembers [(txt "max_inventory", .str (Decimal.str limits.maxInventory)),
    (txt "max_fill_qty", .str (Decimal.str limits.maxFillQty))]

/-! ## State -/

/-- Why an engine is blocked. -/
inductive BlockReason where
  | divergence (journalSeq : Nat)
  | durability (detail : Text)
  | durabilityOnClose (detail : Text)
  | writerConflict
  deriving DecidableEq

def BlockReason.text : BlockReason → Text
  | .divergence journalSeq => txt "reconciliation divergence at journal seq " ++ ofNat journalSeq
  | .durability detail => txt "journal durability failure: " ++ detail
  | .durabilityOnClose detail => txt "journal durability failure on close: " ++ detail
  | .writerConflict => txt "journal writer conflict: durable journal changed since this engine loaded"

/-- `reason.startswith("journal ")` -/
def BlockReason.journalFault (reason : BlockReason) : Bool := (txt "journal ").isPrefixOf reason.text

@[simp] theorem BlockReason.journalFault_divergence (n : Nat) :
    (BlockReason.divergence n).journalFault = false := rfl

@[simp] theorem BlockReason.journalFault_durability (detail : Text) :
    (BlockReason.durability detail).journalFault = true := rfl

@[simp] theorem BlockReason.journalFault_durabilityOnClose (detail : Text) :
    (BlockReason.durabilityOnClose detail).journalFault = true := rfl

@[simp] theorem BlockReason.journalFault_writerConflict :
    BlockReason.writerConflict.journalFault = true := rfl

/-- The engine in memory, without its view of the file.  No iteration order of
    a dictionary is observed but the sorted one, so dictionaries are kept sorted. -/
structure Core (D : Type) [Decimal D] where
  state : PaperState D
  riskLimits : RiskLimits D
  terminalStatuses : List (Text × OrderStatus)
  journalSeq : Nat
  journalHead : Text
  lastTimestamp : Option Text
  blockedReason : Option BlockReason
  discrepancies : List Text
  eventsById : List (Text × Record)
  fillPayloads : List (Text × Json)

/-- The engine that `__init__` builds. -/
def Core.fresh (initialState : PaperState D) (riskLimits : RiskLimits D) : Core D where
  state := initialState
  riskLimits
  terminalStatuses := []
  journalSeq := 0
  journalHead := genesisHash
  lastTimestamp := none
  blockedReason := none
  discrepancies := []
  eventsById := []
  fillPayloads := []

inductive Result (D : Type) where
  | none
  | fill (application : FillApplication D)
  | report (report : ReconciliationReport)

/-- What `_reduce` returns. -/
structure Candidate (D : Type) [Decimal D] where
  state : PaperState D
  terminalStatuses : List (Text × OrderStatus)
  blockedReason : Option BlockReason
  discrepancies : List Text
  result : Result D

/-! ## Reducing a record -/

def SnapshotOrder.fromPayload (item : Json) : Py (SnapshotOrder D) := do
  let orderId ← orRaise (item.get? (txt "order_id")) .keyError (txt "order_id")
  let side ← orRaise (item.get? (txt "side")) .keyError (txt "side")
  let remainingQty ← orRaise (item.get? (txt "remaining_qty")) .keyError (txt "remaining_qty")
  construct (← textArg orderId) (← textArg side) (jsonArg remainingQty)

/-- `theirs` of the reconciliation report: the observed open orders by ID. -/
def observedOrders (items : List Json) : Py (List (Text × SnapshotOrder D)) :=
  items.foldlM (fun theirs item => do
    let snap : SnapshotOrder D ← SnapshotOrder.fromPayload item
    guardNot (Json.lookup snap.orderId theirs).isSome .contractError
      (txt "snapshot contains duplicate open order IDs")
    return Json.insert snap.orderId snap theirs) []

/-- `ours` of the reconciliation report: the local open orders by ID. -/
def Core.openOrders (c : Core D) : List (Text × PaperOrder D) :=
  (c.state.orders.filter fun o => (o.status == .open_ || o.status == .partiallyFilled) &&
    (Json.lookup o.orderId c.terminalStatuses).isNone).foldl
      (fun ours o => Json.insert o.orderId o ours) []

def exceeds (a b tolerance : D) : Py Bool := do
  let gap ← Decimal.abs (← Decimal.sub a b)
  return Decimal.lt tolerance gap

def orderIssues (tolerance : D) (oid : Text) (ours : PaperOrder D) (theirs : SnapshotOrder D) :
    Py (List Text) := do
  let side := if ours.side = theirs.side then [] else [txt "order_side_mismatch:" ++ oid]
  let remaining ← ours.remainingQty
  let differs ← exceeds remaining theirs.remainingQty tolerance
  return side ++ if differs then
    [txt "order_remaining_mismatch:" ++ oid ++ txt ":local=" ++ Decimal.str remaining ++
      txt ":observed=" ++ Decimal.str theirs.remainingQty] else []

/-- `_make_reconciliation_report` -/
def Core.makeReconciliationReport (c : Core D) (payload : Json) : Py ReconciliationReport := do
  let tolerance : D ← decimal (jsonArg (field payload (txt "tolerance"))) (txt "tolerance") .nonNegative
  let cash : D ← decimal (jsonArg (field payload (txt "cash"))) (txt "snapshot cash") .nonNegative
  let inventory : D ← decimal (jsonArg (field payload (txt "inventory_qty")))
    (txt "snapshot inventory_qty") .nonNegative
  let lastSeq ← orRaise (field payload (txt "last_event_seq")).asNat? .contractError
    (txt "snapshot last_event_seq must be a non-negative integer")
  let cashDiffers ← exceeds c.state.cash cash tolerance
  let inventoryDiffers ← exceeds c.state.inventoryQty inventory tolerance
  let ours := c.openOrders
  let theirs ← observedOrders (← itemsOf (field payload (txt "open_orders")))
  let shared ← (ours.filter fun o => (Json.lookup o.1 theirs).isSome).mapM fun o =>
    match Json.lookup o.1 theirs with
    | some snap => orderIssues tolerance o.1 o.2 snap
    | none => .ok []
  let issues :=
    (if cashDiffers then [txt "cash_mismatch:local=" ++ Decimal.str c.state.cash ++
      txt ":observed=" ++ Decimal.str cash] else []) ++
    (if inventoryDiffers then [txt "inventory_mismatch:local=" ++ Decimal.str c.state.inventoryQty ++
      txt ":observed=" ++ Decimal.str inventory] else []) ++
    (if c.state.lastEventSeq ≠ lastSeq then [txt "event_sequence_mismatch:local=" ++
      ofNat c.state.lastEventSeq ++ txt ":observed=" ++ ofNat lastSeq] else []) ++
    ((ours.filter fun o => (Json.lookup o.1 theirs).isNone).map fun o =>
      txt "missing_observed_order:" ++ o.1) ++
    ((theirs.filter fun o => (Json.lookup o.1 ours).isNone).map fun o =>
      txt "unexpected_observed_order:" ++ o.1) ++
    shared.flatten
  return ⟨issues == [], issues, c.state.lastEventSeq, lastSeq⟩

def fillKeys : List Text :=
  [txt "fee", txt "fill_id", txt "fill_seq", txt "order_id", txt "price", txt "quantity", txt "side",
   txt "slippage_cost", txt "spread_cost", txt "timestamp"]

/-- The order that a payload names. -/
def Core.payloadOrder (c : Core D) (payload : Json) : Option (PaperOrder D) :=
  c.state.orders.find? fun o => Json.str o.orderId == field payload (txt "order_id")

def Core.isTerminal (c : Core D) (orderId : Text) : Bool :=
  (Json.lookup orderId c.terminalStatuses).isSome

def Core.reduceRegistered (c : Core D) (payload : Json) : Py (PaperState D) := do
  guardNot (payload.keys != [txt "client_order_id", txt "order_id", txt "quantity", txt "side"])
    .contractError (txt "ORDER_REGISTERED payload fields do not match schema")
  guardNot (c.state.orders.any fun o => Json.str o.orderId == field payload (txt "order_id") ||
    Json.str o.clientOrderId == field payload (txt "client_order_id")) .contractError
    (txt "order registration ID conflict")
  Paper.registerOrder c.state (jsonArg (field payload (txt "order_id"))).text
    (jsonArg (field payload (txt "client_order_id"))).text (jsonArg (field payload (txt "side"))).text
    (jsonArg (field payload (txt "quantity")))

/-- The inventory limit, checked before a buy. -/
def Core.checkInventory (c : Core D) (qty : D) : Py Unit := do
  let inventory ← Decimal.add c.state.inventoryQty qty
  guardNot (Decimal.lt c.riskLimits.maxInventory inventory) .contractError
    (txt "buy fill would exceed max_inventory risk limit")

/-- The checks of `_reduce` before the fill event is built. -/
def Core.checkFill (c : Core D) (timestamp : Text) (payload : Json) : Py Unit := do
  guardNot (payload.keys != fillKeys) .contractError
    (txt "FILL_APPLIED payload fields do not match schema")
  let order ← orRaise (c.payloadOrder payload) .contractError (txt "fill references an unknown order")
  guardNot (c.isTerminal order.orderId) .contractError
    (txt "fill references terminal cancelled/expired order")
  let qty : D ← decimal (jsonArg (field payload (txt "quantity"))) (txt "quantity") .positive
  guardNot (Decimal.lt c.riskLimits.maxFillQty qty) .contractError
    (txt "fill quantity exceeds max_fill_qty risk limit")
  onlyWhen (field payload (txt "side") == .str (txt "buy")) (c.checkInventory qty)
  guardNot (field payload (txt "fill_seq") != .ofNat (c.state.lastEventSeq + 1)) .contractError
    (txt "journal fill sequence is not the next state sequence")
  guardNot (field payload (txt "timestamp") != .str timestamp) .contractError
    (txt "fill payload timestamp must match journal envelope timestamp")

def Core.reduceFill (c : Core D) (timestamp : Text) (payload : Json) :
    Py (PaperState D × FillApplication D) := do
  c.checkFill timestamp payload
  let event : FillEvent D ← FillEvent.construct {
    fillId := ← textArg (field payload (txt "fill_id"))
    orderId := ← textArg (field payload (txt "order_id"))
    side := ← textArg (field payload (txt "side"))
    quantity := jsonArg (field payload (txt "quantity"))
    price := jsonArg (field payload (txt "price"))
    fee := jsonArg (field payload (txt "fee"))
    spreadCost := jsonArg (field payload (txt "spread_cost"))
    slippageCost := jsonArg (field payload (txt "slippage_cost"))
    timestamp := jsonArg (field payload (txt "timestamp"))
    eventSeq := c.state.lastEventSeq + 1 }
  let applied ← rewrap (· == .resilienceError) .contractError
    (fun t => txt "fill validation failed: " ++ t) (Paper.applyFill c.state event)
  guardNot (!applied.2.applied) .contractError
    (txt "journal contains a duplicate fill record instead of a no-op command")
  return applied

def Core.reduceTerminal (c : Core D) (eventType : EventType) (status : OrderStatus) (payload : Json) :
    Py (List (Text × OrderStatus)) := do
  guardNot (payload.keys != [txt "order_id", txt "reason", txt "remaining_qty"]) .contractError
    (eventType.text ++ txt " payload fields do not match schema")
  let order ← orRaise (c.payloadOrder payload) .contractError
    (eventType.text ++ txt " references an unknown order")
  guardNot (order.status == .filled || c.isTerminal order.orderId) .contractError
    (eventType.text ++ txt " references an already terminal order")
  let remainingQty : D ← decimal (jsonArg (field payload (txt "remaining_qty"))) (txt "remaining_qty")
    .nonNegative
  let remaining ← order.remainingQty
  guardNot (!Decimal.eq remainingQty remaining) .contractError
    (eventType.text ++ txt " remaining quantity does not match state")
  let _ ← nonempty (jsonArg (field payload (txt "reason"))) (txt "reason")
  return Json.insert order.orderId status c.terminalStatuses

def Core.checkResolved (c : Core D) (payload : Json) : Py Unit := do
  guardNot (payload.keys != [txt "action", txt "approval_ref", txt "prior_discrepancies", txt "reason"] ||
    field payload (txt "action") != .str (txt "retain_local_paper_state")) .contractError
    (txt "DIVERGENCE_RESOLVED payload/action invalid")
  guardNot c.blockedReason.isNone .contractError (txt "DIVERGENCE_RESOLVED without active divergence")
  let _ ← nonempty (jsonArg (field payload (txt "approval_ref"))) (txt "approval_ref")
  let _ ← nonempty (jsonArg (field payload (txt "reason"))) (txt "reason")
  guardNot (field payload (txt "prior_discrepancies") != .arr (c.discrepancies.map .str)) .contractError
    (txt "divergence resolution does not cite current discrepancies")

def Core.candidate (c : Core D) : Candidate D :=
  ⟨c.state, c.terminalStatuses, c.blockedReason, c.discrepancies, .none⟩

/-- The branch of `_reduce` for one event type. -/
def Core.reduceEvent (c : Core D) (r : Record) : Py (Candidate D) :=
  let payload := r.payload.1
  match r.eventType with
  | .orderRegistered => do
      let state ← c.reduceRegistered payload
      return { c.candidate with state }
  | .fillApplied => do
      let (state, application) ← c.reduceFill r.timestamp payload
      return { c.candidate with state, result := .fill application }
  | .orderCancelled => do
      let terminalStatuses ← c.reduceTerminal .orderCancelled .cancelled payload
      return { c.candidate with terminalStatuses }
  | .orderExpired => do
      let terminalStatuses ← c.reduceTerminal .orderExpired .expired payload
      return { c.candidate with terminalStatuses }
  | .snapshotReconciled => do
      guardNot (payload.keys != [txt "cash", txt "inventory_qty", txt "last_event_seq",
        txt "open_orders", txt "tolerance"]) .contractError
        (txt "SNAPSHOT_RECONCILED payload fields do not match schema")
      let report ← c.makeReconciliationReport payload
      if report.matched then return { c.candidate with result := .report report }
      else return { c.candidate with
        discrepancies := report.discrepancies
        blockedReason := some (.divergence r.journalSeq)
        result := .report report }
  | .divergenceResolved => do
      c.checkResolved payload
      return { c.candidate with blockedReason := none }

/-- `_reduce` -/
def Core.reduce (c : Core D) (r : Record) : Py (Candidate D) := do
  guardNot (!r.payload.1.isObject) .contractError (txt "journal event payload must be an object")
  guardNot (isBefore r.timestamp c.lastTimestamp) .contractError
    (txt "journal event timestamp moved backwards")
  guardNot (c.blockedReason.isSome && r.eventType != .divergenceResolved) .contractError
    (txt "journal contains a state-changing event while divergence block is active")
  c.reduceEvent r

/-- The assignments that follow a durable append, and a replayed record. -/
def Core.advance (c : Core D) (r : Record) (candidate : Candidate D) : Core D where
  state := candidate.state
  riskLimits := c.riskLimits
  terminalStatuses := candidate.terminalStatuses
  journalSeq := r.journalSeq
  journalHead := r.eventSha256
  lastTimestamp := some r.timestamp
  blockedReason := candidate.blockedReason
  discrepancies := candidate.discrepancies
  eventsById := Json.insert r.eventId r c.eventsById
  fillPayloads :=
    if r.eventType = .fillApplied then
      Json.insert (jsonArg (field r.payload.1 (txt "fill_id"))).text
        (r.payload.1.without [txt "fill_seq"]) c.fillPayloads
    else c.fillPayloads

/-! ## Commands -/

inductive Command (D : Type) [Decimal D] where
  | registerOrder (eventId timestamp orderId clientOrderId side quantity : PyArg)
  | applyFill (eventId fillId orderId side quantity price fee spreadCost slippageCost timestamp : PyArg)
  | cancelOrder (eventId timestamp orderId reason : PyArg)
  | expireOrder (eventId timestamp orderId reason : PyArg)
  /-- `observed` is absent when the argument is no `ExecutionSnapshot`. -/
  | reconcile (observed : Option (ExecutionSnapshot D)) (eventId timestamp tolerance : PyArg)
  | resolveDivergence (eventId timestamp approvalRef reason : PyArg)

inductive Reply (D : Type) where
  | recorded (recorded : Bool)
  | fill (application : FillApplication D)
  | report (report : ReconciliationReport)

/-- The reply to a committed command. -/
def Result.reply : Result D → Reply D
  | .none => .recorded true
  | .fill applied => .fill applied
  | .report made => .report made

/-- What a command has come to before the file is touched. -/
inductive Plan (D : Type) [Decimal D] where
  | reply (reply : Reply D)
  | append (record : Record) (candidate : Candidate D)

/-- `_find_order` -/
def Core.findOrder (c : Core D) (orderId : PyArg) : Py (PaperOrder D) := do
  let key ← nonempty orderId (txt "order_id")
  match c.state.orders.filter fun o => o.orderId == key with
  | [order] => return order
  | _ => raise .contractError (txt "unknown order_id: " ++ key)

def Core.status (c : Core D) (orderId : PyArg) : Py OrderStatus := do
  let order ← c.findOrder orderId
  return (Json.lookup order.orderId c.terminalStatuses).getD order.status

/-- The application that reports a fill which was committed before. -/
def Core.duplicateFill (c : Core D) (orderId : PyArg) : Py (FillApplication D) := do
  let order ← c.findOrder orderId
  let status ← c.status (.str order.orderId)
  return ⟨false, true, status, ← order.remainingQty⟩

/-- `_check_unblocked` -/
def Core.checkUnblocked (c : Core D) : Py Unit :=
  match c.blockedReason with
  | none => .ok ()
  | some reason => raise .contractError
      (txt "engine is blocked pending explicit divergence resolution: " ++ reason.text)

/-- `_normalize_event_timestamp` -/
def normalizeEventTimestamp (timestamp : PyArg) : Py Text :=
  rewrap PyError.isValueError .contractError (fun t => txt "invalid event timestamp: " ++ t)
    (normalizeTimestamp timestamp)

/-- `_check_event_time` -/
def Core.checkEventTime (c : Core D) (timestamp : PyArg) : Py Text := do
  let normalized ← normalizeEventTimestamp timestamp
  guardNot (isBefore normalized c.lastTimestamp) .contractError
    (txt "event timestamp must not move backwards")
  return normalized

/-- `_existing_event` -/
def Core.existingEvent (c : Core D) (eventId : Text) (eventType : EventType) (timestamp : Text)
    (payload : Json) (ignorePayloadKeys : List Text) : Py (Option Record) :=
  match Json.lookup eventId c.eventsById with
  | none => .ok none
  | some prior => do
      guardNot (prior.eventType != eventType || prior.timestamp != timestamp ||
        canonicalJson (prior.payload.1.without ignorePayloadKeys) !=
          canonicalJson (payload.without ignorePayloadKeys)) .contractError
        (txt "event_id conflict: " ++ eventId ++ txt " was reused with a different payload")
      return some prior

/-- `ignore_payload_keys` of a committed event type. -/
def EventType.ignoredKeys : EventType → List Text
  | .fillApplied => [txt "fill_seq"]
  | _ => []

/-- The record that `_record` builds on the head of the journal. -/
def Core.buildRecord (c : Core D) (eventId : Text) (eventType : EventType) (timestamp : Text)
    (payload : Json.Document) : Py Record := do
  let base := baseMembers (c.journalSeq + 1) eventId eventType timestamp payload.1 c.journalHead
  let sha ← digest (.ofMembers base)
  return ⟨c.journalSeq + 1, eventId, eventType, timestamp, payload, c.journalHead, sha⟩

/-- `_record` up to the append. -/
def Core.record (c : Core D) (eventId : PyArg) (eventType : EventType) (timestamp : PyArg)
    (payload : Json.Document) (allowWhileBlocked : Bool) : Py (Plan D) := do
  let eventId ← nonempty eventId (txt "event_id")
  let timestamp ← normalizeEventTimestamp timestamp
  match ← c.existingEvent eventId eventType timestamp payload.1 eventType.ignoredKeys with
  | some _ =>
      match eventType with
      | .fillApplied => return .reply (.fill (← c.duplicateFill (jsonArg (field payload.1 (txt "order_id")))))
      | .snapshotReconciled => return .reply (.report (← c.makeReconciliationReport payload.1))
      | _ => return .reply (.recorded false)
  | none =>
      onlyWhen (!allowWhileBlocked) c.checkUnblocked
      let timestamp ← c.checkEventTime (.str timestamp)
      let record ← c.buildRecord eventId eventType timestamp payload
      let candidate ← c.reduce record
      return .append record candidate

/-! ## The six commands -/

/-- An object that the engine writes itself. -/
def written (members : List (Text × Json)) (wellFormed : ∀ m ∈ members, m.2.WellFormed) :
    Json.Document := ⟨.ofMembers members, Json.wellFormed_ofMembers wellFormed⟩

def registeredPayload (orderId clientOrderId : Text) (side : Side) (quantity : D) : Json.Document :=
  written [(txt "order_id", .str orderId), (txt "client_order_id", .str clientOrderId),
    (txt "side", .str side.text), (txt "quantity", .str (Decimal.str quantity))] (by simp)

def Core.planRegisterOrder (c : Core D) (eventId timestamp orderId clientOrderId side quantity : PyArg) :
    Py (Plan D) := do
  let ts ← normalizeEventTimestamp timestamp
  let oid ← nonempty orderId (txt "order_id")
  let cid ← nonempty clientOrderId (txt "client_order_id")
  let side ← orRaise (Side.parse side.text) .contractError (txt "side must be buy or sell")
  let qty : D ← decimal quantity (txt "quantity") .positive
  c.record eventId .orderRegistered (.str ts) (registeredPayload oid cid side qty) false

/-- The arguments of `apply_fill` after their normalization: its `base_payload`. -/
structure FillRequest (D : Type) where
  fillId : Text
  orderId : Text
  side : Text
  quantity : D
  price : D
  fee : D
  spreadCost : D
  slippageCost : D
  timestamp : Text

def FillRequest.members (f : FillRequest D) : List (Text × Json) :=
  [(txt "fill_id", .str f.fillId), (txt "order_id", .str f.orderId), (txt "side", .str f.side),
   (txt "quantity", .str (Decimal.str f.quantity)), (txt "price", .str (Decimal.str f.price)),
   (txt "fee", .str (Decimal.str f.fee)), (txt "spread_cost", .str (Decimal.str f.spreadCost)),
   (txt "slippage_cost", .str (Decimal.str f.slippageCost)), (txt "timestamp", .str f.timestamp)]

def FillRequest.basePayload (f : FillRequest D) : Json := .ofMembers f.members

def FillRequest.payload (f : FillRequest D) (fillSeq : Nat) : Json.Document :=
  written (f.members ++ [(txt "fill_seq", .ofNat fillSeq)]) (by simp [FillRequest.members])

def fillRequest (fillId orderId side quantity price fee spreadCost slippageCost timestamp : PyArg) :
    Py (FillRequest D) := do
  let ts ← normalizeEventTimestamp timestamp
  let fillId ← nonempty fillId (txt "fill_id")
  let orderId ← nonempty orderId (txt "order_id")
  let quantity ← decimal quantity (txt "quantity") .positive
  let price ← decimal price (txt "price") .positive
  let fee ← decimal fee (txt "fee") .nonNegative
  let spreadCost ← decimal spreadCost (txt "spread_cost") .nonNegative
  let slippageCost ← decimal slippageCost (txt "slippage_cost") .nonNegative
  return ⟨fillId, orderId, lower (strip side.text), quantity, price, fee, spreadCost, slippageCost, ts⟩

/-- The checks of `apply_fill` on a fill seen for the first time, and its record. -/
def Core.planUnseenFill (c : Core D) (eventId : Text) (f : FillRequest D) : Py (Plan D) := do
  c.checkUnblocked
  guardNot (f.side != txt "buy" && f.side != txt "sell") .contractError
    (txt "fill side must be buy or sell")
  let qty : D ← decimal (.str (Decimal.str f.quantity)) (txt "quantity") .positive
  guardNot (Decimal.lt c.riskLimits.maxFillQty qty) .contractError
    (txt "fill quantity exceeds max_fill_qty risk limit")
  let order ← c.findOrder (.str f.orderId)
  let status ← c.status (.str order.orderId)
  guardNot status.terminal .contractError (txt "fill received for terminal cancelled/expired order")
  onlyWhen (f.side == txt "buy") (c.checkInventory qty)
  c.record (.str eventId) .fillApplied (.str f.timestamp) (f.payload (c.state.lastEventSeq + 1)) false

def Core.planApplyFill (c : Core D)
    (eventId fillId orderId side quantity price fee spreadCost slippageCost timestamp : PyArg) :
    Py (Plan D) := do
  let f ← fillRequest fillId orderId side quantity price fee spreadCost slippageCost timestamp
  let eventId ← nonempty eventId (txt "event_id")
  match ← c.existingEvent eventId .fillApplied f.timestamp f.basePayload [txt "fill_seq"] with
  | some _ => return .reply (.fill (← c.duplicateFill (.str f.orderId)))
  | none =>
      match Json.lookup f.fillId c.fillPayloads with
      | some prior =>
          guardNot (canonicalJson prior != canonicalJson f.basePayload) .contractError
            (txt "fill_id conflict: ID reused with a different payload")
          return .reply (.fill (← c.duplicateFill (.str f.orderId)))
      | none => c.planUnseenFill eventId f

def terminalPayload (orderId : Text) (remainingQty : D) (reason : Text) : Json.Document :=
  written [(txt "order_id", .str orderId), (txt "remaining_qty", .str (Decimal.str remainingQty)),
    (txt "reason", .str reason)] (by simp)

/-- `_terminal_transition` -/
def Core.planTerminal (c : Core D) (eventType : EventType) (eventId timestamp orderId reason : PyArg) :
    Py (Plan D) := do
  let ts ← normalizeEventTimestamp timestamp
  let order ← c.findOrder orderId
  let remaining ← order.remainingQty
  let reason ← nonempty reason (txt "reason")
  let payload := terminalPayload order.orderId remaining reason
  let eventKey ← nonempty eventId (txt "event_id")
  match ← c.existingEvent eventKey eventType ts payload.1 [] with
  | some _ => return .reply (.recorded false)
  | none =>
      c.checkUnblocked
      let status ← c.status (.str order.orderId)
      guardNot (status.terminal || order.status == .filled) .contractError
        (txt "cannot cancel/expire an already terminal order")
      c.record (.str eventKey) eventType (.str ts) payload false

/-- The open orders of a snapshot by ID; the IDs of a snapshot are distinct. -/
def ExecutionSnapshot.sortedOrders (observed : ExecutionSnapshot D) : List (SnapshotOrder D) :=
  (observed.openOrders.foldl (fun acc o => Json.insert o.orderId o acc) []).map Prod.snd

def SnapshotOrder.toPayload (o : SnapshotOrder D) : Json :=
  .ofMembers [(txt "order_id", .str o.orderId), (txt "side", .str o.side.text),
    (txt "remaining_qty", .str (Decimal.str o.remainingQty))]

theorem SnapshotOrder.wellFormed_toPayload (o : SnapshotOrder D) : o.toPayload.WellFormed :=
  Json.wellFormed_ofMembers (by simp)

theorem wellFormed_orders (orders : List (SnapshotOrder D)) :
    (Json.arr (orders.map SnapshotOrder.toPayload)).WellFormed :=
  (Json.wellFormedItems_iff _).mpr fun j hj => by
    obtain ⟨o, -, rfl⟩ := List.mem_map.mp hj
    exact o.wellFormed_toPayload

def reconciledPayload (observed : ExecutionSnapshot D) (tolerance : D) : Json.Document :=
  written [(txt "cash", .str (Decimal.str observed.cash)),
    (txt "inventory_qty", .str (Decimal.str observed.inventoryQty)),
    (txt "open_orders", .arr (observed.sortedOrders.map SnapshotOrder.toPayload)),
    (txt "last_event_seq", .ofNat observed.lastEventSeq),
    (txt "tolerance", .str (Decimal.str tolerance))] (by simp [wellFormed_orders])

def Core.planReconcile (c : Core D) (observed : Option (ExecutionSnapshot D))
    (eventId timestamp tolerance : PyArg) : Py (Plan D) := do
  let ts ← normalizeEventTimestamp timestamp
  let observed ← orRaise observed .contractError (txt "observed must be ExecutionSnapshot")
  let tol : D ← decimal tolerance (txt "tolerance") .nonNegative
  c.record eventId .snapshotReconciled (.str ts) (reconciledPayload observed tol) false

theorem wellFormed_texts (ts : List Text) : (Json.arr (ts.map .str)).WellFormed :=
  (Json.wellFormedItems_iff _).mpr fun j hj => by
    obtain ⟨t, -, rfl⟩ := List.mem_map.mp hj
    trivial

def resolvedPayload (approvalRef reason : Text) (priorDiscrepancies : List Text) : Json.Document :=
  written [(txt "approval_ref", .str approvalRef), (txt "reason", .str reason),
    (txt "action", .str (txt "retain_local_paper_state")),
    (txt "prior_discrepancies", .arr (priorDiscrepancies.map .str))] (by simp [wellFormed_texts])

def Core.planResolveDivergence (c : Core D) (eventId timestamp approvalRef reason : PyArg) :
    Py (Plan D) := do
  let ts ← normalizeEventTimestamp timestamp
  let approvalRef ← nonempty approvalRef (txt "approval_ref")
  let reason ← nonempty reason (txt "reason")
  let payload := resolvedPayload approvalRef reason c.discrepancies
  let eventKey ← nonempty eventId (txt "event_id")
  match ← c.existingEvent eventKey .divergenceResolved ts payload.1 [] with
  | some _ => return .reply (.recorded false)
  | none =>
      guardNot c.blockedReason.isNone .contractError
        (txt "cannot resolve divergence when engine is not blocked")
      c.record (.str eventKey) .divergenceResolved (.str ts) payload true

/-- A command up to its append. -/
def Core.plan (c : Core D) : Command D → Py (Plan D)
  | .registerOrder eventId timestamp orderId clientOrderId side quantity =>
      c.planRegisterOrder eventId timestamp orderId clientOrderId side quantity
  | .applyFill eventId fillId orderId side quantity price fee spreadCost slippageCost timestamp =>
      c.planApplyFill eventId fillId orderId side quantity price fee spreadCost slippageCost timestamp
  | .cancelOrder eventId timestamp orderId reason =>
      c.planTerminal .orderCancelled eventId timestamp orderId reason
  | .expireOrder eventId timestamp orderId reason =>
      c.planTerminal .orderExpired eventId timestamp orderId reason
  | .reconcile observed eventId timestamp tolerance =>
      c.planReconcile observed eventId timestamp tolerance
  | .resolveDivergence eventId timestamp approvalRef reason =>
      c.planResolveDivergence eventId timestamp approvalRef reason

end Senex.Paper
