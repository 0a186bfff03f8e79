import Senex.Paper.Contracts

/-! # Paper state

Orders, fills and the account of `execution_resilience.py`.  A value of
`PaperOrder`, `FillEvent` or `PaperState` carries the proof that its own
`__post_init__` accepts it, so only checked values exist.
-/

namespace Senex.Paper

open Text

inductive Side where
  | buy
  | sell
  deriving DecidableEq, Repr

def Side.text : Side → Text
  | .buy => txt "buy"
  | .sell => txt "sell"

/-- `side.strip().lower()`, when it is `buy` or `sell`. -/
def Side.parse (t : Text) : Option Side :=
  let side := lower (strip t)
  if side = txt "buy" then some .buy else if side = txt "sell" then some .sell else none

@[simp] theorem Side.parse_text (s : Side) : Side.parse s.text = some s := by
  cases s <;> decide

inductive OrderStatus where
  | open_
  | partiallyFilled
  | filled
  | cancelled
  | expired
  deriving DecidableEq, Repr

def OrderStatus.text : OrderStatus → Text
  | .open_ => txt "OPEN"
  | .partiallyFilled => txt "PARTIALLY_FILLED"
  | .filled => txt "FILLED"
  | .cancelled => txt "CANCELLED"
  | .expired => txt "EXPIRED"

/-- `_TERMINAL` -/
def OrderStatus.terminal : OrderStatus → Bool
  | .cancelled | .expired => true
  | _ => false

/-- The sixty-four hexadecimal digits of `_sha(value, field)`. -/
def sha256Text (value field : Text) : Py Text :=
  let text := lower (strip value)
  if Sha256.isHex64 text then .ok text
  else raise .resilienceError (field ++ txt " must be a 64-character hexadecimal SHA-256")

theorem sha256Text_hex {value field t : Text} (read : sha256Text value field = .ok t) :
    Sha256.isHex64 t = true := by
  simp only [sha256Text] at read
  split at read
  · cases read
    assumption
  · simp at read

theorem sha256Text_eq_ok {value name t : Text} (read : sha256Text value name = .ok t) :
    lower (strip value) = t := by
  simp only [sha256Text] at read
  split at read
  · exact Except.ok.inj read
  · simp at read

/-- A digest is left alone by `strip().lower()`. -/
theorem lower_strip_of_hex {t : Text} (hex : Sha256.isHex64 t = true) : lower (strip t) = t := by
  simp only [Sha256.isHex64, Bool.and_eq_true, beq_iff_eq, List.all_eq_true] at hex
  have range : ∀ c ∈ t, (48 ≤ c ∧ c ≤ 57) ∨ (97 ≤ c ∧ c ≤ 102) := by
    intro c hc
    simpa [Sha256.isLowerHex, isDigit] using hex.2 c hc
  have solid : ∀ c ∈ t, isPySpace c = false := by
    intro c hc
    have := range c hc
    simp [isPySpace]
    omega
  have stripped : strip t = t :=
    stripBy_eq_self (fun c hc => solid c (List.mem_of_mem_head? hc))
      (fun c hc => solid c (List.mem_of_mem_getLast? hc))
  rw [stripped, lower]
  refine (List.map_congr_left fun c hc => ?_).trans (List.map_id t)
  have := range c hc
  simp [lowerUnit]
  omega

theorem sha256Text_idem {t : Text} (hex : Sha256.isHex64 t = true) (field : Text) :
    sha256Text t field = .ok t := by
  simp [sha256Text, lower_strip_of_hex hex, hex]

variable {D : Type} [Decimal D]

/-- A `Decimal` handed to a constructor that converts it by `Decimal(str(value))`. -/
def objectArg (d : D) : PyArg := .other (Decimal.str d)

theorem dec_objectArg {d e : D} {name : Text} {bound : Bound} :
    dec (objectArg d) name bound = .ok e ↔ e = d ∧ bound.admits d = true := by
  simp only [dec, rewrap_eq_ok, asDecimal, objectArg, PyArg.text, Decimal.parse_str]
  split
  · rename_i admitted
    simp [admitted, eq_comm]
  · rename_i refused
    simp [refused]

/-! ## Orders -/

structure OrderFields (D : Type) where
  orderId : Text
  clientOrderId : Text
  side : Side
  requestedQty : D
  filledQty : D
  status : OrderStatus

def expectedStatus (requestedQty filledQty : D) : OrderStatus :=
  if Decimal.eq filledQty Decimal.zero then .open_
  else if Decimal.eq filledQty requestedQty then .filled
  else .partiallyFilled

structure OrderFields.Valid (o : OrderFields D) : Prop where
  orderId : strip o.orderId ≠ []
  clientOrderId : strip o.clientOrderId ≠ []
  requested : Bound.positive.admits o.requestedQty = true
  filled : Bound.nonNegative.admits o.filledQty = true
  within : Decimal.lt o.requestedQty o.filledQty = false
  status : o.status = expectedStatus o.requestedQty o.filledQty

structure PaperOrder (D : Type) [Decimal D] extends OrderFields D where
  valid : toOrderFields.Valid

/-- `PaperOrder.__post_init__` -/
def PaperOrder.postInit (orderId clientOrderId side : Text) (requestedQty filledQty : PyArg)
    (status : Text) : Py (OrderFields D) := do
  guardNot (strip orderId == [] || strip clientOrderId == []) .resilienceError
    (txt "order IDs must be non-empty")
  let side ← orRaise (Side.parse side) .resilienceError (txt "order side must be buy or sell")
  let requested ← dec requestedQty (txt "requested_qty") .positive
  let filled ← dec filledQty (txt "filled_qty") .nonNegative
  guardNot (Decimal.lt requested filled) .resilienceError
    (txt "filled_qty cannot exceed requested_qty")
  let expected := expectedStatus requested filled
  guardNot (status != expected.text) .resilienceError
    (txt "order status mismatch: expected " ++ expected.text)
  return ⟨orderId, clientOrderId, side, requested, filled, expected⟩

theorem PaperOrder.postInit_valid {orderId clientOrderId side status : Text}
    {requestedQty filledQty : PyArg} {o : OrderFields D}
    (accepted : postInit orderId clientOrderId side requestedQty filledQty status = .ok o) :
    o.Valid := by
  simp only [postInit, Py.bind_eq_ok, guardNot_eq_ok, Bool.or_eq_false_iff, beq_eq_false_iff_ne,
    Py.pure_eq_ok, Except.ok.injEq] at accepted
  obtain ⟨-, ⟨order, client⟩, side, -, requested, hr, filled, hf, -, within, -, -, rfl⟩ := accepted
  exact ⟨order, client, dec_admits hr, dec_admits hf, within, rfl⟩

/-- `PaperOrder(...)` -/
def PaperOrder.construct (orderId clientOrderId side : Text) (requestedQty filledQty : PyArg)
    (status : Text) : Py (PaperOrder D) :=
  match h : PaperOrder.postInit orderId clientOrderId side requestedQty filledQty status with
  | .error e => .error e
  | .ok o => .ok ⟨o, postInit_valid h⟩

theorem PaperOrder.construct_eq_ok {orderId clientOrderId side status : Text}
    {requestedQty filledQty : PyArg} {o : PaperOrder D} :
    construct orderId clientOrderId side requestedQty filledQty status = .ok o ↔
      postInit orderId clientOrderId side requestedQty filledQty status = .ok o.toOrderFields := by
  unfold construct
  split
  · rename_i h
    simp [h]
  · rename_i fields h
    cases o
    simp [h]

/-- `order.remaining_qty` -/
def OrderFields.remainingQty (o : OrderFields D) : Py D := Decimal.sub o.requestedQty o.filledQty

/-- `replace(order, filled_qty=…, status=…)` -/
def PaperOrder.refill (o : PaperOrder D) (filledQty : D) (status : OrderStatus) : Py (PaperOrder D) :=
  construct o.orderId o.clientOrderId o.side.text (objectArg o.requestedQty) (objectArg filledQty)
    status.text

/-- The order that `construct` builds from typed arguments. -/
theorem PaperOrder.construct_typed {orderId clientOrderId : Text} {side : Side}
    {requestedQty filledQty : D} {status : OrderStatus} {o : PaperOrder D}
    (built : construct orderId clientOrderId side.text (objectArg requestedQty) (objectArg filledQty)
      status.text = .ok o) :
    o.toOrderFields = ⟨orderId, clientOrderId, side, requestedQty, filledQty,
      expectedStatus requestedQty filledQty⟩ := by
  have accepted := construct_eq_ok.mp built
  simp only [postInit, Side.parse_text, orRaise_some, Py.bind_eq_ok, guardNot_eq_ok, dec_objectArg,
    Py.pure_eq_ok, Except.ok.injEq] at accepted
  obtain ⟨-, -, _, rfl, _, ⟨rfl, -⟩, _, ⟨rfl, -⟩, -, -, -, -, fields⟩ := accepted
  exact fields.symm

/-- Refilling changes the filled quantity and the status that belongs to it. -/
theorem PaperOrder.refill_eq_ok {o changed : PaperOrder D} {filledQty : D} {status : OrderStatus}
    (refilled : o.refill filledQty status = .ok changed) :
    changed.toOrderFields = { o.toOrderFields with
      filledQty
      status := expectedStatus o.requestedQty filledQty } :=
  construct_typed refilled

def OrderFields.toPayload (o : OrderFields D) : Json :=
  .ofMembers [(txt "order_id", .str o.orderId), (txt "client_order_id", .str o.clientOrderId),
    (txt "side", .str o.side.text), (txt "requested_qty", .str (Decimal.str o.requestedQty)),
    (txt "filled_qty", .str (Decimal.str o.filledQty)), (txt "status", .str o.status.text)]

/-- A string where the callee calls a method of `str` on it. -/
def textArg (value : Json) : Py Text :=
  match value with
  | .str s => .ok s
  | _ => raise .attributeError (txt "object has no attribute 'strip'")

/-- A keyword argument of a constructor call with an unpacked object. -/
def keyword (payload : Json) (key : Text) (default : Option Json) : Py Json :=
  match (payload.get? key).or default with
  | some value => .ok value
  | none => raise .typeError (txt "missing required argument: " ++ key)

/-- `PaperOrder(**order)` -/
def PaperOrder.fromPayload (order : Json) : Py (PaperOrder D) := do
  let known := [txt "client_order_id", txt "filled_qty", txt "order_id", txt "requested_qty",
    txt "side", txt "status"]
  guardNot (!order.isObject || order.keys.any fun k => !known.contains k) .typeError
    (txt "unexpected keyword argument")
  let orderId ← keyword order (txt "order_id") none
  let clientOrderId ← keyword order (txt "client_order_id") none
  let side ← keyword order (txt "side") none
  let requestedQty ← keyword order (txt "requested_qty") none
  let filledQty ← keyword order (txt "filled_qty") (some (.str (txt "0")))
  let status ← keyword order (txt "status") (some (.str (txt "OPEN")))
  construct (← textArg orderId) (← textArg clientOrderId) (← textArg side) (jsonArg requestedQty)
    (jsonArg filledQty) (jsonArg status).text

@[ext] theorem PaperOrder.ext {a b : PaperOrder D} (same : a.toOrderFields = b.toOrderFields) :
    a = b := by
  cases a
  cases b
  simpa using same

theorem PaperOrder.fromPayload_toPayload (o : PaperOrder D) :
    fromPayload o.toPayload = .ok o := by
  have valid := o.valid
  have construct : construct o.orderId o.clientOrderId o.side.text
      (.str (Decimal.str o.requestedQty)) (.str (Decimal.str o.filledQty)) o.status.text = .ok o := by
    rw [construct_eq_ok]
    simp only [postInit, Side.parse_text, orRaise_some, dec_str valid.requested, dec_str valid.filled, valid.within,
      ← valid.status, Py.ok_bind, guardNot_false, bne_self_eq_false, beq_eq_false_iff_ne.mpr valid.orderId,
      beq_eq_false_iff_ne.mpr valid.clientOrderId, Bool.or_self, Py.pure_eq_ok]
  exact construct

/-! ## The account -/

structure StateFields (D : Type) [Decimal D] where
  sourceSha256 : Text
  configSha256 : Text
  startingCash : D
  cash : D
  inventoryQty : D
  inventoryCostBasis : D
  realizedPnl : D
  totalFees : D
  totalSpreadCost : D
  totalSlippageCost : D
  turnover : D
  lastProcessedTimestamp : Option Text
  lastEventSeq : Nat
  orders : List (PaperOrder D)
  processedFillIds : List Text
  processedFillFingerprints : List (Text × Text)

/-- The arguments of `PaperState(...)`; what is not an `int` or a list of texts is `none`. -/
structure StateArgs (D : Type) [Decimal D] where
  schemaVersion : Option Nat
  sourceSha256 : Text
  configSha256 : Text
  startingCash : PyArg
  cash : PyArg
  inventoryQty : PyArg
  inventoryCostBasis : PyArg
  realizedPnl : PyArg
  totalFees : PyArg
  totalSpreadCost : PyArg
  totalSlippageCost : PyArg
  turnover : PyArg
  lastProcessedTimestamp : Option PyArg
  lastEventSeq : Option Nat
  orders : List (PaperOrder D)
  processedFillIds : Option (List Text)
  processedFillFingerprints : List (Text × Text)

structure StateFields.Valid (s : StateFields D) : Prop where
  source : Sha256.isHex64 s.sourceSha256 = true
  config : Sha256.isHex64 s.configSha256 = true
  startingCash : Bound.positive.admits s.startingCash = true
  cash : Bound.nonNegative.admits s.cash = true
  inventoryQty : Bound.nonNegative.admits s.inventoryQty = true
  inventoryCostBasis : Bound.nonNegative.admits s.inventoryCostBasis = true
  totalFees : Bound.nonNegative.admits s.totalFees = true
  totalSpreadCost : Bound.nonNegative.admits s.totalSpreadCost = true
  totalSlippageCost : Bound.nonNegative.admits s.totalSlippageCost = true
  turnover : Bound.nonNegative.admits s.turnover = true
  flat : (Decimal.eq s.inventoryQty Decimal.zero &&
    !Decimal.eq s.inventoryCostBasis Decimal.zero) = false
  timestamp : ∀ t ∈ s.lastProcessedTimestamp, normalizeTimestamp (.str t) = .ok t
  orderIds : (s.orders.map (·.orderId)).Nodup
  clientOrderIds : (s.orders.map (·.clientOrderId)).Nodup
  fillIds : s.processedFillIds.Nodup
  fillIdsFilled : s.processedFillIds.any (strip · == []) = false
  fingerprintIds : s.processedFillFingerprints.map Prod.fst = s.processedFillIds
  fingerprints : s.processedFillFingerprints.all
    (fun f => Sha256.isHex64 (lower (strip f.2))) = true

structure PaperState (D : Type) [Decimal D] extends StateFields D where
  valid : toStateFields.Valid

@[ext] theorem PaperState.ext {a b : PaperState D} (same : a.toStateFields = b.toStateFields) :
    a = b := by
  cases a
  cases b
  simpa using same

/-- `CHECKPOINT_SCHEMA_VERSION` -/
def checkpointSchemaVersion : Nat := 1

def normalizeOptional : Option PyArg → Py (Option Text)
  | none => .ok none
  | some t => do return some (← normalizeTimestamp t)

theorem normalizeOptional_idem {value : Option PyArg} {t : Option Text}
    (normalized : normalizeOptional value = .ok t) :
    ∀ u ∈ t, normalizeTimestamp (.str u) = .ok u := by
  cases value with
  | none => cases normalized; simp
  | some value =>
      simp only [normalizeOptional, Py.bind_eq_ok, Py.pure_eq_ok, Except.ok.injEq] at normalized
      obtain ⟨u, hu, rfl⟩ := normalized
      simpa using normalizeTimestamp_idem hu

theorem normalizeOptional_self {t : Option Text}
    (normal : ∀ u ∈ t, normalizeTimestamp (.str u) = .ok u) :
    normalizeOptional (t.map .str) = .ok t := by
  cases t with
  | none => rfl
  | some u => simp [normalizeOptional, normal u rfl]

/-- `PaperState.__post_init__` -/
def PaperState.postInit (a : StateArgs D) : Py (StateFields D) := do
  guardNot (a.schemaVersion != some checkpointSchemaVersion) .resilienceError
    (txt "unsupported checkpoint schema_version")
  let source ← sha256Text a.sourceSha256 (txt "source_sha256")
  let config ← sha256Text a.configSha256 (txt "config_sha256")
  let startingCash ← dec a.startingCash (txt "starting_cash") .positive
  let cash ← dec a.cash (txt "cash") .nonNegative
  let inventoryQty ← dec a.inventoryQty (txt "inventory_qty") .nonNegative
  let inventoryCostBasis ← dec a.inventoryCostBasis (txt "inventory_cost_basis") .nonNegative
  let totalFees ← dec a.totalFees (txt "total_fees") .nonNegative
  let totalSpreadCost ← dec a.totalSpreadCost (txt "total_spread_cost") .nonNegative
  let totalSlippageCost ← dec a.totalSlippageCost (txt "total_slippage_cost") .nonNegative
  let turnover ← dec a.turnover (txt "turnover") .nonNegative
  let realizedPnl ← dec a.realizedPnl (txt "realized_pnl") .any
  guardNot (Decimal.eq inventoryQty Decimal.zero && !Decimal.eq inventoryCostBasis Decimal.zero)
    .resilienceError (txt "zero inventory must have zero inventory_cost_basis")
  let lastEventSeq ← orRaise a.lastEventSeq .resilienceError
    (txt "last_event_seq must be a non-negative integer")
  let lastProcessedTimestamp ← normalizeOptional a.lastProcessedTimestamp
  guardNot (!decide (a.orders.map (·.orderId)).Nodup ||
    !decide (a.orders.map (·.clientOrderId)).Nodup) .resilienceError
    (txt "checkpoint contains duplicate order or client order IDs")
  let processedFillIds ← orRaise a.processedFillIds .resilienceError
    (txt "processed fill IDs must be non-empty strings")
  guardNot (!decide processedFillIds.Nodup) .resilienceError
    (txt "checkpoint contains duplicate processed fill IDs")
  guardNot (processedFillIds.any (strip · == [])) .resilienceError
    (txt "processed fill IDs must be non-empty strings")
  guardNot (a.processedFillFingerprints.map Prod.fst != processedFillIds) .resilienceError
    (txt "processed fill fingerprints must match processed fill IDs in order")
  guardNot (!a.processedFillFingerprints.all fun f => Sha256.isHex64 (lower (strip f.2)))
    .resilienceError (txt "fill_fingerprint must be a 64-character hexadecimal SHA-256")
  return {
    sourceSha256 := source, configSha256 := config, startingCash, cash, inventoryQty
    inventoryCostBasis, realizedPnl, totalFees, totalSpreadCost, totalSlippageCost
    turnover, lastProcessedTimestamp, lastEventSeq, orders := a.orders, processedFillIds
    processedFillFingerprints := a.processedFillFingerprints }

theorem PaperState.postInit_valid {a : StateArgs D} {s : StateFields D}
    (accepted : postInit a = .ok s) : s.Valid := by
  simp only [postInit, Py.bind_eq_ok, guardNot_eq_ok, orRaise_eq_ok, Bool.or_eq_false_iff,
    Bool.not_eq_eq_eq_not, Bool.not_false, decide_eq_true_eq, Py.pure_eq_ok, Except.ok.injEq]
    at accepted
  obtain ⟨-, -, source, hsource, config, hconfig, startingCash, hstart, cash, hcash, inventory, hinv,
    basis, hbasis, fees, hfees, spread, hspread, slippage, hslip, turnover, hturn, pnl, -, -, flat,
    seq, -, timestamp, htime, -, ⟨ids, clients⟩, fillIds, -, -, nodup, -, filled, -, sameIds, -, hex,
    rfl⟩ := accepted
  exact ⟨sha256Text_hex hsource, sha256Text_hex hconfig, dec_admits hstart, dec_admits hcash,
    dec_admits hinv, dec_admits hbasis, dec_admits hfees, dec_admits hspread, dec_admits hslip,
    dec_admits hturn, flat, normalizeOptional_idem htime, ids, clients, nodup, filled,
    by simpa using sameIds, hex⟩

/-- `PaperState(...)` -/
def PaperState.construct (a : StateArgs D) : Py (PaperState D) :=
  match h : PaperState.postInit a with
  | .error e => .error e
  | .ok s => .ok ⟨s, postInit_valid h⟩

theorem PaperState.construct_eq_ok {a : StateArgs D} {s : PaperState D} :
    construct a = .ok s ↔ postInit a = .ok s.toStateFields := by
  unfold construct
  split
  · rename_i h
    simp [h]
  · rename_i fields h
    cases s
    simp [h]

/-- The fields of a state as constructor arguments, each amount wrapped by `wrap`. -/
def StateFields.args (wrap : D → PyArg) (s : StateFields D) : StateArgs D where
  schemaVersion := some checkpointSchemaVersion
  sourceSha256 := s.sourceSha256
  configSha256 := s.configSha256
  startingCash := wrap s.startingCash
  cash := wrap s.cash
  inventoryQty := wrap s.inventoryQty
  inventoryCostBasis := wrap s.inventoryCostBasis
  realizedPnl := wrap s.realizedPnl
  totalFees := wrap s.totalFees
  totalSpreadCost := wrap s.totalSpreadCost
  totalSlippageCost := wrap s.totalSlippageCost
  turnover := wrap s.turnover
  lastProcessedTimestamp := s.lastProcessedTimestamp.map .str
  lastEventSeq := some s.lastEventSeq
  orders := s.orders
  processedFillIds := some s.processedFillIds
  processedFillFingerprints := s.processedFillFingerprints

/-- `replace(state, …)`: the changed fields pass `__post_init__` again. -/
def PaperState.replace (fields : StateFields D) : Py (PaperState D) :=
  construct (fields.args objectArg)

/-- `replace` gives exactly the fields it was asked for. -/
theorem PaperState.replace_eq_ok {fields : StateFields D} {s : PaperState D}
    (replaced : replace fields = .ok s) (source : Sha256.isHex64 fields.sourceSha256 = true)
    (config : Sha256.isHex64 fields.configSha256 = true)
    (timestamp : ∀ t ∈ fields.lastProcessedTimestamp, normalizeTimestamp (.str t) = .ok t) :
    s.toStateFields = fields := by
  have accepted := construct_eq_ok.mp replaced
  simp only [postInit, StateFields.args, Py.bind_eq_ok, guardNot_eq_ok, orRaise_some, dec_objectArg,
    sha256Text_idem source, sha256Text_idem config, normalizeOptional_self timestamp, Py.ok_bind,
    Py.pure_eq_ok, Except.ok.injEq] at accepted
  obtain ⟨-, -, _, ⟨rfl, -⟩, _, ⟨rfl, -⟩, _, ⟨rfl, -⟩, _, ⟨rfl, -⟩, _, ⟨rfl, -⟩, _, ⟨rfl, -⟩, _,
    ⟨rfl, -⟩, _, ⟨rfl, -⟩, _, ⟨rfl, -⟩, -, -, -, -, -, -, -, -, -, -, -, -, fields⟩ := accepted
  exact fields.symm

/-- A valid state passes its own construction unchanged. -/
theorem PaperState.postInit_args {s : StateFields D} (valid : s.Valid) {wrap : D → PyArg}
    (passes : ∀ (d : D) name bound, bound.admits d = true → dec (wrap d) name bound = .ok d) :
    postInit (s.args wrap) = .ok s := by
  unfold postInit StateFields.args
  dsimp only
  simp only [bne_self_eq_false, guardNot_false, Py.ok_bind,
    sha256Text_idem valid.source, sha256Text_idem valid.config, passes _ _ _ valid.startingCash,
    passes _ _ _ valid.cash, passes _ _ _ valid.inventoryQty, passes _ _ _ valid.inventoryCostBasis,
    passes _ _ _ valid.totalFees, passes _ _ _ valid.totalSpreadCost,
    passes _ _ _ valid.totalSlippageCost, passes _ _ _ valid.turnover,
    passes s.realizedPnl _ .any rfl, valid.flat, normalizeOptional_self valid.timestamp,
    orRaise_some, decide_eq_true valid.orderIds,
    decide_eq_true valid.clientOrderIds, decide_eq_true valid.fillIds, valid.fillIdsFilled,
    valid.fingerprintIds, valid.fingerprints, Bool.not_true, Bool.or_self, Py.pure_eq_ok]

theorem PaperState.construct_args (s : PaperState D) {wrap : D → PyArg}
    (passes : ∀ (d : D) name bound, bound.admits d = true → dec (wrap d) name bound = .ok d) :
    construct (s.args wrap) = .ok s :=
  construct_eq_ok.mpr (postInit_args s.valid passes)

/-- `PaperState.initial` -/
def PaperState.initial (startingCash : PyArg) (sourceSha256 configSha256 : Text) :
    Py (PaperState D) := do
  let cash : D ← dec startingCash (txt "starting_cash") .positive
  construct {
    schemaVersion := some checkpointSchemaVersion
    sourceSha256, configSha256
    startingCash := objectArg cash
    cash := objectArg cash
    inventoryQty := objectArg (Decimal.zero : D)
    inventoryCostBasis := objectArg (Decimal.zero : D)
    realizedPnl := objectArg (Decimal.zero : D)
    totalFees := objectArg (Decimal.zero : D)
    totalSpreadCost := objectArg (Decimal.zero : D)
    totalSlippageCost := objectArg (Decimal.zero : D)
    turnover := objectArg (Decimal.zero : D)
    lastProcessedTimestamp := none
    lastEventSeq := some 0
    orders := []
    processedFillIds := some []
    processedFillFingerprints := [] }

/-- The fields of an initial state. -/
theorem PaperState.initial_eq_ok {cash : PyArg} {source config : Text} {start : PaperState D}
    (initialised : initial cash source config = .ok start) :
    ∃ amount : D, start.toStateFields = {
      sourceSha256 := lower (strip source)
      configSha256 := lower (strip config)
      startingCash := amount
      cash := amount
      inventoryQty := Decimal.zero
      inventoryCostBasis := Decimal.zero
      realizedPnl := Decimal.zero
      totalFees := Decimal.zero
      totalSpreadCost := Decimal.zero
      totalSlippageCost := Decimal.zero
      turnover := Decimal.zero
      lastProcessedTimestamp := none
      lastEventSeq := 0
      orders := []
      processedFillIds := []
      processedFillFingerprints := [] } := by
  simp only [initial, Py.bind_eq_ok] at initialised
  obtain ⟨amount, -, built⟩ := initialised
  have accepted := construct_eq_ok.mp built
  simp only [postInit, Py.bind_eq_ok, guardNot_eq_ok, orRaise_some, dec_objectArg, normalizeOptional,
    Py.ok_bind, Py.pure_eq_ok, Except.ok.injEq] at accepted
  obtain ⟨-, -, sourceHash, hsource, configHash, hconfig, _, ⟨rfl, -⟩, _, ⟨rfl, -⟩, _, ⟨rfl, -⟩, _,
    ⟨rfl, -⟩, _, ⟨rfl, -⟩, _, ⟨rfl, -⟩, _, ⟨rfl, -⟩, _, ⟨rfl, -⟩, _, ⟨rfl, -⟩, -, -, -, -, -, -, -, -, -,
    -, -, -, fields⟩ := accepted
  exact ⟨_, by rw [← fields, sha256Text_eq_ok hsource, sha256Text_eq_ok hconfig]⟩

def fingerprintPayload (f : Text × Text) : Json :=
  .ofMembers [(txt "fill_id", .str f.1), (txt "sha256", .str f.2)]

def optionalText : Option Text → Json
  | none => .null
  | some t => .str t

def PaperState.toPayload (s : PaperState D) : Json :=
  .ofMembers [
    (txt "schema_version", .ofNat checkpointSchemaVersion),
    (txt "source_sha256", .str s.sourceSha256), (txt "config_sha256", .str s.configSha256),
    (txt "starting_cash", .str (Decimal.str s.startingCash)), (txt "cash", .str (Decimal.str s.cash)),
    (txt "inventory_qty", .str (Decimal.str s.inventoryQty)),
    (txt "inventory_cost_basis", .str (Decimal.str s.inventoryCostBasis)),
    (txt "realized_pnl", .str (Decimal.str s.realizedPnl)),
    (txt "total_fees", .str (Decimal.str s.totalFees)),
    (txt "total_spread_cost", .str (Decimal.str s.totalSpreadCost)),
    (txt "total_slippage_cost", .str (Decimal.str s.totalSlippageCost)),
    (txt "turnover", .str (Decimal.str s.turnover)),
    (txt "last_processed_timestamp", optionalText s.lastProcessedTimestamp),
    (txt "last_event_seq", .ofNat s.lastEventSeq),
    (txt "orders", .arr (s.orders.map fun o => o.toPayload)),
    (txt "processed_fill_ids", .arr (s.processedFillIds.map .str)),
    (txt "processed_fill_fingerprints", .arr (s.processedFillFingerprints.map fingerprintPayload))]

def stateKeys : List Text :=
  [txt "cash", txt "config_sha256", txt "inventory_cost_basis", txt "inventory_qty",
   txt "last_event_seq", txt "last_processed_timestamp", txt "orders",
   txt "processed_fill_fingerprints", txt "processed_fill_ids", txt "realized_pnl",
   txt "schema_version", txt "source_sha256", txt "starting_cash", txt "total_fees",
   txt "total_slippage_cost", txt "total_spread_cost", txt "turnover"]

/-- A member of an object whose key set was checked before. -/
def field (payload : Json) (key : Text) : Json := (payload.get? key).getD .null

theorem field_ofMembers (members : List (Text × Json)) (key : Text) :
    field (.ofMembers members) key = (Json.lookup key members.reverse).getD .null := by
  rw [field, Json.get?_ofMembers]

def itemsOf (value : Json) : Py (List Json) :=
  match value with
  | .arr items => .ok items
  | _ => raise .typeError (txt "object is not iterable")

def fingerprintItem (item : Json) : Py (Text × Text) :=
  match item.get? (txt "fill_id"), item.get? (txt "sha256") with
  | some fillId, some sha256 => .ok ((jsonArg fillId).text, (jsonArg sha256).text)
  | none, _ => raise .keyError (txt "fill_id")
  | _, none => raise .keyError (txt "sha256")

/-- An optional argument, absent as `None`. -/
def optionalArg : Json → Option PyArg
  | .null => none
  | value => some (jsonArg value)

@[simp] theorem optionalArg_optionalText (t : Option Text) :
    optionalArg (optionalText t) = t.map .str := by
  cases t <;> rfl

/-- The keyword arguments that `from_payload` takes from its object. -/
def PaperState.payloadArgs (payload : Json) (orders : List (PaperOrder D))
    (fingerprints : List (Text × Text)) : StateArgs D where
  schemaVersion := (field payload (txt "schema_version")).asNat?
  sourceSha256 := (jsonArg (field payload (txt "source_sha256"))).text
  configSha256 := (jsonArg (field payload (txt "config_sha256"))).text
  startingCash := jsonArg (field payload (txt "starting_cash"))
  cash := jsonArg (field payload (txt "cash"))
  inventoryQty := jsonArg (field payload (txt "inventory_qty"))
  inventoryCostBasis := jsonArg (field payload (txt "inventory_cost_basis"))
  realizedPnl := jsonArg (field payload (txt "realized_pnl"))
  totalFees := jsonArg (field payload (txt "total_fees"))
  totalSpreadCost := jsonArg (field payload (txt "total_spread_cost"))
  totalSlippageCost := jsonArg (field payload (txt "total_slippage_cost"))
  turnover := jsonArg (field payload (txt "turnover"))
  lastProcessedTimestamp := optionalArg (field payload (txt "last_processed_timestamp"))
  lastEventSeq := (field payload (txt "last_event_seq")).asNat?
  orders
  processedFillIds := (field payload (txt "processed_fill_ids")).asTexts?
  processedFillFingerprints := fingerprints

/-- `PaperState.from_payload` -/
def PaperState.fromPayload (payload : Json) : Py (PaperState D) := do
  guardNot (!payload.isObject) .resilienceError (txt "checkpoint state must be an object")
  guardNot (payload.keys != stateKeys) .resilienceError
    (txt "checkpoint state fields do not match schema")
  rewrap (fun e => e == .typeError || e == .keyError) .resilienceError
    (fun t => txt "invalid checkpoint state: " ++ t) do
      let orders ← (← itemsOf (field payload (txt "orders"))).mapM PaperOrder.fromPayload
      let fingerprints ←
        (← itemsOf (field payload (txt "processed_fill_fingerprints"))).mapM fingerprintItem
      construct (payloadArgs payload orders fingerprints)

theorem mapM_map {α β : Type} {f : β → Py α} {g : α → β} (items : List α)
    (each : ∀ a, f (g a) = .ok a) : (items.map g).mapM f = .ok items := by
  induction items with
  | nil => rfl
  | cons a items ih =>
      rw [List.map_cons, List.mapM_cons, each a, ih]
      rfl

private theorem payloadArgs_toPayload (s : PaperState D) :
    PaperState.payloadArgs s.toPayload s.orders s.processedFillFingerprints =
      s.args fun d => .str (Decimal.str d) := by
  simp only [PaperState.payloadArgs, StateFields.args, PaperState.toPayload, field_ofMembers,
    List.reverse_cons, List.reverse_nil, List.nil_append, List.cons_append, Json.lookup, txt_inj,
    String.reduceEq, if_true, if_false, Option.getD_some, jsonArg, PyArg.text, Json.asNat?_ofNat,
    Json.asTexts?_arr_str, optionalArg_optionalText]

/-- Reading back what `to_payload` wrote. -/
theorem PaperState.fromPayload_toPayload (s : PaperState D) : fromPayload s.toPayload = .ok s := by
  have isObject : s.toPayload.isObject = true := rfl
  have keys : s.toPayload.keys = stateKeys := by
    simp only [toPayload, Json.keys_ofMembers, List.map_cons, List.map_nil]
    decide
  have orders : itemsOf (field s.toPayload (txt "orders")) =
      .ok (s.orders.map fun o => o.toPayload) := by
    simp [toPayload, field_ofMembers, Json.lookup, itemsOf]
  have fingerprints : itemsOf (field s.toPayload (txt "processed_fill_fingerprints")) =
      .ok (s.processedFillFingerprints.map fingerprintPayload) := by
    simp [toPayload, field_ofMembers, Json.lookup, itemsOf]
  have item (f : Text × Text) : fingerprintItem (fingerprintPayload f) = .ok f := by
    simp [fingerprintItem, fingerprintPayload, Json.get?_ofMembers, Json.lookup, jsonArg, PyArg.text]
  have passes : ∀ (d : D) name bound, bound.admits d = true →
      dec (.str (Decimal.str d)) name bound = .ok d := fun _ _ _ admitted => dec_str admitted _
  simp only [fromPayload, isObject, keys, Bool.not_true, bne_self_eq_false, guardNot_false, Py.ok_bind,
    orders, fingerprints, mapM_map s.orders PaperOrder.fromPayload_toPayload,
    mapM_map s.processedFillFingerprints item, payloadArgs_toPayload,
    construct_args s passes, rewrap_ok]

end Senex.Paper
