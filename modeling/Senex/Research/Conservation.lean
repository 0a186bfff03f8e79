import Senex.Research.Replay

/-! # Where the orders of a replay go

Every order of a replay has one outcome.  The loop keeps a balance between the
orders submitted and those filled, rejected, expired, cancelled and open, with
the orders of a candle that are still to be gone through on the open side.
-/

namespace Senex.Research

open Text Paper

variable {M D : Type} [OrderedDecimal D]

/-! ## What is to hold -/

/-- The lists of a report that an order can end in. -/
structure Outcomes (D : Type) where
  fills : List (Fill D)
  rejections : List (Rejection D)
  expiredOrders : List ExpiredOrder
  cancelledOrders : List CancelledOrder
  pendingOrders : List (PendingOrder D)

def Books.outcomes (b : Books M D) : Outcomes D :=
  ⟨b.fills, b.rejections, b.expiredOrders, b.cancelledOrders, b.pending⟩

def RunReport.outcomes (r : RunReport D) : Outcomes D :=
  ⟨r.fills, r.rejections, r.expiredOrders, r.cancelledOrders, r.pendingOrders⟩

/-- A rejection of an order, not of a cancellation. -/
def Rejection.atExecution (r : Rejection D) : Bool :=
  match r.side with
  | .order _ => true
  | .cancel => false

/-- The ids of all the orders that an outcome is recorded for. -/
def Outcomes.ids (o : Outcomes D) : List Text :=
  o.fills.map (·.orderId) ++ (o.rejections.filter Rejection.atExecution).map (·.orderId) ++
    o.expiredOrders.map (·.orderId) ++ o.cancelledOrders.map (·.orderId) ++
    o.pendingOrders.map (·.orderId)

/-- The order was open for no longer than its time to live at that candle. -/
def PendingOrder.Live (o : PendingOrder D) (index : Nat) : Prop :=
  ∀ ttl ∈ o.expiresAfterBars, index ≤ o.submittedIndex + ttl

/-- A later candle, within the order's time to live, closed the order. -/
def PendingOrder.ClosedAt (o : PendingOrder D) (bars : List (Candle D)) (timestamp : Text) : Prop :=
  ∃ index candle, bars[index]? = some candle ∧ timestamp = candle.timestamp ∧
    o.submittedIndex < index ∧ o.Live index

def Candle.Holds (candle : Candle D) (price : D) : Prop :=
  Decimal.le candle.low price = true ∧ Decimal.le price candle.high = true

/-- The limit of a limit order, or better. -/
def PendingOrder.LimitKept (o : PendingOrder D) (price : D) : Prop :=
  match o.orderType, o.side with
  | .market, _ => True
  | .limit limitPrice, .buy => Decimal.le price limitPrice = true
  | .limit limitPrice, .sell => Decimal.le limitPrice price = true

/-- A later candle, within the order's time to live, filled the order at a price that it holds. -/
def PendingOrder.FilledBy (o : PendingOrder D) (bars : List (Candle D)) (fill : Fill D) : Prop :=
  ∃ index candle, bars[index]? = some candle ∧ fill.timestamp = candle.timestamp ∧
    o.submittedIndex < index ∧ o.Live index ∧ candle.Holds fill.price ∧ o.LimitKept fill.price

/-- The order is still open behind that many candles. -/
def PendingOrder.Waits (o : PendingOrder D) (count : Nat) : Prop :=
  o.submittedIndex < count ∧ o.Live count

/-- The strategy took the order back at a candle of its time to live. -/
def PendingOrder.CancelledAt (o : PendingOrder D) (bars : List (Candle D)) (timestamp : Text) : Prop :=
  ∃ index candle, bars[index]? = some candle ∧ timestamp = candle.timestamp ∧ o.Waits (index + 1)

/-- The order as a later candle has it: the same, but for the count of its candles. -/
def PendingOrder.IsOf (p o : PendingOrder D) : Prop := ∃ waited, p = { o with barsWaited := waited }

/-- Every outcome of a run over `bars` is that of an order submitted in it, in time. -/
structure Recorded (bars : List (Candle D)) (submitted : List (PendingOrder D)) (o : Outcomes D) :
    Prop where
  placed : ∀ order ∈ submitted, ∃ candle, bars[order.submittedIndex]? = some candle ∧
    order.submittedTimestamp = candle.timestamp
  filled : ∀ fill ∈ o.fills, ∃ order ∈ submitted, order.orderId = fill.orderId ∧
    order.FilledBy bars fill
  rejected : ∀ rejection ∈ o.rejections, rejection.atExecution = true →
    ∃ order ∈ submitted, order.orderId = rejection.orderId ∧ order.ClosedAt bars rejection.timestamp
  expired : ∀ note ∈ o.expiredOrders, ∃ order ∈ submitted, order.orderId = note.orderId ∧
    order.ClosedAt bars note.timestamp
  cancelled : ∀ note ∈ o.cancelledOrders, ∃ order ∈ submitted, order.orderId = note.orderId ∧
    order.CancelledAt bars note.timestamp
  pending : ∀ item ∈ o.pendingOrders, ∃ order ∈ submitted, item.IsOf order ∧ order.Waits bars.length

/-- The orders submitted have distinct ids, and each of them has one outcome. -/
structure Conserved (bars : List (Candle D)) (submitted : List (PendingOrder D)) (o : Outcomes D) :
    Prop extends Recorded bars submitted o where
  distinct : (submitted.map (·.orderId)).Nodup
  balanced : o.ids.Perm (submitted.map (·.orderId))

/-! ## The price of a fill -/

theorem Candle.open_bounds (candle : Candle D) : candle.Holds candle.open := by
  have upper := (OrderedDecimal.not_lt_iff _ _).mp candle.high_covers
  have lower := (OrderedDecimal.not_lt_iff _ _).mp candle.low_covers
  simp only [Holds, OrderedDecimal.le_iff]
  constructor
  · refine lower.trans ?_
    unfold smaller
    split
    · rename_i below
      exact ((OrderedDecimal.lt_iff _ _).mp below).le
    · exact le_rfl
  · refine le_trans ?_ upper
    unfold larger
    split
    · rename_i below
      exact ((OrderedDecimal.lt_iff _ _).mp below).le
    · exact le_rfl

theorem fillPrice_holds {order : PendingOrder D} {candle : Candle D} {price : D}
    (fills : fillPrice order candle = some price) : candle.Holds price ∧ order.LimitKept price := by
  obtain ⟨low, high⟩ := candle.open_bounds
  simp only [OrderedDecimal.le_iff] at low high
  unfold fillPrice at fills
  unfold PendingOrder.LimitKept Candle.Holds
  cases type : order.orderType with
  | market =>
      simp only [type, Option.some.injEq] at fills
      subst fills
      exact ⟨candle.open_bounds, trivial⟩
  | limit limitPrice =>
      cases side : order.side with
      | buy =>
          simp only [type, side, Option.ite_none_right_eq_some, Option.some.injEq,
            OrderedDecimal.le_iff] at fills
          obtain ⟨touched, rfl⟩ := fills
          by_cases better : Decimal.lt candle.open limitPrice = true
          · rw [if_pos better]
            rw [OrderedDecimal.lt_iff] at better
            simp only [OrderedDecimal.le_iff]
            exact ⟨⟨low, high⟩, better.le⟩
          · rw [if_neg better]
            rw [Bool.not_eq_true, OrderedDecimal.not_lt_iff] at better
            simp only [OrderedDecimal.le_iff]
            exact ⟨⟨touched, better.trans high⟩, le_rfl⟩
      | sell =>
          simp only [type, side, Option.ite_none_right_eq_some, Option.some.injEq,
            OrderedDecimal.le_iff] at fills
          obtain ⟨touched, rfl⟩ := fills
          by_cases better : Decimal.lt limitPrice candle.open = true
          · rw [if_pos better]
            rw [OrderedDecimal.lt_iff] at better
            simp only [OrderedDecimal.le_iff]
            exact ⟨⟨low, high⟩, better.le⟩
          · rw [if_neg better]
            rw [Bool.not_eq_true, OrderedDecimal.not_lt_iff] at better
            simp only [OrderedDecimal.le_iff]
            exact ⟨⟨low.trans better, touched⟩, le_rfl⟩

/-- A decimal argument is read as itself. -/
theorem asDecimal_objectArg_eq {d e : D} {name : Text} {bound : Bound}
    (read : asDecimal (objectArg d) name bound = .ok e) : e = d := by
  simp only [asDecimal, objectArg, PyArg.text, Decimal.parse_str] at read
  split at read
  · exact (Except.ok.inj read).symm
  · simp at read

theorem operationValues_px {l : Ledger D} {quantity fee spread slip : PyArg} {price : D}
    {v : OperationValues D}
    (read : l.operationValues quantity (objectArg price) fee spread slip = .ok v) : v.px = price := by
  simp only [Ledger.operationValues, Py.bind_eq_ok, Py.pure_eq_ok, Except.ok.injEq] at read
  obtain ⟨_, _, px, priced, _, _, _, _, _, _, _, _, _, _, rfl⟩ := read
  exact asDecimal_objectArg_eq priced

theorem buy_price {l l' : Ledger D} {quantity fee spread slip : PyArg} {price : D}
    {operation : LedgerOperation D}
    (bought : l.buy quantity (objectArg price) fee spread slip = .ok (l', operation)) :
    operation.price = price := by
  simp only [Ledger.buy, Py.bind_eq_ok, Py.pure_eq_ok, Except.ok.injEq, Prod.mk.injEq] at bought
  obtain ⟨v, read, _, _, _, _, _, _, _, _, _, _, _, _, _, _, _, _, _, _, -, rfl⟩ := bought
  exact operationValues_px read

theorem sell_price {l l' : Ledger D} {quantity fee spread slip : PyArg} {price : D}
    {operation : LedgerOperation D}
    (sold : l.sell quantity (objectArg price) fee spread slip = .ok (l', operation)) :
    operation.price = price := by
  simp only [Ledger.sell, Py.bind_eq_ok, Py.pure_eq_ok, Except.ok.injEq, Prod.mk.injEq] at sold
  obtain ⟨v, read, rest⟩ := sold
  have priced := operationValues_px read
  grind

theorem executeFill_fill {order : PendingOrder D} {candle : Candle D} {price : D} {l l' : Ledger D}
    {costs : CostProfile D} {fill : Fill D}
    (executed : executeFill order candle price l costs = .ok (l', fill)) :
    fill.orderId = order.orderId ∧ fill.timestamp = candle.timestamp ∧ fill.price = price := by
  simp only [executeFill, Py.bind_eq_ok, Py.pure_eq_ok, Except.ok.injEq, Prod.mk.injEq] at executed
  obtain ⟨_, _, _, _, _, _, _, _, ⟨_, _⟩, _, ⟨_, operation⟩, operated, _, rfl⟩ := executed
  refine ⟨rfl, rfl, ?_⟩
  cases side : order.side with
  | buy =>
      rw [side] at operated
      exact buy_price operated
  | sell =>
      rw [side] at operated
      exact sell_price operated

/-! ## One order -/

/-- What a candle can make of a waiting order. -/
inductive Settles (index : Nat) (candle : Candle D) (order : PendingOrder D) : Settled D → Prop
  | early (notYet : index ≤ order.submittedIndex) : Settles index candle order (.still order)
  | filled (ledger : Ledger D) (fill : Fill D) (later : order.submittedIndex < index)
      (sameId : fill.orderId = order.orderId) (at_ : fill.timestamp = candle.timestamp)
      (holds : candle.Holds fill.price) (kept : order.LimitKept fill.price) :
      Settles index candle order (.filled ledger fill)
  | rejected (reason : Text) (later : order.submittedIndex < index) :
      Settles index candle order (.rejected ⟨order.orderId, candle.timestamp, reason,
        .order order.side, order.quantity, order.tag⟩)
  | expired (note : ExpiredOrder) (later : order.submittedIndex < index)
      (sameId : note.orderId = order.orderId) (at_ : note.timestamp = candle.timestamp) :
      Settles index candle order (.expired note)
  | waits (later : order.submittedIndex < index) (live : order.Live (index + 1)) :
      Settles index candle order
        (.still { order with barsWaited := index - order.submittedIndex })

theorem settle_settles {costs : CostProfile D} {index : Nat} {candle : Candle D} {ledger : Ledger D}
    {order : PendingOrder D} {s : Settled D}
    (settled : settle costs index candle ledger order = .ok s) : Settles index candle order s := by
  unfold settle at settled
  split at settled
  · rename_i notYet
    cases settled
    exact .early notYet
  · rename_i late
    have later : order.submittedIndex < index := by omega
    split at settled
    · rename_i price priced
      obtain ⟨holds, kept⟩ := fillPrice_holds priced
      split at settled
      · rename_i after fill executed
        cases settled
        obtain ⟨sameId, at_, rfl⟩ := executeFill_fill executed
        exact .filled after fill later sameId at_ holds kept
      · split at settled
        · cases settled
          exact .rejected _ later
        · cases settled
    · dsimp only at settled
      split at settled
      · cases settled
        exact .expired _ later rfl rfl
      · rename_i fresh
        cases settled
        refine .waits later ?_
        intro ttl timed
        rw [Option.mem_def] at timed
        simp only [timed, Option.any_some, decide_eq_true_eq, not_le] at fresh
        omega

/-! ## The loop over the waiting orders -/

/-- The balance while a candle goes through the waiting orders: those not yet gone
through are open behind the candles before it. -/
structure Books.Flow (b : Books M D) (strategyId : Text) (bars : List (Candle D))
    (waiting : List (PendingOrder D)) : Prop where
  recorded : Recorded bars b.submitted b.outcomes
  numbered : b.submitted.map (·.orderId) =
    (List.range b.orderSequence).map fun k => orderIdOf strategyId (k + 1)
  balanced : ∀ id, b.outcomes.ids.count id + (waiting.map (·.orderId)).count id =
    (b.submitted.map (·.orderId)).count id
  waiting : ∀ item ∈ waiting, ∃ order ∈ b.submitted, item.IsOf order ∧
    order.Waits (bars.length - 1)

theorem Books.Flow.book {b : Books M D} {strategyId : Text} {seen : List (Candle D)}
    {candle : Candle D} {item : PendingOrder D} {rest : List (PendingOrder D)} {s : Settled D}
    (flow : b.Flow strategyId (seen ++ [candle]) (item :: rest))
    (settles : Settles seen.length candle item s) :
    (b.book s).Flow strategyId (seen ++ [candle]) rest := by
  obtain ⟨recorded, numbered, balanced, waiting⟩ := flow
  obtain ⟨order, member, ⟨waited, rfl⟩, waits⟩ := waiting item (by simp)
  have last : (seen ++ [candle])[seen.length]? = some candle := by simp
  simp only [List.length_append, List.length_singleton, Nat.add_sub_cancel] at waits
  have closes : order.ClosedAt (seen ++ [candle]) candle.timestamp :=
    ⟨seen.length, candle, last, rfl, waits.1, waits.2⟩
  have remaining : ∀ item ∈ rest, ∃ order ∈ b.submitted, item.IsOf order ∧
      order.Waits ((seen ++ [candle]).length - 1) :=
    fun item inside => waiting item (List.mem_cons_of_mem _ inside)
  cases settles with
  | early notYet => exact absurd waits.1 (Nat.not_lt.mpr notYet)
  | filled ledger fill later sameId at_ holds kept =>
      refine ⟨{ recorded with filled := ?_ }, numbered, ?_, remaining⟩
      · intro other inside
        rcases List.mem_append.mp inside with inside | inside
        · exact recorded.filled other inside
        · obtain rfl := List.mem_singleton.mp inside
          exact ⟨order, member, sameId.symm, seen.length, candle, last, at_, waits.1, waits.2,
            holds, kept⟩
      · intro id
        have before := balanced id
        simp only [outcomes, Outcomes.ids, Books.book, List.map_append, List.count_append,
          List.map_cons, List.map_nil, List.count_cons, List.count_nil, sameId] at before ⊢
        omega
  | rejected reason later =>
      refine ⟨{ recorded with rejected := ?_ }, numbered, ?_, remaining⟩
      · intro other inside
        rcases List.mem_append.mp inside with inside | inside
        · exact recorded.rejected other inside
        · obtain rfl := List.mem_singleton.mp inside
          exact fun _ => ⟨order, member, rfl, closes⟩
      · intro id
        have before := balanced id
        simp only [outcomes, Outcomes.ids, Books.book, List.filter_append, List.filter_cons,
          Rejection.atExecution, if_true, List.filter_nil, List.map_append, List.count_append,
          List.map_cons, List.map_nil, List.count_cons, List.count_nil] at before ⊢
        omega
  | expired note later sameId at_ =>
      refine ⟨{ recorded with expired := ?_ }, numbered, ?_, remaining⟩
      · intro other inside
        rcases List.mem_append.mp inside with inside | inside
        · exact recorded.expired other inside
        · obtain rfl := List.mem_singleton.mp inside
          exact ⟨order, member, sameId.symm, at_ ▸ closes⟩
      · intro id
        have before := balanced id
        simp only [outcomes, Outcomes.ids, Books.book, List.map_append, List.count_append,
          List.map_cons, List.map_nil, List.count_cons, List.count_nil, sameId] at before ⊢
        omega
  | waits later live =>
      refine ⟨{ recorded with pending := ?_ }, numbered, ?_, remaining⟩
      · intro other inside
        rcases List.mem_append.mp inside with inside | inside
        · exact recorded.pending other inside
        · obtain rfl := List.mem_singleton.mp inside
          refine ⟨order, member, ⟨_, rfl⟩, ?_⟩
          rw [List.length_append, List.length_singleton]
          exact ⟨Nat.lt_succ_of_lt waits.1, live⟩
      · intro id
        have before := balanced id
        simp only [outcomes, Outcomes.ids, Books.book, List.map_append, List.count_append,
          List.map_cons, List.map_nil, List.count_cons, List.count_nil] at before ⊢
        omega

theorem Books.Flow.foldlM {b after : Books M D} {strategyId : Text} {seen : List (Candle D)}
    {candle : Candle D} {costs : CostProfile D} {waiting : List (PendingOrder D)}
    (flow : b.Flow strategyId (seen ++ [candle]) waiting)
    (settled : waiting.foldlM (fun b order => do
      return b.book (← settle costs seen.length candle b.ledger order)) b = .ok after) :
    after.Flow strategyId (seen ++ [candle]) [] := by
  induction waiting generalizing b with
  | nil =>
      cases settled
      exact flow
  | cons item rest ih =>
      simp only [List.foldlM_cons, Py.bind_eq_ok, Py.pure_eq_ok, Except.ok.injEq] at settled
      obtain ⟨_, ⟨s, first, rfl⟩, others⟩ := settled
      exact ih (flow.book (settle_settles first)) others

/-- A further candle takes nothing away from what the candles before it show. -/
theorem Recorded.extend {bars : List (Candle D)} {submitted : List (PendingOrder D)} {o : Outcomes D}
    (recorded : Recorded bars submitted o) (candle : Candle D) :
    Recorded (bars ++ [candle]) submitted { o with pendingOrders := [] } := by
  have kept : ∀ {index : Nat} {c : Candle D}, bars[index]? = some c →
      (bars ++ [candle])[index]? = some c := by
    intro index c found
    obtain ⟨inside, -⟩ := List.getElem?_eq_some_iff.mp found
    rw [List.getElem?_append_left inside, found]
  constructor
  · intro order member
    obtain ⟨c, found, at_⟩ := recorded.placed order member
    exact ⟨c, kept found, at_⟩
  · intro fill member
    obtain ⟨order, inside, sameId, index, c, found, rest⟩ := recorded.filled fill member
    exact ⟨order, inside, sameId, index, c, kept found, rest⟩
  · intro rejection member executed
    obtain ⟨order, inside, sameId, index, c, found, rest⟩ :=
      recorded.rejected rejection member executed
    exact ⟨order, inside, sameId, index, c, kept found, rest⟩
  · intro note member
    obtain ⟨order, inside, sameId, index, c, found, rest⟩ := recorded.expired note member
    exact ⟨order, inside, sameId, index, c, kept found, rest⟩
  · intro note member
    obtain ⟨order, inside, sameId, index, c, found, rest⟩ := recorded.cancelled note member
    exact ⟨order, inside, sameId, index, c, kept found, rest⟩
  · intro item member
    cases member

theorem Books.Flow.settleAll {b after : Books M D} {strategyId : Text} {seen : List (Candle D)}
    {candle : Candle D} {costs : CostProfile D} (flow : b.Flow strategyId seen [])
    (settled : b.settleAll costs seen.length candle = .ok after) :
    after.Flow strategyId (seen ++ [candle]) [] := by
  refine Flow.foldlM ?_ settled
  refine ⟨flow.recorded.extend candle, flow.numbered, ?_, ?_⟩
  · intro id
    have before := flow.balanced id
    simp only [outcomes, Outcomes.ids, List.count_append, List.map_nil, List.count_nil,
      Nat.add_zero] at before ⊢
    exact before
  · intro item member
    obtain ⟨order, inside, same, waits⟩ := flow.recorded.pending item member
    exact ⟨order, inside, same, by simpa using waits⟩

/-! ## The strategy's intents -/

theorem orderIdOf_injective {strategyId : Text} {m n : Nat}
    (same : orderIdOf strategyId m = orderIdOf strategyId n) : m = n := by
  simp only [orderIdOf, List.append_cancel_left_eq, List.cons.injEq, true_and] at same
  exact zeroPadded_injective same

theorem Books.Flow.distinct {b : Books M D} {strategyId : Text} {bars : List (Candle D)}
    {waiting : List (PendingOrder D)} (flow : b.Flow strategyId bars waiting) :
    (b.submitted.map (·.orderId)).Nodup := by
  rw [flow.numbered]
  refine List.Nodup.map_on ?_ List.nodup_range
  intro m _ n _ same
  have := orderIdOf_injective same
  omega

/-- The cancellation of an id takes out what is open under it, and nothing else. -/
theorem count_cancelled {E : Type} (pending : List (PendingOrder E)) (cancelled id : Text) :
    ((pending.filter fun item => item.orderId != cancelled).map (·.orderId)).count id =
      if id = cancelled then 0 else (pending.map (·.orderId)).count id := by
  induction pending with
  | nil => simp
  | cons item rest ih =>
      by_cases same : item.orderId = cancelled
      · by_cases asked : id = cancelled
        · simp_all
        · have other : ¬cancelled = id := fun h => asked h.symm
          simp_all
      · by_cases asked : id = cancelled
        · simp_all
        · simp_all [List.count_cons]

theorem Books.Flow.cancel {b : Books M D} {strategyId : Text} {seen : List (Candle D)}
    {candle : Candle D} (flow : b.Flow strategyId (seen ++ [candle]) []) (intent : CancelIntent) :
    (b.cancel candle intent).Flow strategyId (seen ++ [candle]) [] := by
  have distinct := flow.distinct
  obtain ⟨recorded, numbered, balanced, -⟩ := flow
  unfold Books.cancel
  split
  · refine ⟨{ recorded with rejected := ?_ }, numbered, ?_, by simp⟩
    · intro other inside executed
      rcases List.mem_append.mp inside with inside | inside
      · exact recorded.rejected other inside executed
      · obtain rfl := List.mem_singleton.mp inside
        cases executed
    · intro id
      simpa [outcomes, Outcomes.ids, Rejection.atExecution] using balanced id
  · rename_i item found
    have member := List.mem_of_find?_eq_some found
    have named : item.orderId = intent.orderId := by simpa using List.find?_some found
    obtain ⟨order, inside, ⟨waited, same⟩, waits⟩ := recorded.pending item member
    have sameId : order.orderId = intent.orderId := by rw [← named, same]
    refine ⟨{ recorded with cancelled := ?_, pending := ?_ }, numbered, ?_, by simp⟩
    · intro other listed
      rcases List.mem_append.mp listed with listed | listed
      · exact recorded.cancelled other listed
      · obtain rfl := List.mem_singleton.mp listed
        refine ⟨order, inside, sameId, seen.length, candle, by simp, rfl, ?_⟩
        simpa using waits
    · intro other listed
      exact recorded.pending other (List.mem_of_mem_filter listed)
    · intro id
      have before := balanced id
      have once := List.nodup_iff_count_le_one.mp distinct intent.orderId
      have there : 0 < (b.pending.map (·.orderId)).count intent.orderId :=
        List.count_pos_iff.mpr (List.mem_map.mpr ⟨item, member, named⟩)
      simp only [outcomes, Outcomes.ids, List.map_append, List.count_append, List.map_cons,
        List.map_nil, List.count_cons, List.count_nil, count_cancelled] at before ⊢
      by_cases asked : id = intent.orderId
      · subst asked
        simp
        omega
      · have other : ¬intent.orderId = id := fun h => asked h.symm
        simp [asked, other]
        omega

theorem Books.Flow.submit {b : Books M D} {strategyId : Text} {seen : List (Candle D)}
    {candle : Candle D} (flow : b.Flow strategyId (seen ++ [candle]) []) (config : ReplayConfig D)
    (intent : OrderIntent D) :
    (b.submit strategyId config.defaultOrderTtl seen.length candle intent).Flow strategyId
      (seen ++ [candle]) [] := by
  obtain ⟨recorded, numbered, balanced, -⟩ := flow
  have wider : ∀ {P : PendingOrder D → Prop} (order : PendingOrder D),
      (∃ o ∈ b.submitted, P o) → ∃ o ∈ b.submitted ++ [order], P o := by
    rintro P order ⟨o, member, holds⟩
    exact ⟨o, List.mem_append_left _ member, holds⟩
  refine ⟨⟨?_, ?_, ?_, ?_, ?_, ?_⟩, ?_, ?_, by simp⟩
  · intro order inside
    rcases List.mem_append.mp inside with inside | inside
    · exact recorded.placed order inside
    · obtain rfl := List.mem_singleton.mp inside
      exact ⟨candle, by simp, rfl⟩
  · exact fun fill inside => wider _ (recorded.filled fill inside)
  · exact fun rejection inside executed => wider _ (recorded.rejected rejection inside executed)
  · exact fun note inside => wider _ (recorded.expired note inside)
  · exact fun note inside => wider _ (recorded.cancelled note inside)
  · intro item inside
    rcases List.mem_append.mp inside with inside | inside
    · exact wider _ (recorded.pending item inside)
    · obtain rfl := List.mem_singleton.mp inside
      refine ⟨_, List.mem_append_right _ (List.mem_singleton_self _), ⟨0, rfl⟩, by simp, ?_⟩
      intro ttl timed
      have positive : 0 < ttl := by
        cases own : intent.expiresAfterBars with
        | none =>
            rw [own] at timed
            exact config.ttl_positive ttl timed
        | some bars =>
            rw [own] at timed
            exact intent.expires_positive ttl (by rw [own]; exact timed)
      rw [List.length_append, List.length_singleton]
      dsimp only
      omega
  · rw [Books.submit]
    simp only [List.map_append, numbered, List.range_succ, List.map_cons, List.map_nil]
  · intro id
    have before := balanced id
    simp only [outcomes, Outcomes.ids, Books.submit, List.map_append, List.count_append,
      List.map_cons, List.map_nil, List.count_cons, List.count_nil] at before ⊢
    omega

theorem Books.Flow.take {b after : Books M D} {strategyId : Text} {seen : List (Candle D)}
    {candle : Candle D} {config : ReplayConfig D} {intent : Intent D}
    (flow : b.Flow strategyId (seen ++ [candle]) [])
    (taken : Books.take strategyId config.defaultOrderTtl seen.length candle b intent = .ok after) :
    after.Flow strategyId (seen ++ [candle]) [] := by
  cases intent with
  | order intent =>
      cases taken
      exact flow.submit config intent
  | cancel intent =>
      cases taken
      exact flow.cancel intent
  | other => simp [Books.take] at taken

theorem Books.Flow.takeAll {b after : Books M D} {strategyId : Text} {seen : List (Candle D)}
    {candle : Candle D} {config : ReplayConfig D} {intents : List (Intent D)}
    (flow : b.Flow strategyId (seen ++ [candle]) [])
    (taken : intents.foldlM (Books.take strategyId config.defaultOrderTtl seen.length candle) b =
      .ok after) : after.Flow strategyId (seen ++ [candle]) [] := by
  induction intents generalizing b with
  | nil =>
      cases taken
      exact flow
  | cons intent rest ih =>
      simp only [List.foldlM_cons, Py.bind_eq_ok] at taken
      obtain ⟨next, first, others⟩ := taken
      exact ih (flow.take first) others

/-! ## The run -/

/-- The figures of a candle and the strategy's memory are no part of the balance. -/
theorem Books.Flow.congr {b c : Books M D} {strategyId : Text} {bars : List (Candle D)}
    (flow : b.Flow strategyId bars []) (outcomes : c.outcomes = b.outcomes)
    (submitted : c.submitted = b.submitted) (sequence : c.orderSequence = b.orderSequence) :
    c.Flow strategyId bars [] := by
  obtain ⟨recorded, numbered, balanced, -⟩ := flow
  constructor
  · rw [outcomes, submitted]
    exact recorded
  · rw [submitted, sequence]
    exact numbered
  · intro id
    rw [outcomes, submitted]
    exact balanced id
  · simp

theorem Books.Flow.step {b after : Books M D} {strategy : Strategy M D} {config : ReplayConfig D}
    {seen : List (Candle D)} {candle : Candle D} (flow : b.Flow strategy.strategyId seen [])
    (stepped : b.step strategy config seen.length candle = .ok after) :
    after.Flow strategy.strategyId (seen ++ [candle]) [] := by
  simp only [Books.step, Books.mark, Py.bind_eq_ok, Py.pure_eq_ok, Except.ok.injEq] at stepped
  obtain ⟨settled, settledAll, shot, _, marked, ⟨drawdown, _, rfl⟩, ⟨memory, answer⟩, _, intents, _,
    taken⟩ := stepped
  refine Flow.takeAll ?_ taken
  exact (flow.settleAll settledAll).congr rfl rfl rfl

theorem Books.Flow.loop {b after : Books M D} {strategy : Strategy M D} {config : ReplayConfig D}
    {seen rest : List (Candle D)} (flow : b.Flow strategy.strategyId seen [])
    (looped : b.loop strategy config seen.length rest = .ok after) :
    after.Flow strategy.strategyId (seen ++ rest) [] := by
  induction rest generalizing b seen with
  | nil =>
      cases looped
      simpa using flow
  | cons candle rest ih =>
      simp only [Books.loop, Py.bind_eq_ok] at looped
      obtain ⟨next, stepped, others⟩ := looped
      have further := flow.step stepped
      have counted : seen.length + 1 = (seen ++ [candle]).length := by simp
      rw [counted] at others
      simpa using ih further others

theorem Books.start_flow (ledger : Ledger D) (config : ReplayConfig D) (memory : M)
    (strategyId : Text) : (Books.start ledger config memory).Flow strategyId [] [] := by
  refine ⟨⟨?_, ?_, ?_, ?_, ?_, ?_⟩, ?_, ?_, ?_⟩ <;> simp [Books.start, outcomes, Outcomes.ids]

theorem Books.Flow.conserved {b : Books M D} {strategyId : Text} {bars : List (Candle D)}
    (flow : b.Flow strategyId bars []) : Conserved bars b.submitted b.outcomes where
  toRecorded := flow.recorded
  distinct := flow.distinct
  balanced := by
    rw [List.perm_iff_count]
    exact fun id => by simpa using flow.balanced id

theorem Books.report_outcomes {b : Books M D} {strategy : Strategy M D} {config : ReplayConfig D}
    {source : Text} {bars : List (Candle D)} {first last : Candle D} {report : RunReport D}
    (reported : b.report strategy config source bars first last = .ok report) :
    report.outcomes = b.outcomes := by
  simp only [Books.report, Py.bind_eq_ok, Py.pure_eq_ok, Except.ok.injEq] at reported
  obtain ⟨_, _, _, _, rfl⟩ := reported
  rfl

/-- In a run that reports, each order submitted has an id of its own and one outcome,
in time and at a price that a later candle holds. -/
theorem Replay.run_conserved {bars : List (Candle D)} {strategy : Strategy M D} {memory : M}
    {config : ReplayConfig D} {sourceSha256 : Option Text} {report : RunReport D}
    (done : Replay.run bars strategy memory config sourceSha256 = .ok report) :
    ∃ books, replayed bars strategy memory config = .ok books ∧
      Conserved bars books.submitted report.outcomes := by
  simp only [Replay.run, Py.bind_eq_ok] at done
  obtain ⟨_, _, source, _, books, looped, reported⟩ := done
  refine ⟨books, looped, ?_⟩
  split at reported
  · rw [Books.report_outcomes reported]
    simp only [replayed, Py.bind_eq_ok] at looped
    obtain ⟨ledger, _, looped⟩ := looped
    have flow := (Books.start_flow ledger config memory strategy.strategyId).loop looped
    exact flow.conserved
  · simp at reported

def sampleBars : List (Candle ℚ) := [
  ⟨txt "2026-01-01T00:00:00.000000Z", 10, 12, 8, 11, 1,
    by decide, by decide, by decide⟩,
  ⟨txt "2026-01-01T01:00:00.000000Z", 11, 13, 9, 12, 1,
    by decide, by decide, by decide⟩,
  ⟨txt "2026-01-01T02:00:00.000000Z", 12, 14, 10, 13, 1,
    by decide, by decide, by decide⟩]

/-- One order for the market, one that expires, one that waits and one beyond the inventory. -/
def sampleIntents : List (Intent ℚ) := [
  .order ⟨.buy, .market, 1, none, [], by decide, by simp⟩,
  .order ⟨.buy, .limit 1, 1, some 1, [], by decide, by simp⟩,
  .order ⟨.sell, .limit 1000, 1, none, [], by decide, by simp⟩,
  .order ⟨.sell, .market, 5, none, [], by decide, by simp⟩]

/-- The strategy that submits them at the first candle. -/
def sampleStrategy : Strategy Bool ℚ where
  strategyId := txt "sample"
  onCandle started _ _ _ := .ok (true, if started then .none else .values sampleIntents)

def sampleConfig : ReplayConfig ℚ where
  startingCash := 1000
  maxInventory := 2
  maxFillQty := 2
  costs := ⟨10, 5, 5⟩
  defaultOrderTtl := none
  startingCash_positive := by decide
  maxInventory_positive := by decide
  maxFillQty_positive := by decide
  ttl_positive := by simp

theorem Replay.run_conserved_sample : ∃ report books,
    Replay.run sampleBars sampleStrategy false sampleConfig (some (List.replicate 64 48)) =
      .ok report ∧
    replayed sampleBars sampleStrategy false sampleConfig = .ok books ∧
    Conserved sampleBars books.submitted report.outcomes := by
  have reports : (Replay.run sampleBars sampleStrategy false sampleConfig
      (some (List.replicate 64 48))).isOk = true := by decide +kernel
  cases done : Replay.run sampleBars sampleStrategy false sampleConfig
      (some (List.replicate 64 48)) with
  | error e =>
      rw [done] at reports
      cases reports
  | ok report =>
      obtain ⟨books, looped, conserved⟩ := Replay.run_conserved done
      exact ⟨report, books, rfl, looped, conserved⟩

end Senex.Research
