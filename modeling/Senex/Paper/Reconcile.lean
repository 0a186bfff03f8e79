import Senex.Paper.Retry

/-! # Reconciliation

`reconcile_snapshot` of the resilience module beside the report of the engine: one
comparison behind both, and what a match and a mismatch mean.
-/

namespace Senex.Paper

open Text

variable {D : Type} [Decimal D]

/-! ## Two reports -/

def OrderStatus.isOpen (s : OrderStatus) : Bool := s == .open_ || s == .partiallyFilled

/-- `ours` of `reconcile_snapshot`: the open orders of a state by ID. -/
def PaperState.openOrders (state : PaperState D) : List (Text × PaperOrder D) :=
  (state.orders.filter fun o => o.status.isOpen).foldl (fun ours o => Json.insert o.orderId o ours) []

/-- `theirs` of `reconcile_snapshot`: the observed orders by ID. -/
def ExecutionSnapshot.ordersById (observed : ExecutionSnapshot D) : List (Text × SnapshotOrder D) :=
  observed.openOrders.foldl (fun theirs o => Json.insert o.orderId o theirs) []

/-- `reconcile_snapshot` -/
def reconcileSnapshot (localState : PaperState D) (observed : ExecutionSnapshot D)
    (tolerance : PyArg) : Py ReconciliationReport := do
  let tol : D ← dec tolerance (txt "tolerance") .nonNegative
  let cashDiffers ← exceeds localState.cash observed.cash tol
  let inventoryDiffers ← exceeds localState.inventoryQty observed.inventoryQty tol
  let ours := localState.openOrders
  let theirs := observed.ordersById
  let shared ← (ours.filter fun o => (Json.lookup o.1 theirs).isSome).mapM fun o =>
    match Json.lookup o.1 theirs with
    | some snap => orderIssues tol o.1 o.2 snap
    | none => .ok []
  let issues :=
    (if cashDiffers then [txt "cash_mismatch:local=" ++ Decimal.str localState.cash ++
      txt ":observed=" ++ Decimal.str observed.cash] else []) ++
    (if inventoryDiffers then [txt "inventory_mismatch:local=" ++ Decimal.str localState.inventoryQty ++
      txt ":observed=" ++ Decimal.str observed.inventoryQty] else []) ++
    (if localState.lastEventSeq ≠ observed.lastEventSeq then [txt "event_sequence_mismatch:local=" ++
      ofNat localState.lastEventSeq ++ txt ":observed=" ++ ofNat observed.lastEventSeq] else []) ++
    ((ours.filter fun o => (Json.lookup o.1 theirs).isNone).map fun o =>
      txt "missing_observed_order:" ++ o.1) ++
    ((theirs.filter fun o => (Json.lookup o.1 ours).isNone).map fun o =>
      txt "unexpected_observed_order:" ++ o.1) ++
    shared.flatten
  return ⟨issues == [], issues, localState.lastEventSeq, observed.lastEventSeq⟩

/-- The comparison behind both reports, of the given open orders. -/
def comparison (localState : PaperState D) (ours : List (Text × PaperOrder D))
    (observed : ExecutionSnapshot D) (tol : D) : Py ReconciliationReport := do
  let cashDiffers ← exceeds localState.cash observed.cash tol
  let inventoryDiffers ← exceeds localState.inventoryQty observed.inventoryQty tol
  let theirs := observed.ordersById
  let shared ← (ours.filter fun o => (Json.lookup o.1 theirs).isSome).mapM fun o =>
    match Json.lookup o.1 theirs with
    | some snap => orderIssues tol o.1 o.2 snap
    | none => .ok []
  let issues :=
    (if cashDiffers then [txt "cash_mismatch:local=" ++ Decimal.str localState.cash ++
      txt ":observed=" ++ Decimal.str observed.cash] else []) ++
    (if inventoryDiffers then [txt "inventory_mismatch:local=" ++ Decimal.str localState.inventoryQty ++
      txt ":observed=" ++ Decimal.str observed.inventoryQty] else []) ++
    (if localState.lastEventSeq ≠ observed.lastEventSeq then [txt "event_sequence_mismatch:local=" ++
      ofNat localState.lastEventSeq ++ txt ":observed=" ++ ofNat observed.lastEventSeq] else []) ++
    ((ours.filter fun o => (Json.lookup o.1 theirs).isNone).map fun o =>
      txt "missing_observed_order:" ++ o.1) ++
    ((theirs.filter fun o => (Json.lookup o.1 ours).isNone).map fun o =>
      txt "unexpected_observed_order:" ++ o.1) ++
    shared.flatten
  return ⟨issues == [], issues, localState.lastEventSeq, observed.lastEventSeq⟩

theorem reconcileSnapshot_eq (localState : PaperState D) (observed : ExecutionSnapshot D)
    {tolerance : PyArg} {tol : D} (read : dec tolerance (txt "tolerance") .nonNegative = .ok tol) :
    reconcileSnapshot localState observed tolerance =
      comparison localState localState.openOrders observed tol := by
  simp only [reconcileSnapshot, comparison, read, Py.ok_bind]

/-! ## The snapshot behind a payload -/

theorem SnapshotOrder.fromPayload_toPayload (o : SnapshotOrder D) :
    SnapshotOrder.fromPayload o.toPayload = .ok o := by
  have members : ∀ key, o.toPayload.get? key = Json.lookup key
      [(txt "remaining_qty", .str (Decimal.str o.remainingQty)), (txt "side", .str o.side.text),
        (txt "order_id", .str o.orderId)] := fun key => Json.get?_ofMembers key _
  have built : construct o.orderId o.side.text (.str (Decimal.str o.remainingQty)) = .ok o := by
    unfold construct
    rw [dif_neg o.valid.1, Side.parse_text]
    dsimp only
    split
    · rename_i raised read
      rw [dec_str o.valid.2] at read
      cases read
    · rename_i remaining read
      rw [dec_str o.valid.2] at read
      cases read
      rfl
  simpa [fromPayload, members, Json.lookup, textArg, jsonArg] using built

/-- The observed orders are read back as they were written. -/
theorem observedOrders_sorted (observed : ExecutionSnapshot D) :
    observedOrders (observed.sortedOrders.map SnapshotOrder.toPayload) = .ok observed.ordersById := by
  have filed : ∀ m ∈ observed.ordersById, m.1 = m.2.orderId := by
    rintro ⟨id, o⟩ member
    exact ((Json.mem_foldl_insert observed.valid.2.2).mp member).2.symm
  have sorted : Json.Sorted observed.ordersById :=
    Json.sorted_foldl_insert _ _ List.Pairwise.nil
  -- the loop over the rest of the sorted orders, behind those it has taken in
  have loop : ∀ rest front : List (Text × SnapshotOrder D), Json.Sorted (front ++ rest) →
      (∀ m ∈ rest, m.1 = m.2.orderId) →
      ((rest.map Prod.snd).map SnapshotOrder.toPayload).foldlM (fun theirs item => do
        let snap : SnapshotOrder D ← SnapshotOrder.fromPayload item
        guardNot (Json.lookup snap.orderId theirs).isSome .contractError
          (txt "snapshot contains duplicate open order IDs")
        return Json.insert snap.orderId snap theirs) front = .ok (front ++ rest) := by
    intro rest
    induction rest with
    | nil => simp
    | cons m rest ih =>
        intro front increasing keyed
        obtain ⟨id, o⟩ := m
        obtain rfl : id = o.orderId := keyed (id, o) (by simp)
        have below : ∀ x ∈ front, x.1 < o.orderId := fun x hx =>
          (List.pairwise_append.mp increasing).2.2 x hx (o.orderId, o) (by simp)
        have unseen : Json.lookup o.orderId front = none := by
          apply Option.eq_none_iff_forall_ne_some.mpr
          intro other found
          have fronted : Json.Sorted front := (List.pairwise_append.mp increasing).1
          have member := (Json.lookup_eq_some_iff fronted.distinct).mp found
          exact absurd (below _ member) (lt_irrefl _)
        have rest_ := ih (front ++ [(o.orderId, o)]) (by simpa using increasing)
          (fun m hm => keyed m (List.mem_cons_of_mem _ hm))
        simp only [List.map_cons, List.foldlM_cons, SnapshotOrder.fromPayload_toPayload, Py.ok_bind,
          unseen, Option.isSome_none, guardNot_false, Json.insert_of_lt below]
        simpa using rest_
  exact loop observed.ordersById [] sorted filed

/-- The payload of a snapshot makes the report of the snapshot. -/
theorem Core.report_reconciled (c : Core D) (observed : ExecutionSnapshot D) {tol : D}
    (nonNegative : Bound.nonNegative.admits tol = true) :
    c.makeReconciliationReport (reconciledPayload observed tol).1 =
      comparison c.state c.openOrders observed tol := by
  have tolerance : field (reconciledPayload observed tol).1 (txt "tolerance") =
      .str (Decimal.str tol) := by
    simp [reconciledPayload, written, field_ofMembers, Json.lookup]
  have cash : field (reconciledPayload observed tol).1 (txt "cash") =
      .str (Decimal.str observed.cash) := by
    simp [reconciledPayload, written, field_ofMembers, Json.lookup]
  have inventory : field (reconciledPayload observed tol).1 (txt "inventory_qty") =
      .str (Decimal.str observed.inventoryQty) := by
    simp [reconciledPayload, written, field_ofMembers, Json.lookup]
  have seq : field (reconciledPayload observed tol).1 (txt "last_event_seq") =
      .ofNat observed.lastEventSeq := by
    simp [reconciledPayload, written, field_ofMembers, Json.lookup]
  have orders : field (reconciledPayload observed tol).1 (txt "open_orders") =
      .arr (observed.sortedOrders.map SnapshotOrder.toPayload) := by
    simp [reconciledPayload, written, field_ofMembers, Json.lookup]
  simp only [makeReconciliationReport, tolerance, cash, inventory, seq, orders, jsonArg,
    itemsOf, decimal_str nonNegative, decimal_str observed.valid.1, decimal_str observed.valid.2.1,
    Json.asNat?_ofNat, orRaise_some, observedOrders_sorted, Py.ok_bind]
  rfl

/-- Without cancelled and expired orders the engine's report is that of `reconcile_snapshot`. -/
theorem Core.report_eq_reconcileSnapshot {c : Core D} (observed : ExecutionSnapshot D)
    {tolerance : PyArg} {tol : D} (read : dec tolerance (txt "tolerance") .nonNegative = .ok tol)
    (noneClosed : ∀ o ∈ c.state.orders, c.isTerminal o.orderId = false) :
    c.makeReconciliationReport (reconciledPayload observed tol).1 =
      reconcileSnapshot c.state observed tolerance := by
  have ours : c.openOrders = c.state.openOrders := by
    unfold openOrders PaperState.openOrders
    congr 1
    apply List.filter_congr
    intro o ho
    have live : (Json.lookup o.orderId c.terminalStatuses).isNone = true := by
      simpa [isTerminal] using noneClosed o ho
    simp [live, OrderStatus.isOpen]
  rw [c.report_reconciled observed (dec_admits read), reconcileSnapshot_eq c.state observed read, ours]

/-! ## What a match means -/

/-- The order is open and has not been cancelled or expired. -/
def Core.IsLive (c : Core D) (o : PaperOrder D) : Prop :=
  o.status.isOpen = true ∧ c.isTerminal o.orderId = false

/-- The snapshot shows the account of the engine and exactly its live orders. -/
structure Core.Mirrors (c : Core D) (same : D → D → Prop) (observed : ExecutionSnapshot D) :
    Prop where
  cash : same c.state.cash observed.cash
  inventory : same c.state.inventoryQty observed.inventoryQty
  seq : c.state.lastEventSeq = observed.lastEventSeq
  listed : ∀ o ∈ c.state.orders, c.IsLive o → ∃ seen ∈ observed.openOrders,
    seen.orderId = o.orderId ∧ seen.side = o.side ∧
      ∃ remaining, o.remainingQty = .ok remaining ∧ same remaining seen.remainingQty
  known : ∀ seen ∈ observed.openOrders, ∃ o ∈ c.state.orders, c.IsLive o ∧ o.orderId = seen.orderId

theorem Core.mem_openOrders {c : Core D} {id : Text} {o : PaperOrder D} :
    (id, o) ∈ c.openOrders ↔ o ∈ c.state.orders ∧ c.IsLive o ∧ o.orderId = id := by
  have distinct : ((c.state.orders.filter fun o => (o.status == .open_ || o.status == .partiallyFilled) &&
      (Json.lookup o.orderId c.terminalStatuses).isNone).map (·.orderId)).Nodup :=
    c.state.valid.orderIds.sublist (List.filter_sublist.map _)
  unfold openOrders
  rw [Json.mem_foldl_insert distinct, List.mem_filter]
  simp [IsLive, OrderStatus.isOpen, isTerminal, and_assoc]

theorem Core.openOrders_distinct (c : Core D) : (c.openOrders.map Prod.fst).Nodup :=
  (Json.sorted_foldl_insert _ _ List.Pairwise.nil).distinct

theorem ExecutionSnapshot.mem_ordersById {observed : ExecutionSnapshot D} {id : Text}
    {o : SnapshotOrder D} :
    (id, o) ∈ observed.ordersById ↔ o ∈ observed.openOrders ∧ o.orderId = id :=
  Json.mem_foldl_insert observed.valid.2.2

theorem ExecutionSnapshot.ordersById_distinct (observed : ExecutionSnapshot D) :
    (observed.ordersById.map Prod.fst).Nodup :=
  (Json.sorted_foldl_insert _ _ List.Pairwise.nil).distinct

/-- A loop that gathers lists gathers nothing exactly when no turn finds anything. -/
theorem Py.mapM_flatten_eq_nil {α β : Type} {f : α → Py (List β)} {items : List α}
    {found : List (List β)} (done : items.mapM f = .ok found) :
    (∀ a ∈ items, ∃ turn, f a = .ok turn) ∧
      (found.flatten = [] ↔ ∀ a ∈ items, ∀ turn, f a = .ok turn → turn = []) := by
  induction items generalizing found with
  | nil =>
      cases done
      simp
  | cons a items ih =>
      simp only [List.mapM_cons, Py.bind_eq_ok, Py.pure_eq_ok, Except.ok.injEq] at done
      obtain ⟨first, hf, rest, hrest, rfl⟩ := done
      obtain ⟨turns, quiet⟩ := ih hrest
      exact ⟨by simpa [hf] using turns, by simp [hf, quiet]⟩

section
variable {tol : D} {same : D → D → Prop}
  (decides : ∀ a b differs, exceeds a b tol = .ok differs → (differs = false ↔ same a b))

include decides

theorem orderIssues_eq_nil {id : Text} {ours : PaperOrder D} {theirs : SnapshotOrder D}
    {issues : List Text} (compared : orderIssues tol id ours theirs = .ok issues) :
    issues = [] ↔ theirs.side = ours.side ∧ ∃ remaining, ours.remainingQty = .ok remaining ∧
      same remaining theirs.remainingQty := by
  simp only [orderIssues, Py.bind_eq_ok, Py.pure_eq_ok, Except.ok.injEq] at compared
  obtain ⟨remaining, computes, differs, gap, rfl⟩ := compared
  have near := decides _ _ _ gap
  by_cases sides : theirs.side = ours.side
  · cases differs <;> simp [sides, computes, ← near]
  · simp [sides, Ne.symm sides]

/-- A report matches exactly when the snapshot mirrors the engine. -/
theorem Core.report_matched {c : Core D} {observed : ExecutionSnapshot D}
    {report : ReconciliationReport}
    (made : comparison c.state c.openOrders observed tol = .ok report) :
    report.matched = true ↔ c.Mirrors same observed := by
  simp only [comparison, Py.bind_eq_ok, Py.pure_eq_ok, Except.ok.injEq] at made
  obtain ⟨cashDiffers, hcash, inventoryDiffers, hinventory, shared, hshared, rfl⟩ := made
  obtain ⟨turns, quiet⟩ := Py.mapM_flatten_eq_nil hshared
  -- every pair of orders that both sides list was compared
  have pair : ∀ {id o seen}, (id, o) ∈ c.openOrders →
      Json.lookup id observed.ordersById = some seen →
      (id, o) ∈ c.openOrders.filter (fun m => (Json.lookup m.1 observed.ordersById).isSome) ∧
        ∃ issues, orderIssues tol id o seen = .ok issues := by
    intro id o seen ours found
    have both : (id, o) ∈ c.openOrders.filter
        fun m => (Json.lookup m.1 observed.ordersById).isSome :=
      List.mem_filter.mpr ⟨ours, by simp [found]⟩
    obtain ⟨turn, compared⟩ := turns _ both
    exact ⟨both, turn, by simpa [found] using compared⟩
  rw [beq_iff_eq]
  simp only [List.append_eq_nil_iff]
  constructor
  · rintro ⟨⟨⟨⟨⟨cash, inventory⟩, seq⟩, missing⟩, unexpected⟩, silent⟩
    refine ⟨?_, ?_, ?_, ?_, ?_⟩
    · apply (decides _ _ _ hcash).mp
      simpa using cash
    · apply (decides _ _ _ hinventory).mp
      simpa using inventory
    · by_contra differs
      simp [differs] at seq
    · intro o ho live
      have ours : (o.orderId, o) ∈ c.openOrders := mem_openOrders.mpr ⟨ho, live, rfl⟩
      cases found : Json.lookup o.orderId observed.ordersById with
      | none =>
          have missed : (o.orderId, o) ∈ c.openOrders.filter fun m =>
              (Json.lookup m.1 observed.ordersById).isNone :=
            List.mem_filter.mpr ⟨ours, by simp [found]⟩
          rw [List.map_eq_nil_iff.mp missing] at missed
          cases missed
      | some seen =>
          have theirs := (Json.lookup_eq_some_iff observed.ordersById_distinct).mp found
          obtain ⟨member, named⟩ := ExecutionSnapshot.mem_ordersById.mp theirs
          obtain ⟨both, issues, compared⟩ := pair ours found
          have none := quiet.mp silent _ both issues (by simpa [found] using compared)
          obtain ⟨side, remaining⟩ := (orderIssues_eq_nil decides compared).mp none
          exact ⟨seen, member, named, side, remaining⟩
    · intro seen member
      have theirs : (seen.orderId, seen) ∈ observed.ordersById :=
        ExecutionSnapshot.mem_ordersById.mpr ⟨member, rfl⟩
      cases found : Json.lookup seen.orderId c.openOrders with
      | none =>
          have extra : (seen.orderId, seen) ∈ observed.ordersById.filter fun m =>
              (Json.lookup m.1 c.openOrders).isNone :=
            List.mem_filter.mpr ⟨theirs, by simp [found]⟩
          rw [List.map_eq_nil_iff.mp unexpected] at extra
          cases extra
      | some o =>
          exact ⟨o, mem_openOrders.mp ((Json.lookup_eq_some_iff c.openOrders_distinct).mp found)⟩
  · intro mirrors
    have cash : cashDiffers = false := (decides _ _ _ hcash).mpr mirrors.cash
    have inventory : inventoryDiffers = false := (decides _ _ _ hinventory).mpr mirrors.inventory
    have listed : ∀ m ∈ c.openOrders, ∃ seen, Json.lookup m.1 observed.ordersById = some seen ∧
        seen.side = m.2.side ∧ ∃ remaining, m.2.remainingQty = .ok remaining ∧
          same remaining seen.remainingQty := by
      rintro ⟨id, o⟩ ours
      obtain ⟨ho, live, rfl⟩ := mem_openOrders.mp ours
      obtain ⟨seen, member, named, agrees⟩ := mirrors.listed o ho live
      exact ⟨seen, (Json.lookup_eq_some_iff observed.ordersById_distinct).mpr
        (ExecutionSnapshot.mem_ordersById.mpr ⟨member, named⟩), agrees⟩
    have known : ∀ m ∈ observed.ordersById, ∃ o, Json.lookup m.1 c.openOrders = some o := by
      rintro ⟨id, seen⟩ theirs
      obtain ⟨member, rfl⟩ := ExecutionSnapshot.mem_ordersById.mp theirs
      obtain ⟨o, ho, live, named⟩ := mirrors.known seen member
      exact ⟨o, (Json.lookup_eq_some_iff c.openOrders_distinct).mpr (mem_openOrders.mpr ⟨ho, live, named⟩)⟩
    refine ⟨⟨⟨⟨⟨by simp [cash], by simp [inventory]⟩, by simp [mirrors.seq]⟩, ?_⟩, ?_⟩, ?_⟩
    · apply List.map_eq_nil_iff.mpr
      apply List.filter_eq_nil_iff.mpr
      intro m ours
      obtain ⟨seen, found, -⟩ := listed m ours
      simp [found]
    · apply List.map_eq_nil_iff.mpr
      apply List.filter_eq_nil_iff.mpr
      intro m theirs
      obtain ⟨o, found⟩ := known m theirs
      simp [found]
    · apply quiet.mpr
      intro m member turn compared
      obtain ⟨ours, -⟩ := List.mem_filter.mp member
      obtain ⟨seen, found, agrees⟩ := listed m ours
      have pairwise : orderIssues tol m.1 m.2 seen = .ok turn := by simpa [found] using compared
      exact (orderIssues_eq_nil decides pairwise).mpr agrees

end

/-! ## Replies and blocking -/

/-- With a tolerance of zero, values differ exactly when they are not equal. -/
def ExactGap (D : Type) [Decimal D] : Prop :=
  ∀ tol a b : D, Decimal.eq tol Decimal.zero = true → ∀ differs, exceeds a b tol = .ok differs →
    differs = !Decimal.eq a b

theorem exactGap_rat : ExactGap ℚ := by
  intro tol a b zero differs gap
  have zero : tol = 0 := by simpa using zero
  have gap : decide (tol < |a - b|) = differs := Except.ok.inj gap
  rw [← gap, zero, Bool.eq_iff_iff, decide_eq_true_iff, abs_pos, sub_ne_zero, Bool.not_eq_true',
    ← Bool.not_eq_true, RationalDecimal.eq_iff]

/-- A reconciliation replies with the report on the engine as it is, whether it is new or a
    retry.  A new one that does not match blocks. -/
theorem Core.planReconcile_report {c : Core D} {observed : ExecutionSnapshot D}
    {eventId timestamp tolerance : PyArg} {tol : D}
    (read : decimal tolerance (txt "tolerance") .nonNegative = .ok tol) {plan : Plan D}
    (planned : c.plan (.reconcile (some observed) eventId timestamp tolerance) = .ok plan) :
    ∃ report, comparison c.state c.openOrders observed tol = .ok report ∧
      ((plan = .reply (.report report) ∧
          ∀ id, nonempty eventId (txt "event_id") = .ok id → Json.lookup id c.eventsById ≠ none) ∨
        ∃ r x, plan = .append r x ∧ x.result = .report report ∧
          (report.matched = false → x.blockedReason.isSome = true)) := by
  have made := c.report_reconciled observed (decimal_admits read)
  cases plan with
  | append r x =>
      obtain ⟨ts, snapshot, tol', -, same, read', recorded, -⟩ := Core.planReconcile_append planned
      obtain rfl : observed = snapshot := Option.some.inj same
      obtain rfl : tol = tol' := Except.ok.inj (read.symm.trans read')
      obtain ⟨-, event⟩ := Core.reduce_cases recorded.toAppends.reduced
      rw [← recorded.carries] at made
      have type := recorded.type
      cases event with
      | reconciled report _ reported isMatch =>
          exact ⟨report, made.symm.trans reported, Or.inr ⟨r, _, rfl, rfl, by simp [isMatch]⟩⟩
      | diverged report _ reported isMatch =>
          exact ⟨report, made.symm.trans reported, Or.inr ⟨r, _, rfl, rfl, fun _ => rfl⟩⟩
      | registered _ other => rw [other] at type; cases type
      | filled _ _ other => rw [other] at type; cases type
      | terminated _ _ other => rcases other with ⟨other, -⟩ | ⟨other, -⟩ <;> rw [other] at type <;> cases type
      | resolved other => rw [other] at type; cases type
  | reply reply =>
      simp only [plan, planReconcile, record, Py.bind_eq_ok, orRaise_eq_ok, read, Except.ok.injEq,
        Option.some.injEq] at planned
      obtain ⟨ts, -, _, rfl, _, rfl, id, named, stamp, -, existing, found, planned⟩ := planned
      cases existing with
      | none => simp [Py.bind_eq_ok] at planned
      | some prior =>
          simp only [Py.bind_eq_ok, Py.pure_eq_ok, Except.ok.injEq] at planned
          obtain ⟨report, reported, same⟩ := planned
          refine ⟨report, made.symm.trans reported, Or.inl ⟨same.symm, ?_⟩⟩
          intro id' named' unseen
          obtain rfl : id = id' := Except.ok.inj (named.symm.trans named')
          simp [existingEvent, unseen] at found

/-- While an engine is blocked, only a resolution of the divergence can change anything. -/
theorem World.blocked_run {w : World D} (blocked : w.engine.core.blockedReason.isSome = true)
    (attempts : List (Attempt D)) (unresolved : ∀ a ∈ attempts, a.1.resolves = false) :
    run World.attempt w attempts = w := by
  induction attempts with
  | nil => rfl
  | cons a attempts ih =>
      have still : w.attempt a = w := by
        unfold World.attempt World.execute
        split
        · rfl
        · rfl
        · rename_i record candidate planned
          have resolves := (Core.plan_append planned).2.1
          rw [blocked, unresolved a (by simp)] at resolves
          cases resolves
      rw [run_cons, still]
      exact ih fun b hb => unresolved b (List.mem_cons_of_mem _ hb)

/-- What a call of `reconcile` means.  With a tolerance of zero its report matches exactly when
    the snapshot mirrors the engine.  A new report that does not match blocks everything until a
    resolution.  Without cancelled and expired orders the report is that of `reconcile_snapshot`. -/
structure World.Reconciles (w : World D) (observed : ExecutionSnapshot D)
    (eventId timestamp tolerance : PyArg) (tol : D) : Prop where
  exact : ∀ io report after, w.execute (.reconcile (some observed) eventId timestamp tolerance) io =
      (.ok (.report report), after) → Decimal.eq tol Decimal.zero = true →
    (report.matched = true ↔ w.engine.core.Mirrors (fun a b => Decimal.eq a b = true) observed)
  blocks : ∀ io report after id, w.execute (.reconcile (some observed) eventId timestamp tolerance) io =
      (.ok (.report report), after) → report.matched = false →
    nonempty eventId (txt "event_id") = .ok id → Json.lookup id w.engine.core.eventsById = none →
    after.engine.core.blockedReason.isSome = true ∧
      ∀ attempts : List (Attempt D), (∀ a ∈ attempts, a.1.resolves = false) →
        run World.attempt after attempts = after
  agrees : (∀ o ∈ w.engine.core.state.orders, w.engine.core.isTerminal o.orderId = false) →
    w.engine.core.makeReconciliationReport (reconciledPayload observed tol).1 =
      reconcileSnapshot w.engine.core.state observed tolerance

/-- The reply of a reconciliation is the report that its plan made. -/
theorem World.reconcile_reply {w after : World D} {observed : ExecutionSnapshot D}
    {eventId timestamp tolerance : PyArg} {tol : D} {io : IoScript} {report : ReconciliationReport}
    (read : decimal tolerance (txt "tolerance") .nonNegative = .ok tol)
    (done : w.execute (.reconcile (some observed) eventId timestamp tolerance) io =
      (.ok (.report report), after)) :
    comparison w.engine.core.state w.engine.core.openOrders observed tol = .ok report ∧
      ∀ id, nonempty eventId (txt "event_id") = .ok id →
        Json.lookup id w.engine.core.eventsById = none → report.matched = false →
        after.engine.core.blockedReason.isSome = true := by
  have step := w.execute_step (.reconcile (some observed) eventId timestamp tolerance) io
  rw [done] at step
  generalize reply : (.ok (.report report) : Py (Reply D)) = outcome at step
  cases step with
  | raised => cases reply
  | failed => cases reply
  | replied reply' planned =>
      obtain rfl : Reply.report report = reply' := Except.ok.inj reply
      obtain ⟨report', made, ⟨same, used⟩ | ⟨r, x, same, -⟩⟩ := Core.planReconcile_report read planned
      · obtain rfl : report = report' := by
          cases same
          rfl
        exact ⟨made, fun id named unseen => absurd unseen (used id named)⟩
      · cases same
  | committed r x data planned =>
      obtain ⟨report', made, ⟨same, -⟩ | ⟨r', x', same, result, blocks⟩⟩ :=
        Core.planReconcile_report read planned
      · cases same
      · obtain ⟨rfl, rfl⟩ := Plan.append.inj same
        rw [result] at reply
        obtain rfl : report = report' := by
          cases reply
          rfl
        exact ⟨made, fun _ _ _ => blocks⟩

theorem World.reconciles (gap : ExactGap D) (w : World D) (observed : ExecutionSnapshot D)
    (eventId timestamp : PyArg) {tolerance : PyArg} {tol : D}
    (read : asDecimal tolerance (txt "tolerance") .nonNegative = .ok tol) :
    w.Reconciles observed eventId timestamp tolerance tol := by
  have decimal_ : decimal tolerance (txt "tolerance") .nonNegative = .ok tol := by
    rw [decimal, read, rewrap_ok]
  have dec_ : dec tolerance (txt "tolerance") .nonNegative = .ok tol := by
    rw [dec, read, rewrap_ok]
  refine ⟨?_, ?_, Core.report_eq_reconcileSnapshot observed dec_⟩
  · intro io report after done zero
    apply Core.report_matched _ (World.reconcile_reply decimal_ done).1
    intro a b differs compared
    rw [gap tol a b zero differs compared]
    simp
  · intro io report after id done unmatched named unseen
    have blocked := (World.reconcile_reply decimal_ done).2 id named unseen unmatched
    exact ⟨blocked, World.blocked_run blocked⟩

/-- A snapshot of the sample account before anything has happened. -/
def sampleMatch : Command ℚ :=
  sampleReconcile "E0" "2026-01-01T00:00:00Z" (sampleSnapshot 1000 (by decide +kernel))

theorem World.reconciles_sample :
    sampleWorld.Reconciles (sampleSnapshot 1000 (by decide +kernel)) (.str (txt "E0"))
      (.str (txt "2026-01-01T00:00:00Z")) (.str (txt "0")) 0 :=
  World.reconciles exactGap_rat sampleWorld _ _ _ (by decide +kernel)

/-- The sample account has reconciled, and then registered an order. -/
def movedOn : World ℚ := run World.attempt sampleWorld [(sampleMatch, .clean), (sampleRegister, .clean)]

/-- Whether a call has replied with a report that does not match. -/
def reportsMismatch : Py (Reply D) → Bool
  | .ok (.report report) => !report.matched
  | _ => false

/-- The retry of a reconciliation reports a mismatch with what has happened since, and nothing
    is blocked. -/
theorem World.not_blocked_by_retry :
    reportsMismatch (movedOn.execute sampleMatch .clean).1 = true ∧
      (run World.attempt movedOn [(sampleMatch, .clean), (sampleCancel, .clean)]).disk.length ≠
        movedOn.disk.length := by
  constructor <;> decide +kernel

end Senex.Paper
