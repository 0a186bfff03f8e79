import Senex.Paper.Replay

/-! # What the commands write

The fields of the payloads that the six commands build, and what a committed
record says about the command behind it.
-/

namespace Senex.Paper

open Text

variable {D : Type} [Decimal D]

/-! ## Fields -/

section
variable (f : FillRequest D) (fillSeq : Nat)

theorem FillRequest.field_fillId : field (f.payload fillSeq).1 (txt "fill_id") = .str f.fillId := by
  simp [payload, written, members, field_ofMembers, Json.lookup]

theorem FillRequest.field_orderId : field (f.payload fillSeq).1 (txt "order_id") = .str f.orderId := by
  simp [payload, written, members, field_ofMembers, Json.lookup]

theorem FillRequest.field_side : field (f.payload fillSeq).1 (txt "side") = .str f.side := by
  simp [payload, written, members, field_ofMembers, Json.lookup]

/-- Less its sequence number, the payload is the one that a retry is compared with. -/
theorem FillRequest.without_fillSeq :
    (f.payload fillSeq).1.without [txt "fill_seq"] = f.basePayload.without [txt "fill_seq"] := by
  simp [payload, written, basePayload, members, Json.without_ofMembers]

end

section
variable (orderId reason : Text) (remainingQty : D)

theorem field_terminal_orderId :
    field (terminalPayload orderId remainingQty reason).1 (txt "order_id") = .str orderId := by
  simp [terminalPayload, written, field_ofMembers, Json.lookup]

theorem field_terminal_remaining :
    field (terminalPayload orderId remainingQty reason).1 (txt "remaining_qty") =
      .str (Decimal.str remainingQty) := by
  simp [terminalPayload, written, field_ofMembers, Json.lookup]

end

section
variable (observed : ExecutionSnapshot D) (tolerance : D)

theorem field_reconciled_cash :
    field (reconciledPayload observed tolerance).1 (txt "cash") = .str (Decimal.str observed.cash) := by
  simp [reconciledPayload, written, field_ofMembers, Json.lookup]

theorem field_reconciled_inventory :
    field (reconciledPayload observed tolerance).1 (txt "inventory_qty") =
      .str (Decimal.str observed.inventoryQty) := by
  simp [reconciledPayload, written, field_ofMembers, Json.lookup]

theorem field_reconciled_orders :
    field (reconciledPayload observed tolerance).1 (txt "open_orders") =
      .arr (observed.sortedOrders.map SnapshotOrder.toPayload) := by
  simp [reconciledPayload, written, field_ofMembers, Json.lookup]

theorem field_reconciled_seq :
    field (reconciledPayload observed tolerance).1 (txt "last_event_seq") =
      .ofNat observed.lastEventSeq := by
  simp [reconciledPayload, written, field_ofMembers, Json.lookup]

theorem field_reconciled_tolerance :
    field (reconciledPayload observed tolerance).1 (txt "tolerance") = .str (Decimal.str tolerance) := by
  simp [reconciledPayload, written, field_ofMembers, Json.lookup]

end

theorem field_resolved_prior (approvalRef reason : Text) (prior : List Text) :
    field (resolvedPayload approvalRef reason prior).1 (txt "prior_discrepancies") =
      .arr (prior.map .str) := by
  simp [resolvedPayload, written, field_ofMembers, Json.lookup]

/-! ## Spelling -/

/-- The side of a fill is written as the engine spells it, which is how the inventory
    limit of `_reduce` looks for it. -/
def Record.Spelled (r : Record) : Prop :=
  r.eventType = .fillApplied → ∃ side : Side, field r.payload.1 (txt "side") = .str side.text

/-- Every command spells the fills it writes. -/
theorem Core.plan_spelled {c : Core D} {command : Command D} {r : Record} {candidate : Candidate D}
    (planned : c.plan command = .ok (.append r candidate)) : r.Spelled := by
  intro isFill
  cases command with
  | applyFill =>
      obtain ⟨f, -, -, -, ⟨side, spelled⟩, recorded, -⟩ := planApplyFill_append planned
      exact ⟨side, by rw [recorded.carries, f.field_side, spelled]⟩
  | registerOrder =>
      obtain ⟨_, _, _, _, _, -, -, -, -, -, recorded, -⟩ := planRegisterOrder_append planned
      exact absurd (recorded.type.symm.trans isFill) (by decide)
  | cancelOrder =>
      obtain ⟨_, _, _, _, -, -, -, -, -, recorded, -⟩ := planTerminal_append planned
      exact absurd (recorded.type.symm.trans isFill) (by decide)
  | expireOrder =>
      obtain ⟨_, _, _, _, -, -, -, -, -, recorded, -⟩ := planTerminal_append planned
      exact absurd (recorded.type.symm.trans isFill) (by decide)
  | reconcile =>
      obtain ⟨_, _, _, -, -, -, recorded, -⟩ := planReconcile_append planned
      exact absurd (recorded.type.symm.trans isFill) (by decide)
  | resolveDivergence =>
      obtain ⟨_, _, _, -, -, -, -, recorded, -⟩ := planResolveDivergence_append planned
      exact absurd (recorded.type.symm.trans isFill) (by decide)

/-! ## Orders of an event -/

/-- The record cancels or expires an order. -/
def Record.Closes (r : Record) : Prop := r.eventType = .orderCancelled ∨ r.eventType = .orderExpired

/-- The order that a fill event names is the one it is applied to. -/
theorem PaperState.findOrder?_eq_some {s : PaperState D} {id : Text}
    {order : PaperOrder D} (found : s.findOrder? id = some order) :
    order ∈ s.orders ∧ order.orderId = id :=
  ⟨List.mem_of_find?_eq_some found, by simpa using List.find?_some found⟩

/-- What an event does to the orders and to the closed ones, by its type. -/
theorem Core.reduce_orders {c : Core D} {r : Record} {candidate : Candidate D}
    (reduced : c.reduce r = .ok candidate) :
    match r.eventType with
    | .orderRegistered => c.reduceRegistered r.payload.1 = .ok candidate.state ∧
        candidate.terminalStatuses = c.terminalStatuses
    | .fillApplied => (∃ application, c.reduceFill r.timestamp r.payload.1 =
        .ok (candidate.state, application)) ∧ candidate.terminalStatuses = c.terminalStatuses
    | .orderCancelled => candidate.state = c.state ∧
        c.reduceTerminal .orderCancelled .cancelled r.payload.1 = .ok candidate.terminalStatuses
    | .orderExpired => candidate.state = c.state ∧
        c.reduceTerminal .orderExpired .expired r.payload.1 = .ok candidate.terminalStatuses
    | .snapshotReconciled | .divergenceResolved => candidate.state = c.state ∧
        candidate.terminalStatuses = c.terminalStatuses := by
  obtain ⟨-, event⟩ := reduce_cases reduced
  cases event with
  | registered state type inner =>
      rw [type]
      exact ⟨inner, rfl⟩
  | filled state application type inner =>
      rw [type]
      exact ⟨⟨application, inner⟩, rfl⟩
  | terminated status statuses type inner =>
      rcases type with ⟨type, rfl⟩ | ⟨type, rfl⟩
      · rw [type] at inner ⊢
        exact ⟨rfl, inner⟩
      · rw [type] at inner ⊢
        exact ⟨rfl, inner⟩
  | reconciled report type =>
      rw [type]
      exact ⟨rfl, rfl⟩
  | diverged report type =>
      rw [type]
      exact ⟨rfl, rfl⟩
  | resolved type =>
      rw [type]
      exact ⟨rfl, rfl⟩

end Senex.Paper
