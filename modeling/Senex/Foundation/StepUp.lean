import Mathlib.Data.List.Sort
import Mathlib.Order.Bounds.Basic
import Mathlib.Order.Monotone.Basic
import Mathlib.Data.Nat.Find

/-! # Ordered values against rising thresholds

A step-up procedure takes the largest `k` with at least `k` values below the `k`th threshold, a
step-down procedure the longest run of least values that are each below their own threshold.
Where the thresholds rise, either takes all of a tie or none of it.
-/

namespace Senex.Thresholds

variable {κ : Type*} [LinearOrder κ]

/-! ## The order of the values -/

/-- Of ordered values, those up to a bound come first. -/
theorem lt_countP_iff {values : List κ} (sorted : values.Pairwise (· ≤ ·)) {rank : Nat} {value bound : κ}
    (here : values[rank]? = some value) : rank < values.countP (fun v => decide (v ≤ bound)) ↔ value ≤ bound := by
  induction values generalizing rank with
  | nil => simp at here
  | cons first rest ih =>
      obtain ⟨least, others⟩ := List.pairwise_cons.mp sorted
      cases rank with
      | zero =>
          obtain rfl : first = value := by simpa using here
          by_cases below : first ≤ bound
          · simp [below]
          · have none : rest.countP (fun v => decide (v ≤ bound)) = 0 := by
              rw [List.countP_eq_zero]
              intro v member inside
              exact below ((least v member).trans (of_decide_eq_true inside))
            simp [below, none]
      | succ rank =>
          have later : rest[rank]? = some value := by simpa using here
          have step := ih others later
          by_cases below : first ≤ bound
          · rw [List.countP_cons_of_pos (by simpa using below), Nat.succ_lt_succ_iff]
            exact step
          · have above : ¬value ≤ bound :=
              fun le => below ((least value (List.mem_of_getElem? later)).trans le)
            have fails : ¬rank < rest.countP (fun v => decide (v ≤ bound)) := fun less => above (step.mp less)
            rw [List.countP_cons_of_neg (by simpa using below)]
            exact iff_of_false (by omega) above

/-- Of ordered values, the earlier is not above the later. -/
theorem le_of_rank_le {values : List κ} (sorted : values.Pairwise (· ≤ ·)) {first second : Nat} {a b : κ}
    (order : first ≤ second) (left : values[first]? = some a) (right : values[second]? = some b) : a ≤ b := by
  have counted : second < values.countP (fun v => decide (v ≤ b)) := (lt_countP_iff sorted right).mpr le_rfl
  exact (lt_countP_iff sorted left).mp (by omega)

/-! ## Step up -/

section StepUp

variable {values : List κ} {threshold : Nat → κ}

/-- At least `k` of the values are up to the `k`th threshold. -/
def Reached (values : List κ) (threshold : Nat → κ) (k : Nat) : Prop :=
  k ≤ values.countP (fun v => decide (v ≤ threshold k))

theorem Reached.le_length {k : Nat} (reached : Reached values threshold k) : k ≤ values.length :=
  reached.trans List.countP_le_length

theorem Reached.mono {higher : Nat → κ} {k : Nat} (reached : Reached values threshold k)
    (above : threshold k ≤ higher k) : Reached values higher k := by
  refine reached.trans (List.countP_mono_left fun v _ below => ?_)
  exact decide_eq_true ((of_decide_eq_true below).trans above)

/-- The largest `k` leaves no further value up to its threshold. -/
theorem countP_of_greatest (rising : Monotone threshold) {k : Nat}
    (greatest : IsGreatest {k | Reached values threshold k} k) :
    values.countP (fun v => decide (v ≤ threshold k)) = k := by
  apply le_antisymm
  · apply greatest.2
    refine List.countP_mono_left fun v _ below => ?_
    exact decide_eq_true ((of_decide_eq_true below).trans (rising greatest.1))
  · exact greatest.1

end StepUp

/-! ## Step down -/

section StepDown

variable {values : List κ} {threshold : Nat → κ}

/-- The first `m` values are each up to their own threshold. -/
def Run (values : List κ) (threshold : Nat → κ) (m : Nat) : Prop :=
  m ≤ values.length ∧ ∀ rank < m, ∀ value ∈ values[rank]?, value ≤ threshold rank

theorem Run.mono {higher : Nat → κ} {m : Nat} (run : Run values threshold m)
    (above : ∀ rank < m, threshold rank ≤ higher rank) : Run values higher m :=
  ⟨run.1, fun rank less value here => (run.2 rank less value here).trans (above rank less)⟩

@[simp] theorem run_zero : Run values threshold 0 := ⟨Nat.zero_le _, by simp⟩

@[simp] theorem run_cons_succ {value : κ} {m : Nat} :
    Run (value :: values) threshold (m + 1) ↔
      value ≤ threshold 0 ∧ Run values (fun rank => threshold (rank + 1)) m := by
  constructor
  · intro run
    refine ⟨run.2 0 (Nat.succ_pos m) value rfl, Nat.le_of_succ_le_succ run.1, ?_⟩
    intro rank less v here
    exact run.2 (rank + 1) (Nat.succ_lt_succ less) v (by simpa using here)
  · intro ⟨first, run⟩
    refine ⟨Nat.succ_le_succ run.1, fun rank less v here => ?_⟩
    cases rank with
    | zero =>
        obtain rfl : value = v := by simpa using here
        exact first
    | succ rank => exact run.2 rank (Nat.lt_of_succ_lt_succ less) v (by simpa using here)

/-- A value is among those of the longest run exactly where its rank is. -/
theorem mem_take_iff_of_greatest (sorted : values.Pairwise (· ≤ ·))
    (rising : ∀ first second, first ≤ second → second < values.length → threshold first ≤ threshold second)
    {m : Nat} (greatest : IsGreatest {m | Run values threshold m} m) {rank : Nat} {value : κ}
    (here : values[rank]? = some value) : value ∈ values.take m ↔ rank < m := by
  constructor
  · intro member
    by_contra late
    obtain ⟨earlier, taken⟩ := List.mem_iff_getElem?.mp member
    rw [List.getElem?_take, Option.ite_none_right_eq_some] at taken
    obtain ⟨less, found⟩ := taken
    obtain ⟨inside, -⟩ := List.getElem?_eq_some_iff.mp here
    -- the value after the run is tied with one inside it, and its threshold is no lower
    have longer : Run values threshold (m + 1) := by
      refine ⟨by omega, fun r bound v at_r => ?_⟩
      rcases Nat.lt_succ_iff_lt_or_eq.mp bound with before | rfl
      · exact greatest.1.2 r before v at_r
      · have upper : v ≤ value := le_of_rank_le sorted (by omega) at_r here
        have passed : value ≤ threshold earlier := greatest.1.2 earlier less value found
        exact (upper.trans passed).trans (rising earlier r less.le (by omega))
    have bounded : m + 1 ≤ m := greatest.2 longer
    omega
  · intro less
    have taken : (values.take m)[rank]? = some value := by rw [List.getElem?_take_of_lt less, here]
    exact List.mem_of_getElem? taken

end StepDown

end Senex.Thresholds
