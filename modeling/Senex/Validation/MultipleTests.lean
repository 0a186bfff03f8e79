import Mathlib.Algebra.Order.Field.Rat
import Mathlib.Tactic.Ring
import Mathlib.Tactic.Positivity
import Mathlib.Tactic.Linarith
import Senex.Foundation.Sorting
import Senex.Foundation.StepUp

/-! # Correction for multiple tests

`benjamini_hochberg` and `holm_bonferroni` of the statistical validation, in exact arithmetic.
Both rank the p-values with ties by position, decide along the ranks, and write the decisions
back to the places the values came from.
-/

namespace Senex.MultipleTests

open Thresholds

/-! ## The procedures -/

structure MultipleHypothesisReport where
  nHypotheses : Nat
  rawPValues : List ℚ
  bhRejected : List Bool
  bhThresholds : List ℚ
  holmRejected : List Bool
  holmThresholds : List ℚ
  fdrAlpha : ℚ
  fwerAlpha : ℚ
  nRejectedBh : Nat
  nRejectedHolm : Nat

/-- `sorted(range(n), key=lambda i: ps[i])`, each place with its value. -/
def order (ps : List ℚ) : List (ℚ × Nat) := sortedBy Prod.fst ps.zipIdx

def sortedPs (ps : List ℚ) : List ℚ := (order ps).map Prod.fst

/-- Whether the value of a rank is up to the threshold of the rank. -/
def passes (values thresholds : List ℚ) (rank : Nat) : Bool :=
  (values.zip thresholds)[rank]?.any fun pair => pair.1 ≤ pair.2

/-- `values[orig_idx] = along[rank]`, for each rank of the order. -/
def unsort {β : Type} (ps : List ℚ) (blank : β) (along : List β) : List β :=
  scatter (((order ps).map Prod.snd).zip along) (List.replicate ps.length blank)

def bhThresholdsSorted (alpha : ℚ) (n : Nat) : List ℚ := (List.range n).map fun i : Nat => (i + 1) * alpha / n

/-- The loop down from the last rank to the first one that passes. -/
def kMax (values thresholds : List ℚ) : Nat :=
  Nat.findGreatest (fun k => passes values thresholds (k - 1) = true) values.length

/-- The loop that marks the ranks up to the one found. -/
def bhRejectSorted (values thresholds : List ℚ) : List Bool :=
  scatter ((List.range (kMax values thresholds)).map fun rank => (rank, true))
    (List.replicate values.length false)

def benjaminiHochberg (ps : List ℚ) (alpha : ℚ) : MultipleHypothesisReport :=
  let n := ps.length
  if n = 0 then ⟨0, [], [], [], [], [], alpha, 5 / 100, 0, 0⟩
  else
    let thresholds := bhThresholdsSorted alpha n
    let rejected := unsort ps false (bhRejectSorted (sortedPs ps) thresholds)
    ⟨n, ps, rejected, unsort ps 0 thresholds, [], [], alpha, 5 / 100, rejected.countP id, 0⟩

def holmThreshSorted (alpha : ℚ) (n : Nat) : List ℚ := (List.range n).map fun k : Nat => alpha / ((n - k : Nat) : ℚ)

/-- The loop up from the first rank, which stops at the first one that fails. -/
def holmRejectSorted : List ℚ → List ℚ → List Bool
  | p :: values, threshold :: thresholds =>
      if p ≤ threshold then true :: holmRejectSorted values thresholds
      else false :: List.replicate values.length false
  | values, _ => List.replicate values.length false

def holmBonferroni (ps : List ℚ) (alpha : ℚ) : MultipleHypothesisReport :=
  let n := ps.length
  if n = 0 then ⟨0, [], [], [], [], [], 5 / 100, alpha, 0, 0⟩
  else
    let thresholds := holmThreshSorted alpha n
    let rejected := unsort ps false (holmRejectSorted (sortedPs ps) thresholds)
    ⟨n, ps, [], [], rejected, unsort ps 0 thresholds, 5 / 100, alpha, 0, rejected.countP id⟩

example : (benjaminiHochberg [3 / 10, 1 / 100, 3 / 100, 2 / 100] (5 / 100)).bhRejected =
    [false, true, true, true] := by decide +kernel

example : (holmBonferroni [3 / 10, 1 / 100, 3 / 100, 2 / 100] (5 / 100)).holmRejected =
    [false, true, false, false] := by decide +kernel

/-! ## Ranking and writing back -/

section Ranks

variable (ps : List ℚ)

theorem order_perm : (order ps).Perm ps.zipIdx := sortedBy_perm _ _

theorem sortedPs_perm : (sortedPs ps).Perm ps := by
  have mapped : (sortedPs ps).Perm (ps.zipIdx.map Prod.fst) := (order_perm ps).map Prod.fst
  rwa [List.zipIdx_map_fst] at mapped

@[simp] theorem length_sortedPs : (sortedPs ps).length = ps.length := (sortedPs_perm ps).length_eq

theorem sorted_sortedPs : (sortedPs ps).Pairwise (· ≤ ·) :=
  List.pairwise_map.mpr (sorted_sortedBy _)

omit ps in
theorem insertionSort_eq_of_perm {ps qs : List ℚ} (same : ps.Perm qs) :
    ps.insertionSort (· ≤ ·) = qs.insertionSort (· ≤ ·) := by
  refine List.Perm.eq_of_pairwise (fun a b _ _ le ge => le_antisymm le ge)
    (List.pairwise_insertionSort (· ≤ ·) ps) (List.pairwise_insertionSort (· ≤ ·) qs) ?_
  exact ((List.perm_insertionSort (· ≤ ·) ps).trans same).trans (List.perm_insertionSort (· ≤ ·) qs).symm

theorem sortedPs_eq_insertionSort : sortedPs ps = ps.insertionSort (· ≤ ·) := by
  have ordered : (sortedPs ps).insertionSort (· ≤ ·) = sortedPs ps := (sorted_sortedPs ps).insertionSort_eq
  rw [← ordered]
  exact insertionSort_eq_of_perm (sortedPs_perm ps)

/-- Decisions that depend on the value alone come back in the order of the input. -/
theorem unsort_map {β : Type} (blank : β) (decision : ℚ → β) :
    unsort ps blank ((sortedPs ps).map decision) = ps.map decision := by
  have entries : ((order ps).map Prod.snd).zip ((sortedPs ps).map decision) =
      (order ps).map fun item => (item.2, decision item.1) := by
    rw [sortedPs, List.map_map, List.zip_map']
    rfl
  have back : ps.zipIdx.map (fun item => decision item.1) = ps.map decision := by
    conv_rhs => rw [← List.zipIdx_map_fst 0 ps, List.map_map]
    rfl
  rw [unsort, entries, scatter_eq_map (order_perm ps) (fun item => decision item.1) (by simp), back]

end Ranks

/-! ## Marking a run of ranks -/

/-- The marks of the first `k` of `n` ranks. -/
def marks (k n : Nat) : List Bool := List.replicate k true ++ List.replicate (n - k) false

theorem getElem?_marks {k n rank : Nat} (inside : rank < n) : (marks k n)[rank]? = some (decide (rank < k)) := by
  rw [marks, List.getElem?_append]
  by_cases less : rank < k
  · simp [less]
  · have rest : rank - k < n - k := by omega
    simp [less, rest]

theorem length_marks {k n : Nat} (bounded : k ≤ n) : (marks k n).length = n := by
  simp [marks, bounded]

/-- Setting the first ranks one by one marks them. -/
theorem scatter_range {k n : Nat} (bounded : k ≤ n) :
    scatter ((List.range k).map fun rank => (rank, true)) (List.replicate n false) = marks k n := by
  refine List.ext_getElem? fun rank => getElem?_scatter ?_ (by simp [length_marks bounded]) ?_
  · intro entry member
    obtain ⟨marked, less, rfl⟩ := List.mem_map.mp member
    have below : marked < k := List.mem_range.mp less
    rw [getElem?_marks (by omega), decide_eq_true below]
  · by_cases marked : rank < k
    · exact .inr ⟨(rank, true), List.mem_map_of_mem (List.mem_range.mpr marked), rfl⟩
    · left
      by_cases inside : rank < n
      · rw [getElem?_marks inside, decide_eq_false marked, List.getElem?_replicate_of_lt inside]
      · rw [List.getElem?_eq_none (by simpa using inside), List.getElem?_eq_none]
        rw [length_marks bounded]
        omega

/-- Marks of ranks are decisions about values where the ranks are those of the values. -/
theorem marks_eq_map {values : List ℚ} {k : Nat} (bounded : k ≤ values.length) {decision : ℚ → Bool}
    (same : ∀ rank value, values[rank]? = some value → (decision value = true ↔ rank < k)) :
    marks k values.length = values.map decision := by
  apply List.ext_getElem?
  intro rank
  cases here : values[rank]? with
  | none =>
      have outside : values.length ≤ rank := List.getElem?_eq_none_iff.mp here
      rw [List.getElem?_map, here, List.getElem?_eq_none]
      · rfl
      · rwa [length_marks bounded]
  | some value =>
      obtain ⟨inside, -⟩ := List.getElem?_eq_some_iff.mp here
      rw [getElem?_marks inside, List.getElem?_map, here, Option.map_some, Option.some.injEq, Bool.eq_iff_iff,
        same rank value here, decide_eq_true_iff]

/-! ## Step up -/

section StepUp

variable {values : List ℚ} {threshold : Nat → ℚ}

theorem passes_iff {rank : Nat} {value : ℚ} (here : values[rank]? = some value) :
    passes values ((List.range values.length).map threshold) rank = true ↔ value ≤ threshold rank := by
  obtain ⟨inside, same⟩ := List.getElem?_eq_some_iff.mp here
  have paired : (values.zip ((List.range values.length).map threshold))[rank]? = some (value, threshold rank) := by
    simp [inside, same]
  simp [passes, paired]

variable (sorted : values.Pairwise (· ≤ ·))
include sorted

/-- A number of values is reached exactly where the last of them passes. -/
theorem passes_pred_iff {k : Nat} (positive : k ≠ 0) (inside : k ≤ values.length) :
    passes values ((List.range values.length).map fun rank => threshold (rank + 1)) (k - 1) = true ↔
      Reached values threshold k := by
  have here : values[k - 1]? = some (values.get ⟨k - 1, by omega⟩) := List.getElem?_eq_getElem _
  rw [passes_iff here, Nat.sub_add_cancel (by omega), ← lt_countP_iff sorted here, Reached]
  omega

/-- The loop finds the largest number of values that is reached. -/
theorem greatest_kMax (threshold : Nat → ℚ) :
    IsGreatest {k | Reached values threshold k}
      (kMax values ((List.range values.length).map fun rank => threshold (rank + 1))) := by
  obtain ⟨bounded, found, later⟩ := Nat.findGreatest_eq_iff.mp
    (rfl : kMax values ((List.range values.length).map fun rank => threshold (rank + 1)) = _)
  constructor
  · by_cases zero : kMax values ((List.range values.length).map fun rank => threshold (rank + 1)) = 0
    · simp [zero, Reached]
    · exact (passes_pred_iff sorted zero bounded).mp (found zero)
  · intro k reached
    by_contra beyond
    have inside : k ≤ values.length := Reached.le_length reached
    exact later (not_le.mp beyond) inside ((passes_pred_iff sorted (by omega) inside).mpr reached)

/-- The ranks that are marked are those of the values up to the threshold that was found. -/
theorem bhRejectSorted_eq (rising : Monotone threshold) {k : Nat}
    (greatest : IsGreatest {k | Reached values threshold k} k) :
    bhRejectSorted values ((List.range values.length).map fun rank => threshold (rank + 1)) =
      values.map fun value => decide (value ≤ threshold k) := by
  obtain rfl : kMax values ((List.range values.length).map fun rank => threshold (rank + 1)) = k :=
    (greatest_kMax sorted threshold).unique greatest
  rw [bhRejectSorted, scatter_range (Reached.le_length greatest.1)]
  refine marks_eq_map (Reached.le_length greatest.1) fun rank value here => ?_
  rw [decide_eq_true_iff, ← lt_countP_iff sorted here, countP_of_greatest rising greatest]

end StepUp

/-! ## Step down -/

section StepDown

variable {values : List ℚ} {threshold : Nat → ℚ}

/-- The loop marks the longest run. -/
theorem holmRejectSorted_run (values : List ℚ) (threshold : Nat → ℚ) :
    ∃ m, IsGreatest {m | Run values threshold m} m ∧
      holmRejectSorted values ((List.range values.length).map threshold) =
        marks m values.length := by
  induction values generalizing threshold with
  | nil => exact ⟨0, ⟨run_zero, fun m run => run.1⟩, rfl⟩
  | cons value values ih =>
      rw [List.length_cons, List.range_succ_eq_map, List.map_cons, List.map_map, holmRejectSorted]
      by_cases up : value ≤ threshold 0
      · obtain ⟨m, greatest, marked⟩ := ih (threshold ∘ Nat.succ)
        refine ⟨m + 1, ⟨run_cons_succ.mpr ⟨up, greatest.1⟩, ?_⟩, ?_⟩
        · intro length run
          cases length with
          | zero => exact Nat.zero_le _
          | succ length => exact Nat.succ_le_succ (greatest.2 (run_cons_succ.mp run).2)
        · rw [if_pos up, marked]
          simp [marks, List.replicate_succ]
      · refine ⟨0, ⟨run_zero, ?_⟩, ?_⟩
        · intro length run
          cases length with
          | zero => exact le_rfl
          | succ length => exact absurd (run_cons_succ.mp run).1 up
        · rw [if_neg up]
          simp [marks, List.replicate_succ]

/-- The ranks that are marked are those of the values of the longest run. -/
theorem holmRejectSorted_eq (sorted : values.Pairwise (· ≤ ·))
    (rising : ∀ first second, first ≤ second → second < values.length → threshold first ≤ threshold second) :
    ∃ m, IsGreatest {m | Run values threshold m} m ∧
      holmRejectSorted values ((List.range values.length).map threshold) =
        (values.map fun value => decide (value ∈ values.take m)) ∧
      (values.map fun value => decide (value ∈ values.take m)).countP id = m := by
  obtain ⟨m, greatest, marked⟩ := holmRejectSorted_run values threshold
  have bounded : m ≤ values.length := greatest.1.1
  have decided : marks m values.length = values.map fun value => decide (value ∈ values.take m) := by
    refine marks_eq_map bounded fun rank value here => ?_
    rw [decide_eq_true_iff]
    exact mem_take_iff_of_greatest sorted rising greatest here
  refine ⟨m, greatest, marked.trans decided, ?_⟩
  rw [← decided]
  simp [marks, List.countP_replicate]

end StepDown

/-! ## What the procedures decide -/

/-- `k * alpha / n` -/
def bhThreshold (alpha : ℚ) (n k : Nat) : ℚ := k * alpha / n

/-- `alpha / (n - j)` -/
def holmThreshold (alpha : ℚ) (n j : Nat) : ℚ := alpha / ((n - j : Nat) : ℚ)

theorem monotone_bhThreshold {alpha : ℚ} (positive : 0 < alpha) (n : Nat) : Monotone (bhThreshold alpha n) := by
  intro k l le
  have cast : (k : ℚ) ≤ l := Nat.cast_le.mpr le
  unfold bhThreshold
  gcongr

theorem holmThreshold_le {alpha : ℚ} (positive : 0 < alpha) {n first second : Nat} (le : first ≤ second)
    (inside : second < n) : holmThreshold alpha n first ≤ holmThreshold alpha n second := by
  have cast : ((n - second : Nat) : ℚ) ≤ (n - first : Nat) := Nat.cast_le.mpr (by omega)
  have above : (0 : ℚ) < (n - second : Nat) := Nat.cast_pos.mpr (by omega)
  unfold holmThreshold
  gcongr

/-- The threshold of the last of `m` ranks is no higher than `m * alpha / n`. -/
theorem holmThreshold_le_bhThreshold {alpha : ℚ} (positive : 0 < alpha) {n m : Nat} (some : 0 < m) (le : m ≤ n) :
    holmThreshold alpha n (m - 1) ≤ bhThreshold alpha n m := by
  obtain ⟨rest, rfl⟩ := Nat.exists_eq_add_of_le le
  obtain ⟨last, rfl⟩ := Nat.exists_eq_add_of_le' some
  have left : last + 1 + rest - (last + 1 - 1) = rest + 1 := by omega
  rw [holmThreshold, bhThreshold, left, div_le_div_iff₀ (by positivity) (by positivity)]
  push_cast
  -- `n ≤ m * (n - m + 1)`, with equality at both ends of the ranks
  have product : (0 : ℚ) ≤ last * rest * alpha := by positivity
  calc alpha * (last + 1 + rest) ≤ alpha * (last + 1 + rest) + last * rest * alpha := by linarith
    _ = (last + 1) * alpha * (rest + 1) := by ring

section Decisions

variable {ps : List ℚ} {alpha : ℚ}

/-- A report's decisions are those along the ranks, an empty list having none. -/
theorem bhRejected_unsort : (benjaminiHochberg ps alpha).bhRejected =
    unsort ps false (bhRejectSorted (sortedPs ps) (bhThresholdsSorted alpha ps.length)) := by
  rcases eq_or_ne ps [] with rfl | some
  · rfl
  · have full : ps.length ≠ 0 := List.length_eq_zero_iff.not.mpr some
    simp [benjaminiHochberg, full]

theorem holmRejected_unsort : (holmBonferroni ps alpha).holmRejected =
    unsort ps false (holmRejectSorted (sortedPs ps) (holmThreshSorted alpha ps.length)) := by
  rcases eq_or_ne ps [] with rfl | some
  · rfl
  · have full : ps.length ≠ 0 := List.length_eq_zero_iff.not.mpr some
    simp [holmBonferroni, full]

theorem reached_sortedPs {threshold : Nat → ℚ} {k : Nat} :
    Reached (sortedPs ps) threshold k ↔ Reached ps threshold k := by
  rw [Reached, Reached, (sortedPs_perm ps).countP_eq]

theorem exists_greatest_reached (ps : List ℚ) (threshold : Nat → ℚ) :
    ∃ k, IsGreatest {k | Reached ps threshold k} k := by
  have greatest := greatest_kMax (sorted_sortedPs ps) threshold
  simp only [reached_sortedPs] at greatest
  exact ⟨_, greatest⟩

theorem bhRejected_eq (positive : 0 < alpha) {k : Nat}
    (greatest : IsGreatest {k | Reached ps (bhThreshold alpha ps.length) k} k) :
    (benjaminiHochberg ps alpha).bhRejected = ps.map fun p => decide (p ≤ bhThreshold alpha ps.length k) := by
  have thresholds : bhThresholdsSorted alpha ps.length =
      (List.range (sortedPs ps).length).map fun rank => bhThreshold alpha ps.length (rank + 1) := by
    simp [bhThresholdsSorted, bhThreshold]
  have ranked : IsGreatest {k | Reached (sortedPs ps) (bhThreshold alpha ps.length) k} k := by
    simpa only [reached_sortedPs] using greatest
  rw [bhRejected_unsort, thresholds,
    bhRejectSorted_eq (sorted_sortedPs ps) (monotone_bhThreshold positive ps.length) ranked, unsort_map]

/-- The longest run of least values under the thresholds of Holm. -/
abbrev IsHolmRun (ps : List ℚ) (alpha : ℚ) (m : Nat) : Prop :=
  IsGreatest {m | Run (ps.insertionSort (· ≤ ·)) (holmThreshold alpha ps.length) m} m

theorem exists_holmRejected (ps : List ℚ) (positive : 0 < alpha) :
    ∃ m, IsHolmRun ps alpha m ∧
      (holmBonferroni ps alpha).holmRejected =
        (ps.map fun p => decide (p ∈ (ps.insertionSort (· ≤ ·)).take m)) ∧
      (holmBonferroni ps alpha).holmRejected.countP id = m := by
  have rising (first second : Nat) (le : first ≤ second) (inside : second < (sortedPs ps).length) :
      holmThreshold alpha ps.length first ≤ holmThreshold alpha ps.length second :=
    holmThreshold_le positive le (by simpa using inside)
  obtain ⟨m, greatest, marked, counted⟩ := holmRejectSorted_eq (sorted_sortedPs ps) rising
  have thresholds : holmThreshSorted alpha ps.length =
      (List.range (sortedPs ps).length).map (holmThreshold alpha ps.length) := by
    rw [length_sortedPs]
    rfl
  have decided : (holmBonferroni ps alpha).holmRejected =
      ps.map fun p => decide (p ∈ (sortedPs ps).take m) := by
    rw [holmRejected_unsort, thresholds, marked, unsort_map]
  refine ⟨m, ?_, ?_, ?_⟩
  · simpa only [sortedPs_eq_insertionSort] using greatest
  · rw [decided, sortedPs_eq_insertionSort]
  · have same : (ps.map fun p => decide (p ∈ (sortedPs ps).take m)).Perm
        ((sortedPs ps).map fun p => decide (p ∈ (sortedPs ps).take m)) := (sortedPs_perm ps).symm.map _
    rw [decided, same.countP_eq, counted]

theorem holmRejected_eq (positive : 0 < alpha) {m : Nat} (greatest : IsHolmRun ps alpha m) :
    (holmBonferroni ps alpha).holmRejected =
      ps.map fun p => decide (p ∈ (ps.insertionSort (· ≤ ·)).take m) := by
  obtain ⟨found, longest, decided, -⟩ := exists_holmRejected ps positive
  rw [decided, greatest.unique longest]

/-- The values at some places of the input, in the order of the places. -/
def pick {β : Type} (items : List β) (blank : β) (places : List Nat) : List β :=
  places.map fun place => items.getD place blank

theorem pick_perm (blank : ℚ) {places : List Nat} (all : places.Perm (List.range ps.length)) :
    (pick ps blank places).Perm ps := by
  have whole : (List.range ps.length).map (fun place => ps.getD place blank) = ps := by
    apply List.ext_getElem
    · simp
    · intro place inside bounded
      simp [bounded]
  have moved := all.map fun place => ps.getD place blank
  rwa [whole] at moved

theorem map_pick {decision : ℚ → Bool} {places : List Nat} (all : places.Perm (List.range ps.length)) :
    (pick ps 0 places).map decision = pick (ps.map decision) false places := by
  rw [pick, pick, List.map_map]
  apply List.map_congr_left
  intro place member
  have inside : place < ps.length := List.mem_range.mp (all.mem_iff.mp member)
  simp [inside]

/-- What the two corrections decide about a list of p-values. -/
structure Correction (ps : List ℚ) (alpha : ℚ) : Prop where
  stepUp : ∃ k, IsGreatest {k | Reached ps (bhThreshold alpha ps.length) k} k ∧
    (benjaminiHochberg ps alpha).bhRejected = ps.map fun p => decide (p ≤ bhThreshold alpha ps.length k)
  stepDown : ∃ m, IsHolmRun ps alpha m ∧
    (holmBonferroni ps alpha).holmRejected =
      (ps.map fun p => decide (p ∈ (ps.insertionSort (· ≤ ·)).take m)) ∧
    (holmBonferroni ps alpha).holmRejected.countP id = m
  permuted : ∀ places : List Nat, places.Perm (List.range ps.length) →
    (benjaminiHochberg (pick ps 0 places) alpha).bhRejected =
      pick (benjaminiHochberg ps alpha).bhRejected false places ∧
    (holmBonferroni (pick ps 0 places) alpha).holmRejected =
      pick (holmBonferroni ps alpha).holmRejected false places
  tied : ∀ i j : Nat, ps[i]? = ps[j]? →
    (benjaminiHochberg ps alpha).bhRejected[i]? = (benjaminiHochberg ps alpha).bhRejected[j]? ∧
    (holmBonferroni ps alpha).holmRejected[i]? = (holmBonferroni ps alpha).holmRejected[j]?
  monotone : ∀ beta, alpha ≤ beta → ∀ i : Nat,
    ((benjaminiHochberg ps alpha).bhRejected[i]? = some true →
      (benjaminiHochberg ps beta).bhRejected[i]? = some true) ∧
    ((holmBonferroni ps alpha).holmRejected[i]? = some true →
      (holmBonferroni ps beta).holmRejected[i]? = some true)
  contained : ∀ i : Nat, (holmBonferroni ps alpha).holmRejected[i]? = some true →
    (benjaminiHochberg ps alpha).bhRejected[i]? = some true

theorem bhThreshold_le {beta : ℚ} (above : alpha ≤ beta) {n : Nat} (k : Nat) :
    bhThreshold alpha n k ≤ bhThreshold beta n k := by
  unfold bhThreshold
  gcongr

theorem holmThreshold_mono {beta : ℚ} (above : alpha ≤ beta) {n : Nat} (j : Nat) :
    holmThreshold alpha n j ≤ holmThreshold beta n j := by
  unfold holmThreshold
  gcongr

/-- A decision about a place is one about its value. -/
theorem getElem?_map_decide {decision : ℚ → Prop} [DecidablePred decision] {i : Nat} :
    (ps.map fun p => decide (decision p))[i]? = some true ↔ ∃ p, ps[i]? = some p ∧ decision p := by
  simp

/-- Whatever Holm rejects is up to the threshold of the step-up procedure. -/
theorem le_bhThreshold_of_mem_run (positive : 0 < alpha) {k m : Nat}
    (greatest : IsGreatest {k | Reached ps (bhThreshold alpha ps.length) k} k) (longest : IsHolmRun ps alpha m)
    {p : ℚ} (member : p ∈ (ps.insertionSort (· ≤ ·)).take m) : p ≤ bhThreshold alpha ps.length k := by
  have sorted : (ps.insertionSort (· ≤ ·)).Pairwise (· ≤ ·) := List.pairwise_insertionSort (· ≤ ·) ps
  obtain ⟨rank, taken⟩ := List.mem_iff_getElem?.mp member
  rw [List.getElem?_take, Option.ite_none_right_eq_some] at taken
  obtain ⟨less, here⟩ := taken
  have bounded : m ≤ (ps.insertionSort (· ≤ ·)).length := longest.1.1
  have last : (ps.insertionSort (· ≤ ·))[m - 1]? = some _ := List.getElem?_eq_getElem (by omega)
  have passed := (longest.1.2 (m - 1) (by omega) _ last).trans
    (holmThreshold_le_bhThreshold positive (by omega) (by simpa using bounded))
  -- so `m` values are up to the `m`th threshold of the step-up procedure
  have reached : Reached ps (bhThreshold alpha ps.length) m := by
    have counted := (lt_countP_iff sorted last).mpr passed
    rw [(List.perm_insertionSort (· ≤ ·) ps).countP_eq] at counted
    unfold Reached
    omega
  calc p ≤ _ := le_of_rank_le sorted (by omega) here last
    _ ≤ bhThreshold alpha ps.length m := passed
    _ ≤ bhThreshold alpha ps.length k := monotone_bhThreshold positive _ (greatest.2 reached)

/-- Both corrections decide by the values alone, more at a higher level, and Holm's never more. -/
theorem correction (positive : 0 < alpha) : Correction ps alpha := by
  obtain ⟨k, greatest⟩ := exists_greatest_reached ps (bhThreshold alpha ps.length)
  obtain ⟨m, longest, holm, counted⟩ := exists_holmRejected ps positive
  have up := bhRejected_eq positive greatest
  refine ⟨⟨k, greatest, up⟩, ⟨m, longest, holm, counted⟩, ?_, ?_, ?_, ?_⟩
  · intro places all
    have same := pick_perm 0 all
    have length : (pick ps 0 places).length = ps.length := same.length_eq
    have ordered : (pick ps 0 places).insertionSort (· ≤ ·) = ps.insertionSort (· ≤ ·) :=
      insertionSort_eq_of_perm same
    have greatest' : IsGreatest {k | Reached (pick ps 0 places) (bhThreshold alpha (pick ps 0 places).length) k} k := by
      simpa only [Reached, length, same.countP_eq] using greatest
    have longest' : IsHolmRun (pick ps 0 places) alpha m := by
      simpa only [IsHolmRun, ordered, length] using longest
    constructor
    · rw [bhRejected_eq positive greatest', up, length, map_pick all]
    · rw [holmRejected_eq positive longest', holm, ordered, map_pick all]
  · intro i j same
    rw [up, holm]
    simp only [List.getElem?_map, same, and_self]
  · intro beta above i
    have higher : 0 < beta := positive.trans_le above
    obtain ⟨l, largest⟩ := exists_greatest_reached ps (bhThreshold beta ps.length)
    obtain ⟨r, longer, holm', -⟩ := exists_holmRejected ps higher
    rw [up, holm, holm', bhRejected_eq higher largest]
    simp only [getElem?_map_decide]
    constructor
    · rintro ⟨p, here, below⟩
      have le : k ≤ l := largest.2 (greatest.1.mono (bhThreshold_le above k))
      exact ⟨p, here, (below.trans (bhThreshold_le above k)).trans (monotone_bhThreshold higher _ le)⟩
    · rintro ⟨p, here, member⟩
      have le : m ≤ r := longer.2 (longest.1.mono fun rank _ => holmThreshold_mono above rank)
      exact ⟨p, here, List.take_subset_take_left _ le member⟩
  · intro i rejected
    rw [holm, getElem?_map_decide] at rejected
    obtain ⟨p, here, member⟩ := rejected
    rw [up, getElem?_map_decide]
    exact ⟨p, here, le_bhThreshold_of_mem_run positive greatest longest member⟩

end Decisions

theorem correction_four : (0 : ℚ) < 5 / 100 ∧ Correction [3 / 10, 1 / 100, 3 / 100, 2 / 100] (5 / 100) :=
  ⟨by norm_num, correction (by norm_num)⟩

end Senex.MultipleTests
