import Senex.Challengers.PurgedFolds
import Senex.Foundation.Binade

/-! # Exactly purged splits

`purgedExactly_iff` says when the folds are trained on exactly the observations whose label window
ends before the start of the fold less the embargo: the times are compared as floats, which need not
compare as the times do.
-/

namespace Senex.Challengers

open Text Datetime

namespace Plan

variable (p : Plan)

/-- An earlier observation whose label window ends before the start of a fold less the embargo. -/
def Clear (first idx : Fin p.rows.length) : Prop :=
  orderKey (p.rows.get idx).decision < orderKey (p.rows.get first).decision ∧
    toMicros (p.rows.get idx).labelEnd + p.embargoSeconds * 1000000 < toMicros (p.rows.get first).decision

instance (first idx : Fin p.rows.length) : Decidable (p.Clear first idx) := inferInstanceAs (Decidable (_ ∧ _))

/-- A split that is trained on exactly what is clear of its earliest test row. -/
def TrainedExactly (split : PurgedSplit) : Prop :=
  ∃ (test : List (Fin p.rows.length)) (first : Fin p.rows.length), split.testIndices = positions test ∧ first ∈ test ∧
    (∀ idx ∈ test, orderKey (p.rows.get first).decision ≤ orderKey (p.rows.get idx).decision) ∧
    split.trainIndices = positions ((ordered p.rows).filter fun idx => decide (p.Clear first idx))

/-- Splits as they should be. -/
structure PurgedExactly (rows : List Observation) (splits : List PurgedSplit) : Prop where
  order : (ordered p.rows).Perm (List.finRange p.rows.length) ∧
    (ordered p.rows).Pairwise fun a b => orderKey (p.rows.get a).decision ≤ orderKey (p.rows.get b).decision
  nonempty : ∀ split ∈ splits, split.testIndices ≠ []
  disjoint : splits.Pairwise fun split other => split.testIndices.Disjoint other.testIndices
  cover : splits.flatMap PurgedSplit.testIndices = positions ((ordered p.rows).drop p.firstPosition)
  trained : ∀ split ∈ splits, p.TrainedExactly split
  enough : ∀ split ∈ splits, p.minTrainSize ≤ split.trainIndices.length
  valid : validatePurgedSplits rows splits = .ok ()

/-- The floats of a label end and of a start less the embargo compare as the times do. -/
def Compares (first idx : Fin p.rows.length) : Prop :=
  (timestamp (p.rows.get idx).labelEnd).lt
      ((timestamp (p.rows.get first).decision).sub (Double.round p.embargoSeconds)) = true ↔
    toMicros (p.rows.get idx).labelEnd + p.embargoSeconds * 1000000 < toMicros (p.rows.get first).decision

variable {p}

/-- Nothing behind a fold's start has ended before it. -/
theorem trains_eq {rows : List Observation} (ready : p.Ready rows) {fold : Nat} {first : Fin p.rows.length}
    (opens : (ordered p.rows)[p.border fold]? = some first) :
    p.trains (p.border fold) first = (ordered p.rows).filter (ended (p.purge (p.rows.get first).decision)) := by
  have none : ((ordered p.rows).drop (p.border fold)).filter (ended (p.purge (p.rows.get first).decision)) = [] := by
    apply List.filter_eq_nil_iff.mpr
    intro idx behind past
    exact absurd (before_of_ended ready.finite past) (first_le opens behind).not_gt
  calc p.trains (p.border fold) first
      = p.trains (p.border fold) first ++
          ((ordered p.rows).drop (p.border fold)).filter (ended (p.purge (p.rows.get first).decision)) := by
        rw [none, List.append_nil]
    _ = (ordered p.rows).filter (ended (p.purge (p.rows.get first).decision)) := by
        rw [trains, ← List.filter_append, List.take_append_drop]

/-- What ends before a start was decided before it. -/
theorem clear_iff {first idx : Fin p.rows.length} : p.Clear first idx ↔
    toMicros (p.rows.get idx).labelEnd + p.embargoSeconds * 1000000 < toMicros (p.rows.get first).decision := by
  constructor
  · exact And.right
  · intro past
    have labelled : toMicros (p.rows.get idx).labelEnd < toMicros (p.rows.get first).decision := by omega
    exact ⟨(p.rows.get idx).later.trans (toMicros_lt_iff.mp labelled), past⟩

theorem filter_ended_iff {first : Fin p.rows.length} :
    (ordered p.rows).filter (ended (p.purge (p.rows.get first).decision)) =
        (ordered p.rows).filter (fun idx => decide (p.Clear first idx)) ↔ ∀ idx, p.Compares first idx := by
  have all (idx : Fin p.rows.length) : idx ∈ ordered p.rows :=
    (ordered_perm p.rows).mem_iff.mpr (List.mem_finRange idx)
  constructor
  · intro same idx
    have member : idx ∈ (ordered p.rows).filter (ended (p.purge (p.rows.get first).decision)) ↔
        idx ∈ (ordered p.rows).filter (fun idx => decide (p.Clear first idx)) := by rw [same]
    rw [List.mem_filter, List.mem_filter, decide_eq_true_iff, clear_iff] at member
    rw [and_iff_right (all idx), and_iff_right (all idx)] at member
    exact member
  · intro compares
    apply List.filter_congr
    intro idx _
    apply Bool.eq_iff_iff.mpr
    rw [decide_eq_true_iff, clear_iff]
    exact compares idx

/-- A fold is trained exactly if the floats compare as the times do. -/
theorem trainedExactly_iff {rows : List Observation} (ready : p.Ready rows) {fold : Nat} {first : Fin p.rows.length}
    (opens : (ordered p.rows)[p.border fold]? = some first) :
    p.TrainedExactly (p.foldSplit fold first) ↔ ∀ idx, p.Compares first idx := by
  have more : p.border fold < p.border (fold + 1) := by
    have some := ready.size_pos fold
    rw [border_succ]
    omega
  have inside := mem_tests more opens
  rw [← filter_ended_iff, ← trains_eq ready opens]
  constructor
  · rintro ⟨test, other, tested, member, least, trained⟩
    obtain rfl : p.tests fold = test := positions_injective tested
    have later := first_le opens (tests_subset fold other member)
    have same := eq_of_orderKey (le_antisymm (least first inside) later)
    have exact : p.Clear other = p.Clear first := by
      funext idx
      rw [Clear, Clear, same]
    simp only [exact] at trained
    exact positions_injective trained
  · intro trained
    refine ⟨p.tests fold, first, rfl, inside, fun idx member => first_le opens (tests_subset fold idx member), ?_⟩
    rw [← trained]
    rfl

/-- What the splits hold however the floats compare. -/
theorem Ready.purgedExactly_splits_iff {rows : List Observation} (ready : p.Ready rows) {splits : List PurgedSplit}
    (folds : p.Folds 0 splits) : p.PurgedExactly rows splits ↔ ∀ split ∈ splits, p.TrainedExactly split := by
  have start : p.border 0 = p.firstPosition := by simp [border]
  have cover := folds.cover ready
  have apart : (splits.flatMap PurgedSplit.testIndices).Nodup := by
    rw [cover]
    exact nodup_positions ((nodup_ordered p.rows).sublist (List.drop_sublist _ _))
  constructor
  · exact PurgedExactly.trained
  · intro trained
    have order := And.intro (ordered_perm p.rows) (chronological p.rows)
    refine ⟨order, ?_, (List.nodup_flatMap.mp apart).2, ?_, trained, ?_, ?_⟩
    case refine_1 =>
      intro split member
      obtain ⟨test, first, tested, inside, -⟩ := trained split member
      rw [tested]
      exact List.ne_nil_of_mem (mem_positions.mpr inside)
    case refine_2 => rw [cover, start]
    case refine_3 =>
      intro split member
      obtain ⟨fold, inside, first, opens, rfl⟩ := folds.of_mem member
      exact (ready.enough opens).trans_eq (length_positions _).symm
    case refine_4 =>
      have place : p.border 0 < (ordered p.rows).length :=
        (ready.border_lt ready.actual_pos).trans_eq (length_ordered _).symm
      have member := folds.mem le_rfl ready.actual_pos (List.getElem?_eq_getElem place)
      have some : splits.isEmpty = false := List.isEmpty_eq_false_iff.mpr (List.ne_nil_of_mem member)
      rw [validatePurgedSplits, some, guardNot_false, Py.ok_bind, ready.dated, Py.ok_bind]
      exact ready.checkSplits folds fun idx _ => List.not_mem_nil

end Plan

/-- The seconds of 10 January 2004 to 19 January 2038, which floats hold to a quarter of a microsecond. -/
def InBinade (c : Civil) : Prop :=
  2 ^ 30 * 1000000 ≤ (toMicros c : Int) - 719162 * 86400000000 ∧
    (toMicros c : Int) - 719162 * 86400000000 < 2 ^ 31 * 1000000

theorem seconds_of_inBinade {c : Civil} (inside : InBinade c) :
    2 ^ 30 ≤ (((toMicros c : Int) - 719162 * 86400000000 : Int) : ℚ) / 1000000 ∧
      (((toMicros c : Int) - 719162 * 86400000000 : Int) : ℚ) / 1000000 < 2 ^ 31 := by
  rw [le_div_iff₀ (by norm_num), div_lt_iff₀ (by norm_num)]
  exact ⟨by exact_mod_cast inside.1, by exact_mod_cast inside.2⟩

/-- Times of these decades compare as floats as they do themselves. -/
theorem compares_of_inBinade {p : Plan} (finite : (Double.round p.embargoSeconds).isFinite = true)
    {first idx : Fin p.rows.length} (start : InBinade (p.rows.get first).decision)
    (label : InBinade (p.rows.get idx).labelEnd) : p.Compares first idx := by
  obtain ⟨low, high⟩ := seconds_of_inBinade label
  obtain ⟨lower, higher⟩ := seconds_of_inBinade start
  have compared := @Plan.ended_iff p finite (p.rows.get first).decision idx
  rw [Plan.purge, Double.sub_eq_round (isFinite_timestamp _) finite, timestamp, timestamp] at compared
  apply compared.trans
  have most : (toMicros (p.rows.get first).decision : Int) - 719162 * 86400000000 < 2 ^ 31 * 1000000 := start.2
  generalize toMicros (p.rows.get idx).labelEnd = l at *
  generalize toMicros (p.rows.get first).decision = s at *
  have whole (n : Nat) : Double.round (n : ℚ) = Double.ofMagnitude false n := by
    have nonneg : (0 : ℚ) ≤ n := Nat.cast_nonneg _
    rw [Double.round, abs_of_nonneg nonneg, decide_eq_false nonneg.not_gt]
  have micros : ((l : Int) - 719162 * 86400000000 : Int) / 1000000 + (p.embargoSeconds : ℚ) <
      (((s : Int) - 719162 * 86400000000 : Int) : ℚ) / 1000000 ↔ l + p.embargoSeconds * 1000000 < s := by
    rw [div_add' _ _ _ (by norm_num), div_lt_div_iff_of_pos_right (by norm_num)]
    push_cast
    constructor
    · intro less
      have : ((l + p.embargoSeconds * 1000000 : Nat) : ℚ) < s := by
        push_cast
        linarith
      exact_mod_cast this
    · intro less
      have : ((l + p.embargoSeconds * 1000000 : Nat) : ℚ) < s := by exact_mod_cast less
      push_cast at this
      linarith
  rw [whole]
  rcases Nat.lt_or_ge p.embargoSeconds (2 ^ 53) with small | large
  · rw [Double.value_natCast small, ← micros]
    apply Double.lt_round_sub_iff low lower high higher
    intro less
    have next : l + p.embargoSeconds * 1000000 + 1 ≤ s := micros.mp less
    have cast : ((l + p.embargoSeconds * 1000000 + 1 : Nat) : ℚ) ≤ s := by exact_mod_cast next
    push_cast at cast ⊢
    linarith
  · have late : ¬ l + p.embargoSeconds * 1000000 < s := by
      omega
    apply iff_of_false _ late
    have taken := Double.le_value_natCast large
    have above := Double.value_round_mono higher.le
    have below := Double.value_round_mono low
    have power : ((2 ^ 31 : Nat) : ℚ) = 2 ^ 31 ∧ ((2 ^ 30 : Nat) : ℚ) = 2 ^ 30 := by norm_num
    rw [← power.1, whole, Double.value_natCast (by norm_num)] at above
    rw [← power.2, whole, Double.value_natCast (by norm_num)] at below
    rw [power.1] at above
    rw [power.2] at below
    have nothing : (Double.round (((Double.round ((((s : Int) - 719162 * 86400000000 : Int) : ℚ) / 1000000)).value -
        (Double.ofMagnitude false p.embargoSeconds).value))).value ≤ 0 := by
      rw [← Double.value_round_zero]
      apply Double.value_round_mono
      have order : (2 : ℚ) ^ 31 ≤ 2 ^ 53 := by norm_num
      exact sub_nonpos.mpr ((above.trans order).trans taken)
    have positive : (0 : ℚ) < 2 ^ 30 := by norm_num
    exact (nothing.trans (positive.le.trans below)).not_gt

section

variable {rows : List Observation} {nSplits minTrainSize embargoSeconds : PyValue} {p : Plan}
  (found : plan rows nSplits minTrainSize embargoSeconds = .ok p)
include found

/-- Nothing raises behind the first test position. -/
theorem exists_splits : ∃ splits, purgedWalkForwardSplits rows nSplits minTrainSize embargoSeconds = .ok splits ∧
    p.Folds 0 splits := by
  obtain ⟨splits, returned, folds⟩ := (plan_cases found).splitsFrom (Nat.zero_add p.actualSplits)
  have start : p.border 0 = p.firstPosition := by simp [Plan.border]
  refine ⟨splits, ?_, folds⟩
  rw [purgedWalkForwardSplits, found, Py.ok_bind, List.range_eq_range', ← start]
  exact returned

theorem exactly_of_compares (compares : ∀ fold < p.actualSplits, ∀ first,
    (ordered p.rows)[p.border fold]? = some first → ∀ idx, p.Compares first idx) :
    ∃ splits, purgedWalkForwardSplits rows nSplits minTrainSize embargoSeconds = .ok splits ∧
      p.PurgedExactly rows splits := by
  have ready := plan_cases found
  obtain ⟨splits, returned, folds⟩ := exists_splits found
  refine ⟨splits, returned, (ready.purgedExactly_splits_iff folds).mpr fun split member => ?_⟩
  obtain ⟨fold, inside, first, opens, rfl⟩ := folds.of_mem member
  exact (Plan.trainedExactly_iff ready opens).mpr (compares fold inside first opens)

theorem compares_of_exactly {splits : List PurgedSplit}
    (returned : purgedWalkForwardSplits rows nSplits minTrainSize embargoSeconds = .ok splits)
    (exact : p.PurgedExactly rows splits) {fold : Nat} (inside : fold < p.actualSplits) {first : Fin p.rows.length}
    (opens : (ordered p.rows)[p.border fold]? = some first) (idx : Fin p.rows.length) : p.Compares first idx := by
  obtain ⟨others, same, folds⟩ := exists_splits found
  obtain rfl : splits = others := Except.ok.inj (returned.symm.trans same)
  have trained := exact.trained _ (folds.mem (Nat.zero_le fold) inside opens)
  exact (Plan.trainedExactly_iff (plan_cases found) opens).mp trained idx

/-- The splits are returned and are as they should be just if, for the start of each fold, the floats compare as
    the times do. -/
theorem purgedExactly_iff :
    (∃ splits, purgedWalkForwardSplits rows nSplits minTrainSize embargoSeconds = .ok splits ∧
        p.PurgedExactly rows splits) ↔
      ∀ fold < p.actualSplits, ∀ first, (ordered p.rows)[p.border fold]? = some first →
        ∀ idx, p.Compares first idx := by
  constructor
  · rintro ⟨splits, returned, exact⟩ fold inside first opens idx
    exact compares_of_exactly found returned exact inside opens idx
  · exact exactly_of_compares found

end

/-- A plan, and what a test finds of it. -/
theorem exists_plan (rows : List Observation) (nSplits minTrainSize embargoSeconds : PyValue) (test : Plan → Bool)
    (passes : (match plan rows nSplits minTrainSize embargoSeconds with
      | .ok p => test p
      | .error _ => false) = true) :
    ∃ p, plan rows nSplits minTrainSize embargoSeconds = .ok p ∧ test p = true := by
  split at passes
  · exact ⟨_, ‹_›, passes⟩
  · cases passes

instance (p : Plan) (first idx : Fin p.rows.length) : Decidable (p.Compares first idx) :=
  inferInstanceAs (Decidable (_ ↔ _))

/-- An observation of some market with a label and a probability. -/
def observation (marketId decisionTs labelEndTs : Text) : Observation :=
  ⟨marketId, decisionTs, labelEndTs, 1, .float (Double.round (1 / 2)), .none⟩

def threeMinutes : List Observation :=
  [observation (txt "a") (txt "2026-01-01T00:00:00Z") (txt "2026-01-01T00:05:00Z"),
    observation (txt "b") (txt "2026-01-01T00:05:00Z") (txt "2026-01-01T00:09:00Z"),
    observation (txt "c") (txt "2026-01-01T00:09:11Z") (txt "2026-01-01T00:15:00Z")]

theorem purgedExactly_iff_threeMinutes : ∃ p, plan threeMinutes (.int 3) (.int 1) (.int 10) = .ok p ∧
    ∃ splits, purgedWalkForwardSplits threeMinutes (.int 3) (.int 1) (.int 10) = .ok splits ∧
      p.PurgedExactly threeMinutes splits := by
  obtain ⟨p, found, passes⟩ := exists_plan threeMinutes (.int 3) (.int 1) (.int 10)
    (fun p => decide (∀ fold < p.actualSplits, ∀ first, (ordered p.rows)[p.border fold]? = some first →
      ∀ idx, p.Compares first idx)) (by decide +kernel)
  exact ⟨p, found, (purgedExactly_iff found).mpr (of_decide_eq_true passes)⟩

/-- The label ends ten seconds before the start, where the floats of the two have different distances. -/
def acrossBinade : List Observation :=
  [observation (txt "a") (txt "2038-01-19T03:00:00Z") (txt "2038-01-19T03:13:58.000007Z"),
    observation (txt "b") (txt "2038-01-19T03:14:08.000007Z") (txt "2038-01-19T03:20:00Z")]

theorem not_purgedExactly_acrossBinade : ∃ p, plan acrossBinade (.int 1) (.int 1) (.int 10) = .ok p ∧
    ¬ ∃ splits, purgedWalkForwardSplits acrossBinade (.int 1) (.int 1) (.int 10) = .ok splits ∧
      p.PurgedExactly acrossBinade splits := by
  obtain ⟨p, found, passes⟩ := exists_plan acrossBinade (.int 1) (.int 1) (.int 10)
    (fun p => decide (¬ ∀ fold < p.actualSplits, ∀ first, (ordered p.rows)[p.border fold]? = some first →
      ∀ idx, p.Compares first idx)) (by decide +kernel)
  refine ⟨p, found, ?_⟩
  rintro ⟨splits, returned, exact⟩
  apply of_decide_eq_true passes
  intro fold inside first opens idx
  exact compares_of_exactly found returned exact inside opens idx

end Senex.Challengers
