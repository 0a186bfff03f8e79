import Senex.Challengers.WalkForward

/-! # What the splits hold

Each fold takes the observations between two borders and is trained on those that have ended before
its first one.  Later folds have more of them, so that none falls below the minimum
(`ended_mono`), and what has ended is earlier (`before_of_ended`), as `validate_purged_splits` wants.
-/

namespace Senex.Challengers

open Text Datetime

variable {rows : List Dated}

/-! ## Chronological order -/

theorem ordered_perm (rows : List Dated) : (ordered rows).Perm (List.finRange rows.length) := sortedBy_perm _ _

theorem nodup_ordered (rows : List Dated) : (ordered rows).Nodup :=
  (ordered_perm rows).nodup_iff.mpr (List.nodup_finRange _)

theorem length_ordered (rows : List Dated) : (ordered rows).length = rows.length := by
  rw [(ordered_perm rows).length_eq, List.length_finRange]

theorem chronological (rows : List Dated) :
    (ordered rows).Pairwise fun a b => orderKey (rows.get a).decision ≤ orderKey (rows.get b).decision := by
  apply (sorted_sortedBy (List.finRange rows.length)).imp
  intro a b le
  rcases Prod.Lex.toLex_le_toLex.mp le with less | ⟨same, -⟩
  · exact less.le
  · exact same.le

/-- Behind a position nothing is earlier. -/
theorem first_le {c : Nat} {first idx : Fin rows.length} (opens : (ordered rows)[c]? = some first)
    (behind : idx ∈ (ordered rows).drop c) :
    orderKey (rows.get first).decision ≤ orderKey (rows.get idx).decision := by
  obtain ⟨inside, rfl⟩ := List.getElem?_eq_some_iff.mp opens
  have sorted := (chronological rows).sublist (List.drop_sublist c _)
  rw [List.drop_eq_getElem_cons inside] at sorted behind
  rcases List.mem_cons.mp behind with rfl | later
  · exact le_rfl
  · exact (List.pairwise_cons.mp sorted).1 idx later

/-- The times of a slice start with its first one. -/
theorem testStart?_slice {c stop : Nat} {first : Fin rows.length} (opens : (ordered rows)[c]? = some first)
    (some : c < stop) :
    testStart? rows (((ordered rows).take stop).drop c) = .some (rows.get first).decision := by
  have member : first ∈ ((ordered rows).take stop).drop c := by
    apply List.mem_of_getElem? (i := 0)
    rw [List.getElem?_drop, List.getElem?_take_of_lt (by omega)]
    exact opens
  cases found : testStart? rows (((ordered rows).take stop).drop c) with
  | none =>
      have nothing := List.argmin_eq_none.mp found
      rw [List.map_eq_nil_iff] at nothing
      rw [nothing] at member
      cases member
  | some start =>
      obtain ⟨idx, inside, rfl⟩ := List.mem_map.mp (List.argmin_mem found)
      have least := List.le_of_mem_argmin (List.mem_map_of_mem member) found
      have later := first_le opens (((List.take_sublist stop _).drop c).subset inside)
      rw [eq_of_orderKey (le_antisymm later least)]

/-! ## Positions -/

@[simp] theorem length_positions {n : Nat} (indices : List (Fin n)) : (positions indices).length = indices.length :=
  List.length_map _

theorem position_injective (n : Nat) : Function.Injective fun idx : Fin n => (idx.val : Int) := by
  intro a b same
  simp only at same
  omega

theorem positions_injective {n : Nat} {a b : List (Fin n)} (same : positions a = positions b) : a = b :=
  (position_injective n).list_map same

@[simp] theorem mem_positions {n : Nat} {idx : Fin n} {indices : List (Fin n)} :
    (idx.val : Int) ∈ positions indices ↔ idx ∈ indices :=
  List.mem_map_of_injective (position_injective n)

theorem nodup_positions {n : Nat} {indices : List (Fin n)} (nodup : indices.Nodup) : (positions indices).Nodup :=
  nodup.map (position_injective n)

theorem mapM_position? {n : Nat} (indices : List (Fin n)) :
    (positions indices).mapM (position? n) = some indices := by
  induction indices with
  | nil => rfl
  | cons idx indices ih =>
      have place : position? n idx.val = some idx := by
        have inside : 0 ≤ (idx.val : Int) ∧ (idx.val : Int) < n := by omega
        rw [position?, dif_pos inside]
        rfl
      have shape : positions (idx :: indices) = (idx.val : Int) :: positions indices := rfl
      rw [shape, List.mapM_cons, place, ih]
      rfl

/-! ## What has ended -/

namespace Plan

variable (p : Plan)

/-- `test_start.timestamp() - embargo_seconds` -/
def purge (testStart : Civil) : Double := (timestamp testStart).sub (Double.round p.embargoSeconds)

/-- The rows that a fold trains on. -/
def trains (cursor : Nat) (first : Fin p.rows.length) : List (Fin p.rows.length) :=
  ((ordered p.rows).take cursor).filter (ended (p.purge (p.rows.get first).decision))

variable {p}

variable (finite : (Double.round p.embargoSeconds).isFinite = true)
include finite

theorem purgeBefore_eq (testStart : Civil) : purgeBefore testStart p.embargoSeconds = .ok (p.purge testStart) := by
  simp [purgeBefore, PyValue.toFloat, finite, purge]

theorem ended_iff {testStart : Civil} {idx : Fin p.rows.length} : ended (p.purge testStart) idx = true ↔
    (timestamp (p.rows.get idx).labelEnd).value < (p.purge testStart).value := by
  have left := Double.isNan_eq_false (isFinite_timestamp (p.rows.get idx).labelEnd)
  have right := Double.isNan_sub (isFinite_timestamp testStart) finite
  simp only [ended, Double.lt, purge, left, right, Bool.not_false, Bool.true_and]
  exact decide_eq_true_iff

/-- What has ended before a fold has ended before a later one. -/
theorem ended_mono {a b : Civil} (le : orderKey a ≤ orderKey b) {idx : Fin p.rows.length}
    (past : ended (p.purge a) idx = true) : ended (p.purge b) idx = true := by
  rw [ended_iff finite] at past ⊢
  have micros : toMicros a ≤ toMicros b := by
    by_contra more
    exact absurd (toMicros_lt_iff.mp (not_le.mp more)) le.not_gt
  exact past.trans_le (Double.sub_mono (isFinite_timestamp a) (isFinite_timestamp b) finite (timestamp_mono micros))

/-- What has ended before a fold was decided before it. -/
theorem before_of_ended {testStart : Civil} {idx : Fin p.rows.length}
    (past : ended (p.purge testStart) idx = true) : orderKey (p.rows.get idx).decision < orderKey testStart := by
  have nonneg : 0 ≤ (Double.round (p.embargoSeconds : ℚ)).value := by
    rw [← Double.value_round_zero]
    exact Double.value_round_mono (Nat.cast_nonneg _)
  have below := ((ended_iff finite).mp past).trans_le (Double.sub_le (isFinite_timestamp testStart) finite nonneg)
  have labelled : toMicros (p.rows.get idx).labelEnd < toMicros testStart := by
    by_contra notLess
    exact absurd (timestamp_mono (not_lt.mp notLess)) (not_le.mpr below)
  exact (p.rows.get idx).later.trans (toMicros_lt_iff.mp labelled)

/-- A later fold trains on no fewer rows. -/
theorem trains_mono {c d : Nat} {first next : Fin p.rows.length} (le : c ≤ d)
    (order : orderKey (p.rows.get first).decision ≤ orderKey (p.rows.get next).decision) :
    (p.trains c first).length ≤ (p.trains d next).length := by
  have further : (p.trains c first).Sublist
      (((ordered p.rows).take d).filter (ended (p.purge (p.rows.get first).decision))) :=
    (List.take_sublist_take_left le).filter _
  have grows (idx : Fin p.rows.length) : ended (p.purge (p.rows.get first).decision) idx = true →
      ended (p.purge (p.rows.get next).decision) idx = true := ended_mono finite order
  have later := List.monotone_filter_right ((ordered p.rows).take d) grows
  exact (further.trans later).length_le

omit finite

/-! ## The plan -/

/-- What has been checked when the first test position is found. -/
structure Ready (p : Plan) (rows : List Observation) : Prop where
  dated : rows.mapM validateObservation = .ok p.rows
  splits : 1 ≤ p.nSplits
  minTrain : 1 ≤ p.minTrainSize
  finite : (Double.round p.embargoSeconds).isFinite = true
  found : ∃ first, (ordered p.rows)[p.firstPosition]? = some first ∧
    p.minTrainSize ≤ (p.trains p.firstPosition first).length

end Plan

theorem atLeast_eq_ok {least : Int} {value : PyValue} {message : Text} {n : Nat}
    (ok : atLeast least value message = .ok n) : ∃ i : Int, value = .int i ∧ least ≤ i ∧ n = i.toNat := by
  unfold atLeast at ok
  split at ok
  · split at ok
    · exact ⟨_, rfl, ‹_›, (Except.ok.inj ok).symm⟩
    · cases ok
  · cases ok

theorem toFloat_natCast {n : Nat} {x : Double} (ok : PyValue.toFloat (.int n) = .ok x) :
    (Double.round (n : ℚ)).isFinite = true ∧ x = Double.round n := by
  simp only [PyValue.toFloat, Int.cast_natCast] at ok
  split at ok
  · exact ⟨‹_›, (Except.ok.inj ok).symm⟩
  · cases ok

theorem firstTestPosition_cases {minTrain embargo first : Nat} {places : List (Fin rows.length × Nat)}
    (found : firstTestPosition rows minTrain embargo places = .ok (some first)) :
    ∃ idx, (idx, first) ∈ places ∧ (Double.round (embargo : ℚ)).isFinite = true ∧
      minTrain ≤ (((ordered rows).take first).filter
        (ended ((timestamp (rows.get idx).decision).sub (Double.round embargo)))).length := by
  induction places with
  | nil => cases found
  | cons place places ih =>
      obtain ⟨idx, position⟩ := place
      simp only [firstTestPosition, Py.bind_eq_ok, purgeBefore, Py.pure_eq_ok, Except.ok.injEq] at found
      obtain ⟨_, ⟨seconds, float, rfl⟩, found⟩ := found
      obtain ⟨finite, rfl⟩ := toFloat_natCast float
      split at found
      · rename_i enough
        obtain rfl : position = first := by simpa using found
        exact ⟨idx, .head _, finite, enough⟩
      · obtain ⟨other, member, rest⟩ := ih found
        exact ⟨other, .tail _ member, rest⟩

theorem plan_cases {rows : List Observation} {nSplits minTrainSize embargoSeconds : PyValue} {p : Plan}
    (found : plan rows nSplits minTrainSize embargoSeconds = .ok p) : p.Ready rows := by
  simp only [plan, Py.bind_eq_ok, orRaise_eq_ok, Py.pure_eq_ok, Except.ok.injEq] at found
  obtain ⟨splits, someSplits, minTrain, someTrain, embargo, -, -, -, dated, valid, _, search, first, rfl, rfl⟩ :=
    found
  obtain ⟨splits', -, least, rfl⟩ := atLeast_eq_ok someSplits
  obtain ⟨train', -, least', rfl⟩ := atLeast_eq_ok someTrain
  obtain ⟨idx, member, finite, enough⟩ := firstTestPosition_cases search
  have place := List.mem_zipIdx_iff_getElem?.mp (List.mem_of_mem_drop member)
  exact ⟨valid, by simp only; omega, by simp only; omega, finite, idx, place, enough⟩

namespace Plan

variable (p : Plan)

/-! ## Borders -/

/-- Where a fold starts. -/
def border (fold : Nat) : Nat :=
  p.firstPosition + p.remaining / p.actualSplits * fold + min fold (p.remaining % p.actualSplits)

/-- The rows that a fold tests. -/
def tests (fold : Nat) : List (Fin p.rows.length) :=
  ((ordered p.rows).take (p.border (fold + 1))).drop (p.border fold)

/-- The split of a fold with its first row. -/
def foldSplit (fold : Nat) (first : Fin p.rows.length) : PurgedSplit :=
  p.split (p.tests fold) (p.rows.get first).decision (p.purge (p.rows.get first).decision) (p.border fold)

variable {p}

theorem border_succ (fold : Nat) : p.border (fold + 1) = p.border fold + p.size fold := by
  unfold border size
  rw [Nat.mul_add, Nat.mul_one]
  split <;> omega

theorem border_mono {fold later : Nat} (le : fold ≤ later) : p.border fold ≤ p.border later := by
  have products := Nat.mul_le_mul_left (p.remaining / p.actualSplits) le
  unfold border
  omega

section

variable {rows : List Observation} (ready : p.Ready rows)
include ready

theorem Ready.first_lt : p.firstPosition < p.rows.length := by
  obtain ⟨first, place, -⟩ := ready.found
  obtain ⟨inside, -⟩ := List.getElem?_eq_some_iff.mp place
  rwa [length_ordered] at inside

theorem Ready.actual_pos : 0 < p.actualSplits := by
  have first := ready.first_lt
  have some := ready.splits
  unfold actualSplits remaining
  omega

theorem Ready.size_pos (fold : Nat) : 0 < p.size fold := by
  have whole : 1 ≤ p.remaining / p.actualSplits :=
    (Nat.one_le_div_iff ready.actual_pos).mpr (Nat.min_le_right _ _)
  unfold size
  omega

/-- The last fold ends with the observations. -/
theorem Ready.border_actual : p.border p.actualSplits = p.rows.length := by
  have first := ready.first_lt
  have less := Nat.mod_lt p.remaining ready.actual_pos
  have all := Nat.div_add_mod' p.remaining p.actualSplits
  have rest : p.remaining = p.rows.length - p.firstPosition := rfl
  unfold border
  omega

theorem Ready.border_lt {fold : Nat} (inside : fold < p.actualSplits) : p.border fold < p.rows.length := by
  have step := p.border_succ fold
  have some := ready.size_pos fold
  have last := border_mono (p := p) inside
  rw [ready.border_actual] at last
  simp only [Nat.succ_eq_add_one] at last
  omega

/-- No fold falls below the minimum. -/
theorem Ready.enough {fold : Nat} {first : Fin p.rows.length}
    (opens : (ordered p.rows)[p.border fold]? = some first) :
    p.minTrainSize ≤ (p.trains (p.border fold) first).length := by
  obtain ⟨start, place, least⟩ := ready.found
  have later : p.firstPosition ≤ p.border fold := by
    unfold border
    omega
  have behind : first ∈ (ordered p.rows).drop p.firstPosition := by
    apply List.mem_of_getElem? (i := p.border fold - p.firstPosition)
    rw [List.getElem?_drop, Nat.add_sub_cancel' later]
    exact opens
  exact least.trans (trains_mono ready.finite later (first_le place behind))

end

/-! ## Folds -/

/-- The splits from a fold on. -/
inductive Folds (p : Plan) : Nat → List PurgedSplit → Prop
  | done : Folds p p.actualSplits []
  | fold {fold : Nat} {first : Fin p.rows.length} {splits : List PurgedSplit} (inside : fold < p.actualSplits)
      (opens : (ordered p.rows)[p.border fold]? = some first) (rest : Folds p (fold + 1) splits) :
      Folds p fold (p.foldSplit fold first :: splits)

theorem Ready.splitsFrom {rows : List Observation} (ready : p.Ready rows) {fold count : Nat}
    (all : fold + count = p.actualSplits) :
    ∃ splits, p.splitsFrom (List.range' fold count) (p.border fold) = .ok splits ∧ p.Folds fold splits := by
  induction count generalizing fold with
  | zero =>
      obtain rfl : fold = p.actualSplits := all
      exact ⟨[], rfl, .done⟩
  | succ count ih =>
      have inside : fold < p.actualSplits := by omega
      have place := ready.border_lt inside
      rw [← length_ordered] at place
      have opens := List.getElem?_eq_getElem place
      obtain ⟨splits, rest, folds⟩ := ih (show fold + 1 + count = p.actualSplits by omega)
      have start := testStart?_slice opens (Nat.lt_add_of_pos_right (ready.size_pos fold))
      have long := ready.enough opens
      refine ⟨_, ?_, .fold inside opens folds⟩
      rw [border_succ] at rest
      simp only [List.range'_succ, Plan.splitsFrom, start, purgeBefore_eq ready.finite, Py.ok_bind]
      have notShort : ¬ (p.trains (p.border fold) (ordered p.rows)[p.border fold]).length < p.minTrainSize :=
        not_lt.mpr long
      simp only [split, length_positions]
      unfold trains at notShort
      simp only [notShort, decide_false, guardNot_false, Py.ok_bind, rest]
      simp only [foldSplit, split, tests, border_succ]
      rfl

theorem Folds.fold_le {fold : Nat} {splits : List PurgedSplit} (folds : p.Folds fold splits) :
    fold ≤ p.actualSplits := by
  cases folds with
  | done => exact le_rfl
  | fold inside => exact inside.le

/-- A split of the folds is that of some fold. -/
theorem Folds.of_mem {fold : Nat} {splits : List PurgedSplit} (folds : p.Folds fold splits) {split : PurgedSplit}
    (member : split ∈ splits) : ∃ k < p.actualSplits, ∃ first, (ordered p.rows)[p.border k]? = some first ∧
      split = p.foldSplit k first := by
  induction folds with
  | done => cases member
  | fold inside opens rest ih =>
      rcases List.mem_cons.mp member with rfl | later
      · exact ⟨_, inside, _, opens, rfl⟩
      · exact ih later

/-- Each fold has its split. -/
theorem Folds.mem {fold : Nat} {splits : List PurgedSplit} (folds : p.Folds fold splits) {k : Nat}
    {first : Fin p.rows.length} (le : fold ≤ k) (inside : k < p.actualSplits)
    (opens : (ordered p.rows)[p.border k]? = some first) : p.foldSplit k first ∈ splits := by
  induction folds with
  | done => omega
  | @fold current other splits here place rest ih =>
      rcases le.eq_or_lt with rfl | later
      · obtain rfl : other = first := Option.some.inj (place.symm.trans opens)
        exact .head _
      · exact .tail _ (ih later)

/-- The folds cover what comes behind their border. -/
theorem Folds.cover {rows : List Observation} (ready : p.Ready rows) {fold : Nat} {splits : List PurgedSplit}
    (folds : p.Folds fold splits) :
    splits.flatMap PurgedSplit.testIndices = positions ((ordered p.rows).drop (p.border fold)) := by
  induction folds with
  | done =>
      have long : (ordered p.rows).length ≤ p.rows.length := (length_ordered _).le
      rw [ready.border_actual, List.drop_of_length_le long]
      rfl
  | @fold fold first splits inside opens rest ih =>
      have le := border_mono (p := p) (Nat.le_add_right fold 1)
      have cut : (ordered p.rows).drop (p.border fold) =
          p.tests fold ++ (ordered p.rows).drop (p.border (fold + 1)) := by
        rw [tests, List.drop_take]
        obtain ⟨more, step⟩ := Nat.exists_eq_add_of_le le
        rw [step, Nat.add_sub_cancel_left, ← List.drop_drop, List.take_append_drop]
      rw [List.flatMap_cons, ih, cut]
      exact (List.map_append ..).symm

/-! ## Validation -/

theorem forM_eq_ok {α : Type} {check : α → Py Unit} {items : List α} (each : ∀ a ∈ items, check a = .ok ()) :
    forM items check = .ok () := by
  induction items with
  | nil => rfl
  | cons a items ih =>
      rw [List.forM_cons, each a (.head _), Py.ok_bind]
      exact ih fun b member => each b (.tail _ member)

theorem utc_stamp (c : Civil) : utc (stamp c) = .ok c := by
  simp only [utc, strip_stamp, stamp_ne_nil, decide_false, guardNot_false, Py.ok_bind, fromIsoformat_stamp,
    orRaise_some, toUtc_zero]

theorem mem_tests {fold : Nat} {first : Fin p.rows.length} (more : p.border fold < p.border (fold + 1))
    (opens : (ordered p.rows)[p.border fold]? = some first) : first ∈ p.tests fold := by
  apply List.mem_of_getElem? (i := 0)
  rw [tests, List.getElem?_drop, List.getElem?_take_of_lt (by omega)]
  exact opens

theorem tests_subset (fold : Nat) : ∀ idx ∈ p.tests fold, idx ∈ (ordered p.rows).drop (p.border fold) := by
  intro idx member
  exact ((List.take_sublist _ _).drop _).subset member

theorem nodup_tests (fold : Nat) : (p.tests fold).Nodup :=
  (nodup_ordered p.rows).sublist ((List.drop_sublist _ _).trans (List.take_sublist _ _))

/-- What comes before a border does not come behind it. -/
theorem not_mem_drop {c : Nat} {idx : Fin p.rows.length} (past : idx ∈ (ordered p.rows).take c) :
    idx ∉ (ordered p.rows).drop c := by
  intro behind
  exact (nodup_ordered p.rows).rel_of_mem_take_of_mem_drop past behind rfl

/-- A split that passes each check is accepted. -/
theorem checkSplit_of {rows : List Dated} {seen : List Int} {split : PurgedSplit} {embargo : Nat}
    {train test : List (Fin rows.length)} {start : Civil} {purge : Double}
    (whole : atLeast 0 split.embargoSeconds (txt "purged split embargo must be non-negative") = .ok embargo)
    (trainSome : split.trainIndices ≠ []) (testSome : split.testIndices ≠ [])
    (trainNodup : split.trainIndices.Nodup) (testNodup : split.testIndices.Nodup)
    (apart : split.trainIndices.Disjoint split.testIndices)
    (trainRead : split.trainIndices.mapM (position? rows.length) = some train)
    (testRead : split.testIndices.mapM (position? rows.length) = some test)
    (fresh : split.testIndices.Disjoint seen) (declared : utc split.testStartTs = .ok start)
    (observed : testStart? rows test = some start) (purged : purgeBefore start embargo = .ok purge)
    (trained : ∀ idx ∈ train, checkTrainingRow rows start purge idx = .ok ())
    (tested : ∀ idx ∈ test, orderKey start ≤ orderKey (rows.get idx).decision) :
    checkSplit rows seen split = .ok () := by
  have overlap : (split.trainIndices.any fun index => decide (index ∈ split.testIndices)) = false := by
    apply List.any_eq_false.mpr
    intro index member
    simpa using apart member
  have again : (split.testIndices.any fun index => decide (index ∈ seen)) = false := by
    apply List.any_eq_false.mpr
    intro index member
    simpa using fresh member
  have early : (test.any fun idx => before (rows.get idx).decision start) = false := by
    apply List.any_eq_false.mpr
    intro idx member
    simpa [before] using tested idx member
  have filled : (split.trainIndices.isEmpty || split.testIndices.isEmpty) = false := by
    simp [trainSome, testSome]
  rw [checkSplit, whole, Py.ok_bind, filled, guardNot_false, Py.ok_bind, decide_eq_true trainNodup, Bool.not_true,
    guardNot_false, Py.ok_bind, decide_eq_true testNodup, Bool.not_true, guardNot_false, Py.ok_bind, overlap,
    guardNot_false, Py.ok_bind, trainRead, orRaise_some, Py.ok_bind, testRead, orRaise_some, Py.ok_bind, again,
    guardNot_false, Py.ok_bind, declared, Py.ok_bind, observed, orRaise_some, Py.ok_bind, bne_self_eq_false,
    guardNot_false, Py.ok_bind, purged, Py.ok_bind, forM_eq_ok trained, Py.ok_bind, early, guardNot_false]

section

variable {rows : List Observation} (ready : p.Ready rows)
include ready

theorem Ready.checkTrainingRow {cursor : Nat} {first idx : Fin p.rows.length}
    (member : idx ∈ p.trains cursor first) :
    checkTrainingRow p.rows (p.rows.get first).decision (p.purge (p.rows.get first).decision) idx = .ok () := by
  have past := (List.mem_filter.mp member).2
  have early := before_of_ended ready.finite past
  have below := (ended_iff ready.finite).mp past
  have notLe : (p.purge (p.rows.get first).decision).le (timestamp (p.rows.get idx).labelEnd) = false := by
    rw [Double.le, decide_eq_false (not_le.mpr below), Bool.and_false]
  simp only [Challengers.checkTrainingRow, before, early, decide_true, Bool.not_true, guardNot_false, Py.ok_bind,
    notLe]

/-- The validator accepts the split of a fold behind test rows that are not its own. -/
theorem Ready.checkSplit {fold : Nat} {first : Fin p.rows.length} {seen : List Int}
    (opens : (ordered p.rows)[p.border fold]? = some first)
    (fresh : ∀ idx ∈ (ordered p.rows).drop (p.border fold), (idx.val : Int) ∉ seen) :
    checkSplit p.rows seen (p.foldSplit fold first) = .ok () := by
  have more : p.border fold < p.border (fold + 1) := by
    have some := ready.size_pos fold
    rw [border_succ]
    omega
  have long := ready.minTrain.trans (ready.enough opens)
  have embargo : atLeast 0 (.int p.embargoSeconds) (txt "purged split embargo must be non-negative") =
      .ok p.embargoSeconds := by
    simp [atLeast]
  refine checkSplit_of embargo ?trainSome ?testSome ?trainNodup ?testNodup ?apart (mapM_position? _)
    (mapM_position? (p.tests fold)) ?fresh (utc_stamp _) (testStart?_slice opens more)
    (purgeBefore_eq ready.finite _) ?trained ?tested
  case trainSome =>
    apply List.ne_nil_of_length_pos
    exact (length_positions _).trans_ge long
  case testSome =>
    have inside := mem_positions.mpr (mem_tests more opens)
    exact List.ne_nil_of_mem inside
  case trainNodup =>
    apply nodup_positions
    exact ((nodup_ordered p.rows).sublist (List.take_sublist _ _)).filter _
  case testNodup => exact nodup_positions (nodup_tests fold)
  case apart =>
    intro index train test
    obtain ⟨idx, member, rfl⟩ := List.mem_map.mp train
    have behind := tests_subset fold idx (mem_positions.mp test)
    exact not_mem_drop (List.mem_filter.mp member).1 behind
  case fresh =>
    intro index test again
    obtain ⟨idx, member, rfl⟩ := List.mem_map.mp test
    exact fresh idx (tests_subset fold idx member) again
  case trained =>
    intro idx member
    exact ready.checkTrainingRow member
  case tested =>
    intro idx member
    exact first_le opens (tests_subset fold idx member)

/-- The validator accepts the splits of the folds. -/
theorem Ready.checkSplits {fold : Nat} {splits : List PurgedSplit} {seen : List Int} (folds : p.Folds fold splits)
    (fresh : ∀ idx ∈ (ordered p.rows).drop (p.border fold), (idx.val : Int) ∉ seen) :
    checkSplits p.rows seen splits = .ok () := by
  induction folds generalizing seen with
  | done => rfl
  | @fold fold first splits inside opens rest ih =>
      have le := border_mono (p := p) (Nat.le_add_right fold 1)
      rw [Challengers.checkSplits, ready.checkSplit opens fresh, Py.ok_bind]
      apply ih
      intro idx member
      rw [List.mem_append, not_or]
      constructor
      · exact fresh idx ((List.drop_sublist_drop_left _ le).subset member)
      · have shape : (p.foldSplit fold first).testIndices = positions (p.tests fold) := rfl
        rw [shape, mem_positions]
        intro test
        exact not_mem_drop (List.mem_of_mem_drop test) member

end

end Plan

end Senex.Challengers
