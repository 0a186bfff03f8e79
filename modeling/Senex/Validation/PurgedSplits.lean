import Mathlib.Data.List.GetD
import Senex.Validation.PurgedExact

/-! # The splits of the purged cross-validation

Each group is a stretch of the time order and the groups are all samples, so that a fold
has no gap and its training set is what it should be if and only if no sample is in its
tail.  The groups of a combination may have gaps between them.  A sample is tested by as
many paths as there are choices of the other groups.
-/

namespace Senex.PurgedCv

variable {K : Type} [Field K] [LinearOrder K]

/-! ## Groups -/

section
variable (times : List (Epoch K)) {count : Nat}

theorem sampleOrder_perm : (sampleOrder times).Perm (List.range times.length) := by
  unfold sampleOrder
  split
  · exact sortedBy_perm _ _
  · exact .refl _

theorem flatten_groupIndices (some : 0 < count) : (groupIndices times count).flatten = sampleOrder times := by
  have order : (List.range times.length).map (fun place => (sampleOrder times).getD place 0) = sampleOrder times := by
    have length : (sampleOrder times).length = times.length := by
      rw [(sampleOrder_perm times).length_eq, List.length_range]
    refine List.ext_getElem (by simp [length]) fun place first second => ?_
    rw [List.getElem_map, List.getElem_range, List.getD_eq_getElem _ _ second]
  rw [groupIndices, arraySplit_map, order, flatten_arraySplit _ some]

theorem length_groupIndices (some : 0 < count) : (groupIndices times count).length = count := by
  rw [groupIndices, List.length_map, length_arraySplit _ some]

theorem mem_groups (some : 0 < count) {i : Nat} :
    (∃ group ∈ groupIndices times count, i ∈ group) ↔ i < times.length := by
  rw [← List.mem_flatten, flatten_groupIndices times some, (sampleOrder_perm times).mem_iff, List.mem_range]

/-- A sample is in one group only. -/
theorem groups_disjoint (some : 0 < count) : (groupIndices times count).Pairwise List.Disjoint := by
  have nodup : (groupIndices times count).flatten.Nodup := by
    rw [flatten_groupIndices times some]
    exact (sampleOrder_perm times).nodup_iff.mpr List.nodup_range
  exact (List.nodup_flatten.mp nodup).2

theorem stretch_of_mem (some : 0 < count) (timed : times.any Epoch.isFinite = true) {group : List Nat}
    (member : group ∈ groupIndices times count) : Stretch times group := by
  have sorted : (groupIndices times count).flatten.Pairwise
      fun i j => (timeAt times i).place ≤ (timeAt times j).place := by
    rw [flatten_groupIndices times some, sampleOrder, if_pos timed]
    exact sorted_sortedBy _
  have apart := (List.pairwise_flatten.mp sorted).2
  intro i inside other
  obtain ⟨own, ownMember, inOwn⟩ := (mem_groups times some).mpr inside
  have different : own ≠ group := fun same => other (same ▸ inOwn)
  obtain ⟨a, a_lt, rfl⟩ := List.getElem_of_mem ownMember
  obtain ⟨b, b_lt, rfl⟩ := List.getElem_of_mem member
  rcases Nat.lt_trichotomy a b with less | same | more
  · exact .inl fun j inGroup => List.pairwise_iff_getElem.mp apart a b a_lt b_lt less i inOwn j inGroup
  · exact absurd (by simp [same]) different
  · exact .inr fun j inGroup => List.pairwise_iff_getElem.mp apart b a b_lt a_lt more j inGroup i inOwn

omit [Field K] [LinearOrder K] in
theorem any_of_timed {test : List Nat} (timed : Timed times test) : times.any Epoch.isFinite = true := by
  obtain ⟨j, -, finite⟩ := timed
  obtain ⟨s, here⟩ := Epoch.isFinite_iff.mp finite
  rw [timeAt, List.getD_eq_getElem?_getD] at here
  refine List.any_eq_true.mpr ⟨.seconds s, ?_, rfl⟩
  cases found : times[j]? with
  | none => simp [found] at here
  | some time =>
      rw [found, Option.getD_some] at here
      exact here ▸ List.mem_of_getElem? found

end

/-! ## Splits -/

/-- The training set is the complement of the test samples and of what is to be left out for them, and so
has no test sample. -/
structure Purged (times : List (Epoch K)) (purge embargo : K) (train test : List Nat) (blocks : List (List Nat)) :
    Prop where
  complement : Complement times purge embargo train test blocks
  disjoint : train.Disjoint test

theorem disjoint_trainIndices (n : Nat) (test purged : List Nat) : (trainIndices n test purged).Disjoint test :=
  fun _ trained tested => (mem_trainIndices.mp trained).2.1 tested

section
variable [IsStrictOrderedRing K] {times : List (Epoch K)}

/-- There is no gap in a stretch. -/
theorem noGap_of_stretch {test : List Nat} {purge embargo : K} (purge_nonneg : 0 ≤ purge)
    (stretch : Timed times test → Stretch times test) : NoGap times purge embargo test := by
  have longer : 0 ≤ max purge embargo := purge_nonneg.trans (le_max_left purge embargo)
  intro timed i inside other t here j jMember k kMember _ jLe kLe
  rcases stretch timed i inside other with early | late
  · left
    have place := early j jMember
    rw [here] at place
    have forth := Epoch.plus_le_plus (Epoch.le_iff.mp jLe).1 longer
    rw [Epoch.plus_zero] at forth
    exact Epoch.le_trans' (Epoch.le_iff.mpr ⟨rfl, (Epoch.le_iff.mp jLe).1, place⟩) forth
  · right
    have place := late k kMember
    rw [here] at place
    have back := Epoch.plus_le_plus (Epoch.le_iff.mp kLe).2.1 (neg_nonpos.mpr purge_nonneg)
    rw [Epoch.plus_zero] at back
    exact Epoch.le_trans' back (Epoch.le_iff.mpr ⟨(Epoch.le_iff.mp kLe).2.1, rfl, place⟩)

theorem fold_purged_iff (cv : PurgedKFold K) (foldId : Nat) {test : List Nat}
    (member : test ∈ groupIndices times cv.nSplits) :
    Purged times cv.purgeTdSeconds cv.embargoTdSeconds (cv.fold times foldId test).trainIndices test [test] ↔
      NoTail times cv.purgeTdSeconds cv.embargoTdSeconds test := by
  have some : 0 < cv.nSplits := Nat.lt_of_lt_of_le Nat.two_pos cv.two_le
  have stretch (timed : Timed times test) : Stretch times test :=
    stretch_of_mem times some (any_of_timed times timed) member
  have noGap : NoGap times cv.purgeTdSeconds cv.embargoTdSeconds test := noGap_of_stretch cv.purge_nonneg stretch
  have complement := @complement_iff _ _ _ _ times test _ _ [test] (by simp)
    (fun j tested => (mem_groups times some).mp ⟨test, member, tested⟩)
    (fun timed block only => List.mem_singleton.mp only ▸ stretch timed) cv.purge_nonneg cv.embargo_nonneg
  constructor
  · exact fun purged => (complement.mp purged.complement).1
  · exact fun noTail => ⟨complement.mpr ⟨noTail, noGap⟩, disjoint_trainIndices _ _ _⟩

end

namespace CombinatorialPurgedCV

variable (cv : CombinatorialPurgedCV K) (times : List (Epoch K))

/-- The samples of a group. -/
def group (g : Nat) : List Nat := (groupIndices times cv.nGroups).getD g []

theorem nGroups_pos : 0 < cv.nGroups := Nat.lt_of_lt_of_le Nat.two_pos cv.two_le

variable {cv times}

theorem mem_testIndices {pathId : Nat} {combo : List Nat} {i : Nat} :
    i ∈ (cv.path times pathId combo).testIndices ↔ ∃ g ∈ combo, i ∈ cv.group times g := by
  simp [path, group]

theorem group_mem {g : Nat} (within : g < cv.nGroups) : cv.group times g ∈ groupIndices times cv.nGroups := by
  have length := length_groupIndices times cv.nGroups_pos
  rw [group, List.getD_eq_getElem _ _ (by omega)]
  exact List.getElem_mem _

/-- The group of a sample. -/
theorem exists_group {i : Nat} (inside : i < times.length) :
    ∃ g < cv.nGroups, ∀ g' < cv.nGroups, i ∈ cv.group times g' ↔ g' = g := by
  have length := length_groupIndices times cv.nGroups_pos
  obtain ⟨own, member, inOwn⟩ := (mem_groups times cv.nGroups_pos).mpr inside
  obtain ⟨g, g_lt, rfl⟩ := List.getElem_of_mem member
  refine ⟨g, by omega, fun g' within => ?_⟩
  rw [group, List.getD_eq_getElem _ _ (by omega)]
  constructor
  · intro inOther
    by_contra different
    have apart := List.pairwise_iff_getElem.mp (groups_disjoint times cv.nGroups_pos)
    rcases Nat.lt_or_gt_of_ne different with less | more
    · exact apart g' g (by omega) g_lt less inOther inOwn
    · exact apart g g' g_lt (by omega) more inOwn inOther
  · rintro rfl
    exact inOwn

theorem path_purged_iff [IsStrictOrderedRing K] (pathId : Nat) {combo : List Nat}
    (within : ∀ g ∈ combo, g < cv.nGroups) :
    Purged times cv.purgeTdSeconds cv.embargoTdSeconds (cv.path times pathId combo).trainIndices
        (cv.path times pathId combo).testIndices (combo.map (cv.group times)) ↔
      NoTail times cv.purgeTdSeconds cv.embargoTdSeconds (cv.path times pathId combo).testIndices ∧
        NoGap times cv.purgeTdSeconds cv.embargoTdSeconds (cv.path times pathId combo).testIndices := by
  have same (j : Nat) : j ∈ (cv.path times pathId combo).testIndices ↔
      ∃ block ∈ combo.map (cv.group times), j ∈ block := by
    rw [mem_testIndices]
    simp
  have inside (j : Nat) (tested : j ∈ (cv.path times pathId combo).testIndices) : j < times.length := by
    obtain ⟨g, member, inGroup⟩ := mem_testIndices.mp tested
    exact (mem_groups times cv.nGroups_pos).mp ⟨_, group_mem (within g member), inGroup⟩
  have complement := @complement_iff _ _ _ _ times _ _ _ _ same inside (fun timed block member => by
    obtain ⟨g, chosen, rfl⟩ := List.mem_map.mp member
    exact stretch_of_mem times cv.nGroups_pos (any_of_timed times timed) (group_mem (within g chosen)))
    cv.purge_nonneg cv.embargo_nonneg
  constructor
  · exact fun purged => complement.mp purged.complement
  · exact fun both => ⟨complement.mpr both, disjoint_trainIndices _ _ _⟩

/-- The paths that test a sample are the combinations with its group. -/
theorem countP_tested {i : Nat} (inside : i < times.length) :
    ((combinations (List.range cv.nGroups) cv.nTestGroups).zipIdx.map fun combo =>
        cv.path times combo.2 combo.1).countP (fun path => i ∈ path.testIndices) =
      (cv.nGroups - 1).choose (cv.nTestGroups - 1) := by
  obtain ⟨g, within, own⟩ := @exists_group _ _ _ cv times i inside
  have tested : ∀ combo ∈ (combinations (List.range cv.nGroups) cv.nTestGroups).zipIdx,
      i ∈ (cv.path times combo.2 combo.1).testIndices ↔ g ∈ combo.1 := by
    intro combo member
    have sub := sublist_of_mem_combinations (List.fst_mem_of_mem_zipIdx member)
    rw [mem_testIndices]
    constructor
    · rintro ⟨g', chosen, inGroup⟩
      exact (own g' (List.mem_range.mp (sub.subset chosen))).mp inGroup ▸ chosen
    · exact fun chosen => ⟨g, chosen, (own g within).mpr rfl⟩
  have more : cv.nTestGroups - 1 + 1 = cv.nTestGroups := Nat.sub_add_cancel cv.some
  rw [List.countP_map]
  calc _ = (combinations (List.range cv.nGroups) cv.nTestGroups).zipIdx.countP fun combo => decide (g ∈ combo.1) :=
        List.countP_congr (by simpa using tested)
    _ = (((combinations (List.range cv.nGroups) cv.nTestGroups).zipIdx.map Prod.fst).countP
        fun combo => decide (g ∈ combo)) := by
        rw [List.countP_map]
        rfl
    _ = (combinations (List.range cv.nGroups) (cv.nTestGroups - 1 + 1)).countP fun combo => decide (g ∈ combo) := by
        rw [List.zipIdx_map_fst, more]
    _ = (cv.nGroups - 1).choose (cv.nTestGroups - 1) := by
        rw [countP_combinations List.nodup_range (List.mem_range.mpr within), List.length_range]

end CombinatorialPurgedCV

section
variable [IsStrictOrderedRing K]

end

/-! ## Three samples -/

/-- Two folds with a purge and an embargo of a quarter of an hour. -/
def twoFolds : PurgedKFold ℚ where
  nSplits := 2
  purgeTdSeconds := 900
  embargoTdSeconds := 900
  two_le := by decide
  purge_nonneg := by norm_num
  embargo_nonneg := by norm_num

/-- Two of three groups. -/
def twoOfThree : CombinatorialPurgedCV ℚ where
  nGroups := 3
  nTestGroups := 2
  purgeTdSeconds := 900
  embargoTdSeconds := 900
  two_le := by decide
  some := by decide
  notAll := by decide
  purge_nonneg := by norm_num
  embargo_nonneg := by norm_num

/-- Samples so many seconds apart. -/
def apart (seconds : ℚ) : List (Epoch ℚ) := [.seconds 0, .seconds seconds, .seconds (2 * seconds)]

end Senex.PurgedCv
