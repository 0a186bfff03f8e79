import Mathlib.Algebra.Order.Group.Abs
import Mathlib.Data.Finset.Max
import Mathlib.Tactic.Linarith
import Senex.Validation.PurgedCv

/-! # What the purge leaves out

A training set should leave out the test samples, the samples within the purge distance of
one of them and those within the embargo after a block of them, and nothing else.
The mask takes everything from the first test time to the last one instead, and as much as
both distances together after it.
-/

namespace Senex.PurgedCv

/-! ## Times -/

namespace Epoch

section
variable {K : Type}

theorem isFinite_iff {a : Epoch K} : a.isFinite = true ↔ ∃ t, a = seconds t := by
  cases a <;> simp [isFinite]

variable [Field K]

theorem plus_plus (a : Epoch K) (d d' : K) : (a.plus d).plus d' = a.plus (d + d') := by
  cases a <;> simp [plus, add_assoc]

@[simp] theorem plus_zero (a : Epoch K) : a.plus 0 = a := by
  cases a <;> simp [plus]

theorem isNan_plus (a : Epoch K) (d : K) : (a.plus d).isNan = a.isNan := by
  cases a <;> rfl

end

variable {K : Type} [Field K] [LinearOrder K]

theorem le_iff {a b : Epoch K} : a.le b = true ↔ a.isNan = false ∧ b.isNan = false ∧ a.place ≤ b.place := by
  simp [le, and_assoc]

theorem le_trans' {a b c : Epoch K} (ab : a.le b = true) (bc : b.le c = true) : a.le c = true := by
  rw [le_iff] at ab bc ⊢
  exact ⟨ab.1, bc.2.1, ab.2.2.trans bc.2.2⟩

theorem le_of_not_le {a b : Epoch K} (number : a.isNan = false) (other : b.isNan = false)
    (not : ¬ a.le b = true) : b.le a = true := by
  rw [le_iff] at not ⊢
  refine ⟨other, number, ?_⟩
  by_contra less
  exact not ⟨number, other, (not_le.mp less).le⟩

@[simp] theorem seconds_le_seconds {s t : K} : (seconds s).le (seconds t) = true ↔ s ≤ t := by
  simp [le_iff, isNan, place, Prod.Lex.toLex_le_toLex]

theorem eq_seconds {b : Epoch K} {s t : K} (first : (seconds s).le b = true) (last : b.le (seconds t) = true) :
    ∃ u, b = seconds u ∧ s ≤ u ∧ u ≤ t := by
  cases b with
  | seconds u => exact ⟨u, rfl, seconds_le_seconds.mp first, seconds_le_seconds.mp last⟩
  | minusInf => simp [le_iff, place, Prod.Lex.toLex_le_toLex] at first
  | plusInf => simp [le_iff, place, Prod.Lex.toLex_le_toLex] at last
  | nan => simp [le_iff, isNan] at last

theorem eq_seconds_of_near {a : Epoch K} {d d' t : K} (low : (a.plus d).le (seconds t) = true)
    (high : (seconds t).le (a.plus d') = true) : ∃ s, a = seconds s ∧ s + d ≤ t ∧ t ≤ s + d' := by
  cases a with
  | seconds s => exact ⟨s, rfl, seconds_le_seconds.mp low, seconds_le_seconds.mp high⟩
  | minusInf => simp [plus, le_iff, place, Prod.Lex.toLex_le_toLex] at high
  | plusInf => simp [plus, le_iff, place, Prod.Lex.toLex_le_toLex] at low
  | nan => simp [plus, le_iff, isNan] at low

variable [IsStrictOrderedRing K]

theorem plus_mono {a b : Epoch K} (d : K) (le : a.le b = true) : (a.plus d).le (b.plus d) = true := by
  cases a <;> cases b <;> simp_all [plus, le_iff, isNan, place, Prod.Lex.toLex_le_toLex]

theorem plus_le_plus {a : Epoch K} {d d' : K} (number : a.isNan = false) (more : d ≤ d') :
    (a.plus d).le (a.plus d') = true := by
  cases a with
  | seconds t => exact seconds_le_seconds.mpr (add_le_add_right more t)
  | minusInf | plusInf => simp [plus, le_iff, isNan]
  | nan => exact Bool.noConfusion number

/-- The smaller of two times is early enough if and only if one of them is. -/
theorem fmin_plus_le {a b x : Epoch K} {d : K} :
    ((a.fmin b).plus d).le x = true ↔ (a.plus d).le x = true ∨ (b.plus d).le x = true := by
  unfold fmin
  split
  · rename_i first
    refine ⟨.inl, fun either => either.elim id fun early => ?_⟩
    rcases (Bool.or_eq_true _ _).mp first with nothing | le
    · have number := (le_iff.mp early).1
      rw [isNan_plus, nothing] at number
      exact Bool.noConfusion number
    · exact le_trans' (plus_mono d le) early
  · rename_i second
    refine ⟨.inr, fun either => either.elim (fun early => ?_) id⟩
    simp only [Bool.or_eq_true, not_or, Bool.not_eq_true] at second
    have number := (le_iff.mp early).1
    rw [isNan_plus] at number
    have le := le_of_not_le number second.1 (by simp [second.2])
    exact le_trans' (plus_mono d le) early

theorem le_fmax_plus {a b x : Epoch K} {d : K} :
    x.le ((a.fmax b).plus d) = true ↔ x.le (a.plus d) = true ∨ x.le (b.plus d) = true := by
  unfold fmax
  split
  · rename_i first
    refine ⟨.inl, fun either => either.elim id fun late => ?_⟩
    rcases (Bool.or_eq_true _ _).mp first with nothing | le
    · have number := (le_iff.mp late).2.1
      rw [isNan_plus, nothing] at number
      exact Bool.noConfusion number
    · exact le_trans' late (plus_mono d le)
  · rename_i second
    refine ⟨.inr, fun either => either.elim (fun late => ?_) id⟩
    simp only [Bool.or_eq_true, not_or, Bool.not_eq_true] at second
    have number := (le_iff.mp late).2.1
    rw [isNan_plus] at number
    have le := le_of_not_le second.1 number (by simp [second.2])
    exact le_trans' late (plus_mono d le)

end Epoch

variable {K : Type} [Field K] [LinearOrder K]

section
variable [IsStrictOrderedRing K]

theorem nanmin_plus_le {times : List (Epoch K)} {x : Epoch K} {d : K} :
    ((nanmin times).plus d).le x = true ↔ ∃ a ∈ times, (a.plus d).le x = true := by
  induction times with
  | nil => simp [nanmin, Epoch.plus, Epoch.le, Epoch.isNan]
  | cons a times ih =>
      rw [nanmin, List.foldr_cons, Epoch.fmin_plus_le, List.exists_mem_cons_iff]
      exact or_congr_right ih

theorem le_nanmax_plus {times : List (Epoch K)} {x : Epoch K} {d : K} :
    x.le ((nanmax times).plus d) = true ↔ ∃ a ∈ times, x.le (a.plus d) = true := by
  induction times with
  | nil => simp [nanmax, Epoch.plus, Epoch.le, Epoch.isNan]
  | cons a times ih =>
      rw [nanmax, List.foldr_cons, Epoch.le_fmax_plus, List.exists_mem_cons_iff]
      exact or_congr_right ih

theorem seconds_le_nanmax {times : List (Epoch K)} {s : K} (member : .seconds s ∈ times) :
    (Epoch.seconds s).le (nanmax times) = true := by
  rw [← Epoch.plus_zero (nanmax times), le_nanmax_plus]
  refine ⟨_, member, ?_⟩
  rw [Epoch.plus_zero]
  exact Epoch.seconds_le_seconds.mpr le_rfl

end

theorem nanmax_mem {times : List (Epoch K)} (number : (nanmax times).isNan = false) : nanmax times ∈ times := by
  induction times with
  | nil => exact Bool.noConfusion number
  | cons a times ih =>
      rw [nanmax, List.foldr_cons, Epoch.fmax] at number ⊢
      split at number
      · rename_i first
        rw [if_pos first]
        exact List.mem_cons_self
      · rename_i second
        rw [if_neg second]
        exact List.mem_cons_of_mem _ (ih number)

/-! ## The mask -/

/-- Whether there is a test time. -/
def Timed (times : List (Epoch K)) (test : List Nat) : Prop := ∃ j ∈ test, (timeAt times j).isFinite = true

theorem length_indexMask (n : Nat) (testIdx : List Nat) (mask : List Bool) :
    (indexMask n testIdx mask).length = mask.length := by
  induction testIdx generalizing mask with
  | nil => rfl
  | cons i testIdx ih =>
      rw [indexMask, ih]
      split <;> split <;> simp

theorem indexMask_iff {n : Nat} {testIdx : List Nat} (inside : ∀ j ∈ testIdx, j < n) {mask : List Bool}
    (length : mask.length = n) (i : Nat) :
    (indexMask n testIdx mask)[i]? = some true ↔
      mask[i]? = some true ∨ i < n ∧ ∃ j ∈ testIdx, i + 1 = j ∨ j + 1 = i := by
  induction testIdx generalizing mask with
  | nil => simp [indexMask]
  | cons j testIdx ih =>
      have first := inside j List.mem_cons_self
      have rest : ∀ k ∈ testIdx, k < n := fun k member => inside k (List.mem_cons_of_mem _ member)
      have marked : (if j + 1 < n then (if 0 < j then mask.set (j - 1) true else mask).set (j + 1) true
          else (if 0 < j then mask.set (j - 1) true else mask))[i]? = some true ↔
          mask[i]? = some true ∨ i < n ∧ (i + 1 = j ∨ j + 1 = i) := by
        clear ih
        split <;> split <;> grind
      rw [indexMask, ih rest (by split <;> split <;> simpa), marked, List.exists_mem_cons_iff, or_assoc]
      exact or_congr_right and_or_left.symm

theorem mem_whereTrue {mask : List Bool} {i : Nat} : i ∈ whereTrue mask ↔ mask[i]? = some true := by
  rw [whereTrue, List.mem_filter, List.mem_range, List.getD_eq_getElem?_getD]
  grind

theorem mem_trainIndices {n : Nat} {testIdx purged : List Nat} {i : Nat} :
    i ∈ trainIndices n testIdx purged ↔ i < n ∧ i ∉ testIdx ∧ i ∉ purged := by
  simp [trainIndices]

section
variable [IsStrictOrderedRing K] {times : List (Epoch K)} {test : List Nat} {purge embargo : K}

theorem mem_purged_of_timed (timed : Timed times test) {i : Nat} (inside : i < times.length) :
    i ∈ whereTrue (purgeMask times test purge embargo) ↔ ∃ t, timeAt times i = .seconds t ∧
      (∃ j ∈ test, ((timeAt times j).plus (-purge)).le (.seconds t) = true) ∧
      ∃ j ∈ test, (Epoch.seconds t).le ((timeAt times j).plus (purge + embargo)) = true := by
  obtain ⟨j, member, finite⟩ := timed
  have some : test.isEmpty = false := by
    rw [List.isEmpty_eq_false_iff]
    exact List.ne_nil_of_mem member
  have known : (test.map (timeAt times)).any Epoch.isFinite = true :=
    List.any_eq_true.mpr ⟨_, List.mem_map_of_mem member, finite⟩
  have here : times[i]? = Option.some (timeAt times i) := by
    rw [timeAt, List.getD_eq_getElem?_getD, List.getElem?_eq_getElem inside]
    rfl
  rw [mem_whereTrue, purgeMask]
  simp only [some, known, Bool.not_true, Bool.false_eq_true, if_false, List.getElem?_map, here,
    Option.map_some, Option.some.injEq, Bool.and_eq_true, Epoch.plus_plus, nanmin_plus_le, le_nanmax_plus,
    List.mem_map, exists_exists_and_eq_and, Epoch.isFinite_iff]
  constructor
  · rintro ⟨⟨⟨t, same⟩, low⟩, high⟩
    rw [same] at low high
    exact ⟨t, same, low, high⟩
  · rintro ⟨t, same, low, high⟩
    rw [same]
    exact ⟨⟨⟨t, rfl⟩, low⟩, high⟩

omit [IsStrictOrderedRing K] in
theorem mem_purged_of_untimed (untimed : ¬ Timed times test) (inside : ∀ j ∈ test, j < times.length) {i : Nat} :
    i ∈ whereTrue (purgeMask times test purge embargo) ↔
      i < times.length ∧ ∃ j ∈ test, i + 1 = j ∨ j + 1 = i := by
  have unknown : (test.map (timeAt times)).any Epoch.isFinite = false := by
    rw [List.any_eq_false]
    intro time member finite
    obtain ⟨j, tested, rfl⟩ := List.mem_map.mp member
    exact untimed ⟨j, tested, finite⟩
  have blank : ¬ (List.replicate times.length false)[i]? = some true := by
    simp [List.getElem?_replicate]
  rw [mem_whereTrue, purgeMask]
  by_cases none : test.isEmpty = true
  · rw [List.isEmpty_iff] at none
    subst none
    exact iff_of_false blank (by simp)
  · simp only [none, unknown, Bool.not_false, if_true, Bool.false_eq_true, if_false]
    rw [indexMask_iff inside (List.length_replicate ..)]
    exact or_iff_right blank

end

/-! ## What is to be left out -/

/-- Of the samples up to a time one is the last. -/
theorem exists_last {times : List (Epoch K)} {test : List Nat} {x : Epoch K}
    (some : ∃ j ∈ test, (timeAt times j).le x = true) :
    ∃ j ∈ test, (timeAt times j).le x = true ∧
      ∀ m ∈ test, (timeAt times m).le x = true → (timeAt times m).le (timeAt times j) = true := by
  obtain ⟨i, member, le⟩ := some
  have nonempty : ((test.filter fun j => (timeAt times j).le x).toFinset).Nonempty :=
    ⟨i, List.mem_toFinset.mpr (List.mem_filter.mpr ⟨member, le⟩)⟩
  obtain ⟨j, found, last⟩ := Finset.exists_max_image _ (fun j => (timeAt times j).place) nonempty
  obtain ⟨inside, early⟩ := List.mem_filter.mp (List.mem_toFinset.mp found)
  refine ⟨j, inside, early, fun m tested le => ?_⟩
  have place := last m (List.mem_toFinset.mpr (List.mem_filter.mpr ⟨tested, le⟩))
  exact Epoch.le_iff.mpr ⟨(Epoch.le_iff.mp le).1, (Epoch.le_iff.mp early).1, place⟩

/-- Of the samples from a time on one is the first. -/
theorem exists_first {times : List (Epoch K)} {test : List Nat} {x : Epoch K}
    (some : ∃ j ∈ test, x.le (timeAt times j) = true) :
    ∃ j ∈ test, x.le (timeAt times j) = true ∧
      ∀ m ∈ test, x.le (timeAt times m) = true → (timeAt times j).le (timeAt times m) = true := by
  obtain ⟨i, member, le⟩ := some
  have nonempty : ((test.filter fun j => x.le (timeAt times j)).toFinset).Nonempty :=
    ⟨i, List.mem_toFinset.mpr (List.mem_filter.mpr ⟨member, le⟩)⟩
  obtain ⟨j, found, first⟩ := Finset.exists_min_image _ (fun j => (timeAt times j).place) nonempty
  obtain ⟨inside, late⟩ := List.mem_filter.mp (List.mem_toFinset.mp found)
  refine ⟨j, inside, late, fun m tested le => ?_⟩
  have place := first m (List.mem_toFinset.mpr (List.mem_filter.mpr ⟨tested, le⟩))
  exact Epoch.le_iff.mpr ⟨(Epoch.le_iff.mp late).2.1, (Epoch.le_iff.mp le).2.1, place⟩

/-- Every other sample is before all of the block or after all of it. -/
def Stretch (times : List (Epoch K)) (block : List Nat) : Prop :=
  ∀ i < times.length, i ∉ block →
    (∀ j ∈ block, (timeAt times i).place ≤ (timeAt times j).place) ∨
      ∀ j ∈ block, (timeAt times j).place ≤ (timeAt times i).place

/-- Within the purge distance of some test sample. -/
def WithinPurge (times : List (Epoch K)) (purge : K) (test : List Nat) (i : Nat) : Prop :=
  ∃ t, timeAt times i = .seconds t ∧ ∃ j ∈ test, ∃ s, timeAt times j = .seconds s ∧ |t - s| ≤ purge

/-- Within the embargo after some block of test samples. -/
def WithinEmbargo (times : List (Epoch K)) (embargo : K) (blocks : List (List Nat)) (i : Nat) : Prop :=
  ∃ t, timeAt times i = .seconds t ∧ ∃ block ∈ blocks, ∃ last,
    nanmax (block.map (timeAt times)) = .seconds last ∧ last ≤ t ∧ t ≤ last + embargo

/-- What a training set leaves out besides the test samples.  Without a test time the purge distance is
one index. -/
def LeftOut (times : List (Epoch K)) (purge embargo : K) (test : List Nat) (blocks : List (List Nat)) (i : Nat) :
    Prop :=
  (Timed times test ∧ (WithinPurge times purge test i ∨ WithinEmbargo times embargo blocks i)) ∨
    (¬ Timed times test ∧ ∃ j ∈ test, i + 1 = j ∨ j + 1 = i)

/-- The training set is what is left of the samples. -/
def Complement (times : List (Epoch K)) (purge embargo : K) (train test : List Nat) (blocks : List (List Nat)) :
    Prop :=
  ∀ i, i ∈ train ↔ i < times.length ∧ i ∉ test ∧ ¬ LeftOut times purge embargo test blocks i

/-- No other sample is later than both distances after the last test time and not later than their sum. -/
def NoTail (times : List (Epoch K)) (purge embargo : K) (test : List Nat) : Prop :=
  ∀ i < times.length, i ∉ test → ∀ t last, timeAt times i = .seconds t →
    nanmax (test.map (timeAt times)) = .seconds last → t ≤ last + max purge embargo ∨ last + (purge + embargo) < t

/-- No other test time is between those of the two samples. -/
def Neighbours (times : List (Epoch K)) (test : List Nat) (j k : Nat) : Prop :=
  ∀ m ∈ test, (timeAt times m).isNan = true ∨ (timeAt times m).le (timeAt times j) = true ∨
    (timeAt times k).le (timeAt times m) = true

/-- No other sample between two neighbouring test times is later than both distances after the first of
them and earlier than the purge distance before the second. -/
def NoGap (times : List (Epoch K)) (purge embargo : K) (test : List Nat) : Prop :=
  Timed times test → ∀ i < times.length, i ∉ test → ∀ t, timeAt times i = .seconds t →
    ∀ j ∈ test, ∀ k ∈ test, Neighbours times test j k →
      (timeAt times j).le (.seconds t) = true → (Epoch.seconds t).le (timeAt times k) = true →
        (Epoch.seconds t).le ((timeAt times j).plus (max purge embargo)) = true ∨
          ((timeAt times k).plus (-purge)).le (.seconds t) = true

/-- Not farther before a test sample than the purge distance, nor after it than the longer one. -/
def Near (times : List (Epoch K)) (purge embargo : K) (test : List Nat) (t : K) : Prop :=
  ∃ j ∈ test, ((timeAt times j).plus (-purge)).le (.seconds t) = true ∧
    (Epoch.seconds t).le ((timeAt times j).plus (max purge embargo)) = true

section
variable [IsStrictOrderedRing K] {times : List (Epoch K)} {test : List Nat} {purge embargo : K}

/-- What is to be left out is near some test sample. -/
theorem near_of_within {blocks : List (List Nat)} (blocked : ∀ block ∈ blocks, ∀ j ∈ block, j ∈ test) {i : Nat}
    (within : WithinPurge times purge test i ∨ WithinEmbargo times embargo blocks i) (purge_nonneg : 0 ≤ purge) :
    ∃ t, timeAt times i = .seconds t ∧ Near times purge embargo test t := by
  have longer := le_max_left purge embargo
  have longest := le_max_right purge embargo
  rcases within with ⟨t, here, j, member, s, there, close⟩ | ⟨t, here, block, inside, last, latest, after, soon⟩
  · obtain ⟨below, above⟩ := abs_le.mp close
    refine ⟨t, here, j, member, ?_⟩
    rw [there]
    exact ⟨Epoch.seconds_le_seconds.mpr (by linarith), Epoch.seconds_le_seconds.mpr (by linarith)⟩
  · have found : nanmax (block.map (timeAt times)) ∈ block.map (timeAt times) :=
      nanmax_mem (by rw [latest]; rfl)
    obtain ⟨j, member, there⟩ := List.mem_map.mp found
    refine ⟨t, here, j, blocked block inside j member, ?_⟩
    rw [there, latest]
    exact ⟨Epoch.seconds_le_seconds.mpr (by linarith), Epoch.seconds_le_seconds.mpr (by linarith)⟩

/-- What is near a test sample and not tested itself is to be left out: it is after the whole block
of that sample, or at its very time. -/
theorem within_of_near {blocks : List (List Nat)} (blocked : ∀ j ∈ test, ∃ block ∈ blocks, j ∈ block)
    (stretches : ∀ block ∈ blocks, Stretch times block) {i : Nat} (inside : i < times.length)
    (other : ∀ block ∈ blocks, i ∉ block) (purge_nonneg : 0 ≤ purge) {t : K} (here : timeAt times i = .seconds t)
    (near : Near times purge embargo test t) :
    WithinPurge times purge test i ∨ WithinEmbargo times embargo blocks i := by
  obtain ⟨j, member, low, high⟩ := near
  obtain ⟨s, there, after, soon⟩ := Epoch.eq_seconds_of_near low high
  by_cases close : t ≤ s + purge
  · left
    exact ⟨t, here, j, member, s, there, abs_le.mpr ⟨by linarith, by linarith⟩⟩
  · right
    have embargoed : t ≤ s + embargo := by
      rcases max_choice purge embargo with first | second
      · rw [first] at soon
        exact absurd soon close
      · rwa [second] at soon
    obtain ⟨block, blockMember, inBlock⟩ := blocked j member
    have atMost : (Epoch.seconds s).le (nanmax (block.map (timeAt times))) = true :=
      seconds_le_nanmax (there ▸ List.mem_map_of_mem inBlock)
    have number := (Epoch.le_iff.mp atMost).2.1
    obtain ⟨k, kMember, latest⟩ := List.mem_map.mp (nanmax_mem number)
    have before : (nanmax (block.map (timeAt times))).le (.seconds t) = true := by
      rcases stretches block blockMember i inside (other block blockMember) with early | late
      · -- it would be before the test sample, which it is not
        have le := early j inBlock
        rw [here, there] at le
        have wrong : t ≤ s := Epoch.seconds_le_seconds.mp (Epoch.le_iff.mpr ⟨rfl, rfl, le⟩)
        exact absurd (wrong.trans (by linarith)) close
      · have le := late k kMember
        rw [here, latest] at le
        exact Epoch.le_iff.mpr ⟨number, rfl, le⟩
    obtain ⟨last, same, fromSample, toSample⟩ := Epoch.eq_seconds atMost before
    exact ⟨t, here, block, blockMember, last, same, toSample, by linarith⟩

/-! ## What the mask leaves out -/

/-- The last test time is some sample's. -/
theorem exists_latest (timed : Timed times test) :
    ∃ k ∈ test, timeAt times k = nanmax (test.map (timeAt times)) ∧
      ∃ s, (Epoch.seconds s).le (nanmax (test.map (timeAt times))) = true := by
  obtain ⟨j, member, finite⟩ := timed
  obtain ⟨s, there⟩ := Epoch.isFinite_iff.mp finite
  have atMost : (Epoch.seconds s).le (nanmax (test.map (timeAt times))) = true :=
    seconds_le_nanmax (there ▸ List.mem_map_of_mem member)
  obtain ⟨k, kMember, latest⟩ := List.mem_map.mp (nanmax_mem (Epoch.le_iff.mp atMost).2.1)
  exact ⟨k, kMember, latest, s, atMost⟩

theorem last_of_all_before {t : K} (timed : Timed times test)
    (before : ∀ k ∈ test, (Epoch.seconds t).le (timeAt times k) ≠ true) :
    ∃ last, nanmax (test.map (timeAt times)) = .seconds last ∧ last ≤ t ∧
      ∃ k ∈ test, timeAt times k = .seconds last := by
  obtain ⟨k, member, latest, s, atMost⟩ := exists_latest timed
  have le : (timeAt times k).le (.seconds t) = true := by
    refine Epoch.le_of_not_le rfl ?_ (before k member)
    rw [latest]
    exact (Epoch.le_iff.mp atMost).2.1
  rw [latest] at le
  obtain ⟨last, same, -, toSample⟩ := Epoch.eq_seconds atMost le
  exact ⟨last, same, toSample, k, member, latest.trans same⟩

/-- The mask leaves out what is near, and nothing else, where there is no other sample in a gap or in the
tail. -/
theorem near_of_purged (noTail : NoTail times purge embargo test) (noGap : NoGap times purge embargo test)
    (timed : Timed times test) (purge_nonneg : 0 ≤ purge) {i : Nat} (inside : i < times.length) (other : i ∉ test)
    {t : K} (here : timeAt times i = .seconds t)
    (low : ∃ j ∈ test, ((timeAt times j).plus (-purge)).le (.seconds t) = true)
    (high : ∃ j ∈ test, (Epoch.seconds t).le ((timeAt times j).plus (purge + embargo)) = true) :
    Near times purge embargo test t := by
  have longer : 0 ≤ max purge embargo := purge_nonneg.trans (le_max_left purge embargo)
  -- a time before the sample is near as soon as the sample is not later than the longer distance
  have nearAfter {j : Nat} (member : j ∈ test) (le : (timeAt times j).le (.seconds t) = true)
      (soon : (Epoch.seconds t).le ((timeAt times j).plus (max purge embargo)) = true) :
      Near times purge embargo test t := by
    refine ⟨j, member, ?_, soon⟩
    have back := Epoch.plus_le_plus (Epoch.le_iff.mp le).1 (neg_nonpos.mpr purge_nonneg)
    rw [Epoch.plus_zero] at back
    exact Epoch.le_trans' back le
  have nearBefore {j : Nat} (member : j ∈ test) (le : (Epoch.seconds t).le (timeAt times j) = true)
      (soon : ((timeAt times j).plus (-purge)).le (.seconds t) = true) : Near times purge embargo test t := by
    refine ⟨j, member, soon, ?_⟩
    have forth := Epoch.plus_le_plus (Epoch.le_iff.mp le).2.1 longer
    rw [Epoch.plus_zero] at forth
    exact Epoch.le_trans' le forth
  by_cases before : ∃ j ∈ test, (timeAt times j).le (.seconds t) = true
  · by_cases after : ∃ k ∈ test, (Epoch.seconds t).le (timeAt times k) = true
    · obtain ⟨j, jMember, jLe, jLast⟩ := exists_last before
      obtain ⟨k, kMember, kLe, kFirst⟩ := exists_first after
      have neighbours : Neighbours times test j k := by
        intro m member
        by_cases number : (timeAt times m).isNan = true
        · exact .inl number
        · rw [Bool.not_eq_true] at number
          by_cases le : (timeAt times m).le (.seconds t) = true
          · exact .inr (.inl (jLast m member le))
          · exact .inr (.inr (kFirst m member (Epoch.le_of_not_le number rfl le)))
      rcases noGap timed i inside other t here j jMember k kMember neighbours jLe kLe with soon | soon
      · exact nearAfter jMember jLe soon
      · exact nearBefore kMember kLe soon
    · push Not at after
      obtain ⟨last, latest, le, k, member, there⟩ := last_of_all_before timed after
      have soon : t ≤ last + max purge embargo := by
        rcases noTail i inside other t last here latest with soon | late
        · exact soon
        · obtain ⟨j, jMember, within⟩ := high
          have whole : (Epoch.seconds t).le ((nanmax (test.map (timeAt times))).plus (purge + embargo)) = true :=
            le_nanmax_plus.mpr ⟨_, List.mem_map_of_mem jMember, within⟩
          rw [latest] at whole
          exact absurd (Epoch.seconds_le_seconds.mp whole) (not_le.mpr late)
      refine nearAfter member ?_ ?_
      · rw [there]
        exact Epoch.seconds_le_seconds.mpr le
      · rw [there]
        exact Epoch.seconds_le_seconds.mpr soon
  · obtain ⟨j, member, soon⟩ := low
    have number := (Epoch.le_iff.mp soon).1
    rw [Epoch.isNan_plus] at number
    exact nearBefore member (Epoch.le_of_not_le number rfl fun le => before ⟨j, member, le⟩) soon

/-- What is near a test sample is between the two ends of the mask. -/
theorem masked_of_near (purge_nonneg : 0 ≤ purge) (embargo_nonneg : 0 ≤ embargo) {t : K}
    (near : Near times purge embargo test t) :
    (∃ j ∈ test, ((timeAt times j).plus (-purge)).le (.seconds t) = true) ∧
      ∃ j ∈ test, (Epoch.seconds t).le ((timeAt times j).plus (purge + embargo)) = true := by
  obtain ⟨j, member, low, high⟩ := near
  have number := (Epoch.le_iff.mp high).2.1
  rw [Epoch.isNan_plus] at number
  have sum : max purge embargo ≤ purge + embargo := max_le (by linarith) (by linarith)
  exact ⟨⟨j, member, low⟩, j, member, Epoch.le_trans' high (Epoch.plus_le_plus number sum)⟩

section
variable (near : ∀ i < times.length, i ∉ test → ∀ t, timeAt times i = .seconds t →
  (∃ j ∈ test, ((timeAt times j).plus (-purge)).le (.seconds t) = true) →
    (∃ j ∈ test, (Epoch.seconds t).le ((timeAt times j).plus (purge + embargo)) = true) →
      Near times purge embargo test t)
include near

theorem noTail_of_near (purge_nonneg : 0 ≤ purge) : NoTail times purge embargo test := by
  intro i inside other t last here latest
  by_contra both
  push Not at both
  obtain ⟨late, within⟩ := both
  have longer : 0 ≤ max purge embargo := purge_nonneg.trans (le_max_left purge embargo)
  have found : nanmax (test.map (timeAt times)) ∈ test.map (timeAt times) := nanmax_mem (by rw [latest]; rfl)
  obtain ⟨k, member, there⟩ := List.mem_map.mp found
  rw [latest] at there
  have low : ((timeAt times k).plus (-purge)).le (.seconds t) = true := by
    rw [there]
    exact Epoch.seconds_le_seconds.mpr (by linarith)
  have high : (Epoch.seconds t).le ((timeAt times k).plus (purge + embargo)) = true := by
    rw [there]
    exact Epoch.seconds_le_seconds.mpr within
  obtain ⟨j, jMember, -, soon⟩ := near i inside other t here ⟨k, member, low⟩ ⟨k, member, high⟩
  have whole : (Epoch.seconds t).le ((nanmax (test.map (timeAt times))).plus (max purge embargo)) = true :=
    le_nanmax_plus.mpr ⟨_, List.mem_map_of_mem jMember, soon⟩
  rw [latest] at whole
  exact absurd (Epoch.seconds_le_seconds.mp whole) (not_le.mpr late)

theorem noGap_of_near (purge_nonneg : 0 ≤ purge) (embargo_nonneg : 0 ≤ embargo) :
    NoGap times purge embargo test := by
  intro _ i inside other t here j jMember k kMember neighbours jLe kLe
  have low : ((timeAt times j).plus (-purge)).le (.seconds t) = true := by
    have back := Epoch.plus_le_plus (Epoch.le_iff.mp jLe).1 (neg_nonpos.mpr purge_nonneg)
    rw [Epoch.plus_zero] at back
    exact Epoch.le_trans' back jLe
  have high : (Epoch.seconds t).le ((timeAt times k).plus (purge + embargo)) = true := by
    have forth := Epoch.plus_le_plus (Epoch.le_iff.mp kLe).2.1 (add_nonneg purge_nonneg embargo_nonneg)
    rw [Epoch.plus_zero] at forth
    exact Epoch.le_trans' kLe forth
  obtain ⟨m, member, after, soon⟩ := near i inside other t here ⟨j, jMember, low⟩ ⟨k, kMember, high⟩
  rcases neighbours m member with nothing | earlier | later
  · have number := (Epoch.le_iff.mp after).1
    rw [Epoch.isNan_plus, nothing] at number
    exact Bool.noConfusion number
  · exact .inl (Epoch.le_trans' soon (Epoch.plus_mono _ earlier))
  · exact .inr (Epoch.le_trans' (Epoch.plus_mono _ later) after)

end

/-- A training set is the complement if and only if there is no other sample in a gap or in the tail. -/
theorem complement_iff {blocks : List (List Nat)} (same : ∀ j, j ∈ test ↔ ∃ block ∈ blocks, j ∈ block)
    (within : ∀ j ∈ test, j < times.length)
    (stretches : Timed times test → ∀ block ∈ blocks, Stretch times block)
    (purge_nonneg : 0 ≤ purge) (embargo_nonneg : 0 ≤ embargo) :
    Complement times purge embargo
        (trainIndices times.length test (whereTrue (purgeMask times test purge embargo))) test blocks ↔
      NoTail times purge embargo test ∧ NoGap times purge embargo test := by
  by_cases timed : Timed times test
  · have leftOut_iff {i : Nat} (inside : i < times.length) (other : i ∉ test) :
        LeftOut times purge embargo test blocks i ↔ ∃ t, timeAt times i = .seconds t ∧ Near times purge embargo test t := by
      constructor
      · rintro (⟨-, near⟩ | ⟨untimed, -⟩)
        · exact near_of_within (fun block member j inBlock => (same j).mpr ⟨block, member, inBlock⟩) near purge_nonneg
        · exact absurd timed untimed
      · rintro ⟨t, here, near⟩
        refine .inl ⟨timed, within_of_near (fun j member => (same j).mp member) (stretches timed) inside ?_
          purge_nonneg here near⟩
        exact fun block member inBlock => other ((same i).mpr ⟨block, member, inBlock⟩)
    have complement_iff_near : Complement times purge embargo
        (trainIndices times.length test (whereTrue (purgeMask times test purge embargo))) test blocks ↔
        ∀ i < times.length, i ∉ test → ∀ t, timeAt times i = .seconds t →
          (∃ j ∈ test, ((timeAt times j).plus (-purge)).le (.seconds t) = true) →
            (∃ j ∈ test, (Epoch.seconds t).le ((timeAt times j).plus (purge + embargo)) = true) →
              Near times purge embargo test t := by
      constructor
      · intro complement i inside other t here low high
        have purged : i ∈ whereTrue (purgeMask times test purge embargo) :=
          (mem_purged_of_timed timed inside).mpr ⟨t, here, low, high⟩
        by_contra far
        have kept : ¬ LeftOut times purge embargo test blocks i := by
          rw [leftOut_iff inside other]
          rintro ⟨t', here', near⟩
          rw [here, Epoch.seconds.injEq] at here'
          exact far (here' ▸ near)
        exact (mem_trainIndices.mp ((complement i).mpr ⟨inside, other, kept⟩)).2.2 purged
      · intro near i
        rw [mem_trainIndices]
        refine and_congr_right fun inside => and_congr_right fun other => not_congr ?_
        rw [leftOut_iff inside other, mem_purged_of_timed timed inside]
        constructor
        · rintro ⟨t, here, low, high⟩
          exact ⟨t, here, near i inside other t here low high⟩
        · rintro ⟨t, here, close⟩
          exact ⟨t, here, masked_of_near purge_nonneg embargo_nonneg close⟩
    rw [complement_iff_near]
    constructor
    · exact fun near => ⟨noTail_of_near near purge_nonneg, noGap_of_near near purge_nonneg embargo_nonneg⟩
    · rintro ⟨noTail, noGap⟩ i inside other t here low high
      exact near_of_purged noTail noGap timed purge_nonneg inside other here low high
  · refine iff_of_true (fun i => ?_) ⟨?_, fun known => absurd known timed⟩
    · rw [mem_trainIndices, mem_purged_of_untimed timed within]
      refine and_congr_right fun inside => and_congr_right fun other => not_congr ?_
      simp [LeftOut, timed, inside]
    · intro i _ _ t last _ latest
      have found : nanmax (test.map (timeAt times)) ∈ test.map (timeAt times) := nanmax_mem (by rw [latest]; rfl)
      obtain ⟨k, member, there⟩ := List.mem_map.mp found
      exact absurd ⟨k, member, by rw [there, latest]; rfl⟩ timed

end

end Senex.PurgedCv
