import Mathlib.Data.List.Sort
import Mathlib.Order.Basic

/-! # Keyset pages

A reader of a table that is sorted by a key asks for the next rows behind its
position.  The table may grow between two pages.  As long as it grows beyond the
position only, the pages add up to the rows between the first position and the last.
-/

namespace Senex.Keyset

variable {R K : Type} [LinearOrder K] (key : R → K)

/-- The rows stand in increasing order of their keys, each key once. -/
def Sorted (table : List R) : Prop := table.Pairwise fun a b => key a < key b

/-- The rows behind a position. -/
def after (p : K) (table : List R) : List R := table.filter fun r => decide (p < key r)

/-- The rows up to a position. -/
def upTo (p : K) (table : List R) : List R := table.filter fun r => decide (key r ≤ p)

/-- The rows behind one position and up to another. -/
def between (p q : K) (table : List R) : List R :=
  table.filter fun r => decide (p < key r) && decide (key r ≤ q)

/-- The next rows behind a position, no more than a limit. -/
def page (p : K) (limit : Nat) (table : List R) : List R := (after key p table).take limit

variable {key}

theorem Sorted.filter {table : List R} (sorted : Sorted key table) (keep : R → Bool) :
    Sorted key (table.filter keep) := sorted.sublist List.filter_sublist

/-- A row of a sorted table is known by its key. -/
theorem Sorted.eq_of_key {table : List R} (sorted : Sorted key table) {a b : R} (ha : a ∈ table)
    (hb : b ∈ table) (same : key a = key b) : a = b := by
  induction table with
  | nil => cases ha
  | cons r table ih =>
      obtain ⟨below, tail⟩ := List.pairwise_cons.mp sorted
      rcases List.mem_cons.mp ha with first | inside
      · rcases List.mem_cons.mp hb with second | behind
        · rw [first, second]
        · rw [first] at same
          exact absurd same (below b behind).ne
      · rcases List.mem_cons.mp hb with second | behind
        · rw [second] at same
          exact absurd same (below a inside).ne'
        · exact ih tail inside behind

/-- No row of a sorted table is beyond the last one. -/
theorem Sorted.le_last {table : List R} (sorted : Sorted key table) {last : R}
    (isLast : table.getLast? = some last) {r : R} (member : r ∈ table) : key r ≤ key last := by
  obtain ⟨front, rfl⟩ := List.getLast?_eq_some_iff.mp isLast
  rcases List.mem_append.mp member with before | same
  · exact ((List.pairwise_append.mp sorted).2.2 r before last (by simp)).le
  · rw [List.mem_singleton.mp same]

@[simp] theorem mem_after {p : K} {table : List R} {r : R} :
    r ∈ after key p table ↔ r ∈ table ∧ p < key r := by
  simp [after]

@[simp] theorem mem_upTo {p : K} {table : List R} {r : R} :
    r ∈ upTo key p table ↔ r ∈ table ∧ key r ≤ p := by
  simp [upTo]

@[simp] theorem mem_between {p q : K} {table : List R} {r : R} :
    r ∈ between key p q table ↔ r ∈ table ∧ p < key r ∧ key r ≤ q := by
  simp [between]

theorem mem_page {p : K} {limit : Nat} {table : List R} {r : R} (member : r ∈ page key p limit table) :
    r ∈ table ∧ p < key r :=
  mem_after.mp (List.mem_of_mem_take member)

theorem length_page_le (p : K) (limit : Nat) (table : List R) :
    (page key p limit table).length ≤ limit := by
  simp [page]

theorem Sorted.page {table : List R} (sorted : Sorted key table) (p : K) (limit : Nat) :
    Sorted key (page key p limit table) :=
  (sorted.filter _).sublist (List.take_sublist _ _)

/-! ## Adding up -/

/-- In a sorted table the rows below a position stand before the rows behind it. -/
theorem Sorted.split {table : List R} (sorted : Sorted key table) (low high : R → Bool) (p : K)
    (isLow : ∀ r ∈ table, low r = true → key r ≤ p) (isHigh : ∀ r ∈ table, high r = true → p < key r) :
    table.filter low ++ table.filter high = table.filter fun r => low r || high r := by
  induction table with
  | nil => rfl
  | cons r table ih =>
      obtain ⟨below, tail⟩ := List.pairwise_cons.mp sorted
      have ih := ih tail (fun s hs => isLow s (List.mem_cons_of_mem _ hs))
        (fun s hs => isHigh s (List.mem_cons_of_mem _ hs))
      cases hr : low r with
      | true =>
          have apart : high r = false := by
            by_contra beyond
            have behind := isHigh r (by simp) (by simpa using beyond)
            exact absurd (isLow r (by simp) hr) (not_le.mpr behind)
          simp [hr, apart, ih]
      | false =>
          cases hh : high r with
          | false => simp [hr, hh, ih]
          | true =>
              -- `r` is beyond the position, and so is everything behind it
              have none : table.filter low = [] := by
                apply List.filter_eq_nil_iff.mpr
                intro s hs isIn
                have beyond := isHigh r (by simp) hh
                exact absurd (isLow s (List.mem_cons_of_mem _ hs) isIn)
                  (not_le.mpr (beyond.trans (below s hs)))
              rw [none, List.nil_append] at ih
              simp [hr, hh, none, ih]

theorem upTo_append_between {table : List R} (sorted : Sorted key table) {p q : K} (le : p ≤ q) :
    upTo key p table ++ between key p q table = upTo key q table := by
  unfold upTo between
  rw [sorted.split _ _ p (by simp) (by simp +contextual)]
  apply List.filter_congr
  intro r _
  rcases le_or_gt (key r) p with low | high
  · simp [low, low.trans le]
  · simp [high, not_le.mpr high]

theorem between_append_between {table : List R} (sorted : Sorted key table) {p q r : K}
    (first : p ≤ q) (second : q ≤ r) :
    between key p q table ++ between key q r table = between key p r table := by
  unfold between
  rw [sorted.split _ _ q (by simp +contextual) (by simp +contextual)]
  apply List.filter_congr
  intro s _
  rcases le_or_gt (key s) q with low | high
  · simp [low, low.trans second, not_lt.mpr low]
  · simp [high, not_le.mpr high, first.trans_lt high]

theorem between_append_after {table : List R} (sorted : Sorted key table) {p q : K} (le : p ≤ q) :
    between key p q table ++ after key q table = after key p table := by
  unfold between after
  rw [sorted.split _ _ q (by simp +contextual) (by simp)]
  apply List.filter_congr
  intro s _
  rcases le_or_gt (key s) q with low | high
  · simp [low, not_lt.mpr low]
  · simp [high, not_le.mpr high, le.trans_lt high]

@[simp] theorem between_self (p : K) (table : List R) : between key p p table = [] := by
  apply List.filter_eq_nil_iff.mpr
  intro r _ inside
  simp only [Bool.and_eq_true, decide_eq_true_eq] at inside
  exact absurd inside.2 (not_le.mpr inside.1)

/-- A page holds the rows from its position to its last row. -/
theorem page_eq_between {table : List R} (sorted : Sorted key table) {p : K} {limit : Nat} {last : R}
    (isLast : (page key p limit table).getLast? = some last) :
    page key p limit table = between key p (key last) table := by
  have behind := sorted.filter fun r => decide (p < key r)
  have whole : after key p table = page key p limit table ++ (after key p table).drop limit :=
    (List.take_append_drop limit _).symm
  have ordered : Sorted key (page key p limit table ++ (after key p table).drop limit) := by
    rw [← whole]
    exact behind
  obtain ⟨inner, -, beyond⟩ := List.pairwise_append.mp ordered
  have member : last ∈ page key p limit table := List.mem_of_getLast? isLast
  have cut : (after key p table).filter (fun r => decide (key r ≤ key last)) =
      page key p limit table := by
    rw [whole, List.filter_append, List.filter_eq_self.mpr, List.filter_eq_nil_iff.mpr,
      List.append_nil]
    · intro r hr within
      exact absurd (of_decide_eq_true within) (not_le.mpr (beyond last member r hr))
    · exact fun r hr => decide_eq_true (Sorted.le_last inner isLast hr)
  rw [← cut, after, List.filter_filter, between]
  apply List.filter_congr
  intro r _
  exact Bool.and_comm _ _

/-- A page that is not full holds everything behind its position. -/
theorem page_eq_after {table : List R} {p : K} {limit : Nat}
    (short : (page key p limit table).length < limit) :
    page key p limit table = after key p table := by
  apply List.take_of_length_le
  simp only [page, List.length_take] at short
  omega

/-! ## Growth -/

/-- What leaves the rows up to a position alone leaves every earlier range alone. -/
theorem between_of_upTo {table grown : List R} {p q : K}
    (same : upTo key q grown = upTo key q table) : between key p q grown = between key p q table := by
  have narrow : ∀ rows : List R,
      between key p q rows = (upTo key q rows).filter fun r => decide (p < key r) := by
    intro rows
    rw [upTo, List.filter_filter, between]
  rw [narrow, narrow, same]

theorem upTo_mono {table grown : List R} {p q : K} (le : p ≤ q)
    (same : upTo key q grown = upTo key q table) : upTo key p grown = upTo key p table := by
  have narrow : ∀ rows : List R,
      upTo key p rows = (upTo key q rows).filter fun r => decide (key r ≤ p) := by
    intro rows
    rw [upTo, upTo, List.filter_filter]
    apply List.filter_congr
    intro r _
    rcases le_or_gt (key r) p with low | high
    · simp [low, low.trans le]
    · simp [not_le.mpr high]
  rw [narrow, narrow, same]

/-- A row beyond a position changes nothing up to it. -/
theorem upTo_append {table : List R} {p : K} {r : R} (beyond : p < key r) :
    upTo key p (table ++ [r]) = upTo key p table := by
  simp [upTo, not_le.mpr beyond]

end Senex.Keyset
