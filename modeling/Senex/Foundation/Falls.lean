import Mathlib.Algebra.Order.Field.Basic
import Mathlib.Data.List.Basic
import Mathlib.Order.Bounds.Basic
import Mathlib.Tactic.Linarith

/-! # Falls of a curve

A fall leads from a value to one that does not come before it.  A running peak finds the largest
fall, and the place where a fall of that size ends first.
-/

namespace Senex

variable {K : Type*} [Field K] [LinearOrder K]

/-- From a value of the curve to one that does not come before it. -/
def Fall (curve : List K) (a b : K) : Prop := ∃ i j : Nat, i ≤ j ∧ curve[i]? = some a ∧ curve[j]? = some b

def falls (curve : List K) : Set K := {d | ∃ a b, Fall curve a b ∧ d = a - b}

/-- The falls in percent of where they begin. -/
def pctFalls (curve : List K) : Set K := {p | ∃ a b, Fall curve a b ∧ p = 100 * (a - b) / a}

/-- From the peak `a` before it to `b`, the first value to which the curve falls furthest. -/
structure LargestFall (curve : List K) (a b : K) : Prop where
  first : ∃ front rest, curve = front ++ b :: rest ∧ IsGreatest {x | x ∈ front ++ [b]} a ∧ ∀ d ∈ falls front, d < a - b
  largest : IsGreatest (falls curve) (a - b)

variable {curve : List K} {a b : K}

omit [Field K] [LinearOrder K] in
theorem fall_concat {v : K} : Fall (curve ++ [v]) a b ↔ Fall curve a b ∨ a ∈ curve ++ [v] ∧ b = v := by
  constructor
  · intro ⟨i, j, le, start, stop⟩
    obtain ⟨bounded, -⟩ := List.getElem?_eq_some_iff.mp stop
    rw [List.length_append, List.length_singleton] at bounded
    rcases Nat.lt_succ_iff_lt_or_eq.mp bounded with inside | rfl
    · rw [List.getElem?_append_left (by omega)] at start stop
      exact .inl ⟨i, j, le, start, stop⟩
    · rw [List.getElem?_concat_length] at stop
      exact .inr ⟨List.mem_of_getElem? start, (Option.some.inj stop).symm⟩
  · rintro (⟨i, j, le, start, stop⟩ | ⟨member, rfl⟩)
    · obtain ⟨bounded, -⟩ := List.getElem?_eq_some_iff.mp stop
      refine ⟨i, j, le, ?_, ?_⟩
      · rw [List.getElem?_append_left (by omega), start]
      · rw [List.getElem?_append_left bounded, stop]
    · obtain ⟨i, start⟩ := List.mem_iff_getElem?.mp member
      obtain ⟨bounded, -⟩ := List.getElem?_eq_some_iff.mp start
      rw [List.length_append, List.length_singleton] at bounded
      exact ⟨i, curve.length, by omega, start, List.getElem?_concat_length⟩

omit [LinearOrder K] in
theorem falls_concat {v : K} : falls (curve ++ [v]) = falls curve ∪ {d | ∃ x ∈ curve ++ [v], d = x - v} := by
  ext d
  simp only [falls, fall_concat, Set.mem_union, Set.mem_ofPred_eq]
  constructor
  · rintro ⟨a, b, fall | ⟨member, rfl⟩, rfl⟩
    · exact .inl ⟨a, b, fall, rfl⟩
    · exact .inr ⟨a, member, rfl⟩
  · rintro (⟨a, b, fall, rfl⟩ | ⟨x, member, rfl⟩)
    · exact ⟨a, b, .inl fall, rfl⟩
    · exact ⟨x, v, .inr ⟨member, rfl⟩, rfl⟩

omit [LinearOrder K] in
theorem falls_append_subset (front rest : List K) : falls front ⊆ falls (front ++ rest) := by
  rintro d ⟨a, b, ⟨i, j, le, start, stop⟩, rfl⟩
  obtain ⟨bounded, -⟩ := List.getElem?_eq_some_iff.mp stop
  refine ⟨a, b, ⟨i, j, le, ?_, ?_⟩, rfl⟩
  · rw [List.getElem?_append_left (by omega), start]
  · rw [List.getElem?_append_left bounded, stop]

omit [LinearOrder K] in
@[simp] theorem falls_nil : falls ([] : List K) = ∅ := by
  simp [falls, Fall]

omit [Field K] in
/-- The largest value, with one more. -/
theorem isGreatest_concat {peak v : K} (greatest : IsGreatest {x | x ∈ curve} peak) :
    IsGreatest {x | x ∈ curve ++ [v]} (max peak v) := by
  constructor
  · rcases max_choice peak v with same | same
    · rw [same]
      exact List.mem_append_left _ greatest.1
    · rw [same]
      exact List.mem_append_right _ (List.mem_singleton_self v)
  · intro x member
    rcases List.mem_append.mp member with before | new
    · exact (greatest.2 before).trans (le_max_left _ _)
    · obtain rfl := List.mem_singleton.mp new
      exact le_max_right _ _

theorem largestFall_singleton (v : K) : LargestFall [v] v v := by
  have alone : falls [v] = {0} := by
    have one : falls ([] ++ [v]) = falls [] ∪ {d | ∃ x ∈ [] ++ [v], d = x - v} := falls_concat
    rw [List.nil_append, falls_nil, Set.empty_union] at one
    rw [one]
    ext d
    simp
  refine ⟨⟨[], [], rfl, ?_, by simp⟩, ?_⟩
  · simp [IsGreatest, upperBounds]
  · rw [alone, sub_self]
    exact isGreatest_singleton

variable [IsStrictOrderedRing K]

theorem isGreatest_sub_concat {peak v : K} (greatest : IsGreatest {x | x ∈ curve ++ [v]} peak) :
    IsGreatest {d | ∃ x ∈ curve ++ [v], d = x - v} (peak - v) := by
  refine ⟨⟨peak, greatest.1, rfl⟩, ?_⟩
  rintro d ⟨x, member, rfl⟩
  exact sub_le_sub_right (greatest.2 member) v

/-- A value that falls further than all before it ends the largest fall. -/
theorem LargestFall.replace {peak v : K} (old : LargestFall curve a b) (greatest : IsGreatest {x | x ∈ curve ++ [v]} peak)
    (further : a - b < peak - v) : LargestFall (curve ++ [v]) peak v := by
  have below : ∀ d ∈ falls curve, d < peak - v := fun d member => (old.largest.2 member).trans_lt further
  refine ⟨⟨curve, [], rfl, greatest, below⟩, ?_⟩
  rw [falls_concat]
  refine ⟨.inr (isGreatest_sub_concat greatest).1, ?_⟩
  rintro d (before | new)
  · exact (below d before).le
  · exact (isGreatest_sub_concat greatest).2 new

/-- A value that does not fall further leaves the largest fall as it is. -/
theorem LargestFall.keep {peak v : K} (old : LargestFall curve a b) (greatest : IsGreatest {x | x ∈ curve ++ [v]} peak)
    (nearer : peak - v ≤ a - b) : LargestFall (curve ++ [v]) a b := by
  obtain ⟨front, rest, rfl, top, below⟩ := old.first
  refine ⟨⟨front, rest ++ [v], by simp, top, below⟩, ?_⟩
  rw [falls_concat]
  refine ⟨.inl old.largest.1, ?_⟩
  rintro d (before | new)
  · exact old.largest.2 before
  · exact ((isGreatest_sub_concat greatest).2 new).trans nearer

omit [IsStrictOrderedRing K] in
/-- A fall of the largest size does not end before the first one. -/
theorem LargestFall.not_before {c d : K} (one : LargestFall curve a b) (other : LargestFall curve c d)
    {front rest front' rest' : List K} (split : curve = front ++ b :: rest) (top : IsGreatest {x | x ∈ front ++ [b]} a)
    (split' : curve = front' ++ d :: rest') (below : ∀ e ∈ falls front', e < c - d) : front'.length ≤ front.length := by
  by_contra shorter
  have longer : front ++ [b] <+: front' := by
    refine List.prefix_of_prefix_length_le (show _ <+: curve from ⟨rest, by simp [split]⟩) ⟨d :: rest', split'.symm⟩ ?_
    rw [List.length_append, List.length_singleton]
    omega
  obtain ⟨between, rfl⟩ := longer
  have inside : a - b ∈ falls (front ++ [b] ++ between) := by
    refine falls_append_subset _ between ?_
    rw [falls_concat]
    exact .inr ⟨a, top.1, rfl⟩
  have same : a - b = c - d := one.largest.unique other.largest
  exact absurd (below _ inside) (by rw [same]; exact lt_irrefl _)

omit [IsStrictOrderedRing K] in
/-- There is one first fall of the largest size. -/
theorem LargestFall.unique {c d : K} (one : LargestFall curve a b) (other : LargestFall curve c d) : a = c ∧ b = d := by
  obtain ⟨front, rest, split, top, below⟩ := one.first
  obtain ⟨front', rest', split', top', below'⟩ := other.first
  have same : front.length = front'.length :=
    le_antisymm (other.not_before one split' top' split below) (one.not_before other split top split' below')
  obtain ⟨rfl, tails⟩ := List.append_inj (split.symm.trans split') same
  obtain ⟨rfl, -⟩ := List.cons.inj tails
  exact ⟨top.unique top', rfl⟩

end Senex
