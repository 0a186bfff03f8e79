import Mathlib.Data.Nat.Choose.Basic
import Mathlib.Data.List.Nodup
import Mathlib.Tactic.Ring

/-! # Pieces and combinations

How `np.array_split` cuts a list into pieces, and which combinations of items
`itertools.combinations` gives in which order.
-/

namespace Senex

variable {α : Type*}

/-! ## Pieces -/

/-- Pieces of some sizes, one after another. -/
def pieces : List Nat → List α → List (List α)
  | [], _ => []
  | size :: sizes, items => items.take size :: pieces sizes (items.drop size)

theorem pieces_cons (size : Nat) (sizes : List Nat) (items : List α) :
    pieces (size :: sizes) items = items.take size :: pieces sizes (items.drop size) := rfl

theorem length_pieces (sizes : List Nat) (items : List α) : (pieces sizes items).length = sizes.length := by
  induction sizes generalizing items with
  | nil => rfl
  | cons size sizes ih => simp [pieces_cons, ih]

theorem flatten_pieces {sizes : List Nat} {items : List α} (all : sizes.sum = items.length) :
    (pieces sizes items).flatten = items := by
  induction sizes generalizing items with
  | nil => exact (List.length_eq_zero_iff.mp all.symm).symm
  | cons size sizes ih =>
      rw [List.sum_cons] at all
      have rest : sizes.sum = (items.drop size).length := by
        rw [List.length_drop]
        omega
      rw [pieces_cons, List.flatten_cons, ih rest, List.take_append_drop]

theorem pieces_map {β : Type*} (f : α → β) (sizes : List Nat) (items : List α) :
    (pieces sizes items).map (List.map f) = pieces sizes (items.map f) := by
  induction sizes generalizing items with
  | nil => rfl
  | cons size sizes ih => simp only [pieces_cons, List.map_cons, List.map_take, ih, List.map_drop]

/-- The sizes of `count` pieces that are as even as possible, the larger ones first. -/
def splitSizes (length count : Nat) : List Nat :=
  List.replicate (length % count) (length / count + 1) ++
    List.replicate (count - length % count) (length / count)

theorem sum_splitSizes (length : Nat) {count : Nat} (some : 0 < count) : (splitSizes length count).sum = length := by
  have less := Nat.mod_lt length some
  have whole := Nat.div_add_mod length count
  have both : length % count + (count - length % count) = count := by omega
  calc (splitSizes length count).sum
      = length % count * (length / count + 1) + (count - length % count) * (length / count) := by
        simp [splitSizes]
    _ = (length % count + (count - length % count)) * (length / count) + length % count := by ring
    _ = length := by rw [both, whole]

/-- `np.array_split` -/
def arraySplit (items : List α) (count : Nat) : List (List α) := pieces (splitSizes items.length count) items

theorem flatten_arraySplit (items : List α) {count : Nat} (some : 0 < count) :
    (arraySplit items count).flatten = items :=
  flatten_pieces (sum_splitSizes items.length some)

theorem length_arraySplit (items : List α) {count : Nat} (some : 0 < count) :
    (arraySplit items count).length = count := by
  have less := Nat.mod_lt items.length some
  rw [arraySplit, length_pieces, splitSizes, List.length_append, List.length_replicate, List.length_replicate]
  omega

theorem arraySplit_map {β : Type*} (f : α → β) (items : List α) (count : Nat) :
    (arraySplit items count).map (List.map f) = arraySplit (items.map f) count := by
  rw [arraySplit, pieces_map, arraySplit, List.length_map]

/-! ## Combinations -/

/-- `itertools.combinations` -/
def combinations : List α → Nat → List (List α)
  | _, 0 => [[]]
  | [], _ + 1 => []
  | item :: items, r + 1 => (combinations items r).map (item :: ·) ++ combinations items (r + 1)

theorem combinations_zero (items : List α) : combinations items 0 = [[]] := by cases items <;> rfl

theorem combinations_cons (item : α) (items : List α) (r : Nat) : combinations (item :: items) (r + 1) =
    (combinations items r).map (item :: ·) ++ combinations items (r + 1) := rfl

theorem length_combinations (items : List α) (r : Nat) :
    (combinations items r).length = items.length.choose r := by
  induction items generalizing r with
  | nil => cases r <;> rfl
  | cons item items ih =>
      cases r with
      | zero => simp [combinations_zero]
      | succ r => simp [combinations_cons, ih, Nat.choose_succ_succ]

theorem sublist_of_mem_combinations {items combination : List α} {r : Nat}
    (member : combination ∈ combinations items r) : combination.Sublist items := by
  induction items generalizing r combination with
  | nil =>
      cases r with
      | zero => simp_all [combinations_zero]
      | succ r => exact absurd member List.not_mem_nil
  | cons item items ih =>
      cases r with
      | zero =>
          rw [combinations_zero, List.mem_singleton] at member
          exact member ▸ List.nil_sublist _
      | succ r =>
          rcases List.mem_append.mp member with first | later
          · obtain ⟨rest, inside, rfl⟩ := List.mem_map.mp first
            exact (ih inside).cons_cons item
          · exact (ih later).cons item

/-- How many combinations have an item: as many as there are to choose the others. -/
theorem countP_combinations [DecidableEq α] {items : List α} {a : α} (distinct : items.Nodup)
    (member : a ∈ items) (r : Nat) :
    (combinations items (r + 1)).countP (fun combination => a ∈ combination) = (items.length - 1).choose r := by
  induction items generalizing r with
  | nil => exact absurd member List.not_mem_nil
  | cons item items ih =>
      obtain ⟨fresh, rest⟩ := List.nodup_cons.mp distinct
      rw [combinations_cons, List.countP_append, List.countP_map]
      by_cases here : a = item
      · subst here
        have all : (combinations items r).countP ((fun combination => decide (a ∈ combination)) ∘ (a :: ·)) =
            (combinations items r).length := by
          apply List.countP_eq_length.mpr
          simp
        have none : (combinations items (r + 1)).countP (fun combination => decide (a ∈ combination)) = 0 := by
          apply List.countP_eq_zero.mpr
          intro combination inside found
          exact fresh ((sublist_of_mem_combinations inside).subset (of_decide_eq_true found))
        rw [all, none, length_combinations]
        rfl
      · have inside : a ∈ items := (List.mem_cons.mp member).resolve_left here
        have others : ((fun combination => decide (a ∈ combination)) ∘ (item :: ·) : List α → Bool) =
            fun combination => decide (a ∈ combination) := by
          funext combination
          simp [here]
        have some : 0 < items.length := List.length_pos_of_mem inside
        rw [others, ih rest inside r]
        cases r with
        | zero =>
            have none : (combinations items 0).countP (fun combination => decide (a ∈ combination)) = 0 := by
              simp [combinations_zero]
            simp [none]
        | succ r =>
            have pascal := Nat.choose_succ_succ (items.length - 1) r
            rw [Nat.succ_eq_add_one, Nat.sub_add_cancel some] at pascal
            rw [ih rest inside r, List.length_cons, Nat.add_sub_cancel]
            exact pascal.symm

end Senex
