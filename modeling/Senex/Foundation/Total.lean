import Mathlib.Algebra.Order.BigOperators.Group.List
import Mathlib.Data.Rat.Cast.Order
import Mathlib.Tactic.Linarith
import Mathlib.Tactic.Ring
import Senex.Foundation.Dict

/-! # Totals

The total of a quantity over a list, and over the values of a dictionary that is
set and erased.
-/

namespace Senex

section
variable {α : Type}

def total (f : α → ℚ) (items : List α) : ℚ := (items.map f).sum

@[simp] theorem total_nil (f : α → ℚ) : total f [] = 0 := rfl

@[simp] theorem total_cons (f : α → ℚ) (a : α) (items : List α) :
    total f (a :: items) = f a + total f items := by
  simp [total]

@[simp] theorem total_append (f : α → ℚ) (first second : List α) :
    total f (first ++ second) = total f first + total f second := by
  simp [total]

theorem total_perm (f : α → ℚ) {first second : List α} (perm : first.Perm second) :
    total f first = total f second :=
  (perm.map f).sum_eq

theorem total_congr {f g : α → ℚ} {items : List α} (same : ∀ a ∈ items, f a = g a) :
    total f items = total g items := by
  rw [total, List.map_congr_left same, total]

theorem total_add (f g : α → ℚ) (items : List α) :
    total (fun a => f a + g a) items = total f items + total g items := by
  induction items with
  | nil => simp
  | cons a items ih =>
      simp only [total_cons, ih]
      ring

theorem total_sub (f g : α → ℚ) (items : List α) :
    total (fun a => f a - g a) items = total f items - total g items := by
  induction items with
  | nil => simp
  | cons a items ih =>
      simp only [total_cons, ih]
      ring

theorem total_nonneg {f : α → ℚ} {items : List α} (nonneg : ∀ a ∈ items, 0 ≤ f a) : 0 ≤ total f items := by
  apply List.sum_nonneg
  intro q member
  obtain ⟨a, there, rfl⟩ := List.mem_map.mp member
  exact nonneg a there

variable {κ : Type} [DecidableEq κ]

theorem total_set_absent (f : α → ℚ) {d : Dict κ α} {key : κ} (value : α) (absent : d.get? key = none) :
    total f (d.set key value).values = total f d.values + f value := by
  rw [Dict.values_set_absent absent, total_append, total_cons, total_nil, add_zero]

theorem total_set_present (f : α → ℚ) {d : Dict κ α} {key : κ} {old : α} (value : α)
    (present : d.get? key = some old) :
    total f (d.set key value).values = total f d.values - f old + f value := by
  rw [total_perm f (Dict.values_set_present present), total_perm f (Dict.values_perm_erase present)]
  simp only [total_cons]
  ring

theorem total_erase (f : α → ℚ) {d : Dict κ α} {key : κ} {old : α} (present : d.get? key = some old) :
    total f (d.erase key).values = total f d.values - f old := by
  rw [total_perm f (Dict.values_perm_erase present), total_cons]
  ring

end

end Senex
