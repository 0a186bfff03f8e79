import Mathlib.Data.List.Sort
import Mathlib.Data.List.Basic
import Mathlib.Data.Prod.Lex

/-! # Stable sorting by a key

`sorted(items, key=key)` keeps the order of equal keys.  What comes out depends on the
order of the items only where two of them share a key.
-/

namespace Senex

variable {α κ : Type*} [LinearOrder κ]

/-- `sorted(items, key=key)` -/
def sortedBy (key : α → κ) (items : List α) : List α :=
  items.insertionSort fun a b => key a ≤ key b

variable (key : α → κ)

theorem sortedBy_perm (items : List α) : (sortedBy key items).Perm items :=
  List.perm_insertionSort _ items

@[simp] theorem mem_sortedBy {items : List α} {a : α} : a ∈ sortedBy key items ↔ a ∈ items :=
  (sortedBy_perm key items).mem_iff

@[simp] theorem length_sortedBy (items : List α) : (sortedBy key items).length = items.length :=
  (sortedBy_perm key items).length_eq

/-- One item stands before another: by its key, and at one key by the order of the input. -/
def Precedes (before : α → α → Prop) (a b : α) : Prop := key a < key b ∨ key a = key b ∧ before a b

variable {key}

theorem Precedes.le {before : α → α → Prop} {a b : α} (h : Precedes key before a b) : key a ≤ key b := by
  rcases h with less | ⟨same, _⟩
  · exact less.le
  · exact same.le

/-- An item that comes first in the input goes before all that have its key. -/
theorem pairwise_orderedInsert {before : α → α → Prop} {a : α} {items : List α}
    (first : ∀ b ∈ items, before a b) (sorted : items.Pairwise (Precedes key before)) :
    (items.orderedInsert (fun a b => key a ≤ key b) a).Pairwise (Precedes key before) := by
  induction items with
  | nil => simp
  | cons b items ih =>
      obtain ⟨least, rest⟩ := List.pairwise_cons.mp sorted
      rw [List.orderedInsert_cons]
      split
      · rename_i le
        refine List.pairwise_cons.mpr ⟨fun c member => ?_, sorted⟩
        have above : key a ≤ key c := by
          rcases List.mem_cons.mp member with rfl | inside
          · exact le
          · exact le.trans (least c inside).le
        rcases above.lt_or_eq with less | same
        · exact .inl less
        · exact .inr ⟨same, first c member⟩
      · rename_i notLe
        refine List.pairwise_cons.mpr ⟨fun c member => ?_, ih (fun c inside => first c (.tail _ inside)) rest⟩
        rcases (List.mem_orderedInsert _).mp member with rfl | inside
        · exact .inl (not_le.mp notLe)
        · exact least c inside

/-- The sort is stable. -/
theorem pairwise_sortedBy {before : α → α → Prop} {items : List α} (input : items.Pairwise before) :
    (sortedBy key items).Pairwise (Precedes key before) := by
  induction items with
  | nil => exact .nil
  | cons a items ih =>
      obtain ⟨first, rest⟩ := List.pairwise_cons.mp input
      refine pairwise_orderedInsert (fun b member => ?_) (ih rest)
      exact first b ((List.mem_insertionSort _).mp member)

theorem sorted_sortedBy (items : List α) : (sortedBy key items).Pairwise fun a b => key a ≤ key b := by
  have sorted : (sortedBy key items).Pairwise (Precedes key fun _ _ => True) :=
    pairwise_sortedBy (List.pairwise_of_forall fun _ _ => trivial)
  exact sorted.imp Precedes.le

theorem orderedInsert_congr {r s : α → α → Prop} [DecidableRel r] [DecidableRel s] {a : α} {items : List α}
    (same : ∀ b ∈ items, r a b ↔ s a b) : items.orderedInsert r a = items.orderedInsert s a := by
  induction items with
  | nil => rfl
  | cons b items ih =>
      have rest := ih fun c member => same c (.tail _ member)
      by_cases first : r a b
      · rw [List.orderedInsert_cons, List.orderedInsert_cons, if_pos first, if_pos ((same b (.head _)).mp first)]
      · have second : ¬s a b := fun h => first ((same b (.head _)).mpr h)
        rw [List.orderedInsert_cons, List.orderedInsert_cons, if_neg first, if_neg second, rest]

/-- Keys that order the items alike sort them alike. -/
theorem sortedBy_congr {κ' : Type*} [LinearOrder κ'] {key' : α → κ'} {items : List α}
    (same : ∀ a ∈ items, ∀ b ∈ items, key a ≤ key b ↔ key' a ≤ key' b) : sortedBy key items = sortedBy key' items := by
  induction items with
  | nil => rfl
  | cons a items ih =>
      have rest : sortedBy key items = sortedBy key' items :=
        ih fun b first c second => same b (.tail _ first) c (.tail _ second)
      have inserted : (sortedBy key' items).orderedInsert (fun a b => key a ≤ key b) a =
          (sortedBy key' items).orderedInsert (fun a b => key' a ≤ key' b) a :=
        orderedInsert_congr fun b member => same a (.head _) b (.tail _ ((mem_sortedBy key').mp member))
      rw [← rest] at inserted
      rw [sortedBy, List.insertionSort_cons, sortedBy, List.insertionSort_cons]
      exact inserted.trans (by rw [rest]; rfl)

/-- Items that are numbered in the order of the input stand in the order of key and number. -/
theorem pairwise_sortedBy_zipIdx (score : α → κ) (items : List α) :
    (sortedBy (fun item => score item.1) items.zipIdx).Pairwise fun a b =>
      toLex (score a.1, a.2) < toLex (score b.1, b.2) := by
  have numbered : items.zipIdx.Pairwise fun a b => a.2 < b.2 := by
    have numbers : (items.zipIdx.map Prod.snd).Pairwise (· < ·) := by
      rw [List.zipIdx_map_snd]
      exact List.pairwise_lt_range'
    exact List.pairwise_map.mp numbers
  refine (pairwise_sortedBy numbered).imp fun {a b} precedes => ?_
  exact Prod.Lex.toLex_lt_toLex.mpr precedes

/-! ## Writing back at the places the sort took the items from -/

/-- `values[place] = value` for each entry. -/
def scatter {β : Type*} (entries : List (Nat × β)) (values : List β) : List β :=
  entries.foldl (fun current entry => current.set entry.1 entry.2) values

theorem getElem?_scatter {β : Type*} {target : List β} {entries : List (Nat × β)}
    (right : ∀ entry ∈ entries, target[entry.1]? = some entry.2) {values : List β}
    (length : values.length = target.length) {place : Nat}
    (known : values[place]? = target[place]? ∨ ∃ entry ∈ entries, entry.1 = place) :
    (scatter entries values)[place]? = target[place]? := by
  induction entries generalizing values with
  | nil => exact known.resolve_right (by simp)
  | cons entry entries ih =>
      refine ih (fun e member => right e (.tail _ member)) (by simpa using length) ?_
      by_cases here : entry.1 = place
      · have written : target[entry.1]? = some entry.2 := right entry (.head _)
        obtain ⟨inside, -⟩ := List.getElem?_eq_some_iff.mp written
        subst here
        exact .inl (by rw [List.getElem?_set_self (by omega), written])
      · rw [List.getElem?_set_ne here]
        grind

/-- Every place gets its item's value, in whatever order the items come. -/
theorem scatter_eq_map {β : Type*} {items : List α} {order : List (α × Nat)}
    (same : order.Perm items.zipIdx) (value : α × Nat → β) {values : List β}
    (length : values.length = items.length) :
    scatter (order.map fun item => (item.2, value item)) values = items.zipIdx.map value := by
  have placed {item : α × Nat} (member : item ∈ items.zipIdx) :
      (items.zipIdx.map value)[item.2]? = some (value item) := by
    have here : items[item.2]? = some item.1 := List.mk_mem_zipIdx_iff_getElem?.mp member
    simp [here]
  refine List.ext_getElem? fun place => ?_
  apply getElem?_scatter
  · rintro entry member
    obtain ⟨item, inside, rfl⟩ := List.mem_map.mp member
    exact placed (same.mem_iff.mp inside)
  · simpa using length
  · by_cases inside : place < items.length
    · right
      have member : (items[place], place) ∈ items.zipIdx :=
        List.mk_mem_zipIdx_iff_getElem?.mpr (List.getElem?_eq_getElem inside)
      exact ⟨_, List.mem_map_of_mem (same.mem_iff.mpr member), rfl⟩
    · left
      simp [not_lt.mp inside, length]

end Senex
