import Mathlib.Data.List.Nodup
import Mathlib.Data.List.Perm.Basic

/-! # Dictionaries

A dictionary keeps its entries in the order in which their keys first came, and
has one entry a key.  Setting, erasing and listing the values are related by
permutations, which is what a sum over the values needs.
-/

namespace Senex

structure Dict (κ α : Type) where
  items : List (κ × α)
  nodup : (items.map Prod.fst).Nodup

namespace Dict

variable {κ α : Type}

def empty : Dict κ α := ⟨[], List.nodup_nil⟩

def keys (d : Dict κ α) : List κ := d.items.map Prod.fst

def values (d : Dict κ α) : List α := d.items.map Prod.snd

@[simp] theorem values_empty : (empty : Dict κ α).values = [] := rfl

section
variable [DecidableEq κ]

def lookup (key : κ) : List (κ × α) → Option α
  | [] => none
  | (k, v) :: rest => if k = key then some v else lookup key rest

def assign (key : κ) (value : α) : List (κ × α) → List (κ × α)
  | [] => [(key, value)]
  | (k, v) :: rest => if k = key then (k, value) :: rest else (k, v) :: assign key value rest

def remove (key : κ) : List (κ × α) → List (κ × α)
  | [] => []
  | (k, v) :: rest => if k = key then rest else (k, v) :: remove key rest

/-! ## Entry lists -/

theorem lookup_eq_none {key : κ} {items : List (κ × α)} :
    lookup key items = none ↔ key ∉ items.map Prod.fst := by
  induction items with
  | nil => simp [lookup]
  | cons entry rest ih =>
      obtain ⟨k, v⟩ := entry
      by_cases same : k = key
      · simp [lookup, same]
      · simp [lookup, same, ih, Ne.symm same]

theorem mem_of_lookup {key : κ} {value : α} {items : List (κ × α)}
    (found : lookup key items = some value) : (key, value) ∈ items := by
  induction items with
  | nil => simp [lookup] at found
  | cons entry rest ih =>
      obtain ⟨k, v⟩ := entry
      simp only [lookup] at found
      split at found
      · rename_i same
        obtain rfl := Option.some.inj found
        simp [same]
      · exact List.mem_cons_of_mem _ (ih found)

theorem assign_absent {key : κ} (value : α) {items : List (κ × α)}
    (absent : lookup key items = none) : assign key value items = items ++ [(key, value)] := by
  induction items with
  | nil => rfl
  | cons entry rest ih =>
      obtain ⟨k, v⟩ := entry
      by_cases same : k = key
      · simp [lookup, same] at absent
      · simp only [lookup, same, if_false] at absent
        simp [assign, same, ih absent]

theorem keys_assign_present {key : κ} (value : α) {old : α} {items : List (κ × α)}
    (present : lookup key items = some old) :
    (assign key value items).map Prod.fst = items.map Prod.fst := by
  induction items with
  | nil => simp [lookup] at present
  | cons entry rest ih =>
      obtain ⟨k, v⟩ := entry
      by_cases same : k = key
      · simp [assign, same]
      · simp only [lookup, same, if_false] at present
        simp [assign, same, ih present]

theorem nodup_assign (key : κ) (value : α) {items : List (κ × α)}
    (nodup : (items.map Prod.fst).Nodup) : ((assign key value items).map Prod.fst).Nodup := by
  cases present : lookup key items with
  | some old => rw [keys_assign_present value present]; exact nodup
  | none =>
      rw [assign_absent value present, List.map_append]
      apply List.Nodup.append nodup (List.nodup_singleton _)
      simpa using lookup_eq_none.mp present

theorem remove_sublist (key : κ) (items : List (κ × α)) : (remove key items).Sublist items := by
  induction items with
  | nil => exact List.Sublist.refl _
  | cons entry rest ih =>
      obtain ⟨k, v⟩ := entry
      by_cases same : k = key
      · simp only [remove, same, if_true]
        exact List.sublist_cons_self _ _
      · simp only [remove, same, if_false]
        exact ih.cons_cons _

theorem perm_remove {key : κ} {value : α} {items : List (κ × α)}
    (present : lookup key items = some value) : items.Perm ((key, value) :: remove key items) := by
  induction items with
  | nil => simp [lookup] at present
  | cons entry rest ih =>
      obtain ⟨k, v⟩ := entry
      by_cases same : k = key
      · simp only [lookup, same, if_true, Option.some.injEq] at present
        simp [remove, same, present]
      · simp only [lookup, same, if_false] at present
        simp only [remove, same, if_false]
        exact ((ih present).cons _).trans (List.Perm.swap _ _ _)

theorem assign_present {key : κ} {value old : α} {items : List (κ × α)}
    (present : lookup key items = some old) :
    (assign key value items).Perm ((key, value) :: remove key items) := by
  induction items with
  | nil => simp [lookup] at present
  | cons entry rest ih =>
      obtain ⟨k, v⟩ := entry
      by_cases same : k = key
      · simp [assign, remove, same]
      · simp only [lookup, same, if_false] at present
        simp only [assign, remove, same, if_false]
        exact ((ih present).cons _).trans (List.Perm.swap _ _ _)

theorem assign_split {key : κ} (value : α) {old : α} {items : List (κ × α)}
    (present : lookup key items = some old) : ∃ front back,
    items = front ++ (key, old) :: back ∧ assign key value items = front ++ (key, value) :: back := by
  induction items with
  | nil => simp [lookup] at present
  | cons entry rest ih =>
      obtain ⟨k, v⟩ := entry
      by_cases same : k = key
      · simp only [lookup, same, if_true, Option.some.injEq] at present
        exact ⟨[], rest, by simp [present, same], by simp [assign, same]⟩
      · simp only [lookup, same, if_false] at present
        obtain ⟨front, back, before, behind⟩ := ih present
        exact ⟨(k, v) :: front, back, by simp [before], by simp [assign, same, behind]⟩

/-! ## Operations -/

/-- `d.get(key)` -/
def get? (d : Dict κ α) (key : κ) : Option α := lookup key d.items

/-- `d[key] = value` -/
def set (d : Dict κ α) (key : κ) (value : α) : Dict κ α :=
  ⟨assign key value d.items, nodup_assign key value d.nodup⟩

/-- `del d[key]` of a key that is there. -/
def erase (d : Dict κ α) (key : κ) : Dict κ α :=
  ⟨remove key d.items, ((remove_sublist key d.items).map _).nodup d.nodup⟩

variable {d : Dict κ α} {key other : κ} {value old : α}

@[simp] theorem get?_empty : (empty : Dict κ α).get? key = none := rfl

@[simp] theorem get?_set_self : (d.set key value).get? key = some value := by
  simp only [get?, set]
  induction d.items with
  | nil => simp [assign, lookup]
  | cons entry rest ih =>
      obtain ⟨k, v⟩ := entry
      by_cases same : k = key
      · simp [assign, lookup, same]
      · simp [assign, lookup, same, ih]

theorem get?_set_of_ne (different : other ≠ key) : (d.set key value).get? other = d.get? other := by
  simp only [get?, set]
  induction d.items with
  | nil => simp [assign, lookup, Ne.symm different]
  | cons entry rest ih =>
      obtain ⟨k, v⟩ := entry
      by_cases same : k = key
      · simp [assign, lookup, same, Ne.symm different]
      · by_cases there : k = other
        · simp [assign, lookup, there, different]
        · simp [assign, lookup, same, there, ih]

@[simp] theorem get?_erase_self : (d.erase key).get? key = none := by
  obtain ⟨items, nodup⟩ := d
  simp only [get?, erase]
  induction items with
  | nil => rfl
  | cons entry rest ih =>
      obtain ⟨k, v⟩ := entry
      rw [List.map_cons, List.nodup_cons] at nodup
      by_cases same : k = key
      · subst same
        simpa [remove] using lookup_eq_none.mpr nodup.1
      · simpa [remove, lookup, same] using ih nodup.2

theorem get?_erase_of_ne (different : other ≠ key) : (d.erase key).get? other = d.get? other := by
  simp only [get?, erase]
  induction d.items with
  | nil => rfl
  | cons entry rest ih =>
      obtain ⟨k, v⟩ := entry
      by_cases same : k = key
      · simp [remove, lookup, same, Ne.symm different]
      · by_cases there : k = other
        · simp [remove, lookup, there, different]
        · simp [remove, lookup, same, there, ih]

theorem mem_values_of_get? (found : d.get? key = some value) : value ∈ d.values :=
  List.mem_map_of_mem (mem_of_lookup found)

theorem get?_of_mem (member : (key, value) ∈ d.items) : d.get? key = some value := by
  obtain ⟨items, nodup⟩ := d
  simp only [get?]
  induction items with
  | nil => cases member
  | cons entry rest ih =>
      rw [List.map_cons, List.nodup_cons] at nodup
      rcases List.mem_cons.mp member with rfl | inside
      · simp [lookup]
      · have different : entry.1 ≠ key := fun same =>
          nodup.1 (same ▸ List.mem_map_of_mem (f := Prod.fst) inside)
        simpa [lookup, different] using ih nodup.2 inside

theorem get?_isSome_iff : (d.get? key).isSome = true ↔ key ∈ d.items.map Prod.fst := by
  rw [Option.isSome_iff_ne_none, ne_eq, get?, lookup_eq_none, not_not]

theorem items_set_absent (absent : d.get? key = none) : (d.set key value).items = d.items ++ [(key, value)] :=
  assign_absent value absent

theorem values_set_absent (absent : d.get? key = none) :
    (d.set key value).values = d.values ++ [value] := by
  have shape := assign_absent value absent
  simp only [values, set, shape, List.map_append, List.map_cons, List.map_nil]

/-- A new value stands where the old one stood. -/
theorem values_set_split (present : d.get? key = some old) : ∃ front back,
    d.values = front ++ old :: back ∧ (d.set key value).values = front ++ value :: back := by
  obtain ⟨front, back, before, behind⟩ := assign_split value present
  exact ⟨front.map Prod.snd, back.map Prod.snd, by simp [values, before], by simp [values, set, behind]⟩

theorem values_perm_erase (present : d.get? key = some value) :
    d.values.Perm (value :: (d.erase key).values) :=
  (perm_remove present).map Prod.snd

theorem values_set_present (present : d.get? key = some old) :
    (d.set key value).values.Perm (value :: (d.erase key).values) :=
  (assign_present present).map Prod.snd

theorem set_set (d : Dict κ α) (key : κ) (first second : α) :
    (d.set key first).set key second = d.set key second := by
  simp only [set, mk.injEq]
  induction d.items with
  | nil => simp [assign]
  | cons entry rest ih =>
      obtain ⟨k, v⟩ := entry
      by_cases same : k = key
      · simp [assign, same]
      · simp [assign, same, ih]

theorem mem_values_set {v : α} (member : v ∈ (d.set key value).values) :
    v = value ∨ v ∈ d.values := by
  cases present : d.get? key with
  | none =>
      rw [values_set_absent present, List.mem_append, List.mem_singleton] at member
      exact member.symm
  | some old =>
      rcases List.mem_cons.mp ((values_set_present present).mem_iff.mp member) with rfl | kept
      · exact .inl rfl
      · exact .inr ((values_perm_erase present).mem_iff.mpr (List.mem_cons_of_mem _ kept))

theorem mem_values_erase {v : α} (member : v ∈ (d.erase key).values) : v ∈ d.values :=
  (((remove_sublist key d.items).map Prod.snd).subset) member

end

/-! ## A property of every entry -/

/-- Every entry has the property. -/
def Every (property : κ → α → Prop) (d : Dict κ α) : Prop := ∀ entry ∈ d.items, property entry.1 entry.2

theorem every_empty (property : κ → α → Prop) : Every property empty := by
  intro entry member
  cases member

theorem Every.values {property : κ → α → Prop} {d : Dict κ α} (every : d.Every property) {v : α} (member : v ∈ d.values) :
    ∃ k, property k v := by
  obtain ⟨entry, there, rfl⟩ := List.mem_map.mp member
  exact ⟨entry.1, every entry there⟩

section
variable [DecidableEq κ] {property : κ → α → Prop} {d : Dict κ α} {key : κ} {value : α}

theorem Every.get? (every : d.Every property) (found : d.get? key = some value) : property key value :=
  every _ (mem_of_lookup found)

theorem Every.set (every : d.Every property) (holds : property key value) :
    (d.set key value).Every property := by
  intro entry member
  cases present : lookup key d.items with
  | none =>
      have shape : (d.set key value).items = d.items ++ [(key, value)] := assign_absent value present
      rw [shape, List.mem_append, List.mem_singleton] at member
      rcases member with kept | rfl
      · exact every entry kept
      · exact holds
  | some old =>
      rcases List.mem_cons.mp ((assign_present present).mem_iff.mp member) with rfl | kept
      · exact holds
      · exact every entry ((remove_sublist key d.items).subset kept)

theorem Every.erase (every : d.Every property) : (d.erase key).Every property :=
  fun entry member => every entry ((remove_sublist key d.items).subset member)

end

end Dict

end Senex
