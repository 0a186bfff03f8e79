import Mathlib.Data.List.Basic

/-! # Objects and shallow copies

A heap of records, each with fields of its own and a reference to a list.  A shallow copy of a record
has the same list, so an entry that is added through one of them is seen through both.
-/

namespace Senex

structure Objects (F E : Type) where
  records : List (F × Nat)
  lists : List (List E)

namespace Objects

variable {F E : Type}

/-- The fields of a record and the list it refers to. -/
def read (o : Objects F E) (r : Nat) : Option (F × List E) :=
  o.records[r]?.bind fun record => o.lists[record.2]?.map fun entries => (record.1, entries)

def listOf (o : Objects F E) (r : Nat) : Option Nat := o.records[r]?.map Prod.snd

/-- The reference that the next record gets. -/
def next (o : Objects F E) : Nat := o.records.length

/-- A record with a list of its own. -/
def alloc (o : Objects F E) (fields : F) (entries : List E) : Objects F E :=
  ⟨o.records ++ [(fields, o.lists.length)], o.lists ++ [entries]⟩

/-- A shallow copy of a record. -/
def copy (o : Objects F E) (r : Nat) : Objects F E := ⟨o.records ++ (o.records[r]?).toList, o.lists⟩

/-- New fields for a record, and an entry at the end of its list. -/
def extend (o : Objects F E) (r : Nat) (fields : F → F) (entry : E) : Objects F E :=
  match o.records[r]? with
  | some record =>
      ⟨o.records.set r (fields record.1, record.2), o.lists.modify record.2 (· ++ [entry])⟩
  | none => o

theorem listOf_eq (o : Objects F E) (r : Nat) : o.listOf r = o.records[r]?.map Prod.snd := rfl

theorem next_eq (o : Objects F E) : o.next = o.records.length := rfl

theorem alloc_eq (o : Objects F E) (fields : F) (entries : List E) :
    o.alloc fields entries = ⟨o.records ++ [(fields, o.lists.length)], o.lists ++ [entries]⟩ := rfl

theorem copy_eq (o : Objects F E) (r : Nat) : o.copy r = ⟨o.records ++ (o.records[r]?).toList, o.lists⟩ := rfl

theorem read_eq (o : Objects F E) (r : Nat) :
    o.read r = o.records[r]?.bind fun record => o.lists[record.2]?.map fun entries => (record.1, entries) := rfl

theorem read_eq_some {o : Objects F E} {r : Nat} {fields : F} {entries : List E} :
    o.read r = some (fields, entries) ↔
      ∃ l, o.records[r]? = some (fields, l) ∧ o.lists[l]? = some entries := by
  simp only [read_eq, Option.bind_eq_some_iff, Option.map_eq_some_iff, Prod.mk.injEq]
  constructor
  · rintro ⟨⟨f, l⟩, found, es, held, rfl, rfl⟩
    exact ⟨l, found, held⟩
  · rintro ⟨l, found, held⟩
    exact ⟨(fields, l), found, entries, held, rfl, rfl⟩

theorem lt_next {o : Objects F E} {r : Nat} {v : F × List E} (held : o.read r = some v) : r < o.next := by
  obtain ⟨l, found, -⟩ := read_eq_some.mp held
  exact (List.getElem?_eq_some_iff.mp found).1

/-! ## New records -/

theorem read_alloc (o : Objects F E) (fields : F) (entries : List E) :
    (o.alloc fields entries).read o.next = some (fields, entries) := by
  simp [read_eq, alloc_eq, next_eq]

theorem read_alloc_old {o : Objects F E} {r : Nat} {v : F × List E} (held : o.read r = some v) (fields : F)
    (entries : List E) : (o.alloc fields entries).read r = some v := by
  obtain ⟨l, found, list⟩ := read_eq_some.mp held
  obtain ⟨inside, -⟩ := List.getElem?_eq_some_iff.mp found
  obtain ⟨within, -⟩ := List.getElem?_eq_some_iff.mp list
  refine read_eq_some.mpr ⟨l, ?_, ?_⟩
  · rw [alloc_eq, List.getElem?_append_left inside, found]
  · rw [alloc_eq, List.getElem?_append_left within, list]

/-- The list of a new record is no other record's. -/
theorem listOf_alloc {o : Objects F E} {r : Nat} {v : F × List E} (held : o.read r = some v) (fields : F)
    (entries : List E) : (o.alloc fields entries).listOf o.next ≠ (o.alloc fields entries).listOf r := by
  obtain ⟨l, found, list⟩ := read_eq_some.mp held
  obtain ⟨inside, -⟩ := List.getElem?_eq_some_iff.mp found
  obtain ⟨within, -⟩ := List.getElem?_eq_some_iff.mp list
  simp only [listOf_eq, alloc_eq, next_eq, List.getElem?_append_left inside, found, List.getElem?_concat_length,
    Option.map_some, ne_eq, Option.some.injEq]
  omega

theorem read_copy {o : Objects F E} {r : Nat} {v : F × List E} (held : o.read r = some v) :
    (o.copy r).read o.next = some v := by
  obtain ⟨l, found, list⟩ := read_eq_some.mp held
  exact read_eq_some.mpr ⟨l, by simp [copy_eq, next_eq, found], list⟩

theorem read_copy_old {o : Objects F E} {r s : Nat} {v : F × List E} (held : o.read s = some v) :
    (o.copy r).read s = some v := by
  obtain ⟨l, found, list⟩ := read_eq_some.mp held
  obtain ⟨inside, -⟩ := List.getElem?_eq_some_iff.mp found
  exact read_eq_some.mpr ⟨l, by rw [copy_eq, List.getElem?_append_left inside, found], list⟩

/-- A copy has the list of its original. -/
theorem listOf_copy {o : Objects F E} {r : Nat} {v : F × List E} (held : o.read r = some v) :
    (o.copy r).listOf o.next = (o.copy r).listOf r := by
  obtain ⟨l, found, -⟩ := read_eq_some.mp held
  obtain ⟨inside, -⟩ := List.getElem?_eq_some_iff.mp found
  simp [listOf_eq, copy_eq, next_eq, found, List.getElem?_append_left inside]

/-! ## Entries -/

theorem extend_none {o : Objects F E} {r : Nat} (missing : o.records[r]? = none) (fields : F → F) (entry : E) :
    o.extend r fields entry = o := by
  rw [extend, missing]

theorem extend_eq {o : Objects F E} {r : Nat} {f : F} {l : Nat} (found : o.records[r]? = some (f, l))
    (fields : F → F) (entry : E) : o.extend r fields entry =
      ⟨o.records.set r (fields f, l), o.lists.modify l (· ++ [entry])⟩ := by
  rw [extend, found]

@[simp] theorem listOf_extend (o : Objects F E) (r s : Nat) (fields : F → F) (entry : E) :
    (o.extend r fields entry).listOf s = o.listOf s := by
  cases found : o.records[r]? with
  | none => rw [extend_none found]
  | some record =>
      obtain ⟨f, l⟩ := record
      rw [extend_eq found]
      by_cases same : r = s
      · subst same
        obtain ⟨inside, -⟩ := List.getElem?_eq_some_iff.mp found
        rw [listOf_eq, List.getElem?_set_self inside, listOf_eq, found]
        rfl
      · rw [listOf_eq, List.getElem?_set_ne same, listOf_eq]

theorem read_extend {o : Objects F E} {r : Nat} {f : F} {entries : List E} (held : o.read r = some (f, entries))
    (fields : F → F) (entry : E) : (o.extend r fields entry).read r = some (fields f, entries ++ [entry]) := by
  obtain ⟨l, found, list⟩ := read_eq_some.mp held
  obtain ⟨inside, -⟩ := List.getElem?_eq_some_iff.mp found
  rw [extend_eq found]
  exact read_eq_some.mpr ⟨l, List.getElem?_set_self inside, by simp [list]⟩

/-- Another record with the same list has the entry too. -/
theorem read_extend_shared {o : Objects F E} {r s : Nat} {f : F} {entries : List E}
    (held : o.read s = some (f, entries)) (apart : r ≠ s) (shared : o.listOf r = o.listOf s) (fields : F → F)
    (entry : E) : (o.extend r fields entry).read s = some (f, entries ++ [entry]) := by
  obtain ⟨l, found, list⟩ := read_eq_some.mp held
  rw [listOf_eq, listOf_eq, found] at shared
  obtain ⟨⟨g, m⟩, place, same⟩ := Option.map_eq_some_iff.mp shared
  cases same
  rw [extend_eq place]
  exact read_eq_some.mpr ⟨l, by rw [List.getElem?_set_ne apart, found], by simp [list]⟩

/-- A record with another list is left as it was. -/
theorem read_extend_apart {o : Objects F E} {r s : Nat} {v : F × List E} (held : o.read s = some v)
    (apart : o.listOf r ≠ o.listOf s) (fields : F → F) (entry : E) :
    (o.extend r fields entry).read s = some v := by
  obtain ⟨l, found, list⟩ := read_eq_some.mp held
  cases place : o.records[r]? with
  | none => rw [extend_none place, held]
  | some record =>
      obtain ⟨g, m⟩ := record
      have other : r ≠ s := by
        rintro rfl
        exact apart rfl
      have lists : m ≠ l := by
        rintro rfl
        exact apart (by simp [listOf_eq, found, place])
      rw [extend_eq place]
      refine read_eq_some.mpr ⟨l, by rw [List.getElem?_set_ne other, found], ?_⟩
      simp [lists, list]

/-! ## Several entries -/

/-- One record extended once for each item. -/
def extendAll {I : Type} (o : Objects F E) (r : Nat) (fields : I → F → F) (entry : I → E) (items : List I) :
    Objects F E :=
  items.foldl (fun o item => o.extend r (fields item) (entry item)) o

section
variable {I : Type} {fields : I → F → F} {entry : I → E}

@[simp] theorem listOf_extendAll (o : Objects F E) (r s : Nat) (items : List I) :
    (o.extendAll r fields entry items).listOf s = o.listOf s := by
  induction items generalizing o with
  | nil => rfl
  | cons item items ih => exact (ih _).trans (o.listOf_extend r s _ _)

theorem read_extendAll {o : Objects F E} {r : Nat} {v : F × List E} (held : o.read r = some v)
    (items : List I) :
    (o.extendAll r fields entry items).read r =
      some (items.foldl (fun v item => (fields item v.1, v.2 ++ [entry item])) v) := by
  induction items generalizing o v with
  | nil => exact held
  | cons item items ih => exact ih (read_extend held _ _)

theorem read_extendAll_shared {o : Objects F E} {r s : Nat} {f : F} {entries : List E}
    (held : o.read s = some (f, entries)) (apart : r ≠ s) (shared : o.listOf r = o.listOf s) (items : List I) :
    (o.extendAll r fields entry items).read s = some (f, entries ++ items.map entry) := by
  induction items generalizing o entries with
  | nil => simpa [extendAll] using held
  | cons item items ih =>
      have step := ih (read_extend_shared held apart shared (fields item) (entry item)) (by simpa using shared)
      simpa [extendAll] using step

theorem read_extendAll_apart {o : Objects F E} {r s : Nat} {v : F × List E} (held : o.read s = some v)
    (apart : o.listOf r ≠ o.listOf s) (items : List I) :
    (o.extendAll r fields entry items).read s = some v := by
  induction items generalizing o with
  | nil => exact held
  | cons item items ih =>
      exact ih (read_extend_apart held apart _ _) (by simpa using apart)

end

end Objects

end Senex
