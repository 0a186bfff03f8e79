import Senex.Foundation.Json

/-! # Fields of a document

A field is named by the keys that lead to it from the root, and `Carries` says that a member stands
somewhere in a document, below any number of objects and arrays.  Removing the members under some keys
at every depth leaves the fields under the other keys where they were.
-/

namespace Senex.Json

/-! ## Fields -/

/-- The value under these keys, each inside the one before. -/
def field? : List Text → Json → Option Json
  | [], j => some j
  | key :: path, j => (j.get? key).bind (field? path)

@[simp] theorem field?_nil (j : Json) : j.field? [] = some j := rfl

@[simp] theorem field?_cons (key : Text) (path : List Text) (j : Json) :
    j.field? (key :: path) = (j.get? key).bind (field? path) := rfl

theorem field?_congr {a b : Json} {key : Text} (same : a.get? key = b.get? key) (path : List Text) :
    a.field? (key :: path) = b.field? (key :: path) := by
  rw [field?_cons, same, field?_cons]

theorem get?_without (dropped : List Text) (key : Text) (j : Json) :
    (j.without dropped).get? key = if dropped.contains key then none else j.get? key := by
  cases j with
  | obj members =>
      simp only [without, get?]
      induction members with
      | nil => simp [lookup]
      | cons m members ih =>
          obtain ⟨k, v⟩ := m
          by_cases same : key = k
          · subst same
            cases gone : dropped.contains key with
            | false => simp only [List.filter_cons, gone, lookup, Bool.not_false, if_true, Bool.false_eq_true, if_false]
            | true => simpa only [List.filter_cons, gone, Bool.not_true, Bool.false_eq_true, if_false, if_true] using ih
          · rw [List.filter_cons]
            split
            · rw [lookup, if_neg same, ih, lookup, if_neg same]
            · rw [ih, lookup, if_neg same]
  | _ => simp [without, get?]

theorem get?_ofMembers_of_distinct {members : List (Text × Json)} (distinct : (members.map Prod.fst).Nodup)
    (key : Text) : (ofMembers members).get? key = lookup key members := by
  have reversed : (members.reverse.map Prod.fst).Nodup := by
    rw [List.map_reverse, List.nodup_reverse]
    exact distinct
  rw [get?_ofMembers]
  apply Option.ext
  intro value
  rw [lookup_eq_some_iff reversed, lookup_eq_some_iff distinct, List.mem_reverse]

/-! ## Members at any depth -/

/-- Somewhere in the document a member has this key and this value. -/
inductive Carries : Json → Text → Json → Prop where
  | here {members : List (Text × Json)} {key : Text} {value : Json} (inside : (key, value) ∈ members) :
      Carries (.obj members) key value
  | member {members : List (Text × Json)} {k key : Text} {child value : Json} (inside : (k, child) ∈ members)
      (below : Carries child key value) : Carries (.obj members) key value
  | item {items : List Json} {child : Json} {key : Text} {value : Json} (inside : child ∈ items)
      (below : Carries child key value) : Carries (.arr items) key value

theorem carries_obj {key : Text} {value : Json} {members : List (Text × Json)} :
    Carries (.obj members) key value ↔ ∃ m ∈ members, m = (key, value) ∨ m.2.Carries key value := by
  constructor
  · intro carries
    cases carries with
    | here inside => exact ⟨_, inside, Or.inl rfl⟩
    | member inside below => exact ⟨_, inside, Or.inr below⟩
  · rintro ⟨m, inside, rfl | below⟩
    · exact .here inside
    · exact .member inside below

theorem carries_arr {key : Text} {value : Json} {items : List Json} :
    Carries (.arr items) key value ↔ ∃ child ∈ items, child.Carries key value := by
  constructor
  · intro carries
    cases carries with
    | item inside below => exact ⟨_, inside, below⟩
  · rintro ⟨child, inside, below⟩
    exact .item inside below

end Senex.Json
