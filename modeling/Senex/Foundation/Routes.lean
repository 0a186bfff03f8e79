import Mathlib.Data.List.Chain
import Mathlib.Logic.Relation

/-! # Routes

The vertices passed on the way from one vertex to another, both included.
-/

namespace Senex

variable {V : Type} {step : V → V → Prop} {source target : V} {path : List V}

structure Route (step : V → V → Prop) (source target : V) (path : List V) : Prop where
  starts : path.head? = some source
  linked : path.IsChain step
  ends : path.getLast? = some target

theorem route_self (step : V → V → Prop) (v : V) : Route step v v [v] := ⟨rfl, .singleton v, rfl⟩

theorem Route.ne_nil (route : Route step source target path) : path ≠ [] := by
  rintro rfl
  have starts := route.starts
  simp at starts

theorem Route.eq_cons (route : Route step source target path) : path = source :: path.tail := by
  cases path with
  | nil => exact absurd rfl route.ne_nil
  | cons first rest =>
      obtain rfl : first = source := by simpa using route.starts
      rfl

theorem Route.concat (route : Route step source target path) {v : V} (edge : step target v) :
    Route step source v (path ++ [v]) := by
  refine ⟨?_, ?_, by simp⟩
  · rw [List.head?_append_of_ne_nil _ route.ne_nil]
    exact route.starts
  · refine List.isChain_append.mpr ⟨route.linked, .singleton v, ?_⟩
    intro last found next same
    rw [route.ends] at found
    cases found
    cases same
    exact edge

/-- A route is a vertex alone, or a shorter route and one step. -/
theorem route_concat_iff {v : V} : Route step source target (path ++ [v]) ↔
    v = target ∧ (path = [] ∧ source = v ∨ ∃ u, Route step source u path ∧ step u v) := by
  constructor
  · intro route
    obtain rfl : v = target := by simpa using route.ends
    refine ⟨rfl, ?_⟩
    cases last : path.getLast? with
    | none =>
        obtain rfl : path = [] := List.getLast?_eq_none_iff.mp last
        exact .inl ⟨rfl, by simpa [eq_comm] using route.starts⟩
    | some u =>
        have some : path ≠ [] := by
          rintro rfl
          simp at last
        obtain ⟨linked, -, joined⟩ := List.isChain_append.mp route.linked
        have starts := route.starts
        rw [List.head?_append_of_ne_nil _ some] at starts
        exact .inr ⟨u, ⟨starts, linked, last⟩, joined u last v rfl⟩
  · rintro ⟨rfl, ⟨rfl, rfl⟩ | ⟨u, route, edge⟩⟩
    · exact route_self step _
    · exact route.concat edge

/-- There is a route where steps lead from one vertex to the other. -/
theorem exists_route_iff : (∃ path, Route step source target path) ↔ Relation.ReflTransGen step source target := by
  constructor
  · intro ⟨path, route⟩
    induction path using List.reverseRecOn generalizing target with
    | nil => exact absurd rfl route.ne_nil
    | append_singleton path v ih =>
        obtain ⟨rfl, ⟨rfl, rfl⟩ | ⟨u, shorter, edge⟩⟩ := route_concat_iff.mp route
        · exact .refl
        · exact (ih shorter).tail edge
  · intro reached
    induction reached with
    | refl => exact ⟨[source], route_self step source⟩
    | tail _ edge ih =>
        obtain ⟨path, route⟩ := ih
        exact ⟨_, route.concat edge⟩

end Senex
