import Mathlib.Data.List.Nodup
import Mathlib.Data.List.Perm.Subperm
import Mathlib.Order.Bounds.Basic
import Senex.Foundation.Routes

/-! # Breadth-first search

The vertices found so far stand in the order they were found, each with its depth; the queue is
what is left of them when the first ones are done.  The depths rise along the list, and by at
most one over the queue, so each is the shortest distance (`Search.isLeast`).
-/

namespace Senex.BreadthFirst

variable {V : Type}

/-- A walk of a number of steps from a start. -/
inductive Walk (next : V → List V) (start : V) : Nat → V → Prop
  | here : Walk next start 0 start
  | step {n : Nat} {u v : V} : Walk next start n u → v ∈ next u → Walk next start (n + 1) v

/-- The number of steps of the shortest walk. -/
def Distance (next : V → List V) (start v : V) (k : Nat) : Prop := IsLeast {n | Walk next start n v} k

/-- Along a route of the edges there is a walk of as many steps. -/
theorem walk_of_route {next : V → List V} {start v : V} {path : List V}
    (route : Route (fun u v => v ∈ next u) start v path) : Walk next start (path.length - 1) v := by
  induction path using List.reverseRecOn generalizing v with
  | nil => exact absurd rfl route.ne_nil
  | append_singleton path w ih =>
      obtain ⟨rfl, ⟨rfl, rfl⟩ | ⟨u, shorter, edge⟩⟩ := route_concat_iff.mp route
      · exact .here
      · have some : 0 < path.length := List.length_pos_iff.mpr shorter.ne_nil
        have longer := (ih shorter).step edge
        rwa [Nat.sub_add_cancel some, ← Nat.add_sub_cancel (path.length) 1, ← List.length_singleton (a := w),
          ← List.length_append] at longer

variable [DecidableEq V] {next : V → List V} {start : V} {found : List (V × Nat)} {k : Nat}

/-- A vertex that was not found before is found at this depth. -/
def discover (depth : Nat) (found : List (V × Nat)) (v : V) : List (V × Nat) :=
  if v ∈ found.map Prod.fst then found else found ++ [(v, depth)]

/-- What is known of the vertices found while one of depth `k` is expanded. -/
structure Growing (next : V → List V) (start : V) (k : Nat) (found : List (V × Nat)) : Prop where
  nodup : (found.map Prod.fst).Nodup
  first : found[0]? = some (start, 0)
  walks : ∀ e ∈ found, Walk next start e.2 e.1
  sorted : found.Pairwise fun a b => a.2 ≤ b.2
  top : ∀ e ∈ found, e.2 ≤ k + 1

omit [DecidableEq V] in
theorem getElem?_of_prefix {short long : List (V × Nat)} (front : short <+: long) {i : Nat} {e : V × Nat}
    (here : short[i]? = some e) : long[i]? = some e := by
  obtain ⟨rest, rfl⟩ := front
  rw [List.getElem?_append_left (List.getElem?_eq_some_iff.mp here).1]
  exact here

theorem prefix_discover (depth : Nat) (found : List (V × Nat)) (v : V) : found <+: discover depth found v := by
  unfold discover
  split
  · exact List.prefix_rfl
  · exact List.prefix_append found _

theorem prefix_foldl_discover (depth : Nat) (found : List (V × Nat)) (vs : List V) :
    found <+: vs.foldl (discover depth) found := by
  induction vs generalizing found with
  | nil => exact List.prefix_rfl
  | cons v vs ih => exact (prefix_discover depth found v).trans (ih _)

theorem mem_discover {depth : Nat} {e : V × Nat} {v : V} (member : e ∈ discover depth found v) :
    e ∈ found ∨ e = (v, depth) := by
  unfold discover at member
  split at member
  · exact .inl member
  · simpa using member

theorem mem_foldl_discover {depth : Nat} {vs : List V} {e : V × Nat}
    (member : e ∈ vs.foldl (discover depth) found) : e ∈ found ∨ e.1 ∈ vs ∧ e.2 = depth := by
  induction vs generalizing found with
  | nil => exact .inl member
  | cons v vs ih =>
      rcases ih member with before | ⟨later, same⟩
      · rcases mem_discover before with old | rfl
        · exact .inl old
        · exact .inr ⟨by simp, rfl⟩
      · exact .inr ⟨.tail _ later, same⟩

theorem Growing.discover (growing : Growing next start k found) {v : V} (walk : Walk next start (k + 1) v) :
    Growing next start k (discover (k + 1) found v) := by
  by_cases old : v ∈ found.map Prod.fst
  · rw [BreadthFirst.discover, if_pos old]
    exact growing
  rw [BreadthFirst.discover, if_neg old]
  refine ⟨?_, ?_, ?_, ?_, ?_⟩
  · rw [List.map_append]
    exact growing.nodup.append (List.nodup_singleton v) (by simpa using old)
  · have some : found ≠ [] := by
      rintro rfl
      have first := growing.first
      simp at first
    rw [List.getElem?_append_left (List.length_pos_iff.mpr some)]
    exact growing.first
  · intro e member
    rcases List.mem_append.mp member with before | new
    · exact growing.walks e before
    · obtain rfl := List.mem_singleton.mp new
      exact walk
  · refine List.pairwise_append.mpr ⟨growing.sorted, List.pairwise_singleton _ _, ?_⟩
    intro a before b new
    obtain rfl := List.mem_singleton.mp new
    exact growing.top a before
  · intro e member
    rcases List.mem_append.mp member with before | new
    · exact growing.top e before
    · obtain rfl := List.mem_singleton.mp new
      exact le_rfl

theorem Growing.foldl (growing : Growing next start k found) {vs : List V}
    (walks : ∀ v ∈ vs, Walk next start (k + 1) v) : Growing next start k (vs.foldl (BreadthFirst.discover (k + 1)) found) := by
  induction vs generalizing found with
  | nil => exact growing
  | cons v vs ih =>
      exact ih (growing.discover (walks v (.head _))) fun w member => walks w (.tail _ member)

/-- Every vertex that was looked at is found, not deeper than the vertices found then. -/
theorem Growing.found_of_mem (growing : Growing next start k found) {vs : List V}
    (walks : ∀ v ∈ vs, Walk next start (k + 1) v) {v : V} (member : v ∈ vs) :
    ∃ j ≤ k + 1, (v, j) ∈ vs.foldl (BreadthFirst.discover (k + 1)) found := by
  have present : v ∈ (vs.foldl (BreadthFirst.discover (k + 1)) found).map Prod.fst := by
    clear growing walks
    induction vs generalizing found with
    | nil => simp at member
    | cons w vs ih =>
        rcases List.mem_cons.mp member with rfl | later
        · have here : v ∈ (BreadthFirst.discover (k + 1) found v).map Prod.fst := by
            unfold BreadthFirst.discover
            split
            · assumption
            · simp
          exact ((prefix_foldl_discover (k + 1) _ vs).map Prod.fst).subset here
        · exact ih later
  obtain ⟨⟨w, j⟩, inside, rfl⟩ := List.mem_map.mp present
  exact ⟨j, (growing.foldl walks).top _ inside, inside⟩

/-! ## The search -/

/-- What holds between two vertices that are expanded, the first `done` vertices being done.
`within` says of which depths vertices are expanded. -/
structure Search (next : V → List V) (start : V) (within : Nat → Prop) (found : List (V × Nat)) (done : Nat) : Prop where
  nodup : (found.map Prod.fst).Nodup
  first : found[0]? = some (start, 0)
  walks : ∀ e ∈ found, Walk next start e.2 e.1
  sorted : found.Pairwise fun a b => a.2 ≤ b.2
  bounded : ∀ e ∈ found, ∀ k, e.2 = k + 1 → within k
  narrow : ∀ head ∈ found[done]?, ∀ e ∈ found, e.2 ≤ head.2 + 1
  closed : ∀ i < done, ∀ e ∈ found[i]?, within e.2 → ∀ v ∈ next e.1, ∃ j ≤ e.2 + 1, (v, j) ∈ found

section

omit [DecidableEq V]

variable {within : Nat → Prop} {done : Nat}

theorem search_start (next : V → List V) (start : V) (within : Nat → Prop) :
    Search next start within [(start, 0)] 0 := by
  refine ⟨by simp, rfl, ?_, by simp, by simp, by simp, by simp⟩
  intro e member
  obtain rfl := List.mem_singleton.mp member
  exact .here

theorem le_of_index_le (sorted : found.Pairwise fun a b => a.2 ≤ b.2) {i j : Nat} (le : i ≤ j) {a b : V × Nat}
    (first : found[i]? = some a) (second : found[j]? = some b) : a.2 ≤ b.2 := by
  obtain ⟨inside, rfl⟩ := List.getElem?_eq_some_iff.mp first
  obtain ⟨bounded, rfl⟩ := List.getElem?_eq_some_iff.mp second
  rcases le.lt_or_eq with less | rfl
  · exact List.pairwise_iff_getElem.mp sorted i j inside bounded less
  · exact le_rfl

theorem Search.growing (search : Search next start within found done) {head : V × Nat}
    (here : found[done]? = some head) : Growing next start head.2 found :=
  ⟨search.nodup, search.first, search.walks, search.sorted, search.narrow head here⟩

theorem Search.walks_next (search : Search next start within found done) {head : V × Nat}
    (here : found[done]? = some head) : ∀ v ∈ next head.1, Walk next start (head.2 + 1) v :=
  fun _ member => .step (search.walks head (List.mem_of_getElem? here)) member

/-- With vertices of this depth those of smaller depth are expanded. -/
def Downward (within : Nat → Prop) : Prop := ∀ j k, j ≤ k → within k → within j

/-- Where all that is left is at least `m` deep, all that is within `m` steps is found. -/
theorem Search.found_of_walk (search : Search next start within found done) (downward : Downward within) {m : Nat}
    (rest : ∀ i, done ≤ i → ∀ e ∈ found[i]?, m ≤ e.2) {n : Nat} {v : V} (walk : Walk next start n v) (le : n ≤ m)
    (deep : ∀ k, n = k + 1 → within k) : ∃ j ≤ n, (v, j) ∈ found := by
  induction walk with
  | here => exact ⟨0, le_rfl, List.mem_of_getElem? search.first⟩
  | @step n u v _ neighbour ih =>
      have within_n : within n := deep n rfl
      obtain ⟨j, shorter, member⟩ := ih (by omega) fun k same => downward k n (by omega) within_n
      obtain ⟨i, here⟩ := List.mem_iff_getElem?.mp member
      rcases Nat.lt_or_ge i done with finished | waiting
      · obtain ⟨l, less, found⟩ := search.closed i finished _ here (downward j n shorter within_n) v neighbour
        exact ⟨l, less.trans (by omega), found⟩
      · have deeper : m ≤ j := rest i waiting _ here
        omega

/-- What is left is not less deep than the first of it. -/
theorem Search.rest_of_head (search : Search next start within found done) {head : V × Nat}
    (here : found[done]? = some head) : ∀ i, done ≤ i → ∀ e ∈ found[i]?, head.2 ≤ e.2 :=
  fun _ le _ at_i => le_of_index_le search.sorted le here at_i

/-- At the end the vertices found are those within the bound, each at its shortest distance. -/
theorem Search.mem_iff (search : Search next start within found done) (downward : Downward within)
    (finished : found.length ≤ done) {v : V} {k : Nat} :
    (v, k) ∈ found ↔ Distance next start v k ∧ ∀ j, k = j + 1 → within j := by
  have reached {n : Nat} {w : V} (walk : Walk next start n w) (deep : ∀ j, n = j + 1 → within j) :
      ∃ j ≤ n, (w, j) ∈ found := by
    refine search.found_of_walk downward (m := n) ?_ walk le_rfl deep
    intro i waiting e here
    obtain ⟨inside, -⟩ := List.getElem?_eq_some_iff.mp here
    omega
  have single {j l : Nat} {w : V} (first : (w, j) ∈ found) (second : (w, l) ∈ found) : j = l :=
    List.inj_on_of_nodup_map search.nodup first second rfl |> congrArg Prod.snd
  constructor
  · intro member
    have deep : ∀ j, k = j + 1 → within j := search.bounded _ member
    refine ⟨⟨search.walks _ member, fun n walk => ?_⟩, deep⟩
    by_contra less
    obtain ⟨j, le, shorter⟩ := reached walk fun l same => downward l (k - 1) (by omega) (deep _ (by omega))
    have same : j = k := single shorter member
    omega
  · intro ⟨shortest, deep⟩
    obtain ⟨j, le, member⟩ := reached shortest.1 deep
    obtain rfl : j = k := le_antisymm le (shortest.2 (search.walks _ member))
    exact member

/-- A vertex that is too deep is done without being expanded. -/
theorem Search.skip (search : Search next start within found done) {head : V × Nat}
    (here : found[done]? = some head) (outside : ¬within head.2) : Search next start within found (done + 1) := by
  refine ⟨search.nodup, search.first, search.walks, search.sorted, search.bounded, ?_, ?_⟩
  · intro next_head there e member
    have le : head.2 ≤ next_head.2 := le_of_index_le search.sorted (Nat.le_succ done) here there
    have top := search.narrow head here e member
    omega
  · intro i before e at_i deep
    rcases Nat.lt_succ_iff_lt_or_eq.mp before with earlier | rfl
    · exact search.closed i earlier e at_i deep
    · rw [here] at at_i
      cases at_i
      exact absurd deep outside

end

section Expand

variable {within : Nat → Prop} {done : Nat}

/-- A vertex is done when all that come next to it have been looked at. -/
theorem Search.expand (search : Search next start within found done) {head : V × Nat}
    (here : found[done]? = some head) (deep : within head.2) :
    Search next start within ((next head.1).foldl (discover (head.2 + 1)) found) (done + 1) := by
  have growing := search.growing here
  have walks := search.walks_next here
  have grown := growing.foldl walks
  have longer := prefix_foldl_discover (head.2 + 1) found (next head.1)
  have kept {i : Nat} {e : V × Nat} (at_i : found[i]? = some e) :
      ((next head.1).foldl (discover (head.2 + 1)) found)[i]? = some e := getElem?_of_prefix longer at_i
  refine ⟨grown.nodup, grown.first, grown.walks, grown.sorted, ?_, ?_, ?_⟩
  · intro e member k same
    rcases mem_foldl_discover member with old | ⟨-, depth⟩
    · exact search.bounded e old k same
    · obtain rfl : k = head.2 := by omega
      exact deep
  · intro next_head there e member
    have le : head.2 ≤ next_head.2 := le_of_index_le grown.sorted (Nat.le_succ done) (kept here) there
    have top := grown.top e member
    omega
  · intro i before e at_i open_e v neighbour
    rcases Nat.lt_succ_iff_lt_or_eq.mp before with earlier | rfl
    · obtain ⟨inside, -⟩ := List.getElem?_eq_some_iff.mp here
      have old : found[i]? = some e := by
        have known : found[i]? = some found[i] := List.getElem?_eq_getElem _
        rw [known, ← kept known, at_i]
      obtain ⟨j, le, member⟩ := search.closed i earlier e old open_e v neighbour
      exact ⟨j, le, longer.subset member⟩
    · rw [kept here] at at_i
      cases at_i
      exact growing.found_of_mem walks neighbour

end Expand

end Senex.BreadthFirst
