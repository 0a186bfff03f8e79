import Senex.Foundation.Nearest
import Senex.Polymarket.Adapter

/-! # Cached levels as a map from price to size

A cached side lists a map when its prices are distinct finite numbers and it has exactly the map's
levels of positive size.
-/

namespace Senex.Polymarket

/-- The size at each price of one side, zero where there is no level. -/
abbrev Sizes := ℚ → ℚ

def sizeAt : List Level → Sizes
  | [], _ => 0
  | level :: rest, price => if level.price.value = price then level.size.value else sizeAt rest price

structure Level.Proper (level : Level) : Prop where
  finitePrice : level.price.isFinite = true
  finiteSize : level.size.isFinite = true
  positive : 0 < level.size.value

structure Lists (levels : List Level) (sizes : Sizes) : Prop where
  proper : ∀ level ∈ levels, level.Proper
  distinct : (levels.map (·.price.value)).Nodup
  same : sizeAt levels = sizes

theorem eq_iff {a b : Double} (left : a.isFinite = true) (right : b.isFinite = true) :
    a.eq b = true ↔ a.value = b.value := by
  simp [Double.eq, Double.isNan_eq_false left, Double.isNan_eq_false right]

theorem sizeAt_of_mem {levels : List Level} (distinct : (levels.map (·.price.value)).Nodup) {level : Level}
    (member : level ∈ levels) : sizeAt levels level.price.value = level.size.value := by
  induction levels with
  | nil => cases member
  | cons first rest ih =>
      obtain ⟨fresh, rest_distinct⟩ := List.nodup_cons.mp distinct
      rcases List.mem_cons.mp member with rfl | later
      · exact if_pos rfl
      · have differs : first.price.value ≠ level.price.value := fun same =>
          fresh (List.mem_map.mpr ⟨level, later, same.symm⟩)
        exact (if_neg differs).trans (ih rest_distinct later)

theorem sizeAt_absent {levels : List Level} {price : ℚ} (absent : price ∉ levels.map (·.price.value)) :
    sizeAt levels price = 0 := by
  induction levels with
  | nil => rfl
  | cons first rest ih =>
      simp only [List.map_cons, List.mem_cons, not_or] at absent
      exact (if_neg (Ne.symm absent.1)).trans (ih absent.2)

namespace Lists

variable {levels other : List Level} {sizes : Sizes}

theorem nil : Lists [] 0 := ⟨by simp, by simp, rfl⟩

/-- The listed prices are those of positive size. -/
theorem mem_iff (lists : Lists levels sizes) {price : ℚ} :
    price ∈ levels.map (·.price.value) ↔ 0 < sizes price := by
  constructor
  · intro member
    obtain ⟨level, listed, rfl⟩ := List.mem_map.mp member
    rw [← lists.same, sizeAt_of_mem lists.distinct listed]
    exact (lists.proper level listed).positive
  · intro positive
    by_contra absent
    rw [← lists.same, sizeAt_absent absent] at positive
    exact lt_irrefl _ positive

theorem perm (lists : Lists levels sizes) (perm : levels.Perm other) : Lists other sizes where
  proper level member := lists.proper level (perm.mem_iff.mpr member)
  distinct := (perm.map _).nodup_iff.mp lists.distinct
  same := by
    rw [← lists.same]
    funext price
    have other_distinct := (perm.map (·.price.value)).nodup_iff.mp lists.distinct
    by_cases listed : price ∈ levels.map (·.price.value)
    · obtain ⟨level, member, rfl⟩ := List.mem_map.mp listed
      rw [sizeAt_of_mem lists.distinct member, sizeAt_of_mem other_distinct (perm.mem_iff.mp member)]
    · have absent : price ∉ other.map (·.price.value) := fun member =>
        listed ((perm.map (·.price.value)).mem_iff.mpr member)
      rw [sizeAt_absent listed, sizeAt_absent absent]

theorem sort (lists : Lists levels sizes) (side : Side) : Lists (side.sort levels) sizes :=
  lists.perm (List.mergeSort_perm _ _).symm

end Lists

/-! ## Merging a delta -/

section Merge

variable {levels : List Level} {sizes : Sizes} {price size : Double}

theorem proper_assign (proper : ∀ level ∈ levels, level.Proper) (finitePrice : price.isFinite = true)
    (finiteSize : size.isFinite = true) (positive : 0 < size.value) :
    ∀ level ∈ assign price size levels, level.Proper := by
  induction levels with
  | nil =>
      intro level member
      rw [List.mem_singleton.mp member]
      exact ⟨finitePrice, finiteSize, positive⟩
  | cons first rest ih =>
      intro level member
      simp only [assign] at member
      split at member
      · rcases List.mem_cons.mp member with new | old
        · rw [new]
          exact ⟨(proper first List.mem_cons_self).finitePrice, finiteSize, positive⟩
        · exact proper level (List.mem_cons_of_mem _ old)
      · rcases List.mem_cons.mp member with new | old
        · exact proper level (by rw [new]; exact List.mem_cons_self)
        · exact ih (fun l m => proper l (List.mem_cons_of_mem _ m)) level old

/-- An assigned price keeps its place; a new one goes behind the others. -/
theorem values_assign (proper : ∀ level ∈ levels, level.Proper) (finitePrice : price.isFinite = true) :
    (assign price size levels).map (·.price.value) =
      if price.value ∈ levels.map (·.price.value) then levels.map (·.price.value)
      else levels.map (·.price.value) ++ [price.value] := by
  induction levels with
  | nil => rfl
  | cons first rest ih =>
      have same := eq_iff (proper first List.mem_cons_self).finitePrice finitePrice
      have behind := ih fun l m => proper l (List.mem_cons_of_mem _ m)
      simp only [assign]
      grind

theorem sizeAt_assign (proper : ∀ level ∈ levels, level.Proper) (finitePrice : price.isFinite = true) :
    sizeAt (assign price size levels) = Function.update (sizeAt levels) price.value size.value := by
  funext at_price
  induction levels with
  | nil => simp [assign, sizeAt, Function.update_apply, eq_comm]
  | cons first rest ih =>
      have same := eq_iff (proper first List.mem_cons_self).finitePrice finitePrice
      have behind := ih fun l m => proper l (List.mem_cons_of_mem _ m)
      simp only [assign, sizeAt, Function.update_apply] at behind ⊢
      split <;> grind [sizeAt]

theorem sizeAt_pop (proper : ∀ level ∈ levels, level.Proper) (finitePrice : price.isFinite = true) :
    sizeAt (pop price levels) = Function.update (sizeAt levels) price.value 0 := by
  funext at_price
  induction levels with
  | nil => simp [pop, sizeAt, Function.update_apply]
  | cons first rest ih =>
      have same := eq_iff (proper first List.mem_cons_self).finitePrice finitePrice
      have behind := ih fun l m => proper l (List.mem_cons_of_mem _ m)
      simp only [pop, sizeAt, Function.update_apply, List.filter_cons] at behind ⊢
      split <;> grind [sizeAt]

namespace Lists

theorem assign (lists : Lists levels sizes) (finitePrice : price.isFinite = true)
    (finiteSize : size.isFinite = true) (positive : 0 < size.value) :
    Lists (assign price size levels) (Function.update sizes price.value size.value) where
  proper := proper_assign lists.proper finitePrice finiteSize positive
  distinct := by
    rw [values_assign lists.proper finitePrice]
    split
    · exact lists.distinct
    · rename_i fresh
      refine List.nodup_append.mpr ⟨lists.distinct, List.nodup_singleton _, ?_⟩
      intro old listed new only same
      rw [List.mem_singleton.mp only] at same
      exact fresh (same ▸ listed)
  same := by rw [sizeAt_assign lists.proper finitePrice, lists.same]

theorem pop (lists : Lists levels sizes) (finitePrice : price.isFinite = true) :
    Lists (pop price levels) (Function.update sizes price.value 0) where
  proper level member := lists.proper level (List.mem_of_mem_filter member)
  distinct := lists.distinct.sublist (List.filter_sublist.map _)
  same := by rw [sizeAt_pop lists.proper finitePrice, lists.same]

end Lists

/-- Where the prices are distinct, the `dict` of the levels has them in their order. -/
theorem byPrice_eq (front : List Level) (proper : ∀ level ∈ front ++ levels, level.Proper)
    (distinct : ((front ++ levels).map (·.price.value)).Nodup) :
    levels.foldl (fun byPrice level => assign level.price level.size byPrice) front = front ++ levels := by
  induction levels generalizing front with
  | nil => simp
  | cons level rest ih =>
      have appended : assign level.price level.size front = front ++ [level] := by
        clear ih
        induction front with
        | nil => rfl
        | cons first front behind =>
            have differs : ¬first.price.eq level.price = true := by
              rw [eq_iff (proper first (by simp)).finitePrice (proper level (by simp)).finitePrice]
              have fresh := (List.nodup_cons.mp distinct).1
              intro same
              exact fresh (by simp [same])
            have kept := behind (fun l m => proper l (List.mem_cons_of_mem _ m)) (List.nodup_cons.mp distinct).2
            simp only [Polymarket.assign, differs, kept, List.cons_append]
            rfl
      rw [List.foldl_cons, appended, ih (front ++ [level]) (by simpa using proper) (by simpa using distinct)]
      simp

theorem Lists.merge (lists : Lists levels sizes) {delta : Delta} (finitePrice : delta.price.isFinite = true)
    (finiteSize : delta.size.isFinite = true) (nonneg : 0 ≤ delta.size.value) :
    Lists (delta.merge levels) (Function.update sizes delta.price.value delta.size.value) := by
  have byPrice := byPrice_eq [] lists.proper lists.distinct
  have zero : (Double.round 0).isFinite = true := rfl
  have value : (Double.round 0).value = 0 := Double.value_round_zero
  simp only [Delta.merge, byPrice, List.nil_append]
  apply Lists.sort
  split
  · rename_i removed
    rw [Double.le_iff finiteSize zero, value] at removed
    rw [le_antisymm removed nonneg]
    exact lists.pop finitePrice
  · rename_i placed
    rw [Double.le_iff finiteSize zero, value, not_le] at placed
    exact lists.assign finitePrice finiteSize placed

end Merge

/-! ## Reading back what was written -/

theorem read_toValue (level : Level) : Level.read level.toValue = .ok (some level) := rfl

/-- The levels of a written array are the written ones, sorted once more. -/
theorem levels_written (written : List Level) (side : Side) :
    levels (.list (written.map Level.toValue)) side = .ok (side.sort written) := by
  have read : (written.map Level.toValue).mapM Level.read = .ok (written.map some) := by
    induction written with
    | nil => rfl
    | cons level rest ih => simp [List.mapM_cons, read_toValue, ih]
  simp [levels, read]

/-! ## The best level -/

/-- The best price among the levels of positive size. -/
def best (side : Side) (levels : List Level) : Option ℚ :=
  let prices := (levels.filter fun level => decide (0 < level.size.value)).map (·.price.value)
  match side with
  | .bids => prices.max?
  | .asks => prices.min?

/-- No level of the side is better than the price. -/
def Side.bounds (side : Side) (price other : ℚ) : Prop :=
  match side with
  | .bids => other ≤ price
  | .asks => price ≤ other

structure IsBest (side : Side) (sizes : Sizes) (price : ℚ) : Prop where
  level : 0 < sizes price
  bound : ∀ other, 0 < sizes other → side.bounds price other

namespace Lists

variable {levels : List Level} {sizes : Sizes}

theorem prices_eq (lists : Lists levels sizes) :
    (levels.filter fun level => decide (0 < level.size.value)).map (·.price.value) = levels.map (·.price.value) := by
  congr 1
  rw [List.filter_eq_self]
  intro level member
  exact decide_eq_true (lists.proper level member).positive

theorem best_eq_some_iff (lists : Lists levels sizes) {side : Side} {price : ℚ} :
    best side levels = some price ↔ IsBest side sizes price := by
  have outer : best side levels = some price ↔
      price ∈ levels.map (·.price.value) ∧ ∀ other ∈ levels.map (·.price.value), side.bounds price other := by
    cases side
    · simp only [best, lists.prices_eq]
      exact List.max?_eq_some_iff
    · simp only [best, lists.prices_eq]
      exact List.min?_eq_some_iff
  rw [outer]
  constructor
  · rintro ⟨listed, bound⟩
    exact ⟨lists.mem_iff.mp listed, fun other level => bound other (lists.mem_iff.mpr level)⟩
  · rintro ⟨level, bound⟩
    exact ⟨lists.mem_iff.mpr level, fun other listed => bound other (lists.mem_iff.mp listed)⟩

/-- A sorted side has its best level first. -/
theorem best_eq_head (lists : Lists levels sizes) {side : Side} (sorted : levels.Pairwise (side.le · ·)) :
    best side levels = levels.head?.map (·.price.value) := by
  cases levels with
  | nil => cases side <;> rfl
  | cons first rest =>
      rw [List.head?_cons, Option.map_some, lists.best_eq_some_iff]
      refine ⟨lists.mem_iff.mp (by simp), ?_⟩
      intro other level
      obtain ⟨listed, member, rfl⟩ := List.mem_map.mp (lists.mem_iff.mpr level)
      rcases List.mem_cons.mp member with rfl | later
      · cases side <;> exact le_refl _
      · have ahead := (List.pairwise_cons.mp sorted).1 listed later
        cases side <;> simpa [Side.le, Side.bounds] using ahead

end Lists

theorem Side.pairwise_sort (side : Side) (levels : List Level) : (side.sort levels).Pairwise (side.le · ·) := by
  apply List.pairwise_mergeSort
  · intro a b c
    cases side <;> simp only [Side.le, decide_eq_true_eq] <;> grind
  · intro a b
    cases side <;> simp only [Side.le, Bool.or_eq_true, decide_eq_true_eq] <;> exact le_total _ _

end Senex.Polymarket
