import Mathlib.Algebra.Order.Field.Basic
import Mathlib.Algebra.BigOperators.Group.List.Basic
import Mathlib.Tactic.Linarith
import Mathlib.Tactic.FieldSimp
import Mathlib.Tactic.Ring

/-! # Offers taken in order

What a budget buys of a list of offers, each taken as a whole before the next one.
`afford_iff` says that it is the largest quantity on offer that the budget pays for.
-/

namespace Senex

/-- So much for a price each. -/
structure Offer (K : Type) [Field K] [LinearOrder K] where
  price : K
  size : K
  price_pos : 0 < price
  size_nonneg : 0 ≤ size

namespace Offer

variable {K : Type} [Field K] [LinearOrder K] [IsStrictOrderedRing K]

/-- The whole quantity on offer. -/
def depth : List (Offer K) → K
  | [] => 0
  | offer :: offers => offer.size + depth offers

/-- What a quantity costs, as far as it is on offer. -/
def cost : List (Offer K) → K → K
  | [], _ => 0
  | offer :: offers, quantity =>
      offer.price * min offer.size quantity + cost offers (quantity - min offer.size quantity)

/-- What a budget buys. -/
def bought : List (Offer K) → K → K
  | [], _ => 0
  | offer :: offers, budget =>
      if budget ≤ offer.price * offer.size then budget / offer.price
      else offer.size + bought offers (budget - offer.price * offer.size)

theorem bought_nonneg (offers : List (Offer K)) {budget : K} (nonneg : 0 ≤ budget) :
    0 ≤ bought offers budget := by
  induction offers generalizing budget with
  | nil => exact le_refl _
  | cons offer offers ih =>
      unfold bought
      split
      · exact div_nonneg nonneg offer.price_pos.le
      · rename_i more
        have rest := ih (sub_nonneg.mpr (not_le.mp more).le)
        linarith [offer.size_nonneg]

omit [IsStrictOrderedRing K] in
theorem cost_zero (offers : List (Offer K)) : cost offers 0 = 0 := by
  induction offers with
  | nil => rfl
  | cons offer offers ih => simp [cost, min_eq_right offer.size_nonneg, ih]

theorem cost_nonneg (offers : List (Offer K)) {quantity : K} (nonneg : 0 ≤ quantity) :
    0 ≤ cost offers quantity := by
  induction offers generalizing quantity with
  | nil => exact le_refl _
  | cons offer offers ih =>
      have least : 0 ≤ min offer.size quantity := le_min offer.size_nonneg nonneg
      have rest := ih (sub_nonneg.mpr (min_le_right offer.size quantity))
      have first := mul_nonneg offer.price_pos.le least
      simp only [cost]
      linarith

/-- No more is bought than there is. -/
theorem bought_le_depth (offers : List (Offer K)) (budget : K) : bought offers budget ≤ depth offers := by
  induction offers generalizing budget with
  | nil => exact le_refl _
  | cons offer offers ih =>
      have below : 0 ≤ depth offers := by
        have := ih 0
        exact (bought_nonneg offers (le_refl 0)).trans this
      unfold bought depth
      split
      · rename_i enough
        have part : budget / offer.price ≤ offer.size := by
          rw [div_le_iff₀ offer.price_pos]
          linarith
        linarith
      · have rest := ih (budget - offer.price * offer.size)
        linarith

theorem bought_zero (offers : List (Offer K)) : bought offers 0 = 0 := by
  cases offers with
  | nil => rfl
  | cons offer offers => simp [bought, mul_nonneg offer.price_pos.le offer.size_nonneg]

section
variable (offer : Offer K) (offers : List (Offer K)) {budget : K}

/-- A budget that the first offer takes up is what its part costs. -/
theorem cost_first (enough : budget ≤ offer.price * offer.size) :
    cost (offer :: offers) (budget / offer.price) = budget := by
  have part : budget / offer.price ≤ offer.size := by
    rw [div_le_iff₀ offer.price_pos]
    linarith
  have all : offer.price * (budget / offer.price) = budget := by
    field_simp [offer.price_pos.ne']
  simp [cost, min_eq_right part, cost_zero, all]

/-- The first offer as a whole, and what follows it. -/
theorem cost_whole {quantity : K} (nonneg : 0 ≤ quantity) :
    cost (offer :: offers) (offer.size + quantity) = offer.price * offer.size + cost offers quantity := by
  have whole : min offer.size (offer.size + quantity) = offer.size := min_eq_left (by linarith)
  simp only [cost, whole, add_sub_cancel_left]

end

/-- What is bought is paid for. -/
theorem cost_bought_le (offers : List (Offer K)) {budget : K} (nonneg : 0 ≤ budget) :
    cost offers (bought offers budget) ≤ budget := by
  induction offers generalizing budget with
  | nil => exact nonneg
  | cons offer offers ih =>
      unfold bought
      split
      · rename_i enough
        exact (cost_first offer offers enough).le
      · rename_i more
        have left : 0 ≤ budget - offer.price * offer.size := sub_nonneg.mpr (not_le.mp more).le
        rw [cost_whole offer offers (bought_nonneg offers left)]
        linarith [ih left]

/-- Whatever is on offer and paid for is bought. -/
theorem le_bought (offers : List (Offer K)) {budget quantity : K} (nonneg : 0 ≤ budget)
    (offered : quantity ≤ depth offers) (paid : cost offers quantity ≤ budget) :
    quantity ≤ bought offers budget := by
  induction offers generalizing budget quantity with
  | nil => exact offered
  | cons offer offers ih =>
      simp only [cost] at paid
      simp only [depth] at offered
      rcases le_total quantity offer.size with part | whole
      · rw [min_eq_right part, sub_self, cost_zero, add_zero] at paid
        unfold bought
        split
        · rw [le_div_iff₀ offer.price_pos]
          linarith
        · rename_i more
          have rest := bought_nonneg offers (sub_nonneg.mpr (not_le.mp more).le)
          linarith
      · rw [min_eq_left whole] at paid
        have rest_cost := cost_nonneg offers (sub_nonneg.mpr whole)
        have enough : 0 ≤ budget - offer.price * offer.size := by linarith
        have rest := ih enough (by linarith : quantity - offer.size ≤ depth offers) (by linarith)
        unfold bought
        split
        · rename_i exactly
          have nothing : budget - offer.price * offer.size = 0 := le_antisymm (by linarith) enough
          rw [nothing, bought_zero] at rest
          rw [le_div_iff₀ offer.price_pos]
          have same : quantity = offer.size := le_antisymm (by linarith) whole
          rw [same]
          linarith
        · linarith

/-- A property of all smaller quantities holds of what is bought if and only if it holds of whatever is
on offer and paid for. -/
theorem afford_iff (offers : List (Offer K)) {budget : K} (nonneg : 0 ≤ budget) {property : K → Prop}
    (down : ∀ {a b}, a ≤ b → property b → property a) :
    property (bought offers budget) ↔
      ∀ quantity ≤ depth offers, cost offers quantity ≤ budget → property quantity := by
  constructor
  · intro holds quantity offered paid
    exact down (le_bought offers nonneg offered paid) holds
  · intro all
    exact all _ (bought_le_depth offers budget) (cost_bought_le offers nonneg)

/-! ## The average price -/

/-- What all of it costs. -/
def value : List (Offer K) → K
  | [] => 0
  | offer :: offers => offer.price * offer.size + value offers

theorem value_nonneg (offers : List (Offer K)) : 0 ≤ value offers := by
  induction offers with
  | nil => exact le_refl _
  | cons offer offers ih => exact add_nonneg (mul_nonneg offer.price_pos.le offer.size_nonneg) ih

/-- A budget is spent, as far as there is something to buy. -/
theorem cost_bought (offers : List (Offer K)) {budget : K} (nonneg : 0 ≤ budget) :
    cost offers (bought offers budget) = min budget (value offers) := by
  induction offers generalizing budget with
  | nil => exact (min_eq_right nonneg).symm
  | cons offer offers ih =>
      unfold bought value
      have rest := value_nonneg offers
      split
      · rename_i enough
        rw [cost_first offer offers enough, min_eq_left (by linarith)]
      · rename_i more
        have left : 0 ≤ budget - offer.price * offer.size := sub_nonneg.mpr (not_le.mp more).le
        rw [cost_whole offer offers (bought_nonneg offers left), ih left, ← min_add_add_left]
        congr 1
        ring

theorem bought_mono (offers : List (Offer K)) {small large : K} (nonneg : 0 ≤ small) (le : small ≤ large) :
    bought offers small ≤ bought offers large :=
  le_bought offers (nonneg.trans le) (bought_le_depth offers small)
    ((cost_bought_le offers nonneg).trans le)

/-- Something is bought where something is on offer. -/
theorem bought_pos (offers : List (Offer K)) {budget : K} (positive : 0 < budget) (worth : 0 < value offers) :
    0 < bought offers budget := by
  refine lt_of_le_of_ne (bought_nonneg offers positive.le) fun zero => ?_
  have spent := cost_bought offers positive.le
  rw [← zero, cost_zero] at spent
  exact absurd spent (lt_min positive worth).ne

section
variable (sign : K)

/-- More of offers whose signed prices have a lower bound costs that bound at least for each unit. -/
theorem cost_slope {offers : List (Offer K)} {bound : K} (bounded : ∀ offer ∈ offers, bound ≤ sign * offer.price)
    {small large : K} (nonneg : 0 ≤ small) (le : small ≤ large) (offered : large ≤ depth offers) :
    bound * (large - small) ≤ sign * (cost offers large - cost offers small) := by
  induction offers generalizing small large with
  | nil =>
      have none : large = 0 := le_antisymm offered (nonneg.trans le)
      have nothing : small = 0 := le_antisymm (le.trans offered) nonneg
      simp [none, nothing, cost]
  | cons offer offers ih =>
      have first := bounded offer List.mem_cons_self
      have others : ∀ offer ∈ offers, bound ≤ sign * offer.price :=
        fun other member => bounded other (List.mem_cons_of_mem _ member)
      simp only [depth] at offered
      simp only [cost]
      rcases le_total large offer.size with part | beyond
      · -- both within the first offer
        have both : small ≤ offer.size := le.trans part
        simp only [min_eq_right part, min_eq_right both, sub_self, cost_zero, add_zero, ← mul_sub, ← mul_assoc]
        exact mul_le_mul_of_nonneg_right first (sub_nonneg.mpr le)
      · rw [min_eq_left beyond]
        rcases le_total small offer.size with part | after
        · have rest := ih others le_rfl (sub_nonneg.mpr beyond) (by linarith)
          rw [cost_zero, sub_zero, sub_zero] at rest
          have start := mul_le_mul_of_nonneg_right first (sub_nonneg.mpr part)
          rw [min_eq_right part, sub_self, cost_zero]
          linarith
        · have rest := ih others (sub_nonneg.mpr after) (by linarith) (by linarith : large - offer.size ≤ depth offers)
          rw [min_eq_left after]
          linarith

/-- Where the signed prices do not fall, a larger quantity has no smaller signed average. -/
theorem cost_ratio {offers : List (Offer K)}
    (sorted : offers.Pairwise fun a b => sign * a.price ≤ sign * b.price) {small large : K}
    (nonneg : 0 ≤ small) (le : small ≤ large) (offered : large ≤ depth offers) :
    sign * (cost offers small * large) ≤ sign * (cost offers large * small) := by
  induction offers generalizing small large with
  | nil => simp [cost]
  | cons offer offers ih =>
      obtain ⟨first, others⟩ := List.pairwise_cons.mp sorted
      simp only [depth] at offered
      simp only [cost]
      rcases le_total large offer.size with part | beyond
      · have both : small ≤ offer.size := le.trans part
        simp only [min_eq_right part, min_eq_right both, sub_self, cost_zero, add_zero]
        exact le_of_eq (by ring)
      · rw [min_eq_left beyond]
        rcases le_total small offer.size with part | after
        · have steep := cost_slope sign first le_rfl (sub_nonneg.mpr beyond) (by linarith)
          rw [cost_zero, sub_zero, sub_zero] at steep
          have scaled := mul_le_mul_of_nonneg_right steep nonneg
          rw [min_eq_right part, sub_self, cost_zero]
          linarith
        · have steep := cost_slope sign first (sub_nonneg.mpr after) (by linarith : small - offer.size ≤ large - offer.size)
            (by linarith)
          have scaled := mul_le_mul_of_nonneg_right steep offer.size_nonneg
          have rest := ih others (sub_nonneg.mpr after) (by linarith : small - offer.size ≤ large - offer.size)
            (by linarith)
          rw [min_eq_left after]
          linarith

end

/-! ## The offers that are reached -/

/-- How many of the offers a budget reaches. -/
def reached : List (Offer K) → K → Nat
  | [], _ => 0
  | offer :: offers, budget =>
      if budget ≤ 0 then 0 else reached offers (budget - min budget (offer.price * offer.size)) + 1

/-- What is bought is bought of the offers that are reached. -/
theorem bought_of_reached (offers : List (Offer K)) {budget : K} (nonneg : 0 ≤ budget) :
    bought offers budget ≤ depth (offers.take (reached offers budget)) ∧
      cost (offers.take (reached offers budget)) (bought offers budget) = cost offers (bought offers budget) := by
  induction offers generalizing budget with
  | nil => exact ⟨le_refl _, rfl⟩
  | cons offer offers ih =>
      unfold reached
      split
      · rename_i none
        rw [le_antisymm none nonneg, bought_zero]
        simp [depth, cost_zero]
      · unfold bought
        split
        · rename_i enough
          obtain ⟨within, -⟩ := ih (le_refl (0 : K))
          rw [bought_zero] at within
          have part : budget / offer.price ≤ offer.size := by
            rw [div_le_iff₀ offer.price_pos]
            linarith
          rw [min_eq_left enough, sub_self, List.take_succ_cons]
          refine ⟨?_, ?_⟩
          · simp only [depth]
            linarith
          · rw [cost_first offer _ enough, cost_first offer offers enough]
        · rename_i more
          have less := (not_le.mp more).le
          have left : 0 ≤ budget - offer.price * offer.size := sub_nonneg.mpr less
          obtain ⟨within, same⟩ := ih left
          have some := bought_nonneg offers left
          rw [min_eq_right less, List.take_succ_cons]
          refine ⟨?_, ?_⟩
          · simp only [depth]
            linarith
          · rw [cost_whole offer _ some, cost_whole offer offers some, same]

omit [IsStrictOrderedRing K] in
theorem reached_pos {offers : List (Offer K)} {budget : K} (positive : 0 < budget)
    (some : 0 < bought offers budget) : 0 < reached offers budget := by
  cases offers with
  | nil => exact absurd some (lt_irrefl _)
  | cons offer offers =>
      rw [reached, if_neg (not_le.mpr positive)]
      exact Nat.succ_pos _

omit [IsStrictOrderedRing K] in
theorem reached_le (offers : List (Offer K)) (budget : K) : reached offers budget ≤ offers.length := by
  induction offers generalizing budget with
  | nil => exact le_refl _
  | cons offer offers ih =>
      unfold reached
      split
      · exact Nat.zero_le _
      · exact Nat.succ_le_succ (ih _)

end Offer

end Senex
