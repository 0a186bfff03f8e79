import Senex.Portfolio.Overfill

/-! # The prices of a walk through the book

On a sorted side the walk takes the request as far as the side has it, at an average
price between those of the first and of the last level that it touches and no better for
a larger request.  The slippage of the simulator makes the price worse than the average
again; only its rounding to six decimals can make it better.
-/

namespace Senex.Portfolio

open Text PyFloat Exact

/-- `levels_consumed`, the count of the loop. -/
def Walk.levelsConsumed {F : Type} [PyFloat F] (w : Walk F) : List (BookLevel F) → Nat
  | [] => 0
  | level :: levels => if le w.remaining (lit 0) then 0 else (w.take level).levelsConsumed levels + 1

/-- A book with the best prices of each side first. -/
structure SortedBook extends OrderBook where
  bids_sorted : bids.Pairwise fun a b => b.price ≤ a.price
  asks_sorted : asks.Pairwise fun a b => a.price ≤ b.price

/-- The price is no better than the other one for who takes that side. -/
def NoBetter : Direction → Exact → Exact → Prop
  | .long, price, other => other ≤ price
  | .short, price, other => price ≤ other

/-- The sign with which a higher price is a worse one. -/
def sign : Direction → Exact
  | .long => 1
  | .short => -1

theorem noBetter_iff {direction : Direction} {price other : Exact} :
    NoBetter direction price other ↔ sign direction * other ≤ sign direction * price := by
  cases direction <;> simp [NoBetter, sign]

/-! ## The walk -/

theorem Walk.levelsConsumed_eq (offers : List (Offer Exact)) (w : Walk Exact) :
    w.levelsConsumed (offers.map OrderBook.level) = Offer.reached offers w.remaining := by
  induction offers generalizing w with
  | nil => rfl
  | cons offer offers ih =>
      simp only [List.map_cons, levelsConsumed, Offer.reached, le_exact, lit_zero, decide_eq_true_eq, ih]
      simp only [Walk.take, OrderBook.level, minimum_exact]

section
variable (direction : Direction) (book : OrderBook) (maxLevels : Nat)

/-- The quantity and the average price of a request. -/
theorem walkBook_bought {request : Exact} (nonneg : 0 ≤ request) :
    let offers := book.taken direction maxLevels
    let walk := walkBook direction request book.snapshot maxLevels
    walk.2 = Offer.bought offers request ∧
      walk.1 = Offer.cost offers (Offer.bought offers request) / Offer.bought offers request := by
  obtain ⟨qty, money⟩ := Walk.through_eq (book.taken direction maxLevels) (Walk.start request) nonneg
  have some := Offer.bought_nonneg (book.taken direction maxLevels) nonneg
  simp only [Walk.start, lit_zero, zero_add] at qty money
  simp only [walkBook, OrderBook.levels_take, Walk.start, lit_zero, le_exact, decide_eq_true_eq]
  rw [qty, money]
  split
  · rename_i none
    have zero := le_antisymm none some
    simp [zero]
  · exact ⟨rfl, rfl⟩

theorem walkBook_none {request : Exact} (none : request ≤ 0) :
    walkBook direction request book.snapshot maxLevels = (0, 0) := by
  have still (levels : List (BookLevel Exact)) :
      (Walk.start request).through levels = Walk.start request := by
    cases levels with
    | nil => rfl
    | cons level levels => simp [Walk.through, Walk.start, none]
  rw [walkBook, still]
  simp [Walk.start]

/-- The walk takes the request from the book, as far as the levels have it. -/
theorem walkBook_consumed (request : Exact) :
    let walk := walkBook direction request book.snapshot maxLevels
    walk.2 * walk.1 = min (max 0 request) (Offer.value (book.taken direction maxLevels)) := by
  rcases le_total request 0 with none | nonneg
  · rw [walkBook_none direction book maxLevels none, max_eq_left none,
      min_eq_left (Offer.value_nonneg (book.taken direction maxLevels))]
    exact mul_zero _
  · obtain ⟨qty, price⟩ := walkBook_bought direction book maxLevels nonneg
    dsimp only at qty price ⊢
    rw [qty, price, max_eq_right nonneg, ← Offer.cost_bought _ nonneg]
    by_cases zero : Offer.bought (book.taken direction maxLevels) request = 0
    · simp [zero, Offer.cost_zero]
    · exact mul_div_cancel₀ _ zero

end

section
variable (book : SortedBook) (direction : Direction) (maxLevels : Nat)

theorem SortedBook.taken_sorted : (book.taken direction maxLevels).Pairwise
    fun a b => sign direction * a.price ≤ sign direction * b.price := by
  apply List.Pairwise.sublist (List.take_sublist _ _)
  cases direction with
  | long => simpa [sign] using book.asks_sorted
  | short => simpa [sign] using book.bids_sorted

/-- Where something is taken, its average price is between those of the first and of the last level
that is touched. -/
theorem SortedBook.average_between {request : Exact}
    (some : 0 < (walkBook direction request book.snapshot maxLevels).2) :
    ∃ best worst, (book.taken direction maxLevels)[0]? = Option.some best ∧
      (book.taken direction maxLevels)[(Walk.start request).levelsConsumed
        ((book.taken direction maxLevels).map OrderBook.level) - 1]? = Option.some worst ∧
      NoBetter direction (walkBook direction request book.snapshot maxLevels).1 best.price ∧
      NoBetter direction worst.price (walkBook direction request book.snapshot maxLevels).1 := by
  have positive : 0 < request := by
    by_contra none
    rw [walkBook_none direction book.toOrderBook maxLevels (not_lt.mp none)] at some
    exact lt_irrefl _ some
  obtain ⟨qty, price⟩ := walkBook_bought direction book.toOrderBook maxLevels positive.le
  rw [qty] at some
  have sorted := book.taken_sorted direction maxLevels
  rw [Walk.levelsConsumed_eq]
  simp only [Walk.start, price, noBetter_iff]
  generalize book.taken direction maxLevels = offers at some sorted ⊢
  obtain ⟨within, same⟩ := Offer.bought_of_reached offers positive.le
  have count := Offer.reached_pos positive some
  have length := Offer.reached_le offers request
  have first : 0 < offers.length := by omega
  have last : Offer.reached offers request - 1 < offers.length := by omega
  have upTo : ∀ offer ∈ offers.take (Offer.reached offers request),
      sign direction * offers[0].price ≤ sign direction * offer.price ∧
        sign direction * offer.price ≤ sign direction * offers[Offer.reached offers request - 1].price := by
    intro offer member
    obtain ⟨i, inside, rfl⟩ := List.getElem_of_mem member
    rw [List.length_take] at inside
    rw [List.getElem_take]
    have ordered (i j : Nat) (j_lt : j < offers.length) (le : i ≤ j) :
        sign direction * (offers.get ⟨i, by omega⟩).price ≤ sign direction * offers[j].price := by
      rcases Nat.lt_or_eq_of_le le with less | rfl
      · exact List.pairwise_iff_getElem.mp sorted i j (by omega) j_lt less
      · exact le_refl _
    exact ⟨ordered 0 i (by omega) (Nat.zero_le i), ordered i _ last (by omega)⟩
  have lower := Offer.cost_slope (sign direction) (fun offer member => (upTo offer member).1) (le_refl 0)
    some.le within
  have below : ∀ offer ∈ offers.take (Offer.reached offers request),
      -(sign direction * offers[Offer.reached offers request - 1].price) ≤
        -sign direction * offer.price := by
    intro offer member
    rw [neg_mul]
    exact neg_le_neg (upTo offer member).2
  have upper := Offer.cost_slope (-sign direction) below (le_refl 0) some.le within
  rw [Offer.cost_zero, sub_zero, sub_zero, same] at lower upper
  refine ⟨offers[0], offers[Offer.reached offers request - 1], List.getElem?_eq_getElem first,
    List.getElem?_eq_getElem last, ?_, ?_⟩
  · rw [← mul_div_assoc, le_div_iff₀ some]
    exact lower
  · rw [← mul_div_assoc, div_le_iff₀ some]
    linarith

/-- A larger request has no better average. -/
theorem SortedBook.average_mono {small large : Exact} (positive : 0 < small) (le : small ≤ large) :
    NoBetter direction (walkBook direction large book.snapshot maxLevels).1
      (walkBook direction small book.snapshot maxLevels).1 := by
  obtain ⟨-, less⟩ := walkBook_bought direction book.toOrderBook maxLevels positive.le
  obtain ⟨-, more⟩ := walkBook_bought direction book.toOrderBook maxLevels (positive.le.trans le)
  have sorted := book.taken_sorted direction maxLevels
  rw [noBetter_iff, less, more]
  generalize book.taken direction maxLevels = offers at sorted ⊢
  have grows := Offer.bought_mono offers positive.le le
  rcases (Offer.value_nonneg offers).lt_or_eq with worth | nothing
  · have some := Offer.bought_pos offers positive worth
    have ratio := Offer.cost_ratio (sign direction) sorted some.le grows (Offer.bought_le_depth offers large)
    rw [← mul_div_assoc, ← mul_div_assoc, div_le_div_iff₀ some (some.trans_le grows)]
    linarith
  · -- nothing is on offer, so that nothing costs anything
    have spent := Offer.cost_bought offers positive.le
    have spentMore := Offer.cost_bought offers (positive.le.trans le)
    rw [← nothing, min_eq_right positive.le] at spent
    rw [← nothing, min_eq_right (positive.le.trans le)] at spentMore
    rw [spent, spentMore, zero_div, zero_div]

end

/-! ## The effective price -/

theorem absolute_exact (x : Exact) : absolute x = |x| := by
  simp only [absolute, lt_exact, lit_zero, decide_eq_true_eq]
  split
  · rename_i negative
    exact (abs_of_neg negative).symm
  · rename_i nonneg
    exact (abs_of_nonneg (not_lt.mp nonneg)).symm

theorem slippedPrice_eq (direction : Direction) (mid slipBps : Exact) :
    sign direction * slippedPrice direction mid slipBps = sign direction * mid + mid * (slipBps / lit 10000) := by
  cases direction with
  | long => simp only [sign, slippedPrice, lit_one]; ring
  | short => simp only [sign, slippedPrice, lit_one]; ring

theorem sign_mul_le (direction : Direction) (x : Exact) : sign direction * x ≤ |x| := by
  cases direction with
  | long => simpa [sign] using le_abs_self x
  | short => simpa [sign] using neg_le_abs x

/-- A price as far from the middle as the average, or farther on the side that the order pays for, is no
better than the average. -/
theorem slippedPrice_noBetter {direction : Direction} {mid average slipBps : Exact} (positive : 0 < mid)
    (far : |average - mid| / mid * lit 10000 ≤ slipBps) :
    NoBetter direction (slippedPrice direction mid slipBps) average := by
  have scale : (0 : Exact) < lit 10000 := by
    show (0 : ℚ) < 10000
    norm_num
  have distance : |average - mid| ≤ mid * (slipBps / lit 10000) := by
    rw [← le_div_iff₀ scale, div_le_iff₀ positive] at far
    linarith
  have side := sign_mul_le direction (average - mid)
  rw [noBetter_iff, slippedPrice_eq]
  rw [mul_sub] at side
  linarith

/-- The simulator's configuration with a limit of levels and a daily volume. -/
def SimulatorConfig.walking (maxLevels : Nat) (advUsd : Exact) : SimulatorConfig Exact :=
  { SimulatorConfig.defaults Exact with maxLevelsToWalk := maxLevels, advAssumedUsd := advUsd }

section
variable (maxLevels : Nat) (advUsd : Exact)

/-- The adverse selection never makes a slippage smaller. -/
theorem one_le_adverseSelection (toxicFlowScore : Exact) :
    1 ≤ adverseSelectionMultiplier (SimulatorConfig.walking maxLevels advUsd) toxicFlowScore := by
  have score : (0 : Exact) ≤ maximum (lit 0) (minimum (lit 1) toxicFlowScore) := by
    rw [maximum_exact]
    exact le_max_left _ _
  have grows : (0 : Exact) ≤ lit (25 / 10) - lit 1 := by
    show (0 : ℚ) ≤ 25 / 10 - 1
    norm_num
  exact le_add_of_nonneg_right (mul_nonneg grows score)

theorem estimateMarketImpact_nonneg {sqrt : Exact → Exact} (root : ∀ x, 0 ≤ x → 0 ≤ sqrt x)
    (notionalUsd : Exact) :
    0 ≤ estimateMarketImpact sqrt notionalUsd advUsd (SimulatorConfig.walking maxLevels advUsd).impactCoeff := by
  unfold estimateMarketImpact
  simp only [le_exact, lit_zero, Bool.or_eq_true, decide_eq_true_eq]
  split
  · exact le_refl _
  · rename_i both
    push Not at both
    have coeff : (0 : Exact) ≤ (SimulatorConfig.walking maxLevels advUsd).impactCoeff := by
      show (0 : ℚ) ≤ 10 / 100
      norm_num
    have scale : (0 : Exact) ≤ lit 10000 := by
      show (0 : ℚ) ≤ 10000
      norm_num
    exact mul_nonneg (mul_nonneg coeff (root _ (div_nonneg both.2.le both.1.le))) scale

variable {maxLevels advUsd} (direction : Direction) (book : OrderBook)

/-- The slippage is as much as the average is from the middle, or more. -/
theorem raw_le_slippageBps {sqrt : Exact → Exact} (root : ∀ x, 0 ≤ x → 0 ≤ sqrt x) {notionalUsd average : Exact}
    (toxicFlowScore : Option Exact) (positive : 0 < book.snapshot.mid) :
    |average - book.snapshot.mid| / book.snapshot.mid * lit 10000 ≤
      slippageBps sqrt (SimulatorConfig.walking maxLevels advUsd) notionalUsd book.snapshot toxicFlowScore
        average := by
  have impact := estimateMarketImpact_nonneg maxLevels advUsd root notionalUsd
  have adverse := one_le_adverseSelection maxLevels advUsd (toxicFlowScore.getD book.snapshot.toxicFlowScore)
  have scale : (0 : Exact) ≤ lit 10000 := by
    show (0 : ℚ) ≤ 10000
    norm_num
  have raw : 0 ≤ |average - book.snapshot.mid| / book.snapshot.mid * lit 10000 :=
    mul_nonneg (div_nonneg (abs_nonneg _) positive.le) scale
  unfold slippageBps
  dsimp only
  rw [absolute_exact]
  exact (le_add_of_nonneg_right impact).trans (le_mul_of_one_le_right (add_nonneg raw impact) adverse)

/-- The simulator returns the rounding of a price that is no better than the average, or no fill. -/
theorem simulateFill_effective {sqrt : Exact → Exact} (root : ∀ x, 0 ≤ x → 0 ≤ sqrt x) (notionalUsd : Exact)
    (toxicFlowScore : Option Exact) :
    let estimate := simulateFill sqrt (SimulatorConfig.walking maxLevels advUsd) direction notionalUsd
      book.snapshot toxicFlowScore
    estimate = FillEstimate.noFill ∨ ∃ effective, estimate.expectedVwapPrice = PyFloat.round 6 effective ∧
      NoBetter direction effective (walkBook direction notionalUsd book.snapshot maxLevels).1 := by
  unfold simulateFill
  dsimp only
  split_ifs with _ _ noMiddle
  · exact .inl rfl
  · exact .inl rfl
  · exact .inl rfl
  · exact .inl rfl
  · exact .inl rfl
  · exact .inl rfl
  · have positive : 0 < book.snapshot.mid := by
      apply not_le.mp
      simpa using noMiddle
    refine .inr ⟨_, rfl, ?_⟩
    exact slippedPrice_noBetter positive (raw_le_slippageBps book root toxicFlowScore positive)

end

theorem round_noBetter (direction : Direction) (digits : Nat) {price other : Exact} (worse : NoBetter direction price other) :
    sign direction * other ≤ sign direction * PyFloat.round digits price + 1 / 2 / 10 ^ digits := by
  have near : |PyFloat.round digits price - price| ≤ 1 / 2 / 10 ^ digits := Double.abs_roundTo_sub_le digits price
  obtain ⟨below, above⟩ := abs_le.mp near
  rw [noBetter_iff] at worse
  cases direction <;> simp only [sign] at worse ⊢ <;> linarith

/-- What a request takes from a sorted side, and what the simulator returns for it. -/
structure Walked (sqrt : Exact → Exact) (advUsd : Exact) (toxicFlowScore : Option Exact) (book : SortedBook)
    (direction : Direction) (maxLevels : Nat) (request : Exact) : Prop where
  consumed : (walkBook direction request book.snapshot maxLevels).2 *
      (walkBook direction request book.snapshot maxLevels).1 =
    min (max 0 request) (Offer.value (book.taken direction maxLevels))
  between : 0 < (walkBook direction request book.snapshot maxLevels).2 →
    ∃ best worst, (book.taken direction maxLevels)[0]? = some best ∧
      (book.taken direction maxLevels)[(Walk.start request).levelsConsumed
        ((book.taken direction maxLevels).map OrderBook.level) - 1]? = some worst ∧
      NoBetter direction (walkBook direction request book.snapshot maxLevels).1 best.price ∧
      NoBetter direction worst.price (walkBook direction request book.snapshot maxLevels).1
  mono : ∀ larger, 0 < request → request ≤ larger →
    NoBetter direction (walkBook direction larger book.snapshot maxLevels).1
      (walkBook direction request book.snapshot maxLevels).1
  effective :
    let estimate := simulateFill sqrt (SimulatorConfig.walking maxLevels advUsd) direction request
      book.snapshot toxicFlowScore
    estimate = FillEstimate.noFill ∨ ∃ price, estimate.expectedVwapPrice = PyFloat.round 6 price ∧
      NoBetter direction price (walkBook direction request book.snapshot maxLevels).1 ∧
      sign direction * (walkBook direction request book.snapshot maxLevels).1 ≤
        sign direction * estimate.expectedVwapPrice + 1 / 2 / 10 ^ 6

/-- The root to nine decimals, rounded down. -/
def rootNine : Exact → Exact :=
  fun (x : ℚ) => (Nat.sqrt (Rat.floor (x * 10 ^ 18)).toNat / 10 ^ 9 : ℚ)

theorem rootNine_nonneg (x : Exact) : 0 ≤ rootNine x := by
  have nonneg (root : Nat) : (0 : ℚ) ≤ root / 10 ^ 9 := by positivity
  exact nonneg _

/-- An offer to sell, or a bid, of a trillion. -/
def trillionAt (price : ℚ) (positive : 0 < price) : Offer Exact where
  price := price
  size := lit 1000000000000
  price_pos := positive
  size_nonneg := show (0 : ℚ) ≤ 1000000000000 by norm_num

/-- A book for a coin of a thousandth of a cent. -/
def coinBook : SortedBook where
  bids := [trillionAt (103 / 10000000) (by norm_num)]
  asks := [trillionAt (104 / 10000000) (by norm_num)]
  lastTradePrice := lit (104 / 10000000)
  toxicFlowScore := lit 0
  bids_sorted := List.pairwise_singleton _ _
  asks_sorted := List.pairwise_singleton _ _

end Senex.Portfolio
