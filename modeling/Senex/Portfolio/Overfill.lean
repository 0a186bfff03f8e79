import Senex.Foundation.Exact
import Senex.Foundation.Offers
import Senex.Portfolio.ExecutionFidelity

/-! # Overfilled orders

An order should not fill more than it orders, nor take more money from the book than
it is worth at the last price.  The attempts without a book keep to this.  On a book the
order is sized by the last price and filled by its notional, so that it is overfilled
exactly where the side it takes from sells more than the ordered quantity for that notional.
-/

namespace Senex.Portfolio

open Text PyFloat Exact

/-- A book of positive prices, without negative sizes. -/
structure OrderBook where
  bids : List (Offer Exact)
  asks : List (Offer Exact)
  lastTradePrice : Exact
  toxicFlowScore : Exact

namespace OrderBook

def level (offer : Offer Exact) : BookLevel Exact := ⟨offer.price, offer.size⟩

def snapshot (book : OrderBook) : BookSnapshot Exact where
  bids := book.bids.map level
  asks := book.asks.map level
  lastTradePrice := book.lastTradePrice
  toxicFlowScore := book.toxicFlowScore

/-- The offers that a marketable order may take. -/
def taken (book : OrderBook) (direction : Direction) (maxLevels : Nat) : List (Offer Exact) :=
  (match direction with
    | .long => book.asks
    | .short => book.bids).take maxLevels

theorem levels_take (book : OrderBook) (direction : Direction) (maxLevels : Nat) :
    (book.snapshot.levels direction).take maxLevels = (book.taken direction maxLevels).map level := by
  cases direction <;> exact List.map_take.symm

end OrderBook

/-! ## The walk buys what the notional pays for -/

theorem Walk.through_eq (offers : List (Offer Exact)) (w : Walk Exact) (nonneg : 0 ≤ w.remaining) :
    let after := w.through (offers.map OrderBook.level)
    after.cumQty = w.cumQty + Offer.bought offers w.remaining ∧
      after.cumPxTimesQty = w.cumPxTimesQty + Offer.cost offers (Offer.bought offers w.remaining) := by
  induction offers generalizing w with
  | nil => simp [Walk.through, Offer.bought, Offer.cost]
  | cons offer offers ih =>
      simp only [List.map_cons, Walk.through, le_exact, lit_zero, decide_eq_true_eq]
      split
      · rename_i none
        have nothing : w.remaining = 0 := le_antisymm none nonneg
        simp [nothing, Offer.bought_zero, Offer.cost_zero]
      · have step : w.take (OrderBook.level offer) =
            ⟨w.remaining - min w.remaining (offer.price * offer.size),
              w.cumPxTimesQty + offer.price * (min w.remaining (offer.price * offer.size) / offer.price),
              w.cumQty + min w.remaining (offer.price * offer.size) / offer.price⟩ := by
          simp only [Walk.take, OrderBook.level, minimum_exact, lt_exact, lit_zero, offer.price_pos,
            decide_true, if_true]
        have back (amount : Exact) : offer.price * (amount / offer.price) = amount := by
          field_simp [offer.price_pos.ne']
        rw [step]
        by_cases enough : w.remaining ≤ offer.price * offer.size
        · obtain ⟨qty, money⟩ := ih ⟨w.remaining - w.remaining, w.cumPxTimesQty + w.remaining,
            w.cumQty + w.remaining / offer.price⟩ (sub_self w.remaining).ge
          simp only [sub_self, Offer.bought_zero, Offer.cost_zero, add_zero] at qty money
          have all : Offer.bought (offer :: offers) w.remaining = w.remaining / offer.price := if_pos enough
          rw [min_eq_left enough, back, sub_self, qty, money, all, Offer.cost_first offer offers enough]
          exact ⟨rfl, rfl⟩
        · have less := (not_le.mp enough).le
          have rest : 0 ≤ w.remaining - offer.price * offer.size := sub_nonneg.mpr less
          obtain ⟨qty, money⟩ := ih ⟨w.remaining - offer.price * offer.size,
            w.cumPxTimesQty + offer.price * offer.size, w.cumQty + offer.size⟩ rest
          have size : offer.price * offer.size / offer.price = offer.size := by
            field_simp [offer.price_pos.ne']
          have more : Offer.bought (offer :: offers) w.remaining =
              offer.size + Offer.bought offers (w.remaining - offer.price * offer.size) := if_neg enough
          rw [min_eq_right less, size, qty, money, more,
            Offer.cost_whole offer offers (Offer.bought_nonneg offers rest)]
          exact ⟨add_assoc _ _ _, add_assoc _ _ _⟩

section
variable (direction : Direction) (book : OrderBook) (maxLevels : Nat) {notionalUsd : Exact}

/-- `walk_book` buys what the notional pays for, at no more than the notional. -/
theorem walkBook_eq (nonneg : 0 ≤ notionalUsd) :
    let walk := walkBook direction notionalUsd book.snapshot maxLevels
    walk.2 = Offer.bought (book.taken direction maxLevels) notionalUsd ∧
      walk.2 * walk.1 ≤ notionalUsd ∧ 0 ≤ walk.1 := by
  obtain ⟨qty, money⟩ := Walk.through_eq (book.taken direction maxLevels) (Walk.start notionalUsd) nonneg
  have some := Offer.bought_nonneg (book.taken direction maxLevels) nonneg
  have paid := Offer.cost_bought_le (book.taken direction maxLevels) nonneg
  simp only [Walk.start, lit_zero, zero_add] at qty money
  simp only [walkBook, OrderBook.levels_take, Walk.start, lit_zero, le_exact, decide_eq_true_eq]
  rw [qty, money]
  split
  · rename_i none
    refine ⟨le_antisymm some none, ?_, le_refl _⟩
    simpa using nonneg
  · rename_i more
    have positive := not_le.mp more
    refine ⟨rfl, ?_, div_nonneg (Offer.cost_nonneg _ some) some⟩
    calc _ = Offer.cost (book.taken direction maxLevels)
          (Offer.bought (book.taken direction maxLevels) notionalUsd) := by
          field_simp [positive.ne']
      _ ≤ notionalUsd := paid

/-- The fill that the simulator refuses for its price: there is no middle of the book, or the slippage
leaves no price or reaches its cap. -/
def Refused (sqrt : Exact → Exact) (cfg : SimulatorConfig Exact) (notionalUsd : Exact)
    (toxicFlowScore : Option Exact) : Prop :=
  let vwap := (walkBook direction notionalUsd book.snapshot cfg.maxLevelsToWalk).1
  let slippage := slippageBps sqrt cfg notionalUsd book.snapshot toxicFlowScore vwap
  book.snapshot.mid ≤ 0 ∨ slippedPrice direction book.snapshot.mid slippage ≤ 0 ∨
    cfg.maxEffectiveSlippageBps ≤ slippage

variable {direction book} {sqrt : Exact → Exact} {cfg : SimulatorConfig Exact} {toxicFlowScore : Option Exact}

theorem round_zero (digits : Nat) : (PyFloat.round digits 0 : Exact) = 0 := by
  have zero : roundTo digits 0 = 0 := by simp [roundTo, Double.halfEven]
  exact zero

theorem estimate_none (none : notionalUsd ≤ 0) :
    (simulateFill sqrt cfg direction notionalUsd book.snapshot toxicFlowScore).expectedQty = 0 := by
  unfold simulateFill
  rw [if_pos (show PyFloat.le notionalUsd (lit 0) = true from decide_eq_true none)]
  rfl

theorem estimate_refused (refused : Refused direction book sqrt cfg notionalUsd toxicFlowScore) :
    (simulateFill sqrt cfg direction notionalUsd book.snapshot toxicFlowScore).expectedQty = 0 := by
  unfold simulateFill
  dsimp only
  split_ifs with _ _ noMiddle _ noPrice tooMuch
  · rfl
  · rfl
  · rfl
  · rfl
  · rfl
  · rfl
  · simp only [le_exact, lit_zero, decide_eq_true_eq] at noMiddle noPrice tooMuch
    rcases refused with middle | price | slippage
    · exact absurd middle noMiddle
    · exact absurd price noPrice
    · exact absurd slippage tooMuch

/-- What the simulator does not refuse it buys. -/
theorem estimate_bought (some : 0 < notionalUsd)
    (accepted : ¬ Refused direction book sqrt cfg notionalUsd toxicFlowScore) :
    (simulateFill sqrt cfg direction notionalUsd book.snapshot toxicFlowScore).expectedQty =
      PyFloat.round 8 (Offer.bought (book.taken direction cfg.maxLevelsToWalk) notionalUsd) := by
  have qty := (walkBook_eq direction book cfg.maxLevelsToWalk some.le).1
  have nonneg := Offer.bought_nonneg (book.taken direction cfg.maxLevelsToWalk) some.le
  unfold simulateFill
  dsimp only
  split_ifs with none empty noMiddle nothing noPrice tooMuch
  · exact absurd (of_decide_eq_true none) (not_le.mpr some)
  · have offers : book.taken direction cfg.maxLevelsToWalk = [] := by
      simp only [OrderBook.snapshot, Bool.and_eq_true, List.isEmpty_iff, List.map_eq_nil_iff] at empty
      cases direction <;> simp [OrderBook.taken, empty]
    rw [offers]
    exact (round_zero 8).symm
  · exact absurd (.inl (of_decide_eq_true noMiddle)) accepted
  · have zero : Offer.bought (book.taken direction cfg.maxLevelsToWalk) notionalUsd = 0 := by
      apply le_antisymm _ nonneg
      rw [← qty]
      exact of_decide_eq_true nothing
    rw [zero]
    exact (round_zero 8).symm
  · exact absurd (.inr (.inl (of_decide_eq_true noPrice))) accepted
  · exact absurd (.inr (.inr (of_decide_eq_true tooMuch))) accepted
  · exact congrArg (PyFloat.round 8) qty

end

/-! ## Orders -/

section
variable {e : Engine Exact} {o : Order Exact} {positionId now : Text} {lastPrice : Exact}

theorem remainingQty_exact (o : Order Exact) : o.remainingQty = max 0 (o.orderedQty - o.filledQty) :=
  maximum_exact 0 _

/-- The order behind the fill of the simulator's estimate. -/
theorem highFidelity_filled {estimate : FillEstimate Exact} (fresh : o.filledQty = 0)
    (nonneg : 0 ≤ estimate.expectedQty)
    (none : o.remainingQty * lastPrice ≤ 0 → estimate.expectedQty = 0) :
    let result := (e.tryFillHighFidelity o lastPrice estimate positionId now).2
    result.filledQty = estimate.expectedQty ∧ result.orderedQty = o.orderedQty ∧
      result.direction = o.direction := by
  have filled (price fee : Exact) : (o.addFill estimate.expectedQty price fee).filledQty =
      estimate.expectedQty := by
    simp only [Order.addFill, fresh, zero_add]
  unfold Engine.tryFillHighFidelity
  dsimp only
  split_ifs with notional nothing
  · exact ⟨fresh.trans (none (of_decide_eq_true notional)).symm, rfl, rfl⟩
  · have zero := le_antisymm (of_decide_eq_true nothing) nonneg
    exact ⟨fresh.trans zero.symm, rfl, rfl⟩
  · exact ⟨filled estimate.expectedVwapPrice estimate.expectedFeeUsd, rfl, rfl⟩
  · exact ⟨filled estimate.expectedVwapPrice estimate.expectedFeeUsd, rfl, rfl⟩
  · exact ⟨filled estimate.expectedVwapPrice estimate.expectedFeeUsd, rfl, rfl⟩

/-- An attempt fills no more than remains. -/
theorem fillQty_le (cfg : EngineConfig Exact) (o : Order Exact) (bookDepthUsd : Option Exact) (noise : Exact) :
    Engine.fillQty cfg o lastPrice bookDepthUsd noise ≤ o.remainingQty := by
  have nonneg : 0 ≤ o.remainingQty := by
    rw [remainingQty_exact]
    exact le_max_left _ _
  unfold Engine.fillQty
  dsimp only
  apply mul_le_of_le_one_right nonneg
  rw [minimum_exact]
  exact min_le_left _ _

theorem attempts_le (cfg : EngineConfig Exact) (bookDepthUsd : Option Exact) (draws : Nat → FillDraw Exact)
    (left attempt : Nat) (cash : Exact) (within : o.filledQty ≤ o.orderedQty) :
    let result := (Engine.attempts cfg lastPrice bookDepthUsd draws left attempt o cash).1
    result.filledQty ≤ result.orderedQty := by
  induction left generalizing attempt o cash with
  | zero => exact within
  | succ left ih =>
      have step : o.filledQty + Engine.fillQty cfg o lastPrice bookDepthUsd (draws attempt).noise ≤
          o.orderedQty := by
        have part : Engine.fillQty cfg o lastPrice bookDepthUsd (draws attempt).noise ≤ o.remainingQty :=
          fillQty_le cfg o bookDepthUsd (draws attempt).noise
        rw [remainingQty_exact, max_eq_right (sub_nonneg.mpr within)] at part
        linarith
      unfold Engine.attempts
      dsimp only
      split_ifs
      · exact within
      · exact ih (attempt + 1) cash within
      · exact step
      · apply ih
        exact step

theorem tryFill_le {bookDepthUsd : Option Exact} {draws : Nat → FillDraw Exact}
    (within : o.filledQty ≤ o.orderedQty) :
    let result := (e.tryFill o lastPrice bookDepthUsd draws positionId now).2
    result.filledQty ≤ result.orderedQty := by
  have attempted : (Engine.attempts e.cfg lastPrice bookDepthUsd draws (e.cfg.maxRetries + 1) 0 o
      e.cash).1.filledQty ≤ (Engine.attempts e.cfg lastPrice bookDepthUsd draws (e.cfg.maxRetries + 1) 0 o
      e.cash).1.orderedQty :=
    attempts_le e.cfg bookDepthUsd draws (e.cfg.maxRetries + 1) 0 e.cash within
  unfold Engine.tryFill
  dsimp only
  split_ifs <;> exact attempted

end

/-! ## Submissions -/

/-- An order fills at most what it orders, and takes at most its notional from the book, up to the
rounding of the quantity. -/
structure WithinOrder (cfg : SimulatorConfig Exact) (book : Option OrderBook) (lastPrice : Exact)
    (o : Order Exact) : Prop where
  qty : o.filledQty ≤ o.orderedQty
  notional : ∀ b ∈ book, 0 < o.filledQty →
    let vwap := (walkBook o.direction (o.orderedQty * lastPrice) b.snapshot cfg.maxLevelsToWalk).1
    o.filledQty * vwap ≤ o.orderedQty * lastPrice + vwap * (1 / 2 / 10 ^ 8)

/-- The side that an order takes from sells no more than some quantity for a notional, as far as the
walk goes. -/
def NoCheaper (cfg : SimulatorConfig Exact) (direction : Direction) (book : OrderBook)
    (ordered notionalUsd : Exact) : Prop :=
  let offers := book.taken direction cfg.maxLevelsToWalk
  ∀ qty ≤ Offer.depth offers, Offer.cost offers qty ≤ notionalUsd → PyFloat.round 8 qty ≤ ordered

section
variable (e : Engine Exact) (sqrt : Exact → Exact) (cfg : SimulatorConfig Exact)
  (p : OrderProposal Exact) (sizeScale lastPrice : Exact) (book : Option OrderBook)
  (toxicFlowScore : Option Exact) (inputs : Engine.SubmitInputs Exact)

theorem noCheaper_iff (direction : Direction) (book : OrderBook) {ordered notionalUsd : Exact}
    (nonneg : 0 ≤ notionalUsd) : NoCheaper cfg direction book ordered notionalUsd ↔
      PyFloat.round 8 (Offer.bought (book.taken direction cfg.maxLevelsToWalk) notionalUsd) ≤ ordered :=
  (Offer.afford_iff _ nonneg (fun less below => (round_mono 8 less).trans below)).symm

/-- Nothing is bought for no notional. -/
theorem noCheaper_of_nonpos (direction : Direction) (book : OrderBook) {ordered notionalUsd : Exact}
    (none : notionalUsd ≤ 0) (nonneg : 0 ≤ ordered) : NoCheaper cfg direction book ordered notionalUsd := by
  intro qty offered paid
  have zero := Offer.le_bought _ (le_refl 0) offered (paid.trans none)
  rw [Offer.bought_zero] at zero
  calc PyFloat.round 8 qty ≤ PyFloat.round 8 0 := round_mono 8 zero
    _ = 0 := round_zero 8
    _ ≤ ordered := nonneg

omit e p sizeScale book inputs in
/-- The estimate on a book stays within the order unless the book is cheaper than the last price. -/
theorem estimate_within_iff (direction : Direction) (b : OrderBook) {ordered : Exact} (nonneg : 0 ≤ ordered) :
    (simulateFill sqrt cfg direction (ordered * lastPrice) b.snapshot toxicFlowScore).expectedQty ≤ ordered ↔
      Refused direction b sqrt cfg (ordered * lastPrice) toxicFlowScore ∨
        NoCheaper cfg direction b ordered (ordered * lastPrice) := by
  rcases le_or_gt (ordered * lastPrice) 0 with none | some
  · rw [estimate_none none]
    exact ⟨fun _ => .inr (noCheaper_of_nonpos cfg direction b none nonneg), fun _ => nonneg⟩
  · rw [noCheaper_iff cfg direction b some.le]
    by_cases refused : Refused direction b sqrt cfg (ordered * lastPrice) toxicFlowScore
    · rw [estimate_refused refused]
      exact ⟨fun _ => .inl refused, fun _ => nonneg⟩
    · rw [estimate_bought some refused]
      exact ⟨.inr, fun either => either.resolve_left refused⟩

omit e p sizeScale lastPrice book inputs in
theorem estimate_nonneg (direction : Direction) (b : OrderBook) (notionalUsd : Exact) :
    0 ≤ (simulateFill sqrt cfg direction notionalUsd b.snapshot toxicFlowScore).expectedQty := by
  rcases le_or_gt notionalUsd 0 with none | some
  · exact (estimate_none none).ge
  · by_cases refused : Refused direction b sqrt cfg notionalUsd toxicFlowScore
    · exact (estimate_refused refused).ge
    · rw [estimate_bought some refused]
      exact round_nonneg 8 (Offer.bought_nonneg _ some.le)

omit e p sizeScale book inputs in
/-- The estimate takes at most the notional from the book. -/
theorem estimate_notional (direction : Direction) (b : OrderBook) {notionalUsd : Exact}
    (filled : 0 < (simulateFill sqrt cfg direction notionalUsd b.snapshot toxicFlowScore).expectedQty) :
    let vwap := (walkBook direction notionalUsd b.snapshot cfg.maxLevelsToWalk).1
    (simulateFill sqrt cfg direction notionalUsd b.snapshot toxicFlowScore).expectedQty * vwap ≤
      notionalUsd + vwap * (1 / 2 / 10 ^ 8) := by
  rcases le_or_gt notionalUsd 0 with none | some
  · rw [estimate_none none] at filled
    exact absurd filled (lt_irrefl _)
  · by_cases refused : Refused direction b sqrt cfg notionalUsd toxicFlowScore
    · rw [estimate_refused refused] at filled
      exact absurd filled (lt_irrefl _)
    · obtain ⟨qty, paid, price⟩ := walkBook_eq direction b cfg.maxLevelsToWalk some.le
      dsimp only
      rw [estimate_bought some refused, ← qty]
      have rounded := mul_le_mul_of_nonneg_right (round_le 8
        (walkBook direction notionalUsd b.snapshot cfg.maxLevelsToWalk).2) price
      rw [add_mul] at rounded
      linarith

end

end Senex.Portfolio
