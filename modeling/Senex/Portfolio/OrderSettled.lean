import Senex.Foundation.Sign
import Senex.Portfolio.ExecutionFidelity

/-! # Settled orders

`submit` should return every order settled, and move cash and positions exactly
where it fills something.  It does so unless the ordered quantity rounds to nothing
or the last price gives it no notional, where the order stays submitted, and unless
a quantity is filled for a symbol that has an open position, where the fees are paid
for a position that is never booked.
-/

namespace Senex.Portfolio

open Text PyFloat Double

/-- An order that will not be worked on any further. -/
def OrderStatus.Terminal (status : OrderStatus) : Prop :=
  status = .filled ∨ status = .canceled ∨ status = .rejected

/-- What an entry leaves of the cash. -/
def entryCash (position : Position Double) (cash : Double) : Double :=
  match position.direction with
  | .short => cash + position.qty * position.avgEntryPrice
  | .long => cash - position.qty * position.avgEntryPrice

/-- The fees of the fills of an order, taken out of the cash one by one. -/
def Paid (cash : Double) (o : Order Double) (paid : Double) : Prop :=
  ∃ fees : List Double, o.totalFees = fees.foldl (· + ·) (lit 0) ∧ paid = fees.foldl (· - ·) cash

/-- An order is booked: its fees are paid and its position is entered. -/
def Booked (e after : Engine Double) (o : Order Double) : Prop :=
  after.positions ≠ e.positions ∧ ∃ position paid, Paid e.cash o paid ∧
    position.status = .opened ∧ position.direction = o.direction ∧
    position.qty = o.filledQty ∧ position.avgEntryPrice = o.avgFillPrice ∧
    position.feesPaid = o.totalFees ∧ after.positions = e.positions.set o.symbol position ∧
    after.cash = entryCash position paid

/-- What `submit` should leave of an order: a terminal status, and a change of cash and positions
exactly where something is filled. -/
structure Settled (e : Engine Double) (result : Engine Double × Order Double) : Prop where
  terminal : result.2.status.Terminal
  booked : result.2.filledQty.positive = true → Booked e result.1 result.2
  untouched : result.2.filledQty.positive = false →
    result.1.cash = e.cash ∧ result.1.positions = e.positions

/-! ## Quantities on offer -/

/-- The quantity on which `_try_fill` first charges a fee. -/
def firstQty (cfg : EngineConfig Double) (o : Order Double) (lastPrice : Double)
    (bookDepthUsd : Option Double) (draws : Nat → FillDraw Double) : Nat → Nat → Option Double
  | 0, _ => none
  | left + 1, attempt =>
      let qty := Engine.fillQty cfg o lastPrice bookDepthUsd (draws attempt).noise
      if PyFloat.le qty (lit 0) then firstQty cfg o lastPrice bookDepthUsd draws left (attempt + 1)
      else some qty

/-- A quantity whose fill leaves the books right: a positive one without an open position in the
symbol.  An undefined one is no quantity, and where there is an open position it only undoes the cash. -/
def Bookable (e : Engine Double) (symbol : Text) (qty : Double) : Prop :=
  qty.positive = true ∧ e.openPosition symbol = none ∨
    qty = .nan ∧ e.cash = .nan ∧ e.openPosition symbol ≠ none

theorem bookable_iff {e : Engine Double} {symbol : Text} {qty : Double} (some : qty.positive = true) :
    Bookable e symbol qty ↔ e.openPosition symbol = none := by
  constructor
  · rintro (⟨-, free⟩ | ⟨undefined, -, -⟩)
    · exact free
    · rw [undefined] at some
      cases some
  · exact fun free => .inl ⟨some, free⟩

theorem firstQty_more {cfg : EngineConfig Double} {o : Order Double} {lastPrice : Double}
    {bookDepthUsd : Option Double} {draws : Nat → FillDraw Double} {left attempt : Nat} {qty : Double}
    (offered : firstQty cfg o lastPrice bookDepthUsd draws left attempt = some qty) :
    qty.nonPositive = false := by
  induction left generalizing attempt with
  | zero => cases offered
  | succ left ih =>
      simp only [firstQty] at offered
      split at offered
      · exact ih offered
      · rename_i more
        cases offered
        exact Bool.eq_false_iff.mpr more

/-! ## Booking -/

section
variable {e : Engine Double} {o : Order Double} {cash : Double} {positionId now : Text}

theorem openPosition_set (symbol : Text) {position : Position Double} (opened : position.status = .opened)
    {after : Engine Double} (set : after.positions = e.positions.set symbol position) :
    after.openPosition symbol = some position := by
  simp [Engine.openPosition, set, opened]

/-- A fill with an open position in the symbol enters no position. -/
theorem openOrAdd_held (held : e.openPosition o.symbol ≠ none) :
    e.openOrAddPosition o positionId now = e := by
  unfold Engine.openOrAddPosition
  split
  · rfl
  · rw [if_pos (Option.isSome_iff_ne_none.mpr held)]

/-- A fill without one enters a position. -/
theorem openOrAdd_free (more : o.filledQty.nonPositive = false) (free : e.openPosition o.symbol = none) :
    let after := e.openOrAddPosition o positionId now
    after.positions ≠ e.positions ∧ ∃ position : Position Double,
      position.status = .opened ∧ position.direction = o.direction ∧
      position.qty = o.filledQty ∧ position.avgEntryPrice = o.avgFillPrice ∧
      position.feesPaid = o.totalFees ∧ after.positions = e.positions.set o.symbol position ∧
      after.cash = entryCash position e.cash := by
  have shape : e.openOrAddPosition o positionId now =
      let pos := Engine.positionOf e.cfg o positionId now
      { e with positions := e.positions.set o.symbol pos, cash := entryCash pos e.cash } := by
    unfold Engine.openOrAddPosition
    rw [if_neg (by change ¬ o.filledQty.nonPositive = true; simp [more]), if_neg (by simp [free])]
    rfl
  rw [shape]
  refine ⟨?_, Engine.positionOf e.cfg o positionId now, rfl, rfl, rfl, rfl, rfl, rfl, rfl⟩
  intro same
  let entered := Engine.positionOf e.cfg o positionId now
  have found : Engine.openPosition { e with positions := e.positions.set o.symbol entered } o.symbol =
      some entered :=
    openPosition_set (e := e) o.symbol rfl rfl
  simp only [Engine.openPosition] at found free same
  rw [same, free] at found
  cases found

/-- A fill is settled just where its quantity is bookable. -/
theorem settled_fill_iff (terminal : o.status.Terminal) (more : o.filledQty.nonPositive = false)
    (paid : Paid e.cash o cash) (undone : o.filledQty = .nan → cash = .nan) :
    Settled e ({ e with cash := cash }.openOrAddPosition o positionId now, o) ↔
      Bookable e o.symbol o.filledQty := by
  by_cases free : e.openPosition o.symbol = none
  · obtain ⟨changed, position, opened⟩ :=
      @openOrAdd_free { e with cash := cash } o positionId now more free
    rcases positive_or_nan more with some | undefined
    · constructor
      · intro _
        exact .inl ⟨some, free⟩
      · intro _
        refine ⟨terminal, fun _ => ?_, fun none => ?_⟩
        · obtain ⟨status, direction, qty, price, fees, positions, left⟩ := opened
          exact ⟨changed, position, cash, paid, status, direction, qty, price, fees, positions, left⟩
        · rw [some] at none
          cases none
    · constructor
      · intro settled
        exact absurd (settled.untouched (by rw [undefined]; rfl)).2 changed
      · rintro (⟨some, -⟩ | ⟨-, -, held⟩)
        · rw [undefined] at some
          cases some
        · exact absurd free held
  · rw [openOrAdd_held (e := { e with cash := cash }) free]
    rcases positive_or_nan more with some | undefined
    · constructor
      · intro settled
        exact absurd rfl (settled.booked some).1
      · rintro (⟨-, none⟩ | ⟨undefined, -, -⟩)
        · exact absurd none free
        · rw [undefined] at some
          cases some
    · constructor
      · intro settled
        have same := (settled.untouched (by rw [undefined]; rfl)).1
        exact .inr ⟨undefined, same.symm.trans (undone undefined), free⟩
      · rintro (⟨some, -⟩ | ⟨-, nothing, -⟩)
        · rw [undefined] at some
          cases some
        · refine ⟨terminal, fun some => ?_, fun _ => ⟨?_, rfl⟩⟩
          · rw [undefined] at some
            cases some
          · exact (undone undefined).trans nothing.symm

/-- Where nothing is filled and nothing is charged, the status decides. -/
theorem settled_untouched_iff (none : o.filledQty.positive = false) {after : Engine Double}
    (cash_eq : after.cash = e.cash) (positions_eq : after.positions = e.positions) :
    Settled e (after, o) ↔ o.status.Terminal := by
  constructor
  · exact fun settled => settled.terminal
  · intro terminal
    refine ⟨terminal, fun some => ?_, fun _ => ⟨cash_eq, positions_eq⟩⟩
    rw [none] at some
    cases some

end

/-! ## Attempts -/

def attemptPrice (cfg : EngineConfig Double) (o : Order Double) (lastPrice : Double)
    (draw : FillDraw Double) : Double :=
  slippedPrice o.direction lastPrice (Engine.entrySlippage cfg draw.slippage)

def attemptFee (cfg : EngineConfig Double) (o : Order Double) (lastPrice qty : Double)
    (draw : FillDraw Double) : Double :=
  qty * attemptPrice cfg o lastPrice draw * Engine.feeBps cfg / lit 10000

/-- The order behind the fill of an attempt. -/
def attemptFill (cfg : EngineConfig Double) (o : Order Double) (lastPrice qty : Double)
    (draw : FillDraw Double) : Order Double :=
  o.addFill qty (attemptPrice cfg o lastPrice draw) (attemptFee cfg o lastPrice qty draw)

/-- What attempts leave once something is filled. -/
structure Worked (symbol : Text) (cash : Double) (result : Order Double × Double × Bool) : Prop where
  symbol_eq : result.1.symbol = symbol
  some : result.1.filledQty.positive = true
  paid : Paid cash result.1 result.2.1
  filled : result.2.2 = true → result.1.status = .filled
  residual : result.2.2 = false → result.1.remainingQty.positive = true

section
variable {cfg : EngineConfig Double} {lastPrice : Double} {bookDepthUsd : Option Double}
  {draws : Nat → FillDraw Double} {o : Order Double} {start cash : Double}

section
variable {left attempt : Nat} (rest : o.remainingQty.positive = true)
include rest

private theorem not_none_left : ¬ PyFloat.le o.remainingQty (lit 0) = true := by
  change ¬ o.remainingQty.nonPositive = true
  simp [nonPositive_of_positive rest]

/-- An attempt that fills nothing. -/
theorem attempts_skip
    (nothing : (Engine.fillQty cfg o lastPrice bookDepthUsd (draws attempt).noise).nonPositive = true) :
    Engine.attempts cfg lastPrice bookDepthUsd draws (left + 1) attempt o cash =
      Engine.attempts cfg lastPrice bookDepthUsd draws left (attempt + 1) o cash := by
  rw [Engine.attempts, if_neg (not_none_left rest)]
  exact if_pos nothing

variable {qty : Double} (offered : Engine.fillQty cfg o lastPrice bookDepthUsd (draws attempt).noise = qty)
  (more : qty.nonPositive = false)
include offered more

/-- An attempt that fills the whole order. -/
theorem attempts_full
    (none_left : PyFloat.le (attemptFill cfg o lastPrice qty (draws attempt)).remainingQty
      (lit (1 / 1000000000)) = true) :
    Engine.attempts cfg lastPrice bookDepthUsd draws (left + 1) attempt o cash =
      ({ attemptFill cfg o lastPrice qty (draws attempt) with status := .filled },
        cash - attemptFee cfg o lastPrice qty (draws attempt), true) := by
  subst offered
  unfold Engine.attempts
  rw [if_neg (not_none_left rest)]
  exact (if_neg (Bool.eq_false_iff.mp more)).trans (if_pos none_left)

/-- An attempt that leaves a residual. -/
theorem attempts_further
    (residual : PyFloat.le (attemptFill cfg o lastPrice qty (draws attempt)).remainingQty
      (lit (1 / 1000000000)) = false) :
    Engine.attempts cfg lastPrice bookDepthUsd draws (left + 1) attempt o cash =
      Engine.attempts cfg lastPrice bookDepthUsd draws left (attempt + 1)
        (Engine.retried cfg (attemptFill cfg o lastPrice qty (draws attempt)) attempt)
        (cash - attemptFee cfg o lastPrice qty (draws attempt)) := by
  subst offered
  rw [Engine.attempts, if_neg (not_none_left rest)]
  exact (if_neg (Bool.eq_false_iff.mp more)).trans (if_neg (Bool.eq_false_iff.mp residual))

end

theorem Paid.fill {o' : Order Double} {fee left : Double} (paid : Paid start o cash)
    (charged : o'.totalFees = o.totalFees + fee) (taken : left = cash - fee) : Paid start o' left := by
  obtain ⟨fees, total, rest⟩ := paid
  refine ⟨fees ++ [fee], ?_, ?_⟩
  · rw [charged, List.foldl_append, ← total]
    rfl
  · rw [taken, List.foldl_append, ← rest]
    rfl

theorem remaining_number (o : Order Double) : o.remainingQty.isNan = false := isNan_maximum_zero _

/-- What remains of a finite order behind a fill is finite. -/
theorem remaining_finite (bounded : o.orderedQty.isFinite = true) (some : o.filledQty.positive = true) :
    o.remainingQty.isFinite = true := by
  unfold Order.remainingQty
  rw [maximum_zero]
  split
  · rename_i rest
    rcases sub_bounded bounded some with none | finite | none
    · rw [none] at rest
      exact absurd (positive_iff.mp rest).2 (by norm_num [value])
    · exact finite
    · rw [none] at rest
      cases rest
  · rfl

/-- A part of a finite residual is a number. -/
theorem fillQty_number (finite : o.remainingQty.isFinite = true) (rest : o.remainingQty.positive = true)
    (noise : Double) : (Engine.fillQty cfg o lastPrice bookDepthUsd noise).isNan = false :=
  mul_number finite rest (isNan_minimum_one _)

/-- Further attempts at an order of which something is filled. -/
theorem attempts_worked (left attempt : Nat) (bounded : o.orderedQty.isFinite = true)
    (some : o.filledQty.positive = true) (rest : o.remainingQty.positive = true)
    {symbol : Text} (same : o.symbol = symbol) (paid : Paid start o cash) :
    Worked symbol start (Engine.attempts cfg lastPrice bookDepthUsd draws left attempt o cash) := by
  induction left generalizing attempt o cash with
  | zero => exact ⟨same, some, paid, by simp [Engine.attempts], fun _ => rest⟩
  | succ left ih =>
      cases nothing : (Engine.fillQty cfg o lastPrice bookDepthUsd (draws attempt).noise).nonPositive with
      | true =>
          rw [attempts_skip rest nothing]
          exact ih (attempt + 1) bounded some rest same paid
      | false =>
          have number := @fillQty_number cfg lastPrice bookDepthUsd o (remaining_finite bounded some) rest
            (draws attempt).noise
          have qty_some := (positive_or_nan nothing).resolve_right (by
            intro undefined
            rw [undefined] at number
            cases number)
          have filled_some := add_positive some qty_some
          cases residual : PyFloat.le (attemptFill cfg o lastPrice
              (Engine.fillQty cfg o lastPrice bookDepthUsd (draws attempt).noise) (draws attempt)).remainingQty
              (lit (1 / 1000000000)) with
          | true =>
              rw [attempts_full rest rfl nothing residual]
              exact ⟨same, filled_some, paid.fill rfl rfl, fun _ => rfl, nofun⟩
          | false =>
              rw [attempts_further rest rfl nothing residual]
              have left_over := positive_of_more (remaining_number _) residual
              exact ih (attempt + 1) bounded filled_some left_over same (paid.fill rfl rfl)

/-- Attempts without a quantity leave the order as it was. -/
theorem attempts_idle (left attempt : Nat) (rest : o.remainingQty.positive = true)
    (idle : firstQty cfg o lastPrice bookDepthUsd draws left attempt = none) :
    Engine.attempts cfg lastPrice bookDepthUsd draws left attempt o cash = (o, cash, false) := by
  induction left generalizing attempt with
  | zero => rfl
  | succ left ih =>
      simp only [firstQty] at idle
      split at idle
      · rename_i nothing
        rw [attempts_skip rest nothing]
        exact ih (attempt + 1) idle
      · cases idle

theorem remaining_fresh (fresh : o.filledQty = lit 0) : o.remainingQty = maximum (lit 0) o.orderedQty := by
  unfold Order.remainingQty
  rw [fresh]
  exact congrArg (maximum (lit 0)) (sub_zero _)

/-- An infinite order is filled as a whole, so what leaves a residual is finite. -/
theorem ordered_finite (fresh : o.filledQty = lit 0) (rest : o.remainingQty.positive = true)
    {part : Double} (some : (o.remainingQty * part).positive = true)
    (residual : (maximum (lit 0) (o.orderedQty - (o.filledQty + o.remainingQty * part))).positive = true) :
    o.orderedQty.isFinite = true := by
  have remaining := remaining_fresh fresh
  rw [remaining, positive_maximum_zero] at rest
  cases ordered : o.orderedQty with
  | finite => rfl
  | nan =>
      rw [ordered] at rest
      cases rest
  | infinity negative =>
      rw [ordered] at rest
      have whole : o.remainingQty = infinity negative := by rw [remaining, ordered, maximum_zero, if_pos rest]
      cases negative with
      | true => exact absurd (positive_iff.mp rest).2 (by norm_num [value])
      | false =>
          rw [whole] at some residual
          rw [infinity_mul_positive some, positive_maximum_zero, ordered, fresh] at residual
          cases residual

/-- Attempts with a positive quantity on offer. -/
theorem attempts_first (left attempt : Nat) (fresh : o.filledQty = lit 0)
    (rest : o.remainingQty.positive = true) (paid : Paid start o cash) {qty : Double}
    (offered : firstQty cfg o lastPrice bookDepthUsd draws left attempt = some qty)
    (some : qty.positive = true) :
    Worked o.symbol start (Engine.attempts cfg lastPrice bookDepthUsd draws left attempt o cash) := by
  induction left generalizing attempt with
  | zero => cases offered
  | succ left ih =>
      simp only [firstQty] at offered
      split at offered
      · rename_i nothing
        rw [attempts_skip rest nothing]
        exact ih (attempt + 1) offered
      · rename_i more
        have offered_eq := Option.some.inj offered
        have filled_some : (o.filledQty + qty).positive = true := by
          rw [fresh]
          exact zero_add_positive some
        have more_qty := nonPositive_of_positive some
        cases residual : PyFloat.le (attemptFill cfg o lastPrice qty (draws attempt)).remainingQty
            (lit (1 / 1000000000)) with
        | true =>
            rw [attempts_full rest offered_eq more_qty residual]
            exact ⟨rfl, filled_some, paid.fill rfl rfl, fun _ => rfl, nofun⟩
        | false =>
            rw [attempts_further rest offered_eq more_qty residual]
            have left_over := positive_of_more (remaining_number _) residual
            have bounded : o.orderedQty.isFinite = true := by
              subst offered_eq
              exact ordered_finite fresh rest some left_over
            apply attempts_worked left (attempt + 1)
            · exact bounded
            · exact filled_some
            · exact left_over
            · rfl
            · exact paid.fill rfl rfl

/-- Attempts with an undefined quantity on offer fill it at once. -/
theorem attempts_undefined (left attempt : Nat) (rest : o.remainingQty.positive = true)
    (paid : Paid start o cash)
    (offered : firstQty cfg o lastPrice bookDepthUsd draws left attempt = some .nan) :
    let result := Engine.attempts cfg lastPrice bookDepthUsd draws left attempt o cash
    result.1.symbol = o.symbol ∧ result.1.filledQty = .nan ∧ result.1.status = .filled ∧
      Paid start result.1 result.2.1 ∧ result.2.1 = .nan ∧ result.2.2 = true := by
  induction left generalizing attempt with
  | zero => cases offered
  | succ left ih =>
      simp only [firstQty] at offered
      split at offered
      · rename_i nothing
        rw [attempts_skip rest nothing]
        exact ih (attempt + 1) offered
      · have all : o.filledQty + nan = nan := add_nan _
        have none_left : PyFloat.le (maximum (lit 0) (o.orderedQty - (o.filledQty + nan)))
            (lit (1 / 1000000000)) = true := by
          rw [all, sub_nan]
          decide +kernel
        rw [attempts_full rest (Option.some.inj offered) nonPositive_nan none_left]
        refine ⟨rfl, all, rfl, paid.fill rfl rfl, ?_, rfl⟩
        exact sub_nan cash

end

/-! ## The order of a submission -/

section
variable {e : Engine Double} {o : Order Double} {positionId now : Text}

section
variable {lastPrice cash : Double} {bookDepthUsd : Option Double} {draws : Nat → FillDraw Double}
  {o' : Order Double}

theorem tryFill_filled (attempted : Engine.attempts e.cfg lastPrice bookDepthUsd draws
      (e.cfg.maxRetries + 1) 0 o e.cash = (o', cash, true)) :
    e.tryFill o lastPrice bookDepthUsd draws positionId now =
      ({ e with cash := cash }.openOrAddPosition o' positionId now, o') := by
  simp only [Engine.tryFill, attempted, if_true]

theorem tryFill_residual (attempted : Engine.attempts e.cfg lastPrice bookDepthUsd draws
      (e.cfg.maxRetries + 1) 0 o e.cash = (o', cash, false)) (rest : o'.remainingQty.positive = true) :
    e.tryFill o lastPrice bookDepthUsd draws positionId now =
      let canceled := { o' with status := .canceled }
      (if o'.filledQty.positive then { e with cash := cash }.openOrAddPosition canceled positionId now
        else { e with cash := cash }, canceled) := by
  simp only [Engine.tryFill, attempted, Bool.false_eq_true, if_false]
  exact if_pos rest

end

/-- `_try_fill` settles an order of some quantity unless it is offered a quantity that cannot be booked. -/
theorem settled_tryFill_iff {lastPrice : Double} {bookDepthUsd : Option Double}
    {draws : Nat → FillDraw Double} (fresh : o.filledQty = lit 0) (free : o.totalFees = lit 0)
    (submitted : o.status = .submitted) :
    Settled e (e.tryFill o lastPrice bookDepthUsd draws positionId now) ↔
      o.orderedQty.positive = true ∧
        ∀ qty, firstQty e.cfg o lastPrice bookDepthUsd draws (e.cfg.maxRetries + 1) 0 = some qty →
          Bookable e o.symbol qty := by
  have remaining := remaining_fresh fresh
  have paid : Paid e.cash o e.cash := ⟨[], free, rfl⟩
  cases ordered : o.orderedQty.positive with
  | false =>
      have stopped : PyFloat.le o.remainingQty (lit 0) = true := by
        change o.remainingQty.nonPositive = true
        rw [remaining, nonPositive_maximum_zero, ordered]
        rfl
      have nothing : o.remainingQty.positive = false := by rw [remaining, positive_maximum_zero, ordered]
      have shape : e.tryFill o lastPrice bookDepthUsd draws positionId now = (e, o) := by
        simp only [Engine.tryFill, Engine.attempts, if_pos stopped, Bool.false_eq_true, if_false]
        exact if_neg (Bool.eq_false_iff.mp nothing)
      rw [shape, settled_untouched_iff (by rw [fresh]; decide +kernel) rfl rfl, submitted]
      simp [OrderStatus.Terminal]
  | true =>
      have rest : o.remainingQty.positive = true := by rw [remaining, positive_maximum_zero, ordered]
      simp only [true_and]
      cases offered : firstQty e.cfg o lastPrice bookDepthUsd draws (e.cfg.maxRetries + 1) 0 with
      | none =>
          have idle : Engine.attempts e.cfg lastPrice bookDepthUsd draws (e.cfg.maxRetries + 1) 0 o e.cash =
              (o, e.cash, false) := attempts_idle (e.cfg.maxRetries + 1) 0 rest offered
          have nothing : o.filledQty.positive = false := by
            rw [fresh]
            decide +kernel
          have shape : e.tryFill o lastPrice bookDepthUsd draws positionId now =
              (e, { o with status := .canceled }) := by
            rw [tryFill_residual idle rest, nothing]
            rfl
          rw [shape, settled_untouched_iff (o := { o with status := .canceled }) nothing rfl rfl]
          simp [OrderStatus.Terminal]
      | some qty =>
          have each : (∀ q, some qty = some q → Bookable e o.symbol q) ↔ Bookable e o.symbol qty := by
            simp
          rw [each]
          rcases positive_or_nan (firstQty_more offered) with some | rfl
          · have worked := attempts_first (e.cfg.maxRetries + 1) 0 fresh rest paid offered some
            generalize attempted : Engine.attempts e.cfg lastPrice bookDepthUsd draws
              (e.cfg.maxRetries + 1) 0 o e.cash = result at worked
            obtain ⟨o', cash, filled⟩ := result
            have more := nonPositive_of_positive worked.some
            have undone : o'.filledQty = .nan → cash = .nan := by
              intro undefined
              have none := worked.some
              rw [show (o', cash, filled).1.filledQty = .nan from undefined] at none
              cases none
            rw [bookable_iff some, ← worked.symbol_eq]
            cases filled with
            | true =>
                rw [tryFill_filled attempted, settled_fill_iff (.inl (worked.filled rfl)) more worked.paid undone]
                exact bookable_iff worked.some
            | false =>
                rw [tryFill_residual attempted (worked.residual rfl),
                  show o'.filledQty.positive = true from worked.some]
                refine (settled_fill_iff (o := { o' with status := .canceled }) (.inr (.inl rfl)) more
                  worked.paid undone).trans ?_
                exact bookable_iff worked.some
          · obtain ⟨same, undefined, status, paid', nothing, filled⟩ :=
              attempts_undefined (e.cfg.maxRetries + 1) 0 rest paid offered
            generalize attempted : Engine.attempts e.cfg lastPrice bookDepthUsd draws
              (e.cfg.maxRetries + 1) 0 o e.cash = result at same undefined status paid' nothing filled
            obtain ⟨o', cash, last⟩ := result
            change last = true at filled
            subst filled
            have more : o'.filledQty.nonPositive = false := by
              rw [show o'.filledQty = .nan from undefined]
              rfl
            rw [tryFill_filled attempted, settled_fill_iff (.inl status) more paid' fun _ => nothing,
              show o'.filledQty = .nan from undefined, show o'.symbol = o.symbol from same]

/-- The fill of `_try_fill_high_fidelity`. -/
theorem highFidelity_fill {lastPrice : Double} {estimate : FillEstimate Double}
    (notional : (o.remainingQty * lastPrice).nonPositive = false)
    (offered : estimate.expectedQty.nonPositive = false) :
    e.tryFillHighFidelity o lastPrice estimate positionId now =
      let o' := o.addFill estimate.expectedQty estimate.expectedVwapPrice estimate.expectedFeeUsd
      let e' := { e with cash := e.cash - estimate.expectedFeeUsd }
      if PyFloat.le o'.remainingQty (lit (1 / 1000000000)) then
        (e'.openOrAddPosition { o' with status := .filled } positionId now, { o' with status := .filled })
      else
        (if o'.filledQty.positive then e'.openOrAddPosition { o' with status := .canceled } positionId now
          else e', { o' with status := .canceled }) :=
  (if_neg (Bool.eq_false_iff.mp notional)).trans (if_neg (Bool.eq_false_iff.mp offered))

/-- `_try_fill_high_fidelity` settles an order of some notional unless the simulator offers a quantity
that cannot be booked. -/
theorem settled_highFidelity_iff {lastPrice : Double} {estimate : FillEstimate Double}
    (fresh : o.filledQty = lit 0) (free : o.totalFees = lit 0) (submitted : o.status = .submitted)
    (undefined_fee : estimate.expectedQty = .nan → estimate.expectedFeeUsd = .nan) :
    Settled e (e.tryFillHighFidelity o lastPrice estimate positionId now) ↔
      (o.remainingQty * lastPrice).nonPositive = false ∧
        (estimate.expectedQty.nonPositive = false → Bookable e o.symbol estimate.expectedQty) := by
  have nothing : o.filledQty.positive = false := by
    rw [fresh]
    decide +kernel
  cases notional : (o.remainingQty * lastPrice).nonPositive with
  | true =>
      have shape : e.tryFillHighFidelity o lastPrice estimate positionId now = (e, o) := if_pos notional
      rw [shape, settled_untouched_iff nothing rfl rfl, submitted]
      simp [OrderStatus.Terminal]
  | false =>
      cases offered : estimate.expectedQty.nonPositive with
      | true =>
          have shape : e.tryFillHighFidelity o lastPrice estimate positionId now =
              (e, { o with status := .canceled }) :=
            (if_neg (Bool.eq_false_iff.mp notional)).trans (if_pos offered)
          rw [shape, settled_untouched_iff (o := { o with status := .canceled }) nothing rfl rfl]
          simp [OrderStatus.Terminal]
      | false =>
          simp only [true_and, true_implies]
          have paid : Paid e.cash (o.addFill estimate.expectedQty estimate.expectedVwapPrice
              estimate.expectedFeeUsd) (e.cash - estimate.expectedFeeUsd) :=
            ⟨[estimate.expectedFeeUsd], by simp [Order.addFill, free], rfl⟩
          have filled_eq : (o.addFill estimate.expectedQty estimate.expectedVwapPrice
              estimate.expectedFeeUsd).filledQty = lit 0 + estimate.expectedQty := by
            rw [← fresh]
            rfl
          have shape := @highFidelity_fill e o positionId now _ _ notional offered
          have same : (o.addFill estimate.expectedQty estimate.expectedVwapPrice
            estimate.expectedFeeUsd).symbol = o.symbol := rfl
          generalize o.addFill estimate.expectedQty estimate.expectedVwapPrice
            estimate.expectedFeeUsd = o' at paid filled_eq shape same
          have undone : o'.filledQty = .nan → e.cash - estimate.expectedFeeUsd = .nan := by
            intro undefined
            rcases positive_or_nan offered with some | none
            · have filled_some := zero_add_positive some
              rw [show Double.round 0 + estimate.expectedQty = o'.filledQty from filled_eq.symm, undefined] at filled_some
              cases filled_some
            · rw [undefined_fee none]
              exact sub_nan _
          rw [shape]
          dsimp only
          rcases positive_or_nan offered with some | none
          · have filled_some : o'.filledQty.positive = true := by
              rw [filled_eq]
              exact zero_add_positive some
            have more := nonPositive_of_positive filled_some
            rw [bookable_iff some, ← same]
            cases residual : PyFloat.le o'.remainingQty (lit (1 / 1000000000)) with
            | true =>
                rw [if_pos rfl]
                exact (settled_fill_iff (o := { o' with status := .filled }) (.inl rfl) more paid undone).trans
                  (bookable_iff filled_some)
            | false =>
                rw [if_neg Bool.false_ne_true, filled_some, if_pos rfl]
                exact (settled_fill_iff (o := { o' with status := .canceled }) (.inr (.inl rfl)) more
                  paid undone).trans (bookable_iff filled_some)
          · have filled_none : o'.filledQty = .nan := by
              rw [filled_eq, none]
              exact add_nan _
            have none_left : PyFloat.le o'.remainingQty (lit (1 / 1000000000)) = true := by
              unfold Order.remainingQty
              rw [filled_none, sub_nan]
              decide +kernel
            have more : o'.filledQty.nonPositive = false := by
              rw [filled_none]
              rfl
            rw [none_left, if_pos rfl, none, ← filled_none, ← same]
            exact settled_fill_iff (o := { o' with status := .filled }) (.inl rfl) more paid undone

end

theorem isNan_roundDigits (digits : Nat) (x : Double) : (roundDigits digits x).isNan = x.isNan := by
  cases x with
  | nan | infinity => rfl
  | finite => exact isNan_ofMagnitude _ _

/-- What the simulator estimates: no fill, or the roundings of a quantity, its price and its fee. -/
theorem simulateFill_cases (sqrt : Double → Double) (cfg : SimulatorConfig Double)
    (direction : Direction) (notionalUsd : Double) (book : BookSnapshot Double)
    (toxicFlowScore : Option Double) :
    simulateFill sqrt cfg direction notionalUsd book toxicFlowScore = FillEstimate.noFill ∨
      ∃ qty effectiveVwap, simulateFill sqrt cfg direction notionalUsd book toxicFlowScore =
        ⟨PyFloat.round 8 qty, PyFloat.round 6 effectiveVwap,
          PyFloat.round 4 (qty * effectiveVwap * cfg.takerFeeBps / lit 10000)⟩ := by
  unfold simulateFill
  split_ifs
  · exact .inl rfl
  · exact .inl rfl
  · exact .inl rfl
  · dsimp only
    split_ifs
    · exact .inl rfl
    · exact .inl rfl
    · exact .inl rfl
    · exact .inr ⟨_, _, rfl⟩

/-- The fee of an undefined quantity is undefined. -/
theorem simulateFill_undefined {sqrt : Double → Double} {cfg : SimulatorConfig Double}
    {direction : Direction} {notionalUsd : Double} {book : BookSnapshot Double}
    {toxicFlowScore : Option Double}
    (undefined : (simulateFill sqrt cfg direction notionalUsd book toxicFlowScore).expectedQty = .nan) :
    (simulateFill sqrt cfg direction notionalUsd book toxicFlowScore).expectedFeeUsd = .nan := by
  rcases simulateFill_cases sqrt cfg direction notionalUsd book toxicFlowScore with
    none | ⟨qty, effectiveVwap, some⟩
  · rw [none] at undefined
    exact absurd undefined (by decide : (lit 0 : Double) ≠ .nan)
  · rw [some] at undefined ⊢
    cases qty with
    | nan => simp [PyFloat.round, roundDigits]
    | infinity negative => cases undefined
    | finite negative m e canonical =>
        have number := isNan_roundDigits 8 (.finite negative m e canonical)
        rw [show roundDigits 8 (.finite negative m e canonical) = .nan from undefined] at number
        cases number

/-! ## Submissions -/

section
variable (e : Engine Double) (sqrt : Double → Double) (cfg : SimulatorConfig Double)
  (p : OrderProposal Double) (sizeScale lastPrice : Double) (book : Option (BookSnapshot Double))
  (toxicFlowScore : Option Double) (inputs : Engine.SubmitInputs Double)

/-- The ordered quantity is positive from half of the eighth decimal on. -/
theorem ordered_positive_iff (random : Double) (orderId : Text)
    (finite : (p.sizeQty * sizeScale).isFinite = true) :
    (e.newOrder p sizeScale lastPrice random orderId).orderedQty.positive = true ↔
      1 / 2 / 10 ^ 8 < (p.sizeQty * sizeScale).value := by
  rw [positive_iff, ← roundDigits_pos_iff finite (by decide)]
  have number : (e.newOrder p sizeScale lastPrice random orderId).orderedQty.isNan = false := by
    refine (isNan_roundDigits 8 _).trans ?_
    exact isNan_eq_false finite
  rw [number]
  exact ⟨fun both => both.2, fun positive => ⟨rfl, positive⟩⟩

/-- The submissions that are settled: those that are rejected, and those that order some quantity, on a
book some notional at the last price, and are offered nothing that cannot be booked. -/
def Settleable : Prop :=
  let o := e.newOrder p sizeScale lastPrice inputs.limitSlippage inputs.orderId
  (p.sizeQty * sizeScale).nonPositive = true ∨
    match book with
    | none => o.orderedQty.positive = true ∧
        ∀ qty, firstQty e.cfg o lastPrice inputs.bookDepthUsd inputs.draws (e.cfg.maxRetries + 1) 0 = some qty →
          Bookable e p.symbol qty
    | some book =>
        let notionalUsd := o.remainingQty * lastPrice
        let qty := (simulateFill sqrt cfg p.direction notionalUsd book toxicFlowScore).expectedQty
        notionalUsd.nonPositive = false ∧ (qty.nonPositive = false → Bookable e p.symbol qty)

omit sqrt cfg p sizeScale lastPrice book toxicFlowScore inputs in
/-- The count of the orders is no part of it. -/
theorem settled_counted (orders : Nat) (result : Engine Double × Order Double) :
    Settled { e with orders := orders } result ↔ Settled e result :=
  ⟨fun settled => ⟨settled.terminal, settled.booked, settled.untouched⟩,
    fun settled => ⟨settled.terminal, settled.booked, settled.untouched⟩⟩

/-- `submit` settles exactly the submissions that can be. -/
theorem settled_iff :
    Settled e (e.submitOn sqrt cfg p sizeScale lastPrice book toxicFlowScore inputs) ↔
      Settleable e sqrt cfg p sizeScale lastPrice book toxicFlowScore inputs := by
  unfold Engine.submitOn Engine.submit Settleable
  dsimp only
  cases none : (p.sizeQty * sizeScale).nonPositive with
  | true =>
      rw [if_pos (show PyFloat.le (p.sizeQty * sizeScale) (lit 0) = true from none)]
      have nothing : (Engine.rejectedOrder p inputs.orderId).filledQty.positive = false :=
        Double.lt_self _
      have rejected := @settled_untouched_iff e _ nothing { e with orders := e.orders + 1 } rfl rfl
      refine rejected.trans ?_
      simp [OrderStatus.Terminal, Engine.rejectedOrder]
  | false =>
      rw [if_neg (Bool.eq_false_iff.mp (show PyFloat.le (p.sizeQty * sizeScale) (lit 0) = false from none))]
      simp only [Bool.false_eq_true, false_or]
      rw [← settled_counted e (e.orders + 1)]
      cases book with
      | none => exact settled_tryFill_iff rfl rfl rfl
      | some book => exact settled_highFidelity_iff rfl rfl rfl simulateFill_undefined
end

/-- An order of less than half of the eighth decimal stays submitted. -/
theorem not_settled_dust : ¬ Settled (Engine.start (EngineConfig.defaults Double))
    ((Engine.start (EngineConfig.defaults Double)).submitOn sqrt (SimulatorConfig.defaults Double)
      ⟨txt "ETH/USDT", .long, lit (4 / 1000000000), lit 0, none⟩ (lit 1) (lit 1700) none none
      ⟨txt "ord-1", txt "pos-1", txt "2026-05-01T00:00:00+00:00", lit 0, none, fun _ => ⟨lit 0, lit 0⟩, none⟩) := by
  intro settled
  have terminal := settled.terminal
  have submitted : ((Engine.start (EngineConfig.defaults Double)).submitOn sqrt
      (SimulatorConfig.defaults Double) ⟨txt "ETH/USDT", .long, lit (4 / 1000000000), lit 0, none⟩ (lit 1)
      (lit 1700) none none ⟨txt "ord-1", txt "pos-1", txt "2026-05-01T00:00:00+00:00", lit 0, none,
        fun _ => ⟨lit 0, lit 0⟩, none⟩).2.status = .submitted := by decide +kernel
  rw [submitted] at terminal
  simp [OrderStatus.Terminal] at terminal

end Senex.Portfolio
