import Senex.Portfolio.CashLaw
import Senex.Portfolio.Coordinator

/-! # Exposure caps

The exposure state is rebuilt from the open positions and the last prices before
every proposal, so the caps on the count, the gross and the net exposure hold
before the roundings.  The heat is measured against the starting equity: its cap
holds unless the equity has fallen below it and the open risk has outgrown what
the cap leaves of it.
-/

namespace Senex.Portfolio

open Text PyFloat Engine

/-! ## What is to hold -/

def openPositions (e : Engine ℚ) : List (Position ℚ) :=
  e.positions.values.filter fun p => p.status == .opened

namespace Coordinator

/-- Cash and the open positions at the last prices. -/
def currentEquity (c : Coordinator ℚ) : ℚ := c.engine.exactEquity c.lastPrices

def grossExposure (c : Coordinator ℚ) : ℚ :=
  total (fun p => p.qty * markOf c.lastPrices p) (openPositions c.engine)

def netExposure (c : Coordinator ℚ) : ℚ :=
  total (fun p => p.direction.signed (p.qty * markOf c.lastPrices p)) (openPositions c.engine)

def openRisk (c : Coordinator ℚ) : ℚ := total Position.riskUsd (openPositions c.engine)

end Coordinator

/-- The caps, for a proposal built in that state. -/
structure Capped (cfg : PortfolioConfig ℚ) (c : Coordinator ℚ) (p : TradeProposal ℚ) : Prop where
  concurrent : ((openPositions c.engine).length : Int) < cfg.maxConcurrent
  vacant : ∀ pos ∈ openPositions c.engine, pos.symbol ≠ p.symbol
  gross : c.grossExposure + p.sizeUsd ≤ cfg.maxGrossExposurePct * c.currentEquity
  net : |c.netExposure + p.direction.signed p.sizeUsd| ≤ cfg.maxNetExposurePct * c.currentEquity
  heat : (c.openRisk + p.riskUsd) / c.currentEquity ≤ cfg.heatMaxPct

/-- The equity is not below the starting equity, or the open risk leaves room for a trade's risk
under the cap at the equity there is. -/
def HeatRoom (cfg : PortfolioConfig ℚ) (c : Coordinator ℚ) : Prop :=
  max cfg.startingEquityUsd 1 ≤ c.currentEquity ∨
    c.openRisk / c.currentEquity + riskPctOf cfg ≤ cfg.heatMaxPct

/-- The caps at a call: for the proposal that it builds, if it builds one. -/
def CallCapped (cfg : CoordinatorConfig ℚ) (c : Coordinator ℚ) : CoordinatorCall ℚ → Prop
  | .ingest input => ∀ p, c.proposed cfg input = some p → Capped cfg.portfolio (c.observe cfg input) p
  | .tick _ => True

/-- A call that builds a proposal does so with room for its heat. -/
def CallHasRoom (cfg : CoordinatorConfig ℚ) (c : Coordinator ℚ) : CoordinatorCall ℚ → Prop
  | .ingest input => (c.proposed cfg input).isSome = true → HeatRoom cfg.portfolio (c.observe cfg input)
  | .tick _ => True

/-! ## The state before a proposal -/

/-- The entries under `positions` are open, stand under their own symbols and carry no negative
risk. -/
def Carried (e : Engine ℚ) : Prop :=
  e.positions.Every fun key p => p.symbol = key ∧ p.status = .opened ∧ 0 ≤ p.riskUsd

namespace Carried

variable {e : Engine ℚ}

theorem filed (carried : Carried e) : Filed e := fun entry member =>
  ⟨(carried entry member).1, (carried entry member).2.1⟩

theorem openPositions_eq (carried : Carried e) : openPositions e = e.positions.values := by
  apply List.filter_eq_self.mpr
  intro p member
  obtain ⟨_, _, status, _⟩ := Dict.Every.values carried member
  simp [status]

theorem items_eq (carried : Carried e) :
    e.positions.items.filter (fun entry => entry.2.status == .opened) = e.positions.items := by
  apply List.filter_eq_self.mpr
  intro entry member
  simp [(carried entry member).2.1]

end Carried

theorem foldl_include {startingEquity : ℚ} {lastPrices : Dict Text ℚ}
    {items : List (Text × Position ℚ)} (filed : ∀ entry ∈ items, entry.2.symbol = entry.1)
    (x : Exposure ℚ) :
    items.foldl (Exposure.include startingEquity lastPrices) x =
      { gross := x.gross + total (fun p => p.qty * markOf lastPrices p) (items.map Prod.snd)
        net := x.net +
          total (fun p => p.direction.signed (p.qty * markOf lastPrices p)) (items.map Prod.snd)
        heat := x.heat + total Position.riskUsd (items.map Prod.snd) / max startingEquity 1
        equity := x.equity + total (fun p => signedValue p (markOf lastPrices p)) (items.map Prod.snd)
        openCount := x.openCount + items.length } := by
  induction items generalizing x with
  | nil => simp
  | cons entry items ih =>
      have symbol := filed entry List.mem_cons_self
      rw [List.foldl_cons, ih fun other member => filed other (List.mem_cons_of_mem _ member)]
      simp only [Exposure.include, List.map_cons, total_cons, List.length_cons, Exposure.mk.injEq,
        maximum_rat, lit_rat, markOf, symbol]
      refine ⟨by ring, by ring, by ring, ?_, by omega⟩
      cases direction : entry.2.direction <;> simp only [signedValue, direction] <;> ring

theorem portfolioState_eq {cfg : CoordinatorConfig ℚ} {c : Coordinator ℚ} (carried : Carried c.engine) :
    c.portfolioState cfg =
      { equity := c.currentEquity
        cash := c.engine.cash
        openPositions := c.engine.positions.items
        grossExposureUsd := c.grossExposure
        netExposureUsd := c.netExposure
        portfolioHeatPct := c.openRisk / max cfg.portfolio.startingEquityUsd 1
        openCount := (openPositions c.engine).length } := by
  have filed : ∀ entry ∈ c.engine.positions.items, entry.2.symbol = entry.1 :=
    fun entry member => (carried entry member).1
  simp only [Coordinator.portfolioState, recomputeState, carried.items_eq, foldl_include filed,
    Coordinator.currentEquity, Balanced.exactEquity_eq carried.filed, Coordinator.grossExposure,
    Coordinator.netExposure, Coordinator.openRisk, carried.openPositions_eq, Dict.values, round_rat,
    lit_rat, zero_add, List.length_map]

/-! ## A proposal -/

/-- What `build_proposal` has checked of a proposal that it returns. -/
structure Built (cfg : PortfolioConfig ℚ) (state : PortfolioState ℚ) (asked : Text)
    (p : TradeProposal ℚ) : Prop where
  symbol : p.symbol = asked
  concurrent : (state.openCount : Int) < cfg.maxConcurrent
  vacant : ∀ entry ∈ state.openPositions, entry.1 ≠ asked
  risk : p.riskUsd = riskPctOf cfg * state.equity
  positive : 0 < p.sizeQty ∧ 0 < p.riskUsd
  gross : state.grossExposureUsd + p.sizeUsd ≤ cfg.maxGrossExposurePct * state.equity
  net : |state.netExposureUsd + p.direction.signed p.sizeUsd| ≤ cfg.maxNetExposurePct * state.equity
  heat : state.portfolioHeatPct + p.riskUsd / state.equity ≤ cfg.heatMaxPct

theorem absolute_rat (x : ℚ) : absolute x = |x| := by
  unfold absolute
  simp only [lt_rat, lit_rat, decide_eq_true_eq]
  split
  · rename_i negative
    exact (abs_of_neg negative).symm
  · rename_i nonneg
    exact (abs_of_nonneg (not_lt.mp nonneg)).symm

theorem guard_eq_some_iff {condition : Prop} [Decidable condition] {u : Unit} :
    (guard condition : Option Unit) = some u ↔ condition := by
  unfold guard
  split <;> simp_all

theorem buildProposal_built {cfg : PortfolioConfig ℚ} {state : PortfolioState ℚ}
    {prediction : Prediction ℚ} {volPct : Option ℚ} {edge : Direction → Option (EdgeContract ℚ)}
    {label : Option (MetaLabel ℚ)} {p : TradeProposal ℚ}
    (built : buildProposal cfg state prediction volPct edge label = some p) :
    Built cfg state prediction.symbol p := by
  simp only [buildProposal, Option.bind_eq_bind, Option.bind_eq_some_iff, guard_eq_some_iff,
    Option.pure_def, Option.some.injEq, le_rat, lt_rat, lit_rat, round_rat, absolute_rat,
    decide_eq_true_eq, Bool.or_eq_true, not_or, not_le, not_lt, List.any_eq_true, beq_iff_eq,
    not_exists, not_and] at built
  obtain ⟨direction, _, _, _, _, _, contract, _, _, concurrent, _, vacant, _, unit, _, _, _,
    ⟨qty, _⟩, _, gross, _, net, _, heat, rfl⟩ := built
  refine ⟨rfl, concurrent, vacant, rfl, ⟨qty, ?_⟩, gross, net, heat⟩
  dsimp only
  by_contra none
  have : riskPctOf cfg * state.equity / riskPerUnitOf direction prediction.priceNow
      (stopPriceOf direction prediction.priceNow (stopPctOf cfg volPct)) ≤ 0 :=
    div_nonpos_of_nonpos_of_nonneg (not_lt.mp none) unit.le
  exact absurd qty (not_lt.mpr this)

/-- A proposal keeps the caps exactly where there is room for its heat. -/
theorem capped_iff_heatRoom {cfg : CoordinatorConfig ℚ} {c : Coordinator ℚ} {input : Ingest ℚ}
    {p : TradeProposal ℚ} (carried : Carried c.engine) (built : c.propose cfg input = some p) :
    Capped cfg.portfolio c p ↔ HeatRoom cfg.portfolio c := by
  have checked := buildProposal_built built
  rw [portfolioState_eq carried] at checked
  obtain ⟨symbol, concurrent, vacant, risk, ⟨-, positive⟩, gross, net, heat⟩ := checked
  dsimp only at concurrent vacant risk gross net heat
  have invested : c.currentEquity ≠ 0 := by
    intro zero
    rw [risk, zero, mul_zero] at positive
    exact lt_irrefl _ positive
  have share : p.riskUsd / c.currentEquity = riskPctOf cfg.portfolio := by
    rw [risk, mul_div_assoc, div_self invested, mul_one]
  have sum : (c.openRisk + p.riskUsd) / c.currentEquity =
      c.openRisk / c.currentEquity + riskPctOf cfg.portfolio := by rw [add_div, share]
  constructor
  · intro capped
    right
    rw [← sum]
    exact capped.heat
  · intro room
    refine ⟨concurrent, ?_, gross, net, ?_⟩
    · intro pos member same
      rw [carried.openPositions_eq] at member
      obtain ⟨entry, there, rfl⟩ := List.mem_map.mp member
      exact vacant entry there (by rw [← (carried entry there).1, same, symbol])
    · rw [sum]
      rcases room with grown | room
      · have riskNonneg : 0 ≤ c.openRisk := by
          apply total_nonneg
          intro pos member
          rw [carried.openPositions_eq] at member
          obtain ⟨_, _, _, nonneg⟩ := Dict.Every.values carried member
          exact nonneg
        have base : (0 : ℚ) < max cfg.portfolio.startingEquityUsd 1 :=
          lt_of_lt_of_le one_pos (le_max_right _ _)
        have smaller : c.openRisk / c.currentEquity ≤
            c.openRisk / max cfg.portfolio.startingEquityUsd 1 :=
          div_le_div_of_nonneg_left riskNonneg base grown
        rw [share] at heat
        linarith
      · exact room

/-! ## Risk carried by the positions -/

theorem attempts_riskUsd {cfg : EngineConfig ℚ} {lastPrice : ℚ} {bookDepthUsd : Option ℚ}
    {draws : Nat → FillDraw ℚ} (left attempt : Nat) (o : Order ℚ) (cash : ℚ) :
    (attempts cfg lastPrice bookDepthUsd draws left attempt o cash).1.riskUsd = o.riskUsd := by
  induction left generalizing attempt o cash with
  | zero => rfl
  | succ left ih =>
      unfold attempts
      split
      · rfl
      · dsimp only
        split
        · exact ih _ _ _
        · split
          · rfl
          · exact ih _ _ _

namespace Carried

variable {e : Engine ℚ}

theorem start (cfg : EngineConfig ℚ) : Carried (Engine.start cfg) := Dict.every_empty _

theorem openOrAddPosition (carried : Carried e) {o : Order ℚ} (risk : 0 ≤ o.riskUsd)
    (positionId now : Text) : Carried (e.openOrAddPosition o positionId now) := by
  unfold Engine.openOrAddPosition
  split
  · exact carried
  · rename_i filled
    simp only [le_rat, lit_rat, decide_eq_true_eq, not_le] at filled
    split
    · exact carried
    · refine Dict.Every.set carried ⟨rfl, rfl, ?_⟩
      simp only [positionOf, lt_rat, lit_rat, decide_eq_true_eq]
      split
      · rename_i ordered
        exact div_nonneg (mul_nonneg risk filled.le) ordered.le
      · exact le_rfl

theorem tryFill (carried : Carried e) {o : Order ℚ} (risk : 0 ≤ o.riskUsd) (lastPrice : ℚ)
    (bookDepthUsd : Option ℚ) (draws : Nat → FillDraw ℚ) (positionId now : Text) :
    Carried (e.tryFill o lastPrice bookDepthUsd draws positionId now).1 := by
  have kept := @attempts_riskUsd e.cfg lastPrice bookDepthUsd draws (e.cfg.maxRetries + 1) 0 o e.cash
  unfold Engine.tryFill
  generalize attempts e.cfg lastPrice bookDepthUsd draws (e.cfg.maxRetries + 1) 0 o e.cash = out at kept
  obtain ⟨o', cash, filled⟩ := out
  have paid : Carried { e with cash := cash } := carried
  have opens (o'' : Order ℚ) (same : o''.riskUsd = o'.riskUsd) :
      Carried ({ e with cash := cash }.openOrAddPosition o'' positionId now) := by
    apply paid.openOrAddPosition
    rw [same, kept]
    exact risk
  dsimp only
  split
  · exact opens o' rfl
  · split
    · dsimp only
      split
      · exact opens _ rfl
      · exact paid
    · exact paid

theorem tryFillHighFidelity (carried : Carried e) {o : Order ℚ} (risk : 0 ≤ o.riskUsd) (lastPrice : ℚ)
    (estimate : FillEstimate ℚ) (positionId now : Text) :
    Carried (e.tryFillHighFidelity o lastPrice estimate positionId now).1 := by
  have paid : Carried { e with cash := e.cash - estimate.expectedFeeUsd } := carried
  have opens (o' : Order ℚ) (same : o'.riskUsd = o.riskUsd) :
      Carried ({ e with cash := e.cash - estimate.expectedFeeUsd }.openOrAddPosition o' positionId
        now) := by
    apply paid.openOrAddPosition
    rw [same]
    exact risk
  unfold Engine.tryFillHighFidelity
  split
  · exact carried
  · split
    · exact carried
    · dsimp only
      split
      · exact opens _ rfl
      · dsimp only
        split
        · exact opens _ rfl
        · exact paid

/-- A proposal has a positive size, so an order of it is scaled by a positive factor. -/
theorem submit (carried : Carried e) {p : OrderProposal ℚ} (size : 0 < p.sizeQty) (risk : 0 ≤ p.riskUsd)
    (sizeScale lastPrice : ℚ) (inputs : SubmitInputs ℚ) :
    Carried (e.submit p sizeScale lastPrice inputs).1 := by
  have counted : Carried { e with orders := e.orders + 1 } := carried
  unfold Engine.submit
  dsimp only
  split
  · exact counted
  · rename_i ordered
    simp only [le_rat, lit_rat, decide_eq_true_eq, not_le] at ordered
    have scale : 0 ≤ sizeScale := ((pos_iff_pos_of_mul_pos ordered).mp size).le
    have orderRisk : 0 ≤ (e.newOrder p sizeScale lastPrice inputs.limitSlippage inputs.orderId).riskUsd :=
      mul_nonneg risk scale
    split
    · exact counted.tryFillHighFidelity orderRisk _ _ _ _
    · exact counted.tryFill orderRisk _ _ _ _ _

/-- A change of the open position under a symbol that leaves its risk as it is. -/
theorem update (carried : Carried e) {symbol : Text} {p q : Position ℚ}
    (held : e.openPosition symbol = some p)
    (same : q.symbol = p.symbol ∧ q.status = p.status ∧ q.riskUsd = p.riskUsd) :
    Carried { e with positions := e.positions.set symbol q } := by
  rw [Balanced.openPosition_eq carried.filed] at held
  obtain ⟨symbol', status, risk⟩ := carried.get? held
  refine Dict.Every.set carried ⟨same.1.trans symbol', same.2.1.trans status, ?_⟩
  rw [same.2.2]
  exact risk

theorem setStopTarget (carried : Carried e) (symbol : Text) (stopPrice targetPrice : ℚ) :
    Carried (e.setStopTarget symbol stopPrice targetPrice) := by
  unfold Engine.setStopTarget
  split
  · exact carried
  · rename_i held
    exact carried.update held ⟨rfl, rfl, rfl⟩

theorem checkExits (carried : Carried e) (symbol : Text) (tickPrice : ℚ) (tickTs : Text)
    (killSwitchActive : Bool) (random : ℚ) :
    Carried (e.checkExits symbol tickPrice tickTs killSwitchActive random).1 := by
  unfold Engine.checkExits
  split
  · exact carried
  · rename_i p held
    dsimp only
    split
    · apply carried.update held
      unfold withExcursions
      dsimp only
      split <;> exact ⟨rfl, rfl, rfl⟩
    · exact Dict.Every.erase carried

end Carried

/-! ## Whole runs -/

theorem place_carried {c : Coordinator ℚ} {input : Ingest ℚ} {p : TradeProposal ℚ}
    (carried : Carried c.engine) (size : 0 < p.sizeQty) (risk : 0 ≤ p.riskUsd) (sizeScale : ℚ) :
    Carried (c.place input p sizeScale).engine := by
  have submitted := carried.submit (p := Coordinator.orderProposal p) size risk sizeScale
    input.refPrice input.submit
  unfold Coordinator.place
  dsimp only
  split
  · exact submitted.setStopTarget _ _ _
  · exact submitted

theorem ingest_carried {cfg : CoordinatorConfig ℚ} {c : Coordinator ℚ} (input : Ingest ℚ)
    (carried : Carried c.engine) : Carried (c.ingest cfg input).engine := by
  unfold Coordinator.ingest
  split
  · dsimp only
    split
    · exact carried
    · rename_i p built
      obtain ⟨size, risk⟩ := (buildProposal_built built).positive
      unfold Coordinator.decide
      split
      · exact carried
      · split
        · exact place_carried carried size risk.le _
        · exact carried
  · exact carried

theorem step_carried {cfg : CoordinatorConfig ℚ} {c : Coordinator ℚ} (call : CoordinatorCall ℚ)
    (carried : Carried c.engine) : Carried (c.step cfg call).engine := by
  cases call with
  | ingest input => exact ingest_carried input carried
  | tick input => exact carried.checkExits _ _ _ _ _

theorem callCapped_iff {cfg : CoordinatorConfig ℚ} {c : Coordinator ℚ} (call : CoordinatorCall ℚ)
    (carried : Carried c.engine) : CallCapped cfg c call ↔ CallHasRoom cfg c call := by
  cases call with
  | tick input => exact Iff.rfl
  | ingest input =>
      have observed : Carried (c.observe cfg input).engine := carried
      have built {p : TradeProposal ℚ} (proposed : c.proposed cfg input = some p) :
          (c.observe cfg input).propose cfg input = some p := by
        unfold Coordinator.proposed at proposed
        split at proposed
        · exact proposed
        · cases proposed
      constructor
      · intro capped some
        obtain ⟨p, proposed⟩ := Option.isSome_iff_exists.mp some
        exact (capped_iff_heatRoom observed (built proposed)).mp (capped p proposed)
      · intro room p proposed
        apply (capped_iff_heatRoom observed (built proposed)).mpr
        exact room (by rw [proposed]; rfl)

/-- In every run, the caps hold for all the proposals exactly if each is built with room for its
heat. -/
theorem capped_iff_room (cfg : CoordinatorConfig ℚ) (now : Civil) (calls : List (CoordinatorCall ℚ)) :
    Allowed (Coordinator.step cfg) (CallCapped cfg) (Coordinator.start cfg now) calls ↔
      Allowed (Coordinator.step cfg) (CallHasRoom cfg) (Coordinator.start cfg now) calls := by
  simp only [allowed_iff_split]
  refine forall_congr' fun first => forall_congr' fun call => forall_congr' fun rest =>
    forall_congr' fun _ => ?_
  apply callCapped_iff
  exact @run_invariant_of_step _ _ _ (fun c : Coordinator ℚ => Carried c.engine)
    (fun c call carried => step_carried call carried) _ (Carried.start cfg.engine) first

/-! ## A drawn-down state -/

/-- The defaults with a heat cap of two trades. -/
def twoTradesConfig : CoordinatorConfig ℚ where
  portfolio := { PortfolioConfig.defaults ℚ with heatMaxPct := 1 / 100 }
  risk := RiskConfig.defaults ℚ
  engine := EngineConfig.defaults ℚ

private theorem newYear_valid : 1 ≤ 2026 ∧ 2026 ≤ 9999 ∧ 1 ≤ 1 ∧ 1 ≤ 12 ∧ 1 ≤ 1 ∧ 1 ≤ Datetime.daysInMonth 2026 1 ∧
    0 < 24 ∧ 0 < 60 ∧ 0 < 60 ∧ 0 < 1000000 := by
  decide

def newYear : Civil := ⟨2026, 1, 1, 0, 0, 0, 0, newYear_valid⟩

def sampleEdge : EdgeContract ℚ :=
  ⟨txt "VALIDATED_OOS_NET_EDGE", txt "NET_RETURN_1H", txt "walk-forward", List.replicate 64 48,
    List.replicate 64 48, 3600, 10, 5, 1⟩

/-- A SHORT at that price that is filled in full. -/
def shortAt (symbol : Text) (price : ℚ) : Ingest ℚ where
  prediction := ⟨txt "SHORT", symbol, price, 1 / 2, none⟩
  lastPrice := none
  volPct := none
  edge _ := some sampleEdge
  label := some ⟨true, 1⟩
  microstructure := some fun _ _ => some ⟨txt "ALLOW", 0, 0, 0, false, false, 1⟩
  now := newYear
  submit := ⟨txt "ord-1", txt "pos-1", [], 1 / 2, some 1000000000, fun _ => ⟨1, 1 / 2⟩, none⟩

/-- A SHORT, a price half as high again, and a second SHORT. -/
def heatUnderWater : List (CoordinatorCall ℚ) :=
  [.ingest (shortAt (txt "ETH/USDT") 1000), .ingest (shortAt (txt "ETH/USDT") 1500),
    .ingest (shortAt (txt "BTC/USDT") 100)]

theorem not_capped_heatUnderWater :
    ¬ Allowed (Coordinator.step twoTradesConfig) (CallCapped twoTradesConfig)
      (Coordinator.start twoTradesConfig newYear) heatUnderWater := by
  intro capped
  have last := allowed_iff_split.mp capped (heatUnderWater.take 2) _ [] rfl
  set c := run (Coordinator.step twoTradesConfig) (Coordinator.start twoTradesConfig newYear)
    (heatUnderWater.take 2) with reached
  obtain ⟨p, built⟩ : ∃ p, c.proposed twoTradesConfig (shortAt (txt "BTC/USDT") 100) = some p := by
    apply Option.isSome_iff_exists.mp
    rw [reached]
    decide +kernel
  have heat := (last p built).heat
  have above : (c.proposed twoTradesConfig (shortAt (txt "BTC/USDT") 100)).all (fun p =>
      decide (twoTradesConfig.portfolio.heatMaxPct <
        ((c.observe twoTradesConfig (shortAt (txt "BTC/USDT") 100)).openRisk + p.riskUsd) /
          (c.observe twoTradesConfig (shortAt (txt "BTC/USDT") 100)).currentEquity)) = true := by
    rw [reached]
    decide +kernel
  rw [built] at above
  exact absurd heat (not_le.mpr (of_decide_eq_true above))

end Senex.Portfolio
