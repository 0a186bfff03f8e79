import Senex.Portfolio.RiskKernel

/-! # The latch of the kill switch

A switch that has been tripped by hand, by drawdown or by a loss streak is to
stay on until it is reset.  The day rollover resets a switch whose reason has
`daily_loss` in it, and a later trip overwrites the reason, so the latch holds
on the runs in which no day begins under such a reason.
-/

namespace Senex.Portfolio

open Text PyFloat

section
variable {F : Type} [PyFloat F]

inductive RiskCall (F : Type) where
  | recordPnl (now : Civil) (pnlUsd equity : F)
  | evaluate (now : Civil) (proposal : RiskProposal F)
      (microstructure : Option (F → Text → Option (MicroReport F)))
  /-- A trip by hand. -/
  | tripKillSwitch (now : Civil) (reason : Text)
  | resetKillSwitch
  | updateVolRegime (volPct : F)

namespace KernelState

/-- The state behind the rollover with which the call begins. -/
def begun (s : KernelState F) : RiskCall F → KernelState F
  | .recordPnl now _ _ | .evaluate now _ _ => s.maybeRolloverDay now
  | _ => s

def after (cfg : RiskConfig F) (s : KernelState F) : RiskCall F → KernelState F
  | .recordPnl now pnlUsd equity => (s.recordPnl cfg now pnlUsd equity).1
  | .evaluate now proposal microstructure => (s.evaluate cfg now proposal microstructure).1
  | .tripKillSwitch now reason => s.tripKillSwitch now reason
  | .resetKillSwitch => s.resetKillSwitch
  | .updateVolRegime volPct => s.updateVolRegime cfg volPct

/-- Whether the call trips the switch by hand, by a loss streak or by drawdown. -/
def latches (cfg : RiskConfig F) (s : KernelState F) : RiskCall F → Bool
  | .tripKillSwitch .. => true
  | .recordPnl now pnlUsd equity =>
      let booked := (s.maybeRolloverDay now).bookPnl cfg pnlUsd equity
      let streak := booked.bookStreak cfg now pnlUsd
      let losses := streak.1.consecutiveLosses
      streak.2 = .ok () ∧
        ((lt pnlUsd (lit 0) ∧ cfg.consecutiveLossThreshold ≤ losses ∧
          cfg.consecutiveLossThreshold * 2 ≤ losses) ∨ streak.1.drawdownHit cfg)
  | _ => false

end KernelState

/-- A kernel and whether its switch has been latched since it was last reset. -/
structure Watched (F : Type) where
  state : KernelState F
  latched : Bool

namespace Watched

def step (cfg : RiskConfig F) (w : Watched F) (call : RiskCall F) : Watched F where
  state := w.state.after cfg call
  latched := match call with
    | .resetKillSwitch => false
    | _ => w.latched || w.state.latches cfg call

/-- A kernel as it is constructed. -/
def start (cfg : RiskConfig F) (now : Civil) : Watched F :=
  ⟨KernelState.fresh now cfg.startingEquityUsd, false⟩

end Watched

/-- While the switch is latched the call finds and leaves it active, and is rejected if it is an
evaluation. -/
structure Holds (cfg : RiskConfig F) (w : Watched F) (call : RiskCall F) : Prop where
  begun : w.latched = true → (w.state.begun call).killSwitchActive = true
  after : (w.step cfg call).latched = true → (w.step cfg call).state.killSwitchActive = true
  rejected : ∀ now proposal microstructure, call = .evaluate now proposal microstructure →
    w.latched = true → ∃ decision,
      (w.state.evaluate cfg now proposal microstructure).2 = .ok decision ∧ decision.approved = false

/-- No day begins with a latched switch whose reason has `daily_loss` in it. -/
def NotMistaken (w : Watched F) : RiskCall F → Prop
  | .recordPnl now _ _ | .evaluate now _ _ =>
      w.latched = true → todayUtc now ≠ w.state.currentDay →
        occursIn (txt "daily_loss") w.state.killSwitchReason = false
  | _ => True

/-! ## What the calls do to the switch -/

namespace KernelState

theorem active_maybeRolloverDay {s : KernelState F} (active : s.killSwitchActive = true) (now : Civil) :
    (s.maybeRolloverDay now).killSwitchActive = true ↔
      (todayUtc now ≠ s.currentDay → occursIn (txt "daily_loss") s.killSwitchReason = false) := by
  unfold maybeRolloverDay
  by_cases same : todayUtc now = s.currentDay
  · simp [same, active]
  · cases found : occursIn (txt "daily_loss") s.killSwitchReason <;>
      simp [same, active, resetKillSwitch]

/-! ### `evaluate` -/

@[simp] theorem active_reject (s snap : KernelState F) (proposal : RiskProposal F) (reason : Text) :
    (s.reject snap proposal reason).1.killSwitchActive = s.killSwitchActive := rfl

@[simp] theorem active_approve (s : KernelState F) (proposal : RiskProposal F) (sizeScale : F)
    (report : Option (MicroReport F)) :
    (s.approve proposal sizeScale report).1.killSwitchActive = s.killSwitchActive := rfl

@[simp] theorem active_evaluateFlow (cfg : RiskConfig F) (s snap : KernelState F)
    (proposal : RiskProposal F) (microstructure : Option (F → Text → Option (MicroReport F))) :
    (s.evaluateFlow cfg snap proposal microstructure).1.killSwitchActive = s.killSwitchActive := by
  unfold evaluateFlow
  split
  · rfl
  · split
    · rfl
    · split
      · rfl
      · split <;> rfl

/-- An evaluation changes the switch through its rollover only. -/
theorem active_evaluate (cfg : RiskConfig F) (s : KernelState F) (now : Civil)
    (proposal : RiskProposal F) (microstructure : Option (F → Text → Option (MicroReport F))) :
    (s.evaluate cfg now proposal microstructure).1.killSwitchActive =
      (s.maybeRolloverDay now).killSwitchActive := by
  unfold evaluate
  dsimp only
  split
  · rfl
  · split
    · rfl
    · split
      · rfl
      · split
        · rfl
        · split
          · rw [active_evaluateFlow]
          · split
            · rfl
            · rw [active_evaluateFlow]

theorem evaluate_rejects {cfg : RiskConfig F} {s : KernelState F} {now : Civil}
    (active : (s.maybeRolloverDay now).killSwitchActive = true) (proposal : RiskProposal F)
    (microstructure : Option (F → Text → Option (MicroReport F))) :
    ∃ decision, (s.evaluate cfg now proposal microstructure).2 = .ok decision ∧
      decision.approved = false := by
  unfold evaluate
  dsimp only
  rw [if_pos active]
  exact ⟨_, rfl, rfl⟩

/-! ### `record_pnl` -/

omit [PyFloat F] in
theorem active_extendStreak {cfg : RiskConfig F} {s : KernelState F} {now : Civil}
    (active : s.killSwitchActive = true) : (s.extendStreak cfg now).1.killSwitchActive = true := by
  unfold extendStreak
  dsimp only
  split
  · split
    · exact active
    · split
      · rfl
      · exact active
  · exact active

theorem active_bookStreak {cfg : RiskConfig F} {s : KernelState F} {now : Civil} {pnlUsd : F}
    (active : s.killSwitchActive = true) : (s.bookStreak cfg now pnlUsd).1.killSwitchActive = true := by
  unfold bookStreak
  split
  · exact active_extendStreak active
  · split <;> exact active

omit [PyFloat F] in
@[simp] theorem consecutiveLosses_extendStreak (cfg : RiskConfig F) (s : KernelState F) (now : Civil) :
    (s.extendStreak cfg now).1.consecutiveLosses = s.consecutiveLosses + 1 := by
  unfold extendStreak
  dsimp only
  split
  · split
    · rfl
    · split <;> rfl
  · rfl

omit [PyFloat F] in
/-- A streak that is long enough leaves the switch active. -/
theorem active_of_streak {cfg : RiskConfig F} {s : KernelState F} {now : Civil}
    (done : (s.extendStreak cfg now).2 = .ok ())
    (cool : cfg.consecutiveLossThreshold ≤ s.consecutiveLosses + 1)
    (long : cfg.consecutiveLossThreshold * 2 ≤ s.consecutiveLosses + 1) :
    (s.extendStreak cfg now).1.killSwitchActive = true := by
  unfold extendStreak at done ⊢
  dsimp only at done ⊢
  rw [if_pos cool] at done ⊢
  cases until_ : afterMinutes now cfg.cooldownMinutes with
  | none => simp [until_, raise] at done
  | some cooldownUntil =>
      dsimp only
      rw [if_pos long]
      rfl

theorem active_tripDailyLoss {cfg : RiskConfig F} {s : KernelState F} {now : Civil}
    (active : s.killSwitchActive = true) : (s.tripDailyLoss cfg now).killSwitchActive = true := by
  unfold tripDailyLoss
  split
  · rfl
  · exact active

theorem active_tripDrawdown {cfg : RiskConfig F} {s : KernelState F} {now : Civil}
    (active : s.drawdownHit cfg = true ∨ s.killSwitchActive = true) :
    (s.tripDrawdown cfg now).killSwitchActive = true := by
  unfold tripDrawdown
  split
  · rfl
  · rename_i above
    exact active.resolve_left above

theorem drawdownHit_tripDailyLoss (cfg : RiskConfig F) (s : KernelState F) (now : Civil) :
    (s.tripDailyLoss cfg now).drawdownHit cfg = s.drawdownHit cfg := by
  unfold tripDailyLoss
  split <;> rfl

/-- `record_pnl` keeps a switch active that its rollover has left so. -/
theorem active_recordPnl {cfg : RiskConfig F} {s : KernelState F} {now : Civil} {pnlUsd equity : F}
    (active : (s.maybeRolloverDay now).killSwitchActive = true) :
    (s.recordPnl cfg now pnlUsd equity).1.killSwitchActive = true := by
  have booked : (((s.maybeRolloverDay now).bookPnl cfg pnlUsd equity).bookStreak cfg now
      pnlUsd).1.killSwitchActive = true := active_bookStreak active
  unfold recordPnl
  split
  · rename_i booking
    rw [booking] at booked
    exact booked
  · rename_i booking
    rw [booking] at booked
    exact active_tripDrawdown (.inr (active_tripDailyLoss booked))

theorem active_of_latches {cfg : RiskConfig F} {s : KernelState F} {call : RiskCall F}
    (latches : s.latches cfg call = true) : (s.after cfg call).killSwitchActive = true := by
  cases call with
  | tripKillSwitch now reason => rfl
  | evaluate | resetKillSwitch | updateVolRegime => cases latches
  | recordPnl now pnlUsd equity =>
      simp only [KernelState.latches, decide_eq_true_eq] at latches
      obtain ⟨done, cause⟩ := latches
      have streakActive : (((s.maybeRolloverDay now).bookPnl cfg pnlUsd equity).bookStreak cfg now
          pnlUsd).1.drawdownHit cfg = true ∨
          (((s.maybeRolloverDay now).bookPnl cfg pnlUsd equity).bookStreak cfg now
            pnlUsd).1.killSwitchActive = true := by
        rcases cause with ⟨loss, cool, long⟩ | hit
        · right
          have streak : ((s.maybeRolloverDay now).bookPnl cfg pnlUsd equity).bookStreak cfg now pnlUsd =
              ((s.maybeRolloverDay now).bookPnl cfg pnlUsd equity).extendStreak cfg now := if_pos loss
          rw [streak] at done cool long ⊢
          rw [consecutiveLosses_extendStreak] at cool long
          exact active_of_streak done cool long
        · exact .inl hit
      simp only [after, recordPnl]
      split
      · rename_i booking
        rw [booking] at done
        cases done
      · rename_i booked _ booking
        rw [booking] at streakActive
        apply active_tripDrawdown
        rw [drawdownHit_tripDailyLoss]
        exact streakActive.imp_right active_tripDailyLoss

end KernelState

/-! ## Whole runs -/

theorem Watched.latched_step {cfg : RiskConfig F} {w : Watched F} {call : RiskCall F}
    (latched : (w.step cfg call).latched = true) :
    w.state.latches cfg call = true ∨ (w.latched = true ∧ call ≠ .resetKillSwitch) := by
  cases call with
  | resetKillSwitch => cases latched
  | _ => simpa [Watched.step, or_comm] using latched

/-- What one call does to the latch. -/
theorem holds_iff {cfg : RiskConfig F} {w : Watched F}
    (active : w.latched = true → w.state.killSwitchActive = true) (call : RiskCall F) :
    Holds cfg w call ↔ NotMistaken w call := by
  constructor
  · intro holds
    cases call with
    | recordPnl now pnlUsd equity =>
        exact fun latched => (KernelState.active_maybeRolloverDay (active latched) now).mp
          (holds.begun latched)
    | evaluate now proposal microstructure =>
        exact fun latched => (KernelState.active_maybeRolloverDay (active latched) now).mp
          (holds.begun latched)
    | tripKillSwitch | resetKillSwitch | updateVolRegime => trivial
  · intro right
    have begun (latched : w.latched = true) : (w.state.begun call).killSwitchActive = true := by
      cases call with
      | recordPnl now pnlUsd equity =>
          exact (KernelState.active_maybeRolloverDay (active latched) now).mpr (right latched)
      | evaluate now proposal microstructure =>
          exact (KernelState.active_maybeRolloverDay (active latched) now).mpr (right latched)
      | tripKillSwitch | resetKillSwitch | updateVolRegime => exact active latched
    refine ⟨begun, ?_, ?_⟩
    · intro latched
      rcases Watched.latched_step latched with now | ⟨before, notReset⟩
      · exact KernelState.active_of_latches now
      · have still := begun before
        cases call with
        | recordPnl now pnlUsd equity => exact KernelState.active_recordPnl still
        | evaluate now proposal microstructure =>
            exact (KernelState.active_evaluate cfg w.state now proposal microstructure).trans still
        | tripKillSwitch now reason => rfl
        | resetKillSwitch => contradiction
        | updateVolRegime volPct => exact still
    · rintro now proposal microstructure rfl latched
      exact KernelState.evaluate_rejects (begun latched) proposal microstructure

/-- A switch tripped by hand, by a loss streak or by drawdown stays active and rejects every
proposal until it is reset, on just the runs in which no day begins with a switch latched so
whose reason has `daily_loss` in it. -/
theorem latched_iff_notMistaken (cfg : RiskConfig F) (now : Civil) (calls : List (RiskCall F)) :
    (∀ first call rest, calls = first ++ call :: rest →
        Holds cfg (run (Watched.step cfg) (Watched.start cfg now) first) call) ↔
      Allowed (Watched.step cfg) NotMistaken (Watched.start cfg now) calls := by
  rw [← allowed_iff_split]
  have fresh : (Watched.start cfg now).latched = true →
      (Watched.start cfg now).state.killSwitchActive = true := by simp [Watched.start]
  generalize Watched.start cfg now = w at fresh
  induction calls generalizing w with
  | nil => exact Iff.rfl
  | cons call calls ih =>
      have one := @holds_iff _ _ cfg _ fresh call
      constructor
      · rintro ⟨holds, rest⟩
        exact ⟨one.mp holds, (ih _ holds.after).mp rest⟩
      · rintro ⟨right, rest⟩
        have holds := one.mpr right
        exact ⟨holds, (ih _ holds.after).mpr rest⟩

end

private theorem monday_valid : 1 ≤ 2026 ∧ 2026 ≤ 9999 ∧ 1 ≤ 6 ∧ 6 ≤ 12 ∧ 1 ≤ 1 ∧
    1 ≤ Datetime.daysInMonth 2026 6 ∧ 12 < 24 ∧ 0 < 60 ∧ 0 < 60 ∧ 0 < 1000000 := by decide

private theorem tuesday_valid : 1 ≤ 2026 ∧ 2026 ≤ 9999 ∧ 1 ≤ 6 ∧ 6 ≤ 12 ∧ 1 ≤ 2 ∧
    2 ≤ Datetime.daysInMonth 2026 6 ∧ 0 < 24 ∧ 1 < 60 ∧ 0 < 60 ∧ 0 < 1000000 := by decide

/-- The switch is tripped by hand and then by the loss of the day; the next day begins. -/
def overwrittenByDailyLoss : List (RiskCall ℚ) :=
  let monday : Civil := ⟨2026, 6, 1, 12, 0, 0, 0, monday_valid⟩
  let tuesday : Civil := ⟨2026, 6, 2, 0, 1, 0, 0, tuesday_valid⟩
  [.tripKillSwitch monday (txt "operator halt"), .recordPnl monday (-400) 9600,
    .evaluate tuesday ⟨1 / 2, 100, txt "LONG", none⟩ none]

theorem not_latched_overwrittenByDailyLoss :
    ¬ ∀ first call rest, overwrittenByDailyLoss = first ++ call :: rest →
      Holds (RiskConfig.defaults ℚ) (run (Watched.step (RiskConfig.defaults ℚ))
        (Watched.start (RiskConfig.defaults ℚ) ⟨2026, 6, 1, 0, 0, 0, 0, by decide⟩) first) call := by
  intro holds
  have mistaken := (holds (overwrittenByDailyLoss.take 2) _ [] rfl).begun
  revert mistaken
  decide +kernel

end Senex.Portfolio
