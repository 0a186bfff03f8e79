import Senex.Foundation.Float
import Senex.Foundation.PyValue
import Senex.Foundation.Transition

/-! # The risk kernel

`RiskKernel` of `risk_kernel.py`.  A call reads the clock once; `now` is what it
reads.  The numbers are a parameter.
-/

namespace Senex.Portfolio

open Text

structure RiskConfig (F : Type) where
  maxDailyLossPct : F
  maxDrawdownPct : F
  startingEquityUsd : F
  minConfidence : F
  volThresholdNormal : F
  volThresholdHigh : F
  volThresholdExtreme : F
  volScaleHigh : F
  volScaleExtreme : F
  consecutiveLossThreshold : Int
  cooldownMinutes : Int

/-- `DEFAULTS` -/
def RiskConfig.defaults (F : Type) [PyFloat F] : RiskConfig F where
  maxDailyLossPct := PyFloat.lit (30 / 1000)
  maxDrawdownPct := PyFloat.lit (10 / 100)
  startingEquityUsd := PyFloat.lit 10000
  minConfidence := PyFloat.lit (40 / 100)
  volThresholdNormal := PyFloat.lit (15 / 1000)
  volThresholdHigh := PyFloat.lit (30 / 1000)
  volThresholdExtreme := PyFloat.lit (50 / 1000)
  volScaleHigh := PyFloat.lit (50 / 100)
  volScaleExtreme := PyFloat.lit (25 / 100)
  consecutiveLossThreshold := 3
  cooldownMinutes := 30

structure KernelState (F : Type) where
  currentDay : Text
  dailyPnlUsd : F
  dailyPnlPct : F
  peakEquity : F
  currentEquity : F
  drawdownPct : F
  consecutiveLosses : Int
  lastLossTs : Option Text
  cooldownUntil : Option Text
  killSwitchActive : Bool
  killSwitchReason : Text
  killSwitchSetAt : Option Text
  volRegime : Text
  volPct : F
  proposalsEvaluated : Int
  proposalsApproved : Int
  proposalsRejected : Int
  deriving DecidableEq

/-- The members of a proposal that `evaluate` reads. -/
structure RiskProposal (F : Type) where
  confidence : F
  entryPrice : F
  direction : Text
  predictionId : Option Text

/-- The report of the microstructure observer. -/
structure MicroReport (F : Type) where
  action : Text
  toxicScore : F
  vpin : F
  ofiNormalized : F
  nearLiquidationCluster : Bool
  fundingExtreme : Bool
  sizeScale : F

structure RiskDecision (F : Type) where
  approved : Bool
  reason : Text
  sizeScale : F
  kernelState : KernelState F
  proposalId : Option Text

/-- `str(b)` -/
def boolText (b : Bool) : Text := if b then txt "True" else txt "False"

/-- `needle in text` -/
def occursIn (needle text : Text) : Bool := decide (needle <:+: text)

/-- `_today_utc` -/
def todayUtc (now : Civil) : Text := Datetime.isoDate now

/-- `now + timedelta(minutes=...)`; `none` is the `OverflowError`. -/
def afterMinutes (now : Civil) (minutes : Int) : Option Civil :=
  let micros := (Datetime.toMicros now : Int) + minutes * 60000000
  if micros < 0 then none else Datetime.ofMicros micros.toNat

namespace KernelState

variable {F : Type} [PyFloat F]

open PyFloat

/-- A state with a fresh equity baseline. -/
def fresh (now : Civil) (startingEquity : F) : KernelState F where
  currentDay := todayUtc now
  dailyPnlUsd := lit 0
  dailyPnlPct := lit 0
  peakEquity := startingEquity
  currentEquity := startingEquity
  drawdownPct := lit 0
  consecutiveLosses := 0
  lastLossTs := none
  cooldownUntil := none
  killSwitchActive := false
  killSwitchReason := []
  killSwitchSetAt := none
  volRegime := txt "NORMAL"
  volPct := lit 0
  proposalsEvaluated := 0
  proposalsApproved := 0
  proposalsRejected := 0

/-- `trip_kill_switch` -/
def tripKillSwitch (s : KernelState F) (now : Civil) (reason : Text) : KernelState F :=
  { s with
    killSwitchActive := true
    killSwitchReason := reason
    killSwitchSetAt := some (Datetime.isoformat now) }

/-- `reset_kill_switch` -/
def resetKillSwitch (s : KernelState F) : KernelState F :=
  { s with
    killSwitchActive := false
    killSwitchReason := []
    killSwitchSetAt := none
    cooldownUntil := none
    consecutiveLosses := 0 }

/-- `_maybe_rollover_day` -/
def maybeRolloverDay (s : KernelState F) (now : Civil) : KernelState F :=
  if todayUtc now = s.currentDay then s
  else
    let rolled := { s with
      currentDay := todayUtc now
      dailyPnlUsd := lit 0
      dailyPnlPct := lit 0 }
    if s.killSwitchActive && occursIn (txt "daily_loss") s.killSwitchReason then
      rolled.resetKillSwitch
    else rolled

/-- `update_vol_regime` -/
def updateVolRegime (cfg : RiskConfig F) (s : KernelState F) (volPct : F) : KernelState F :=
  { s with
    volPct := volPct
    volRegime :=
      if lt volPct cfg.volThresholdNormal then txt "LOW"
      else if lt volPct cfg.volThresholdHigh then txt "NORMAL"
      else if lt volPct cfg.volThresholdExtreme then txt "HIGH"
      else txt "EXTREME" }

/-! ## `record_pnl` -/

/-- The daily P&L, the equity and the drawdown. -/
def bookPnl (cfg : RiskConfig F) (s : KernelState F) (pnlUsd equity : F) : KernelState F :=
  let dailyPnlUsd := s.dailyPnlUsd + pnlUsd
  let base := maximum cfg.startingEquityUsd (lit 1)
  let peakEquity := if lt s.peakEquity equity then equity else s.peakEquity
  { s with
    dailyPnlUsd := dailyPnlUsd
    dailyPnlPct := dailyPnlUsd / base * lit 100
    currentEquity := equity
    peakEquity := peakEquity
    drawdownPct :=
      if lt (lit 0) peakEquity then
        maximum (lit 0) ((peakEquity - equity) / peakEquity * lit 100)
      else s.drawdownPct }

/-- The loss streak after a loss, with the cooldown and the trip that it brings. -/
def extendStreak (cfg : RiskConfig F) (s : KernelState F) (now : Civil) : KernelState F × Py Unit :=
  let s := { s with
    consecutiveLosses := s.consecutiveLosses + 1
    lastLossTs := some (Datetime.isoformat now) }
  if cfg.consecutiveLossThreshold ≤ s.consecutiveLosses then
    match afterMinutes now cfg.cooldownMinutes with
    | none => (s, raise .overflowError (txt "date value out of range"))
    | some cooldownUntil =>
        let s := { s with cooldownUntil := some (Datetime.isoformat cooldownUntil) }
        if cfg.consecutiveLossThreshold * 2 ≤ s.consecutiveLosses then
          (s.tripKillSwitch now (txt "auto: " ++ intText s.consecutiveLosses ++
            txt " consecutive losses"), .ok ())
        else (s, .ok ())
  else (s, .ok ())

/-- The loss streak after a position is closed. -/
def bookStreak (cfg : RiskConfig F) (s : KernelState F) (now : Civil) (pnlUsd : F) :
    KernelState F × Py Unit :=
  if lt pnlUsd (lit 0) then s.extendStreak cfg now
  else if lt (lit 0) pnlUsd then ({ s with consecutiveLosses := 0, cooldownUntil := none }, .ok ())
  else (s, .ok ())

/-- `-max_daily_loss_pct * 100` -/
def dailyLossLimit (cfg : RiskConfig F) : F := -cfg.maxDailyLossPct * lit 100

def drawdownLimit (cfg : RiskConfig F) : F := cfg.maxDrawdownPct * lit 100

def dailyLossHit (cfg : RiskConfig F) (s : KernelState F) : Bool := le s.dailyPnlPct (dailyLossLimit cfg)

def drawdownHit (cfg : RiskConfig F) (s : KernelState F) : Bool := le (drawdownLimit cfg) s.drawdownPct

def tripDailyLoss (cfg : RiskConfig F) (s : KernelState F) (now : Civil) : KernelState F :=
  if s.dailyLossHit cfg then
    s.tripKillSwitch now (txt "auto: daily_loss=" ++ fixed 2 s.dailyPnlPct ++ txt "% reached -" ++
      fixed 2 (cfg.maxDailyLossPct * lit 100) ++ txt "%")
  else s

def tripDrawdown (cfg : RiskConfig F) (s : KernelState F) (now : Civil) : KernelState F :=
  if s.drawdownHit cfg then
    s.tripKillSwitch now (txt "auto: drawdown=" ++ fixed 2 s.drawdownPct ++ txt "% reached " ++
      fixed 2 (drawdownLimit cfg) ++ txt "%")
  else s

/-- `record_pnl`; one that raises has booked what came before. -/
def recordPnl (cfg : RiskConfig F) (s : KernelState F) (now : Civil) (pnlUsd equity : F) :
    KernelState F × Py Unit :=
  match ((s.maybeRolloverDay now).bookPnl cfg pnlUsd equity).bookStreak cfg now pnlUsd with
  | (s, .error e) => (s, .error e)
  | (s, .ok _) => ((s.tripDailyLoss cfg now).tripDrawdown cfg now, .ok ())

/-! ## `evaluate` -/

/-- `_reject` -/
def reject (s snap : KernelState F) (proposal : RiskProposal F) (reason : Text) :
    KernelState F × Py (RiskDecision F) :=
  ({ s with proposalsRejected := s.proposalsRejected + 1 },
    .ok ⟨false, reason, lit 0, snap, proposal.predictionId⟩)

/-- The microseconds that the cooldown still lasts, where there is one whose end can be read and
compared. -/
def cooldownRemaining (s : KernelState F) (now : Civil) : Option Int :=
  match s.cooldownUntil with
  | none | some [] => none
  | some cooldownUntil => do
      let cdUntil ← Datetime.fromIsoformat (spellZone cooldownUntil)
      let offset ← cdUntil.offset
      return (Datetime.toMicros cdUntil.civil : Int) - offset - Datetime.toMicros now

/-- The scale of the volatility regime; `none` is the `ValueError` of an unknown one. -/
def regimeScale (cfg : RiskConfig F) (regime : Text) : Option F :=
  if regime = txt "LOW" ∨ regime = txt "NORMAL" then some (lit 1)
  else if regime = txt "HIGH" then some cfg.volScaleHigh
  else if regime = txt "EXTREME" then some cfg.volScaleExtreme
  else none

/-- The decision that all checks have passed. -/
def approve (s : KernelState F) (proposal : RiskProposal F) (sizeScale : F)
    (report : Option (MicroReport F)) : KernelState F × Py (RiskDecision F) :=
  let s := { s with proposalsApproved := s.proposalsApproved + 1 }
  let reason := txt "approved conf=" ++ fixed 3 proposal.confidence ++ txt " regime=" ++ s.volRegime ++
    txt " size_scale=" ++ fixed 2 sizeScale ++ txt " dd=" ++ fixed 2 s.drawdownPct ++
    txt "% day_pnl=" ++ fixed 2 s.dailyPnlPct ++ txt "%" ++
    (match report with
      | some report => txt " micro_toxic=" ++ fixed 2 report.toxicScore
      | none => [])
  (s, .ok ⟨true, reason, sizeScale, s, proposal.predictionId⟩)

/-- The scaling by the volatility regime and the check of the order flow.  The observer answers
`none` where its evaluation fails. -/
def evaluateFlow (cfg : RiskConfig F) (s snap : KernelState F) (proposal : RiskProposal F)
    (microstructure : Option (F → Text → Option (MicroReport F))) :
    KernelState F × Py (RiskDecision F) :=
  match regimeScale cfg s.volRegime with
  | none => (s, raise .valueError (39 :: s.volRegime ++ 39 :: txt " is not a valid VolRegime"))
  | some scale =>
      match microstructure.bind fun evaluate => evaluate proposal.entryPrice proposal.direction with
      | none => s.approve proposal scale none
      | some report =>
          if report.action = txt "REJECT" then
            s.reject snap proposal (txt "microstructure_reject: toxic_score=" ++
              fixed 2 report.toxicScore ++ txt " vpin=" ++ fixed 2 report.vpin ++ txt " ofi=" ++
              fixed 2 report.ofiNormalized ++ txt " near_liq=" ++
              boolText report.nearLiquidationCluster ++ txt " funding_extreme=" ++
              boolText report.fundingExtreme)
          else if report.action = txt "REDUCE" then
            s.approve proposal (scale * report.sizeScale) (some report)
          else s.approve proposal scale (some report)

/-- `evaluate` -/
def evaluate (cfg : RiskConfig F) (s : KernelState F) (now : Civil) (proposal : RiskProposal F)
    (microstructure : Option (F → Text → Option (MicroReport F))) :
    KernelState F × Py (RiskDecision F) :=
  let rolled := s.maybeRolloverDay now
  let s := { rolled with proposalsEvaluated := rolled.proposalsEvaluated + 1 }
  if s.killSwitchActive then
    s.reject s proposal (txt "kill_switch_active: " ++ s.killSwitchReason)
  else if s.dailyLossHit cfg then
    s.reject s proposal (txt "daily_loss_limit_hit: pnl_pct=" ++ fixed 2 s.dailyPnlPct ++
      txt "% threshold=-" ++ fixed 2 (cfg.maxDailyLossPct * lit 100) ++ txt "%")
  else if s.drawdownHit cfg then
    s.reject s proposal (txt "max_drawdown_hit: dd=" ++ fixed 2 s.drawdownPct ++
      txt "% threshold=" ++ fixed 2 (drawdownLimit cfg) ++ txt "%")
  else if lt proposal.confidence cfg.minConfidence then
    s.reject s proposal (txt "low_confidence: " ++ fixed 3 proposal.confidence ++ txt " < " ++
      fixed 3 cfg.minConfidence)
  else
    match s.cooldownRemaining now with
    | none => s.evaluateFlow cfg s proposal microstructure
    | some micros =>
        if 0 < micros then
          s.reject s proposal (txt "cooldown_active: " ++ fixed 1 (lit (micros / 60000000) : F) ++
            txt "m remaining (after " ++ intText s.consecutiveLosses ++ txt " consecutive losses)")
        else { s with cooldownUntil := none }.evaluateFlow cfg s proposal microstructure

end KernelState

end Senex.Portfolio
