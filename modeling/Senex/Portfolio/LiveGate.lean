import Senex.Portfolio.Analytics

/-! # The live gate

`LiveGate.evaluate`: six conditions on the score, the analytics, the shadow run and the self-test.
The hard paper lock keeps the gate closed whatever they say.
-/

namespace Senex.Portfolio

open Text

/-- `HARD_PAPER_LOCK` -/
def hardPaperLockActive : Bool := true

/-- A number or a truth value; as a number `True` is one. -/
inductive GateValue where
  | number (q : ℚ)
  | truth (b : Bool)
  deriving DecidableEq

def GateValue.asNumber : GateValue → ℚ
  | .number q => q
  | .truth b => if b then 1 else 0

structure GateCondition where
  op : Text
  value : GateValue
  deriving DecidableEq

/-- `UNLOCK_CONDITIONS` -/
def unlockConditions : List (Text × GateCondition) := [
  (txt "global_win_rate_pct", ⟨txt ">=", .number 52⟩),
  (txt "verified", ⟨txt ">=", .number 300⟩),
  (txt "profit_factor", ⟨txt ">", .number (6 / 5)⟩),
  (txt "max_drawdown_pct", ⟨txt "<", .number 10⟩),
  (txt "shadow_live_passed", ⟨txt "==", .truth true⟩),
  (txt "execution_engine_verified", ⟨txt "==", .truth true⟩)]

structure GlobalStat where
  nSource : Text := []
  winRatePct : ℚ := 0
  verified : Int := 0

/-- What the gate reads of the authoritative score; what is missing is empty. -/
structure OracleScore where
  scoreScope : Text := []
  requestedSymbol : Text := []
  authorityNSource : Text := []
  global : GlobalStat := {}

structure GateInput where
  oracleScore : OracleScore
  analyticsReport : Option AnalyticsReport
  shadowPassed : Bool
  execVerified : Bool

structure ConditionResult where
  value : Option GateValue
  threshold : GateValue
  op : Text
  pass : Bool

structure GateStatus where
  unlocked : Bool
  tradeMode : Text
  liveCapitalLocked : Bool
  conditions : List (Text × ConditionResult)
  failedReasons : List Text
  evaluatedAt : Text

namespace LiveGate

/-- `_compare`; nothing compares with `None` but `!=`. -/
def compare (actual : Option GateValue) (op : Text) (threshold : GateValue) : Bool :=
  match actual with
  | none => op = txt "!="
  | some actual =>
      let a := actual.asNumber
      let b := threshold.asNumber
      if op = txt ">=" then b ≤ a
      else if op = txt ">" then b < a
      else if op = txt "<=" then a ≤ b
      else if op = txt "<" then a < b
      else if op = txt "==" then a = b
      else if op = txt "!=" then a ≠ b
      else false

def independentCohort : Text := txt "INDEPENDENT_NONOVERLAP_1H"

def validAuthority (score : OracleScore) : Bool :=
  score.scoreScope = txt "PER_SYMBOL" ∧ score.requestedSymbol ≠ [] ∧
    score.authorityNSource = independentCohort ∧ score.global.nSource = independentCohort

/-- `float(analytics_report.get("profit_factor") or 0)`, an infinite one made finite. -/
def profitFactorOf : Option AnalyticsReport → ℚ
  | none => 0
  | some report =>
      match report.profitFactor with
      | .finite q => q
      | .infinite => 1000000

def valuesOf (input : GateInput) : List (Text × GateValue) :=
  let valid := validAuthority input.oracleScore
  [(txt "global_win_rate_pct", .number (if valid then input.oracleScore.global.winRatePct else 0)),
    (txt "verified", .number (if valid then input.oracleScore.global.verified else 0)),
    (txt "profit_factor", .number (profitFactorOf input.analyticsReport)),
    (txt "max_drawdown_pct", .number ((input.analyticsReport.map AnalyticsReport.maxDrawdownPct).getD 0)),
    (txt "shadow_live_passed", .truth input.shadowPassed),
    (txt "execution_engine_verified", .truth input.execVerified)]

def check (input : GateInput) (name : Text) (spec : GateCondition) : ConditionResult :=
  let actual := Dict.lookup name (valuesOf input)
  ⟨actual, spec.value, spec.op, compare actual spec.op spec.value⟩

/-- `f"{name}: {actual} {op} {threshold} → FAIL"`; `spell` is how values are spelled. -/
def failureText (spell : Option GateValue → Text) (name : Text) (r : ConditionResult) : Text :=
  name ++ txt ": " ++ spell r.value ++ txt " " ++ r.op ++ txt " " ++ spell (some r.threshold) ++ txt " → FAIL"

def evaluate (conditions : List (Text × GateCondition)) (spell : Option GateValue → Text) (now : Text)
    (input : GateInput) : GateStatus :=
  let results := conditions.map fun entry => (entry.1, check input entry.1 entry.2)
  let failed := (results.filter fun entry => !entry.2.pass).map fun entry => failureText spell entry.1 entry.2
  let unlocked := failed.isEmpty && !hardPaperLockActive
  { unlocked
    tradeMode := if unlocked then txt "LIVE" else txt "PAPER"
    liveCapitalLocked := !unlocked
    conditions := results
    failedReasons :=
      if hardPaperLockActive && failed.isEmpty then [txt "HARD_PAPER_LOCK:STRUCTURAL_OVERRIDE"] else failed
    evaluatedAt := now }

/-- Whatever the conditions say, the gate stays closed. -/
theorem not_unlocked (conditions : List (Text × GateCondition)) (spell : Option GateValue → Text) (now : Text)
    (input : GateInput) : (evaluate conditions spell now input).unlocked = false := by
  simp [evaluate, hardPaperLockActive]

/-- The gate's condition on the drawdown passes. -/
def DrawdownPasses (status : GateStatus) : Prop :=
  ∃ r, (txt "max_drawdown_pct", r) ∈ status.conditions ∧ r.pass = true

theorem condition_of_drawdown : ∀ entry ∈ unlockConditions,
    entry.1 = txt "max_drawdown_pct" → entry.2 = ⟨txt "<", .number 10⟩ := by
  decide

/-- It passes exactly where the reported percentage is below ten. -/
theorem drawdownPasses_iff (spell : Option GateValue → Text) (now : Text) (input : GateInput) :
    DrawdownPasses (evaluate unlockConditions spell now input) ↔
      (input.analyticsReport.map AnalyticsReport.maxDrawdownPct).getD 0 < 10 := by
  have result : check input (txt "max_drawdown_pct") ⟨txt "<", .number 10⟩ =
      ⟨some (.number ((input.analyticsReport.map AnalyticsReport.maxDrawdownPct).getD 0)), .number 10, txt "<",
        decide ((input.analyticsReport.map AnalyticsReport.maxDrawdownPct).getD 0 < 10)⟩ := rfl
  constructor
  · intro ⟨r, member, pass⟩
    obtain ⟨⟨name, spec⟩, listed, same⟩ := List.mem_map.mp member
    obtain ⟨rfl, rfl⟩ := Prod.mk.inj same
    obtain rfl : spec = ⟨txt "<", .number 10⟩ := condition_of_drawdown _ listed rfl
    rw [result] at pass
    exact of_decide_eq_true pass
  · intro below
    refine ⟨_, List.mem_map.mpr ⟨(txt "max_drawdown_pct", ⟨txt "<", .number 10⟩), ?_, rfl⟩, ?_⟩
    · simp [unlockConditions]
    · rw [result]
      exact decide_eq_true below

end LiveGate

end Senex.Portfolio
