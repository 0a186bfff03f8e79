import Senex.Foundation.Nearest
import Senex.Portfolio.TradeJournal

/-! # The journal's writer and its reader

Which closed positions are recorded as a row that the reader's validation
accepts.
-/

namespace Senex.Portfolio

open Text PyFloat

/-! ## Finite trees -/

mutual
/-- Every float in the tree is finite. -/
def finiteTree : PyValue → Bool
  | .none | .str _ | .bool _ | .int _ => true
  | .float x => x.isFinite
  | .list items => finiteItems items
  | .dict members => finiteMembers members

def finiteItems : List PyValue → Bool
  | [] => true
  | item :: items => finiteTree item && finiteItems items

def finiteMembers : List (Text × PyValue) → Bool
  | [] => true
  | (_, item) :: members => finiteTree item && finiteMembers members
end

mutual
theorem validateFiniteTree_eq_ok (path : Text) (value : PyValue) {u : Unit} :
    validateFiniteTree path value = .ok u ↔ finiteTree value = true := by
  cases value with
  | none | bool | int | str => simp [validateFiniteTree, finiteTree]
  | float x => simp [validateFiniteTree, finiteTree]
  | list items => rw [validateFiniteTree, finiteTree, validateFiniteItems_eq_ok]
  | dict members => rw [validateFiniteTree, finiteTree, validateFiniteMembers_eq_ok]

theorem validateFiniteItems_eq_ok (path : Text) (index : Nat) (items : List PyValue) {u : Unit} :
    validateFiniteItems path index items = .ok u ↔ finiteItems items = true := by
  cases items with
  | nil => simp [validateFiniteItems, finiteItems]
  | cons item items =>
      rw [validateFiniteItems, finiteItems, Py.bind_eq_ok]
      simp only [validateFiniteTree_eq_ok, validateFiniteItems_eq_ok, Bool.and_eq_true]
      exact ⟨fun ⟨_, head, tail⟩ => ⟨head, tail⟩, fun ⟨head, tail⟩ => ⟨(), head, tail⟩⟩

theorem validateFiniteMembers_eq_ok (path : Text) (members : List (Text × PyValue)) {u : Unit} :
    validateFiniteMembers path members = .ok u ↔ finiteMembers members = true := by
  cases members with
  | nil => simp [validateFiniteMembers, finiteMembers]
  | cons member members =>
      obtain ⟨key, item⟩ := member
      rw [validateFiniteMembers, finiteMembers, Py.bind_eq_ok]
      simp only [validateFiniteTree_eq_ok, validateFiniteMembers_eq_ok, Bool.and_eq_true]
      exact ⟨fun ⟨_, head, tail⟩ => ⟨head, tail⟩, fun ⟨head, tail⟩ => ⟨(), head, tail⟩⟩
end

theorem finiteMembers_iff (members : List (Text × PyValue)) :
    finiteMembers members = true ↔ ∀ m ∈ members, finiteTree m.2 = true := by
  induction members with
  | nil => simp [finiteMembers]
  | cons member members ih =>
      obtain ⟨key, item⟩ := member
      simp [finiteMembers, ih]

theorem insert_perm {key : Text} (value : PyValue) {members : List (Text × PyValue)}
    (absent : key ∉ members.map Prod.fst) :
    (Json.insert key value members).Perm ((key, value) :: members) := by
  induction members with
  | nil => exact List.Perm.refl _
  | cons member members ih =>
      obtain ⟨k, v⟩ := member
      simp only [List.map_cons, List.mem_cons, not_or] at absent
      simp only [Json.insert, absent.1, if_false]
      split
      · exact List.Perm.refl _
      · exact ((ih absent.2).cons _).trans (List.Perm.swap _ _ _)

/-- A dict display of distinct keys has the members of the display. -/
theorem foldl_insert_perm {members acc : List (Text × PyValue)}
    (distinct : ((acc ++ members).map Prod.fst).Nodup) :
    (members.foldl (fun acc m => Json.insert m.1 m.2 acc) acc).Perm (acc ++ members) := by
  induction members generalizing acc with
  | nil => simp
  | cons member members ih =>
      obtain ⟨key, value⟩ := member
      have moved : (acc ++ (key, value) :: members).Perm ((key, value) :: acc ++ members) :=
        List.perm_middle
      have nodup := (moved.map Prod.fst).nodup_iff.mp distinct
      have absent : key ∉ acc.map Prod.fst := by
        intro there
        simp only [List.cons_append, List.map_cons, List.map_append, List.nodup_cons,
          List.mem_append, not_or] at nodup
        exact nodup.1.1 there
      have inserted := insert_perm value absent
      rw [List.foldl_cons]
      refine (ih ?_).trans ((inserted.append_right members).trans moved.symm)
      exact ((inserted.append_right members).map Prod.fst).nodup_iff.mpr nodup

theorem finiteTree_ofMembers {members : List (Text × PyValue)}
    (distinct : (members.map Prod.fst).Nodup) :
    finiteTree (.ofMembers members) = true ↔ ∀ m ∈ members, finiteTree m.2 = true := by
  have perm := @foldl_insert_perm members [] (by simpa using distinct)
  rw [PyValue.ofMembers, finiteTree, finiteMembers_iff]
  constructor
  · intro every m member
    exact every m (perm.mem_iff.mpr (by simpa using member))
  · intro every m member
    exact every m (by simpa using perm.mem_iff.mp member)

/-! ## Fees -/

/-- Half of a positive number, up to the smallest numbers. -/
theorem half_near {t : Double} (finite : t.isFinite = true) (positive : 0 < t.value) :
    (t / lit 2).isFinite = true ∧ 0 ≤ (t / lit 2).value ∧
      |(t / lit 2).value - t.value / 2| ≤ 1 / 10 ^ 10 := by
  cases t with
  | nan | infinity => cases finite
  | finite negative m e canonical =>
      cases negative with
      | true =>
          have nonneg : (0 : ℚ) ≤ m * 2 ^ e := by positivity
          simp only [Double.value, if_true] at positive
          linarith
      | false =>
          have two : (lit 2 : Double) = .finite false (2 ^ 52) (-51) (by decide) := by decide +kernel
          have shape : Double.finite false m e canonical / lit 2 =
              Double.round ((m : ℚ) * 2 ^ e / 2) := by
            have nonneg : ¬ (m : ℚ) * 2 ^ e / 2 < 0 := not_lt.mpr (by positivity)
            have divisor : (2 : ℚ) = (2 ^ 52 : ℕ) * 2 ^ (-51 : Int) := by norm_num
            rw [Double.round, decide_eq_false nonneg, abs_of_nonneg (not_lt.mp nonneg), two]
            show Double.ofMagnitude false (m * 2 ^ e / ((2 ^ 52 : ℕ) * 2 ^ (-51 : Int))) = _
            rw [← divisor]
          have exact : (Double.finite false m e canonical).value = m * 2 ^ e := rfl
          have above : 0 ≤ (Double.round ((m : ℚ) * 2 ^ e / 2)).value := by
            have mono := Double.value_round_mono (by positivity : (0 : ℚ) ≤ m * 2 ^ e / 2)
            refine le_trans (le_of_eq ?_) mono
            simp [Double.round, Double.value_zero]
          rw [shape, exact]
          obtain ⟨y, yFinite, near⟩ : ∃ y : Double, y.isFinite = true ∧
              |y.value - m * 2 ^ e / 2| ≤ 1 / 10 ^ 10 := by
            by_cases halves : Double.Canonical m (e - 1)
            · refine ⟨.finite false m (e - 1) halves, rfl, ?_⟩
              have same : (Double.finite false m (e - 1) halves).value = (m : ℚ) * 2 ^ e / 2 := by
                show (m : ℚ) * 2 ^ (e - 1) = m * 2 ^ e / 2
                rw [zpow_sub_one₀ (by norm_num)]
                ring
              rw [same, sub_self, abs_zero]
              positivity
            · have least : e = -1074 := by
                obtain ⟨below, low, high, normal⟩ := canonical
                by_contra other
                exact halves ⟨below, by omega, by omega, .inl (normal.resolve_right other)⟩
              refine ⟨.finite false 0 (-1074) (by decide), rfl, ?_⟩
              have zero : (Double.finite false 0 (-1074) (by decide)).value = 0 := by
                simp [Double.value]
              have small : (m : ℚ) * 2 ^ e / 2 ≤ 1 / 10 ^ 10 := by
                have m_le : (m : ℚ) ≤ 2 ^ 53 := by exact_mod_cast canonical.1.le
                rw [least]
                calc (m : ℚ) * 2 ^ (-1074 : Int) / 2 ≤ 2 ^ 53 * 2 ^ (-1074 : Int) / 2 := by gcongr
                  _ ≤ 2 ^ 53 * 2 ^ (-100 : Int) / 2 := by
                      gcongr
                      · norm_num
                      · norm_num
                  _ ≤ 1 / 10 ^ 10 := by norm_num
              rw [zero, zero_sub, abs_neg, abs_of_nonneg (by positivity)]
              exact small
          obtain ⟨roundFinite, roundNear⟩ := Double.round_near yFinite near (by norm_num)
          exact ⟨roundFinite, above, roundNear⟩

/-- The fee that is left for the exit is the other half. -/
theorem rest_near {t : Double} (finite : t.isFinite = true) (positive : 0 < t.value) :
    (t - t / lit 2).isFinite = true ∧
      |(t - t / lit 2).value - t.value / 2| ≤ 3 / 10 ^ 10 := by
  obtain ⟨halfFinite, -, near⟩ := half_near finite positive
  have close : |(t / lit 2).value - (t.value - (t / lit 2).value)| ≤ 2 / 10 ^ 10 := by
    have double : (t / lit 2).value - (t.value - (t / lit 2).value) =
        2 * ((t / lit 2).value - t.value / 2) := by ring
    rw [double, abs_mul, abs_two]
    linarith
  obtain ⟨subFinite, subNear⟩ := Double.sub_near finite halfFinite halfFinite close (by norm_num)
  refine ⟨subFinite, ?_⟩
  rw [abs_le] at near subNear ⊢
  constructor <;> linarith [near.1, near.2, subNear.1, subNear.2]

/-- The rounded halves add up to the rounded fees, as far as the reader asks for. -/
theorem feesReconcile_halves {t : Double} (finite : t.isFinite = true) (positive : 0 < t.value) :
    feesReconcile (Double.roundDigits 4 (t / lit 2)) (Double.roundDigits 4 (t - t / lit 2))
      (Double.roundDigits 4 t) = true := by
  obtain ⟨halfFinite, -, half⟩ := half_near finite positive
  obtain ⟨restFinite, rest⟩ := rest_near finite positive
  obtain ⟨entryFinite, entry⟩ := Double.roundDigits_near halfFinite 4
  obtain ⟨exitFinite, exit⟩ := Double.roundDigits_near restFinite 4
  obtain ⟨totalFinite, total⟩ := Double.roundDigits_near finite 4
  set a := Double.roundDigits 4 (t / lit 2)
  set b := Double.roundDigits 4 (t - t / lit 2)
  set c := Double.roundDigits 4 t
  rw [abs_le] at half rest entry exit total
  have together : |t.value - (a.value + b.value)| ≤ 3 / 10 ^ 4 := by
    rw [abs_le]
    constructor <;> linarith [half.1, half.2, rest.1, rest.2, entry.1, entry.2, exit.1, exit.2]
  obtain ⟨sumFinite, sum⟩ := Double.add_near entryFinite exitFinite finite together (by norm_num)
  rw [abs_le] at together sum
  have apart : |(lit 0 : Double).value - ((a + b).value - c.value)| ≤ 8 / 10 ^ 4 := by
    have zero : (lit 0 : Double).value = 0 := Double.value_round_zero
    rw [zero, abs_le]
    constructor <;> linarith [together.1, together.2, sum.1, sum.2, total.1, total.2]
  obtain ⟨differenceFinite, difference⟩ :=
    Double.sub_near sumFinite totalFinite (by decide) apart (by norm_num)
  obtain ⟨-, magnitude⟩ := Double.absolute_value differenceFinite
  have small : |(a + b - c).value| ≤ 16 / 10 ^ 4 := by
    have zero : (lit 0 : Double).value = 0 := Double.value_round_zero
    rw [zero, abs_le] at apart
    rw [abs_le] at difference ⊢
    constructor <;> linarith [apart.1, apart.2, difference.1, difference.2]
  have cent : (16 : ℚ) / 10 ^ 4 ≤ (Double.round (1 / 100)).value := by decide +kernel
  have within : (absolute (a + b - c)).value ≤ (Double.round (1 / 100)).value := by
    rw [magnitude]
    exact small.trans cent
  unfold feesReconcile
  simp only [Double.lt, Bool.not_eq_true', Bool.and_eq_false_iff, decide_eq_false_iff_not, not_lt]
  exact .inr within

/-- Fees that are not positive are booked on the exit alone. -/
theorem feesReconcile_exit {c : Double} (finite : c.isFinite = true) :
    feesReconcile (Double.round 0) c c = true := by
  have zero := Double.value_round_zero
  have together : |c.value - ((Double.round 0).value + c.value)| ≤ 0 := by simp [zero]
  obtain ⟨sumFinite, sum⟩ := Double.add_near (by decide) finite finite together (by norm_num)
  have same : (Double.round 0 + c).value = c.value := by
    have := abs_nonpos_iff.mp sum
    rw [zero] at this
    linarith
  have apart : |(Double.round 0).value - ((Double.round 0 + c).value - c.value)| ≤ 0 := by
    simp [zero, same]
  obtain ⟨differenceFinite, difference⟩ :=
    Double.sub_near sumFinite finite (by decide) apart (by norm_num)
  obtain ⟨-, magnitude⟩ := Double.absolute_value differenceFinite
  have nothing : (Double.round 0 + c - c).value = 0 := by
    have := abs_nonpos_iff.mp difference
    rw [same] at this
    linarith
  have cent : (0 : ℚ) ≤ (Double.round (1 / 100)).value := by decide +kernel
  unfold feesReconcile
  simp only [Double.lt, Bool.not_eq_true', Bool.and_eq_false_iff, decide_eq_false_iff_not, not_lt]
  right
  rw [magnitude, nothing, abs_zero]
  exact cent

/-! ## The reader -/

theorem isOk_iff {α : Type} {x : Py α} : x.isOk = true ↔ ∃ a, x = .ok a := by
  cases x <;> simp [Except.isOk, Except.toBool]

theorem schemaError_ne_ok {α : Type} {what : String} {a : α} :
    (schemaError what : Py α) = .ok a ↔ False := by
  simp [schemaError, refuse]

theorem journalText_eq_ok {row : PyValue} {key label : String} {t u : Text}
    (found : row.get (txt key) = .str t) :
    journalText row key label = .ok u ↔ t = u ∧ strip t ≠ [] := by
  unfold journalText
  rw [found]
  dsimp only
  split
  · rename_i blank
    simp [schemaError_ne_ok, blank]
  · rename_i filled
    simp [filled]

theorem zero_double : (Double.round 0).isFinite = true ∧ (Double.round 0).value = 0 :=
  ⟨rfl, Double.value_round_zero⟩

theorem journalNumber_eq_ok {row : PyValue} {key label : String} {sign : Sign} {x y : Double}
    (found : (row.get (txt key)) = .float x) :
    journalNumber row key label sign = .ok y ↔ x = y ∧ x.isFinite = true ∧
      (sign = .nonnegative → 0 ≤ x.value) ∧ (sign = .positive → 0 < x.value) := by
  unfold journalNumber
  rw [found]
  dsimp only
  rw [PyValue.toFloat_float, Py.ok_bind]
  by_cases finite : x.isFinite = true
  · have less := Double.lt_iff finite zero_double.1
    have atMost := Double.le_iff finite zero_double.1
    rw [zero_double.2] at less atMost
    cases sign with
    | any => simp [finite]
    | nonnegative =>
        by_cases negative : x.value < 0
        · simp [finite, less.mpr negative, schemaError_ne_ok, not_le.mpr negative]
        · have notLess : Double.lt x (Double.round 0) = false :=
            Bool.eq_false_iff.mpr fun h => negative (less.mp h)
          simp [finite, notLess, not_lt.mp negative]
    | positive =>
        by_cases small : x.value ≤ 0
        · simp [finite, atMost.mpr small, schemaError_ne_ok, not_lt.mpr small]
        · have notLess : Double.le x (Double.round 0) = false :=
            Bool.eq_false_iff.mpr fun h => small (atMost.mp h)
          simp [finite, notLess, not_le.mp small]
  · simp [finite, schemaError_ne_ok]

theorem journalNumber_zero {row : PyValue} {key label : String} {y : Double}
    (found : (row.get (txt key)) = .int 0) :
    journalNumber row key label .nonnegative = .ok y ↔ Double.round 0 = y := by
  have notLess : Double.lt (Double.round 0) (Double.round 0) = false := Double.lt_self _
  unfold journalNumber
  rw [found]
  simp [PyValue.toFloat, zero_double.1, notLess]

/-- What the reader asks of the timestamps. -/
def InOrder (entryTs exitTs : Text) : Prop :=
  strip entryTs ≠ [] ∧ strip exitTs ≠ [] ∧ ∃ entryDt exitDt, parseTs entryTs = .ok (some entryDt) ∧
    parseTs exitTs = .ok (some exitDt) ∧ ¬ Datetime.orderKey exitDt < Datetime.orderKey entryDt

/-- The members of a row that the reader looks at. -/
structure Row where
  tradeId : Text
  symbol : Text
  direction : Direction
  entryTs : Text
  exitTs : Text
  exitReason : ExitReason
  qty : Double
  entryPrice : Double
  exitPrice : Double
  pnl : Double
  risk : Double
  exitFee : Double
  totalFee : Double

/-- A row with those members. -/
structure Row.Of (r : Row) (row : PyValue) : Prop where
  dict : row.isDict = true
  tradeId : row.get (txt "trade_id") = .str r.tradeId
  symbol : row.get (txt "symbol") = .str r.symbol
  direction : row.get (txt "direction") = .str r.direction.text
  entryTs : row.get (txt "entry_ts") = .str r.entryTs
  exitTs : row.get (txt "exit_ts") = .str r.exitTs
  exitReason : row.get (txt "exit_reason") = .str r.exitReason.text
  qty : row.get (txt "qty") = .float r.qty
  entryPrice : row.get (txt "entry_price") = .float r.entryPrice
  exitPrice : row.get (txt "exit_price") = .float r.exitPrice
  pnl : row.get (txt "realized_pnl_usd") = .float r.pnl
  risk : row.get (txt "risk_usd") = .float r.risk
  exitFee : row.get (txt "exit_fee_usd") = .float r.exitFee
  totalFee : row.get (txt "total_fees_usd") = .float r.totalFee

/-- What the reader asks of such a row, by what it reads of the entry fee. -/
structure Row.Accepted (r : Row) (row : PyValue) : Prop where
  finite : finiteTree row = true
  named : strip r.tradeId ≠ [] ∧ strip r.symbol ≠ []
  ordered : InOrder r.entryTs r.exitTs
  positive : 0 < r.qty.value ∧ 0 < r.entryPrice.value ∧ 0 < r.exitPrice.value
  nonnegative : 0 ≤ r.risk.value ∧ 0 ≤ r.exitFee.value ∧ 0 ≤ r.totalFee.value
  fees : ∃ entryFee, journalNumber row "entry_fee_usd" "ENTRY_FEE_USD" .nonnegative = .ok entryFee ∧
    feesReconcile entryFee r.exitFee r.totalFee = true

theorem Direction.text_known (direction : Direction) :
    upper direction.text ∈ [txt "LONG", txt "SHORT"] ∧ strip direction.text ≠ [] := by
  cases direction <;> decide

theorem ExitReason.text_known (reason : ExitReason) :
    upper reason.text ∈
        [txt "STOP", txt "TARGET", txt "TIME_STOP", txt "MANUAL", txt "KILL_SWITCH"] ∧
      strip reason.text ≠ [] := by
  cases reason <;> decide

theorem Row.accepted_iff {r : Row} {row : PyValue} (shape : r.Of row)
    (floats : finiteTree row = true → r.qty.isFinite = true ∧ r.entryPrice.isFinite = true ∧
      r.exitPrice.isFinite = true ∧ r.pnl.isFinite = true ∧ r.risk.isFinite = true ∧
      r.exitFee.isFinite = true ∧ r.totalFee.isFinite = true) :
    (validateClosedJournalRow row).isOk = true ↔ r.Accepted row := by
  have direction := Direction.text_known r.direction
  have reason := ExitReason.text_known r.exitReason
  rw [isOk_iff, validateClosedJournalRow]
  simp only [shape.dict, Bool.not_true, Bool.false_eq_true, if_false, Py.bind_eq_ok,
    validateFiniteTree_eq_ok, journalText_eq_ok shape.tradeId, journalText_eq_ok shape.symbol,
    journalText_eq_ok shape.direction, journalText_eq_ok shape.entryTs,
    journalText_eq_ok shape.exitTs, journalText_eq_ok shape.exitReason, guardNot_eq_ok,
    decide_eq_false_iff_not, not_not]
  constructor
  · rintro ⟨_, _, finite, _, ⟨rfl, tradeId⟩, _, ⟨rfl, symbol⟩, _, ⟨rfl, -⟩, _, ⟨rfl, entryTs⟩, _,
      ⟨rfl, exitTs⟩, _, ⟨rfl, -⟩, _, -, _, -, entryDt, entryRead, exitDt, exitRead, rest⟩
    cases entryDt with
    | none => simp [schemaError_ne_ok] at rest
    | some entryDt =>
        cases exitDt with
        | none => simp [schemaError_ne_ok] at rest
        | some exitDt =>
            simp only [Py.bind_eq_ok, guardNot_eq_ok, decide_eq_false_iff_not,
              journalNumber_eq_ok shape.qty, journalNumber_eq_ok shape.entryPrice,
              journalNumber_eq_ok shape.exitPrice, journalNumber_eq_ok shape.pnl,
              journalNumber_eq_ok shape.risk, journalNumber_eq_ok shape.exitFee,
              journalNumber_eq_ok shape.totalFee, Bool.not_eq_false'] at rest
            obtain ⟨_, ordered, _, ⟨rfl, -, -, qty⟩, _, ⟨rfl, -, -, entryPrice⟩, _,
              ⟨rfl, -, -, exitPrice⟩, _, -, _, ⟨rfl, -, risk, -⟩, entryFee, entryFeeRead, _,
              ⟨rfl, -, exitFee, -⟩, _, ⟨rfl, -, totalFee, -⟩, _, reconciled, -⟩ := rest
            exact ⟨finite, ⟨tradeId, symbol⟩, ⟨entryTs, exitTs, entryDt, exitDt, entryRead, exitRead,
              ordered⟩, ⟨qty trivial, entryPrice trivial, exitPrice trivial⟩,
              ⟨risk trivial, exitFee trivial, totalFee trivial⟩,
              entryFee, entryFeeRead, by simpa using reconciled⟩
  · rintro ⟨finite, ⟨tradeId, symbol⟩, ⟨entryTs, exitTs, entryDt, exitDt, entryRead, exitRead, ordered⟩,
      ⟨qty, entryPrice, exitPrice⟩, ⟨risk, exitFee, totalFee⟩, entryFee, entryFeeRead, reconciled⟩
    obtain ⟨qtyF, entryF, exitF, pnlF, riskF, exitFeeF, totalFeeF⟩ := floats finite
    refine ⟨row, (), finite, _, ⟨rfl, tradeId⟩, _, ⟨rfl, symbol⟩, _, ⟨rfl, direction.2⟩, _,
      ⟨rfl, entryTs⟩, _, ⟨rfl, exitTs⟩, _, ⟨rfl, reason.2⟩, (), direction.1, (), reason.1, some entryDt,
      entryRead, some exitDt, exitRead, ?_⟩
    simp only [Py.bind_eq_ok, guardNot_eq_ok, decide_eq_false_iff_not,
      journalNumber_eq_ok shape.qty, journalNumber_eq_ok shape.entryPrice,
      journalNumber_eq_ok shape.exitPrice, journalNumber_eq_ok shape.pnl,
      journalNumber_eq_ok shape.risk, journalNumber_eq_ok shape.exitFee,
      journalNumber_eq_ok shape.totalFee]
    exact ⟨(), ordered, _, ⟨rfl, qtyF, by simp, fun _ => qty⟩, _, ⟨rfl, entryF, by simp, fun _ => entryPrice⟩,
      _, ⟨rfl, exitF, by simp, fun _ => exitPrice⟩, _, ⟨rfl, pnlF, by simp, by simp⟩, _,
      ⟨rfl, riskF, fun _ => risk, by simp⟩, entryFee, entryFeeRead, _, ⟨rfl, exitFeeF, fun _ => exitFee, by simp⟩,
      _, ⟨rfl, totalFeeF, fun _ => totalFee, by simp⟩, (), by simpa using reconciled, rfl⟩

/-! ## The record of a closed position -/

/-- `x or 0` -/
abbrev orNought (x : Double) : Double := orNumber x (lit 0)

theorem orNought_eq (x : Double) :
    (orNought x).isFinite = x.isFinite ∧ (orNought x).value = x.value := by
  have shape : orNought x = if (Double.le x (Double.round 0) && Double.le (Double.round 0) x) then
      Double.round 0 else x := rfl
  rw [shape]
  split
  · rename_i zero
    simp only [Bool.and_eq_true, Double.le, decide_eq_true_eq] at zero
    have value : x.value = 0 := le_antisymm (by simpa [zero_double.2] using zero.1.2)
      (by simpa [zero_double.2] using zero.2.2)
    rw [zero_double.1, zero_double.2, value]
    refine ⟨?_, rfl⟩
    cases x with
    | nan => simp [Double.isNan] at zero
    | infinity negative => cases negative <;> simp [Double.value] at value
    | finite => rfl
  · exact ⟨rfl, rfl⟩

/-- What is asked of a closed position, recorded under an id with an exit time, for its row to be
readable. -/
structure Journalable (closed : Position Double) (positionId exitTs : Text) (new : NewOrderEvent) :
    Prop where
  named : strip positionId ≠ [] ∧ strip closed.symbol ≠ []
  ordered : InOrder closed.entryTs exitTs
  qty : closed.qty.isFinite = true ∧ 1 / 2 / 10 ^ 8 < closed.qty.value
  entryPrice : closed.avgEntryPrice.isFinite = true ∧ 1 / 2 / 10 ^ 6 < closed.avgEntryPrice.value
  exitPrice : closed.exitPrice.isFinite = true ∧ 1 / 2 / 10 ^ 6 < closed.exitPrice.value
  notional : (orNought closed.qty * orNought closed.avgEntryPrice).isFinite = true
  pnl : closed.realizedPnl.isFinite = true
  risk : closed.riskUsd.isFinite = true ∧ -(1 / 2 / 10 ^ 2) ≤ closed.riskUsd.value
  pnlPct : (pnlPctOf (orNought closed.realizedPnl) (orNought closed.riskUsd)).isFinite = true
  fees : closed.feesPaid.isFinite = true ∧ -(1 / 2 / 10 ^ 4) ≤ closed.feesPaid.value
  excursions : ∀ price ∈ [closed.maePrice, closed.mfePrice],
    (orNumber price (orNought closed.avgEntryPrice)).isFinite = true ∧
      ∀ bps ∈ excursionBps closed.direction (orNought closed.avgEntryPrice)
        (orNumber price (orNought closed.avgEntryPrice)), bps.isFinite = true
  submitted : new.orderedQty.isFinite = true ∧ new.limitPrice.isFinite = true ∧
    new.sizeScale.isFinite = true

theorem nodup_txt {names : List String} (nodup : names.Nodup) : (names.map txt).Nodup :=
  nodup.map fun _ _ same => txt_inj.mp same

theorem isFinite_round (digits : Nat) (x : Double) : (round digits x).isFinite = x.isFinite := by
  show (Double.roundDigits digits x).isFinite = x.isFinite
  cases x with
  | nan | infinity => rfl
  | finite negative m e canonical => exact (Double.roundDigits_near rfl digits).1

theorem finiteTree_amount (digits : Nat) (x : Option Double) :
    finiteTree (amount digits x) = true ↔ ∀ y ∈ x, y.isFinite = true := by
  cases x with
  | none => simp [amount, finiteTree]
  | some y =>
      simp only [amount, finiteTree, Option.mem_def, Option.some.injEq, forall_eq']
      exact iff_of_eq (congrArg (· = true) (isFinite_round digits y))

theorem finiteTree_option (t : Option Text) : finiteTree (optionText t) = true := by
  cases t <;> rfl

theorem finiteTree_new (new : NewOrderEvent) :
    finiteTree (.list [new.toValue]) = true ↔ new.orderedQty.isFinite = true ∧
      new.limitPrice.isFinite = true ∧ new.sizeScale.isFinite = true := by
  rw [finiteTree, finiteItems, finiteItems, Bool.and_true, NewOrderEvent.toValue, finiteTree_ofMembers]
  · simp [finiteTree]
  · exact nodup_txt (by decide : ["ts", "event", "ordered_qty", "limit_price", "size_scale"].Nodup)

theorem fillFigures_new (new : NewOrderEvent) : fillFigures [new.toValue] = .ok (lit 0, 0) := by
  have event : (new.toValue.get (txt "event")).eqText (txt "FILL") = false := by
    simp [NewOrderEvent.toValue, PyValue.get_ofMembers, Json.lookup]
  simp only [fillFigures, List.foldlM_cons, List.foldlM_nil, event, Bool.false_eq_true, if_false]
  rfl

/-- The exit event that `check_exits` emits. -/
def exitEvent (closed : Position Double) (eventTs : Text) : ExitEvent :=
  ⟨eventTs, closed.exitPrice, (closed.exitReason.map ExitReason.text).getD []⟩

/-- The members of its record that the reader looks at. -/
def recordedRow (closed : Position Double) (positionId exitTs : Text) (reason : ExitReason) : Row where
  tradeId := positionId
  symbol := closed.symbol
  direction := closed.direction
  entryTs := closed.entryTs
  exitTs := exitTs
  exitReason := reason
  qty := round 8 (orNought closed.qty)
  entryPrice := round 6 (orNought closed.avgEntryPrice)
  exitPrice := round 6 (orNought closed.exitPrice)
  pnl := round 2 (orNought closed.realizedPnl)
  risk := round 2 (orNought closed.riskUsd)
  exitFee := round 4 (orNought closed.feesPaid - (entryFeeOf (orNought closed.feesPaid)).getD (lit 0))
  totalFee := round 4 (orNought closed.feesPaid)

theorem orText_self (s : Text) : orText s s = s := by
  unfold orText
  split <;> rfl

theorem orText_again (s t : Text) : orText s (orText s t) = orText s t := by
  unfold orText
  split
  · rfl
  · rfl

theorem orNumber_again (x : Double) : orNumber x (orNought x) = orNought x := by
  unfold orNought orNumber
  split <;> rfl

/-- The record can always be built, and this is what the reader sees of it. -/
theorem buildRecord_row (draws : RecordDraws) {closed : Position Double} {reason : ExitReason}
    (exited : closed.exitReason = some reason) (new : NewOrderEvent) (eventTs : Text) :
    ∃ row, buildRecord draws (handleOpen closed) closed [new.toValue] (exitEvent closed eventTs) =
        .ok row ∧
      (recordedRow closed (orText closed.positionId draws.positionId) (orText closed.exitTs eventTs)
        reason).Of row ∧
      row.get (txt "entry_fee_usd") = amount 4 (entryFeeOf (orNought closed.feesPaid)) ∧
      (finiteTree row = true ↔
        (closed.qty.isFinite = true ∧ closed.avgEntryPrice.isFinite = true ∧
          closed.exitPrice.isFinite = true ∧ closed.realizedPnl.isFinite = true ∧
          closed.riskUsd.isFinite = true ∧ closed.feesPaid.isFinite = true) ∧
        (orNought closed.qty * orNought closed.avgEntryPrice).isFinite = true ∧
        (pnlPctOf (orNought closed.realizedPnl) (orNought closed.riskUsd)).isFinite = true ∧
        ((∀ fee ∈ entryFeeOf (orNought closed.feesPaid), fee.isFinite = true) ∧
          (orNought closed.feesPaid -
            (entryFeeOf (orNought closed.feesPaid)).getD (lit 0)).isFinite = true) ∧
        (∀ price ∈ [closed.maePrice, closed.mfePrice],
          (orNumber price (orNought closed.avgEntryPrice)).isFinite = true ∧
            ∀ bps ∈ excursionBps closed.direction (orNought closed.avgEntryPrice)
              (orNumber price (orNought closed.avgEntryPrice)), bps.isFinite = true) ∧
        new.orderedQty.isFinite = true ∧ new.limitPrice.isFinite = true ∧
          new.sizeScale.isFinite = true) := by
  have text : orText reason.text reason.text = reason.text := orText_self _
  have known := (ExitReason.text_known reason).2
  refine ⟨_, by rw [buildRecord, fillFigures_new]; rfl, ?_, ?_, ?_⟩
  · constructor <;>
      simp [PyValue.get_ofMembers, Json.lookup, recordedRow, handleOpen, exitEvent, exited, orText_self,
        orText_again, orNumber_again, orNought]
  · simp [PyValue.get_ofMembers, Json.lookup, orNought]
  · rw [finiteTree_ofMembers]
    · have slips : (lit 0 * lit 2 : Double).isFinite = true ∧ (lit 0 : Double).isFinite = true := by
        decide +kernel
      have trail := finiteTree_new new
      simp only [List.forall_mem_cons, List.not_mem_nil, false_implies, implies_true, and_true,
        finiteTree, isFinite_round, finiteTree_amount, slips, true_and, orNought_eq, exitEvent,
        handleOpen, orNumber_again, finiteTree_option] at trail ⊢
      rw [trail]
      tauto
    · exact nodup_txt (by decide : ["journal_id", "trade_id", "prediction_id", "symbol", "direction",
        "entry_ts", "exit_ts", "holding_time_s", "entry_price", "exit_price", "qty", "notional_usd",
        "realized_pnl_usd", "realized_pnl_pct", "risk_usd", "entry_fee_usd", "exit_fee_usd",
        "total_fees_usd", "spread_bps_entry", "slippage_bps_entry", "slippage_bps_exit", "mae_price",
        "mfe_price", "mae_bps", "mfe_bps", "exit_reason", "execution_latency_ms_entry",
        "execution_latency_ms_exit", "audit_trail", "created_at"].Nodup)

/-- The fees of a record, as far as they are readable. -/
theorem fees_accepted {row : PyValue} {t : Double} (finite : t.isFinite = true)
    (entry : row.get (txt "entry_fee_usd") = amount 4 (entryFeeOf t)) :
    (0 ≤ (round 4 (t - (entryFeeOf t).getD (lit 0))).value ∧ 0 ≤ (round 4 t).value ∧
      ∃ entryFee, journalNumber row "entry_fee_usd" "ENTRY_FEE_USD" .nonnegative = .ok entryFee ∧
        feesReconcile entryFee (round 4 (t - (entryFeeOf t).getD (lit 0))) (round 4 t) = true) ↔
      -(1 / 2 / 10 ^ 4) ≤ t.value := by
  have less := Double.lt_iff zero_double.1 finite
  rw [zero_double.2] at less
  have total := Double.roundDigits_neg_iff finite (by norm_num : 4 ≤ 20)
  by_cases positive : 0 < t.value
  · obtain ⟨halfFinite, halfNonneg, -⟩ := half_near finite positive
    obtain ⟨restFinite, rest⟩ := rest_near finite positive
    have split : entryFeeOf t = some (t / lit 2) := if_pos (less.mpr positive)
    rw [split, amount] at entry
    rw [split, Option.getD_some]
    have half := Double.roundDigits_neg_iff halfFinite (by norm_num : 4 ≤ 20)
    have exit := Double.roundDigits_neg_iff restFinite (by norm_num : 4 ≤ 20)
    have nonneg : (0 : ℚ) < 1 / 2 / 10 ^ 4 := by norm_num
    rw [abs_le] at rest
    refine ⟨fun _ => by linarith, fun _ => ⟨not_lt.mp fun h => ?_, not_lt.mp fun h => ?_, _, ?_,
      feesReconcile_halves finite positive⟩⟩
    · have := exit.mp h
      norm_num at this
      linarith [rest.1]
    · linarith [total.mp h]
    · apply (journalNumber_eq_ok entry).mpr
      refine ⟨rfl, by rw [isFinite_round]; exact halfFinite, fun _ => not_lt.mp fun h => ?_, by simp⟩
      linarith [half.mp h]
  · have whole : entryFeeOf t = none := if_neg fun h => positive (less.mp h)
    rw [whole, amount] at entry
    rw [whole, Option.getD_none]
    have same : t - lit 0 = t := Double.sub_zero_eq finite
    rw [same]
    have roundFinite : (round 4 t).isFinite = true := by
      rw [isFinite_round]
      exact finite
    constructor
    · rintro ⟨-, nonneg, -⟩
      by_contra negative
      exact absurd (total.mpr (not_le.mp negative)) (not_lt.mpr nonneg)
    · intro small
      have nonneg : 0 ≤ (round 4 t).value := not_lt.mp fun h => absurd (total.mp h) (not_lt.mpr small)
      exact ⟨nonneg, nonneg, _, (journalNumber_zero entry).mpr rfl, feesReconcile_exit roundFinite⟩

/-- The record of a closed position is readable exactly if the position is `Journalable`. -/
theorem record_accepted_iff (draws : RecordDraws) {closed : Position Double} {reason : ExitReason}
    (exited : closed.exitReason = some reason) (new : NewOrderEvent) (eventTs : Text) :
    (∃ row, buildRecord draws (handleOpen closed) closed [new.toValue] (exitEvent closed eventTs) =
        .ok row ∧ (validateClosedJournalRow row).isOk = true) ↔
      Journalable closed (orText closed.positionId draws.positionId) (orText closed.exitTs eventTs)
        new := by
  obtain ⟨row, built, shape, entry, finite_iff⟩ := buildRecord_row draws exited new eventTs
  have accepted := Row.accepted_iff shape (by
    intro finite
    obtain ⟨⟨qty, entryPrice, exitPrice, pnl, risk, fees⟩, -, -, ⟨-, exitFee⟩, -⟩ :=
      finite_iff.mp finite
    simp only [recordedRow, isFinite_round, orNought_eq]
    exact ⟨qty, entryPrice, exitPrice, pnl, risk, exitFee, fees⟩)
  have positive {x : Double} (finite : x.isFinite = true) {digits : Nat} (few : digits ≤ 20) :
      0 < (round digits (orNought x)).value ↔ 1 / 2 / 10 ^ digits < x.value := by
    have iff := Double.roundDigits_pos_iff ((orNought_eq x).1.trans finite) few
    rw [(orNought_eq x).2] at iff
    exact iff
  have nonnegative {x : Double} (finite : x.isFinite = true) {digits : Nat} (few : digits ≤ 20) :
      0 ≤ (round digits (orNought x)).value ↔ -(1 / 2 / 10 ^ digits) ≤ x.value := by
    have iff := Double.roundDigits_neg_iff ((orNought_eq x).1.trans finite) few
    rw [(orNought_eq x).2] at iff
    rw [← not_lt, ← not_lt]
    exact not_congr iff
  have fees {closed : Position Double} (finite : closed.feesPaid.isFinite = true)
      (entry : row.get (txt "entry_fee_usd") = amount 4 (entryFeeOf (orNought closed.feesPaid))) :=
    fees_accepted ((orNought_eq closed.feesPaid).1.trans finite) entry
  constructor
  · rintro ⟨other, same, valid⟩
    obtain rfl : row = other := Except.ok.inj (built.symm.trans same)
    obtain ⟨finite, named, ordered, ⟨qty, entryPrice, exitPrice⟩, ⟨risk, exitFee, totalFee⟩, paid⟩ :=
      accepted.mp valid
    obtain ⟨⟨qtyF, entryF, exitF, pnlF, riskF, feesF⟩, notional, pnlPct, -, excursions, submitted⟩ :=
      finite_iff.mp finite
    refine ⟨named, ordered, ⟨qtyF, (positive qtyF (by norm_num)).mp qty⟩,
      ⟨entryF, (positive entryF (by norm_num)).mp entryPrice⟩,
      ⟨exitF, (positive exitF (by norm_num)).mp exitPrice⟩, notional, pnlF,
      ⟨riskF, (nonnegative riskF (by norm_num)).mp risk⟩, pnlPct, ⟨feesF, ?_⟩, excursions, submitted⟩
    have least := (fees feesF entry).mp ⟨exitFee, totalFee, paid⟩
    rwa [(orNought_eq _).2] at least
  · intro journalable
    refine ⟨row, built, accepted.mpr ?_⟩
    have feesF := (orNought_eq closed.feesPaid).1.trans journalable.fees.1
    obtain ⟨exitFee, totalFee, paid⟩ := (fees journalable.fees.1 entry).mpr (by
      rw [(orNought_eq _).2]
      exact journalable.fees.2)
    have feeFinite : (∀ fee ∈ entryFeeOf (orNought closed.feesPaid), fee.isFinite = true) ∧
        (orNought closed.feesPaid -
          (entryFeeOf (orNought closed.feesPaid)).getD (lit 0)).isFinite = true := by
      have less := Double.lt_iff zero_double.1 feesF
      rw [zero_double.2] at less
      by_cases some : 0 < (orNought closed.feesPaid).value
      · have split : entryFeeOf (orNought closed.feesPaid) = Option.some (orNought closed.feesPaid / lit 2) :=
          if_pos (less.mpr some)
        rw [split]
        refine ⟨?_, (rest_near feesF some).1⟩
        intro fee member
        obtain rfl := Option.some.inj member
        exact (half_near feesF some).1
      · have whole : entryFeeOf (orNought closed.feesPaid) = none := if_neg fun h => some (less.mp h)
        rw [whole]
        refine ⟨by simp, ?_⟩
        have same : orNought closed.feesPaid - lit 0 = orNought closed.feesPaid :=
          Double.sub_zero_eq feesF
        rw [Option.getD_none, same]
        exact feesF
    refine ⟨finite_iff.mpr ⟨⟨journalable.qty.1, journalable.entryPrice.1, journalable.exitPrice.1,
      journalable.pnl, journalable.risk.1, journalable.fees.1⟩, journalable.notional,
      journalable.pnlPct, feeFinite, journalable.excursions, journalable.submitted⟩,
      journalable.named, journalable.ordered, ⟨?_, ?_, ?_⟩, ⟨?_, exitFee, totalFee⟩, paid⟩
    · exact (positive journalable.qty.1 (by norm_num)).mpr journalable.qty.2
    · exact (positive journalable.entryPrice.1 (by norm_num)).mpr journalable.entryPrice.2
    · exact (positive journalable.exitPrice.1 (by norm_num)).mpr journalable.exitPrice.2
    · exact (nonnegative journalable.risk.1 (by norm_num)).mpr journalable.risk.2

/-! ## Positions that the engine closes -/

theorem handleOpen_withExcursions (p : Position Double) (tickPrice : Double) :
    handleOpen (Engine.withExcursions p tickPrice) = handleOpen p := by
  unfold Engine.withExcursions
  dsimp only
  split <;> rfl

/-- What `check_exits` closes: the journal still remembers its opening. -/
theorem checkExits_closed {e after : Engine Double} {symbol tickTs : Text} {tickPrice random : Double}
    {killSwitchActive : Bool} {closed : Position Double}
    (exits : e.checkExits symbol tickPrice tickTs killSwitchActive random = (after, some closed)) :
    ∃ opened reason, e.openPosition symbol = some opened ∧ handleOpen opened = handleOpen closed ∧
      closed.exitReason = some reason ∧ closed.exitTs = tickTs := by
  unfold Engine.checkExits at exits
  split at exits
  · cases exits
  · rename_i opened held
    dsimp only at exits
    split at exits
    · cases exits
    · rename_i reason _
      simp only [Prod.mk.injEq, Option.some.injEq] at exits
      obtain ⟨-, rfl⟩ := exits
      exact ⟨opened, reason, held, (handleOpen_withExcursions opened tickPrice).symm, rfl, rfl⟩

/-- For every position that the engine closes, the record of it is accepted by the reader exactly
if the position is `Journalable`. -/
theorem closed_accepted_iff {e after : Engine Double} {symbol tickTs : Text}
    {tickPrice random : Double} {killSwitchActive : Bool} {closed : Position Double}
    (exits : e.checkExits symbol tickPrice tickTs killSwitchActive random = (after, some closed))
    (draws : RecordDraws) (new : NewOrderEvent) (eventTs : Text) :
    ∃ opened, e.openPosition symbol = some opened ∧
      ((∃ row, buildRecord draws (handleOpen opened) closed [new.toValue] (exitEvent closed eventTs) =
          .ok row ∧ (validateClosedJournalRow row).isOk = true) ↔
        Journalable closed (orText closed.positionId draws.positionId) (orText tickTs eventTs) new) := by
  obtain ⟨opened, reason, held, same, exited, at_⟩ := checkExits_closed exits
  refine ⟨opened, held, ?_⟩
  rw [same, ← at_]
  exact record_accepted_iff draws exited new eventTs

/-- A LONG of one unit, opened at noon, with its stop and its target. -/
def openedAtNoon : Engine Double :=
  let inputs : Engine.SubmitInputs Double := ⟨txt "ord-1", txt "pos-1",
    txt "2026-06-01T12:00:00+00:00", lit (1 / 2), some (lit 1000000), fun _ => ⟨lit 1, lit (1 / 2)⟩, none⟩
  ((Engine.start (EngineConfig.defaults Double)).submit
    ⟨txt "ETH/USDT", .long, lit 1, lit 20, none⟩ (lit 1) (lit 1000) inputs).1.setStopTarget
      (txt "ETH/USDT") (lit 980) (lit 1040)

/-- A tick beyond the target. -/
def targetTick (tickTs : Text) : Engine Double × Option (Position Double) :=
  openedAtNoon.checkExits (txt "ETH/USDT") (lit 1050) tickTs false (lit (1 / 2))

def sampleDraws : RecordDraws := ⟨txt "jr-1", txt "pos-2", txt "2026-06-01T12:10:00+00:00"⟩

def sampleNew : NewOrderEvent := ⟨txt "2026-06-01T12:00:00+00:00", lit 1, lit 1000, lit 1⟩

theorem closed_accepted_iff_laterTick :
    ∃ after closed opened, targetTick (txt "2026-06-01T12:10:00+00:00") = (after, some closed) ∧
      openedAtNoon.openPosition (txt "ETH/USDT") = some opened ∧
      ((∃ row, buildRecord sampleDraws (handleOpen opened) closed [sampleNew.toValue]
          (exitEvent closed []) = .ok row ∧ (validateClosedJournalRow row).isOk = true) ↔
        Journalable closed (orText closed.positionId sampleDraws.positionId)
          (orText (txt "2026-06-01T12:10:00+00:00") []) sampleNew) := by
  have closes : (targetTick (txt "2026-06-01T12:10:00+00:00")).2.isSome = true := by decide +kernel
  obtain ⟨closed, exits⟩ := Option.isSome_iff_exists.mp closes
  obtain ⟨opened, held, iff⟩ := closed_accepted_iff (Prod.ext rfl exits) sampleDraws sampleNew []
  exact ⟨_, closed, opened, Prod.ext rfl exits, held, iff⟩

/-- The exit is stamped before the entry. -/
private def exitsEarly (entryTs exitTs : Text) : Bool :=
  match parseTs entryTs, parseTs exitTs with
  | .ok (some entered), .ok (some exited) =>
      decide (Datetime.orderKey exited < Datetime.orderKey entered)
  | _, _ => false

/-- A tick whose timestamp is earlier than the fill: the record of the exit is refused. -/
theorem not_accepted_earlierTick :
    ∃ closed, (targetTick (txt "2026-06-01T11:45:00+00:00")).2 = some closed ∧
      ¬ ∃ row, buildRecord sampleDraws (handleOpen closed) closed [sampleNew.toValue]
        (exitEvent closed []) = .ok row ∧ (validateClosedJournalRow row).isOk = true := by
  have closes : (targetTick (txt "2026-06-01T11:45:00+00:00")).2.isSome = true := by decide +kernel
  obtain ⟨closed, exits⟩ := Option.isSome_iff_exists.mp closes
  refine ⟨closed, exits, ?_⟩
  have entered : (targetTick (txt "2026-06-01T11:45:00+00:00")).2.map (·.entryTs) =
      some (txt "2026-06-01T12:00:00+00:00") := by decide +kernel
  rw [exits, Option.map_some, Option.some.injEq] at entered
  obtain ⟨-, reason, -, -, exited, at_⟩ := checkExits_closed (Prod.ext rfl exits)
  rw [record_accepted_iff sampleDraws exited sampleNew []]
  intro journalable
  obtain ⟨-, -, entryDt, exitDt, entryRead, exitRead, ordered⟩ := journalable.ordered
  rw [entered] at entryRead
  rw [at_] at exitRead
  have early : exitsEarly (txt "2026-06-01T12:00:00+00:00") (orText (txt "2026-06-01T11:45:00+00:00") []) =
      true := by decide +kernel
  rw [exitsEarly, entryRead, exitRead] at early
  exact ordered (of_decide_eq_true early)

end Senex.Portfolio
