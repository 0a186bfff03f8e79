import Mathlib.Data.List.MinMax
import Senex.Challengers.Receipt
import Senex.Foundation.Sorting
import Senex.Foundation.Timeline

/-! # Purged walk-forward splits

`purged_walk_forward_splits` cuts the last observations into test folds and trains each fold on the
earlier observations whose label window has ended.  `validate_purged_splits` checks such folds.
-/

namespace Senex.Challengers

open Text

/-! ## Observations -/

/-- `pMarket` is a number, `senexRawUp` is one or nothing. -/
structure Observation where
  (marketId decisionTs labelEndTs : Text)
  label : Int
  (pMarket senexRawUp : PyValue)

/-- What the texts of a valid observation say; a text says the same each time it is read. -/
structure Dated where
  marketId : Text
  (decision labelEnd : Civil)
  later : Datetime.orderKey decision < Datetime.orderKey labelEnd

def validateObservation (row : Observation) : Py Dated := do
  guardNot row.marketId.isEmpty .challengerContractError (txt "market_id is required")
  let decision ← utc row.decisionTs
  let labelEnd ← utc row.labelEndTs
  if later : Datetime.orderKey decision < Datetime.orderKey labelEnd then
    guardNot (row.label != 0 && row.label != 1) .challengerContractError (txt "label must be 0 or 1")
    let _ ← prob row.pMarket (txt "p_market")
    match row.senexRawUp with
    | .none => return ⟨row.marketId, decision, labelEnd, later⟩
    | value =>
        let _ ← prob value (txt "senex_raw_up")
        return ⟨row.marketId, decision, labelEnd, later⟩
  else raise .challengerContractError (txt "label_end_ts must be after decision_ts")

/-! ## Folds -/

structure PurgedSplit where
  (trainIndices testIndices : List Int)
  testStartTs : Text
  embargoSeconds : PyValue

/-- A whole number that is no `bool` and not below a bound. -/
def atLeast (least : Int) (value : PyValue) (message : Text) : Py Nat :=
  match value with
  | .int n => if least ≤ n then .ok n.toNat else raise .challengerContractError message
  | _ => raise .challengerContractError message

section

variable (rows : List Dated)

/-- The observations in chronological order, as positions in the list. -/
def ordered : List (Fin rows.length) :=
  sortedBy (fun idx => toLex (Datetime.orderKey (rows.get idx).decision, toLex ((rows.get idx).marketId, idx.val)))
    (List.finRange rows.length)

/-- `test_start.timestamp() - embargo_seconds` -/
def purgeBefore (testStart : Civil) (embargoSeconds : Nat) : Py Double := do
  let seconds ← PyValue.toFloat (.int embargoSeconds)
  return (Datetime.timestamp testStart).sub seconds

variable {rows} in
/-- The label window has ended when the purge begins. -/
def ended (purge : Double) (idx : Fin rows.length) : Bool := (Datetime.timestamp (rows.get idx).labelEnd).lt purge

/-- The first of some positions before which enough observations have ended. -/
def firstTestPosition (minTrainSize embargoSeconds : Nat) : List (Fin rows.length × Nat) → Py (Option Nat)
  | [] => .ok none
  | (idx, position) :: rest => do
      let purge ← purgeBefore (rows.get idx).decision embargoSeconds
      let eligibleTrain := ((ordered rows).take position).filter (ended purge)
      if minTrainSize ≤ eligibleTrain.length then return some position
      firstTestPosition minTrainSize embargoSeconds rest

/-- `min` of the decision times of some observations. -/
def testStart? (indices : List (Fin rows.length)) : Option Civil :=
  (indices.map fun idx => (rows.get idx).decision).argmin Datetime.orderKey

end

/-- Positions as the splits hold them. -/
def positions {length : Nat} (indices : List (Fin length)) : List Int := indices.map fun idx => (idx.val : Int)

/-- What `purged_walk_forward_splits` knows once it has found the first test position. -/
structure Plan where
  rows : List Dated
  (nSplits minTrainSize embargoSeconds firstPosition : Nat)

def plan (rows : List Observation) (nSplits minTrainSize embargoSeconds : PyValue) : Py Plan := do
  let splits ← atLeast 1 nSplits (txt "n_splits must be a positive integer")
  let minTrain ← atLeast 1 minTrainSize (txt "min_train_size must be a positive integer")
  let embargo ← atLeast 0 embargoSeconds (txt "embargo_seconds must be a non-negative integer")
  guardNot (decide (rows.length ≤ minTrain)) .challengerContractError
    (txt "not enough rows after minimum training window")
  let dated ← rows.mapM validateObservation
  let found ← firstTestPosition dated minTrain embargo ((ordered dated).zipIdx.drop minTrain)
  let first ← orRaise found .challengerContractError
    (txt "not enough post-purge training rows for requested min_train_size")
  return ⟨dated, splits, minTrain, embargo, first⟩

namespace Plan

variable (p : Plan)

def remaining : Nat := p.rows.length - p.firstPosition

def actualSplits : Nat := min p.nSplits p.remaining

/-- `base + (1 if fold < extra else 0)` -/
def size (fold : Nat) : Nat :=
  p.remaining / p.actualSplits + if fold < p.remaining % p.actualSplits then 1 else 0

/-- The split of one fold. -/
def split (test : List (Fin p.rows.length)) (testStart : Civil) (purge : Double) (cursor : Nat) : PurgedSplit where
  trainIndices := positions (((ordered p.rows).take cursor).filter (ended purge))
  testIndices := positions test
  testStartTs := Datetime.stamp testStart
  embargoSeconds := .int p.embargoSeconds

/-- The splits of some folds, the first of which starts at the cursor. -/
def splitsFrom : List Nat → Nat → Py (List PurgedSplit)
  | [], _ => .ok []
  | fold :: folds, cursor => do
      let stop := cursor + p.size fold
      let test := ((ordered p.rows).take stop).drop cursor
      match testStart? p.rows test with
      -- A fold without observations is left out, and the cursor stays.
      | none => splitsFrom folds cursor
      | some testStart =>
          let purge ← purgeBefore testStart p.embargoSeconds
          let split := p.split test testStart purge cursor
          guardNot (decide (split.trainIndices.length < p.minTrainSize)) .challengerContractError
            (txt "purge/embargo violated post-purge min_train_size")
          return split :: (← splitsFrom folds stop)

end Plan

def purgedWalkForwardSplits (rows : List Observation) (nSplits minTrainSize embargoSeconds : PyValue) :
    Py (List PurgedSplit) := do
  let p ← plan rows nSplits minTrainSize embargoSeconds
  p.splitsFrom (List.range p.actualSplits) p.firstPosition

/-! ## Validation -/

/-- A position of a list of some length. -/
def position? (length : Nat) (index : Int) : Option (Fin length) :=
  if inside : 0 ≤ index ∧ index < length then some ⟨index.toNat, by omega⟩ else none

section

variable (rows : List Dated)

/-- The checks of one training row. -/
def checkTrainingRow (declaredStart : Civil) (purge : Double) (idx : Fin rows.length) : Py Unit := do
  guardNot (!before (rows.get idx).decision declaredStart) .challengerContractError
    (txt "purged split training row is not strictly historical")
  guardNot (purge.le (Datetime.timestamp (rows.get idx).labelEnd)) .challengerContractError
    (txt "purged split violates label purge/embargo")

/-- The checks of one split, behind the splits whose test rows have been seen. -/
def checkSplit (seenTestIndices : List Int) (split : PurgedSplit) : Py Unit := do
  let embargo ← atLeast 0 split.embargoSeconds (txt "purged split embargo must be non-negative")
  guardNot (split.trainIndices.isEmpty || split.testIndices.isEmpty) .challengerContractError
    (txt "purged split train/test indices are required")
  guardNot (!decide split.trainIndices.Nodup) .challengerContractError
    (txt "purged split train indices must be unique")
  guardNot (!decide split.testIndices.Nodup) .challengerContractError
    (txt "purged split test indices must be unique")
  guardNot (split.trainIndices.any fun index => decide (index ∈ split.testIndices)) .challengerContractError
    (txt "purged split train/test overlap")
  let train ← orRaise (split.trainIndices.mapM (position? rows.length)) .challengerContractError
    (txt "purged split index out of range")
  let test ← orRaise (split.testIndices.mapM (position? rows.length)) .challengerContractError
    (txt "purged split index out of range")
  guardNot (split.testIndices.any fun index => decide (index ∈ seenTestIndices)) .challengerContractError
    (txt "purged split test rows cannot repeat across folds")
  let declaredStart ← utc split.testStartTs
  let observedStart ← orRaise (testStart? rows test) .valueError (txt "min() arg is an empty sequence")
  guardNot (Datetime.orderKey declaredStart != Datetime.orderKey observedStart) .challengerContractError
    (txt "purged split test_start_ts mismatch")
  let purge ← purgeBefore declaredStart embargo
  forM train (checkTrainingRow rows declaredStart purge)
  guardNot (test.any fun idx => before (rows.get idx).decision declaredStart) .challengerContractError
    (txt "purged split test row precedes declared start")

def checkSplits (seenTestIndices : List Int) : List PurgedSplit → Py Unit
  | [] => .ok ()
  | split :: splits => do
      checkSplit rows seenTestIndices split
      checkSplits (seenTestIndices ++ split.testIndices) splits

end

def validatePurgedSplits (rows : List Observation) (splits : List PurgedSplit) : Py Unit := do
  guardNot splits.isEmpty .challengerContractError (txt "at least one purged split is required")
  let dated ← rows.mapM validateObservation
  checkSplits dated [] splits

end Senex.Challengers
