import Mathlib.Algebra.Order.Field.Basic
import Senex.Foundation.Combinations
import Senex.Foundation.Python
import Senex.Foundation.Sorting

/-! # Purged cross-validation

The splitters of `purged_cv.py`, over exact seconds.  A timestamp is what `_to_epoch` makes
of it, which may be infinite or `nan`; the samples are their indices.
-/

namespace Senex.PurgedCv

open Text

/-- What `_to_epoch` gives. -/
inductive Epoch (K : Type) where
  | minusInf
  | seconds (t : K)
  | plusInf
  | nan
  deriving DecidableEq

variable {K : Type} [Field K] [LinearOrder K]

namespace Epoch

def isFinite : Epoch K → Bool
  | seconds _ => true
  | _ => false

def isNan : Epoch K → Bool
  | nan => true
  | _ => false

/-- Where `np.argsort` puts it: `nan` comes last. -/
def place : Epoch K → Nat ×ₗ K
  | minusInf => toLex (0, 0)
  | seconds t => toLex (1, t)
  | plusInf => toLex (2, 0)
  | nan => toLex (3, 0)

/-- A comparison, which is false of `nan`. -/
def le (a b : Epoch K) : Bool := !a.isNan && !b.isNan && decide (a.place ≤ b.place)

def plus : Epoch K → K → Epoch K
  | seconds t, d => seconds (t + d)
  | other, _ => other

/-- `np.fmin` -/
def fmin (a b : Epoch K) : Epoch K := if b.isNan || a.le b then a else b

/-- `np.fmax` -/
def fmax (a b : Epoch K) : Epoch K := if b.isNan || b.le a then a else b

end Epoch

/-- `np.nanmin`, with its `nan` for nothing else. -/
def nanmin (times : List (Epoch K)) : Epoch K := times.foldr Epoch.fmin Epoch.nan

/-- `np.nanmax` -/
def nanmax (times : List (Epoch K)) : Epoch K := times.foldr Epoch.fmax Epoch.nan

def timesArray (times : Option (List (Epoch K))) (n : Nat) : Py (List (Epoch K)) :=
  match times with
  | none => .ok (List.replicate n .nan)
  | some arr => do
      guardNot (decide (arr.length ≠ n)) .valueError
        (txt "times has length " ++ ofNat arr.length ++ txt " but expected " ++ ofNat n)
      return arr

/-- `times[i]` -/
def timeAt (times : List (Epoch K)) (i : Nat) : Epoch K := times.getD i .nan

/-- The purge by indices: the neighbours of each test index. -/
def indexMask (n : Nat) : List Nat → List Bool → List Bool
  | [], mask => mask
  | i :: testIdx, mask =>
      let before := if 0 < i then mask.set (i - 1) true else mask
      indexMask n testIdx (if i + 1 < n then before.set (i + 1) true else before)

/-- `_purge_mask_for_test_indices` -/
def purgeMask (times : List (Epoch K)) (testIdx : List Nat) (purgeSeconds embargoSeconds : K) : List Bool :=
  let mask := List.replicate times.length false
  if testIdx.isEmpty then mask
  else
    let testTimes := testIdx.map (timeAt times)
    if !testTimes.any Epoch.isFinite then indexMask times.length testIdx mask
    else
      let purgeLo := (nanmin testTimes).plus (-purgeSeconds)
      let purgeHi := ((nanmax testTimes).plus purgeSeconds).plus embargoSeconds
      times.map fun t => t.isFinite && purgeLo.le t && t.le purgeHi

/-- `np.where(mask)[0]` -/
def whereTrue (mask : List Bool) : List Nat := (List.range mask.length).filter fun i => mask.getD i false

/-- Everything that is neither tested nor purged. -/
def trainIndices (n : Nat) (testIdx purged : List Nat) : List Nat :=
  (List.range n).filter fun i => decide (i ∉ testIdx) && decide (i ∉ purged)

/-- The samples in the order of their times, where there are any. -/
def sampleOrder (times : List (Epoch K)) : List Nat :=
  if times.any Epoch.isFinite then sortedBy (fun i => (timeAt times i).place) (List.range times.length)
  else List.range times.length

/-- The samples that `np.array_split` puts together. -/
def groupIndices (times : List (Epoch K)) (count : Nat) : List (List Nat) :=
  (arraySplit (List.range times.length) count).map fun edges =>
    edges.map fun place => (sampleOrder times).getD place 0

/-! ## `PurgedKFold` -/

structure PurgedFold (K : Type) where
  foldId : Nat
  trainIndices : List Nat
  testIndices : List Nat
  purgedIndices : List Nat
  embargoedIndices : List Nat
  testTimeRange : Epoch K × Epoch K
  nTrain : Nat
  nTest : Nat
  deriving DecidableEq

structure PurgedKFold (K : Type) [Field K] [LinearOrder K] where
  nSplits : Nat
  purgeTdSeconds : K
  embargoTdSeconds : K
  two_le : 2 ≤ nSplits
  purge_nonneg : 0 ≤ purgeTdSeconds
  embargo_nonneg : 0 ≤ embargoTdSeconds

/-- The constructor. -/
def PurgedKFold.init (nSplits : Int) (purgeTdSeconds embargoTdSeconds : K) : Py (PurgedKFold K) :=
  if splits : 2 ≤ nSplits then
    if purge : 0 ≤ purgeTdSeconds then
      if embargo : 0 ≤ embargoTdSeconds then
        .ok ⟨nSplits.toNat, purgeTdSeconds, embargoTdSeconds, by omega, purge, embargo⟩
      else raise .valueError (txt "embargo_td_seconds must be >= 0")
    else raise .valueError (txt "purge_td_seconds must be >= 0")
  else raise .valueError (txt "n_splits must be >= 2")

/-- One fold. -/
def PurgedKFold.fold (cv : PurgedKFold K) (times : List (Epoch K)) (foldId : Nat) (testIdx : List Nat) :
    PurgedFold K :=
  let purged := whereTrue (purgeMask times testIdx cv.purgeTdSeconds cv.embargoTdSeconds)
  let train := trainIndices times.length testIdx purged
  let testTimes := testIdx.map (timeAt times)
  { foldId := foldId
    trainIndices := train
    testIndices := testIdx
    purgedIndices := purged.filter fun i => decide (i ∉ testIdx)
    embargoedIndices := []
    testTimeRange :=
      if testTimes.any Epoch.isFinite then (nanmin testTimes, nanmax testTimes) else (.nan, .nan)
    nTrain := train.length
    nTest := testIdx.length }

def PurgedKFold.split (cv : PurgedKFold K) (n : Nat) (times : Option (List (Epoch K))) :
    Py (List (PurgedFold K)) := do
  guardNot (decide (n < cv.nSplits)) .valueError
    (txt "n_samples=" ++ ofNat n ++ txt " < n_splits=" ++ ofNat cv.nSplits)
  let timesArr ← timesArray times n
  return (groupIndices timesArr cv.nSplits).zipIdx.map fun group => cv.fold timesArr group.2 group.1

/-! ## `CombinatorialPurgedCV` -/

structure CPCVPath where
  pathId : Nat
  trainIndices : List Nat
  testIndices : List Nat
  testGroups : List Nat
  nTrain : Nat
  nTest : Nat
  deriving DecidableEq

structure CombinatorialPurgedCV (K : Type) [Field K] [LinearOrder K] where
  nGroups : Nat
  nTestGroups : Nat
  purgeTdSeconds : K
  embargoTdSeconds : K
  two_le : 2 ≤ nGroups
  some : 1 ≤ nTestGroups
  notAll : nTestGroups < nGroups
  purge_nonneg : 0 ≤ purgeTdSeconds
  embargo_nonneg : 0 ≤ embargoTdSeconds

/-- The constructor. -/
def CombinatorialPurgedCV.init (nGroups nTestGroups : Int) (purgeTdSeconds embargoTdSeconds : K) :
    Py (CombinatorialPurgedCV K) :=
  if groups : 2 ≤ nGroups then
    if testGroups : 1 ≤ nTestGroups ∧ nTestGroups < nGroups then
      if purge : 0 ≤ purgeTdSeconds then
        if embargo : 0 ≤ embargoTdSeconds then
          .ok ⟨nGroups.toNat, nTestGroups.toNat, purgeTdSeconds, embargoTdSeconds, by omega, by omega, by omega,
            purge, embargo⟩
        else raise .valueError (txt "embargo_td_seconds must be >= 0")
      else raise .valueError (txt "purge_td_seconds must be >= 0")
    else raise .valueError (txt "n_test_groups must be in [1, n_groups-1]")
  else raise .valueError (txt "n_groups must be >= 2")

/-- `n_paths` -/
def CombinatorialPurgedCV.nPaths (cv : CombinatorialPurgedCV K) : Nat := cv.nGroups.choose cv.nTestGroups

/-- One path: the groups of a combination together. -/
def CombinatorialPurgedCV.path (cv : CombinatorialPurgedCV K) (times : List (Epoch K)) (pathId : Nat)
    (testGroupCombo : List Nat) : CPCVPath :=
  let testIdx := sortedBy id (testGroupCombo.flatMap fun g => (groupIndices times cv.nGroups).getD g []).dedup
  let purged := whereTrue (purgeMask times testIdx cv.purgeTdSeconds cv.embargoTdSeconds)
  let train := trainIndices times.length testIdx purged
  { pathId := pathId
    trainIndices := train
    testIndices := testIdx
    testGroups := testGroupCombo
    nTrain := train.length
    nTest := testIdx.length }

def CombinatorialPurgedCV.split (cv : CombinatorialPurgedCV K) (n : Nat) (times : Option (List (Epoch K))) :
    Py (List CPCVPath) := do
  guardNot (decide (n < cv.nGroups)) .valueError
    (txt "n_samples=" ++ ofNat n ++ txt " < n_groups=" ++ ofNat cv.nGroups)
  let timesArr ← timesArray times n
  return (combinations (List.range cv.nGroups) cv.nTestGroups).zipIdx.map fun combo =>
    cv.path timesArr combo.2 combo.1

end Senex.PurgedCv
