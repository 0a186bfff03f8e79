import Mathlib.Data.List.Dedup
import Senex.Foundation.Python
import Senex.Foundation.RankSum
import Senex.Foundation.Sorting

/-! # The two areas under the curve

`_default_score_fn` of the purged cross-validation and `roc_auc` of the challenger lab, in exact
arithmetic.  `roc_auc` ranks upwards with average ranks and is the fraction of the pairs that
are ranked rightly (`rocAuc_eq`).  `_default_score_fn` ranks downwards, each tie by position,
and so counts the pairs that are ranked wrongly (`scoreAuc_eq`).
-/

namespace Senex.Auc

open Text RankSum

/-! ## `challengers.common` -/

/-- `int(value)` of a float. -/
def truncate (value : ℚ) : Int := value.num.tdiv value.den

def binaryLabel (value : ℚ) : Py Int :=
  let result := truncate value
  if (result : ℚ) ≠ value ∨ ¬(result = 0 ∨ result = 1) then
    raise .challengerContractError (txt "label must be 0 or 1")
  else .ok result

def prob (value : ℚ) (name : Text) : Py ℚ :=
  if 0 ≤ value ∧ value ≤ 1 then .ok value
  else raise .challengerContractError (name ++ txt " must be finite in [0,1]")

/-- A pair of label and probability with its place in the input. -/
abbrev Item := (Int × ℚ) × Nat

/-- The inner loop: where the run of one probability ends. -/
def runEnd (ordered : List Item) (probability : ℚ) (stop : Nat) : Nat :=
  match _here : ordered[stop]? with
  | some item => if item.1.2 = probability then runEnd ordered probability (stop + 1) else stop
  | none => stop
termination_by ordered.length - stop
decreasing_by
  have inside : stop < ordered.length := (List.getElem?_eq_some_iff.mp _here).1
  omega

theorem le_runEnd (ordered : List Item) (probability : ℚ) (stop : Nat) :
    stop ≤ runEnd ordered probability stop := by
  fun_induction runEnd ordered probability stop with
  | case1 stop item here same ih => omega
  | case2 | case3 => exact le_rfl

/-- The outer loop: each run gets its average rank. -/
def assignRanks (ordered : List Item) (cursor : Nat) (ranks : List ℚ) : List ℚ :=
  match _here : ordered[cursor]? with
  | none => ranks
  | some first =>
      let stop := runEnd ordered first.1.2 (cursor + 1)
      let averageRank : ℚ := ((cursor + 1) + stop) / 2
      let run := (ordered.drop cursor).take (stop - cursor)
      assignRanks ordered stop (scatter (run.map fun item => (item.2, averageRank)) ranks)
termination_by ordered.length - cursor
decreasing_by
  have inside : cursor < ordered.length := (List.getElem?_eq_some_iff.mp _here).1
  have forward : cursor + 1 ≤ runEnd ordered first.1.2 (cursor + 1) := le_runEnd ..
  omega

def rocAuc (labels probabilities : List ℚ) : Py (Option ℚ) := do
  guardNot (decide (labels.length ≠ probabilities.length) || labels.isEmpty) .challengerContractError
    (txt "AUC inputs must be non-empty and aligned")
  let pairs ← (labels.zip probabilities).mapM fun given => do
    return (← binaryLabel given.1, ← prob given.2 (txt "probability"))
  let positives := (pairs.map Prod.fst).sum
  let negatives := pairs.length - positives
  if positives = 0 ∨ negatives = 0 then return none
  let ordered := sortedBy (fun item : Item => toLex (item.1.2, item.2)) pairs.zipIdx
  let ranks := assignRanks ordered 0 (List.replicate ordered.length 0)
  let positiveRankSum := (((ranks.zip pairs).filter fun entry => entry.2.1 = 1).map Prod.fst).sum
  return some ((positiveRankSum - positives * (positives + 1) / 2) / (positives * negatives))

/-! ## `purged_cv` -/

/-- `np.argsort(keys, kind="stable")` -/
def argsort (keys : List ℚ) : List Nat := (sortedBy (fun entry => entry.1) keys.zipIdx).map Prod.snd

def mean (values : List ℚ) : ℚ := values.sum / values.length

/-- The rank-based AUC, where both classes are there. -/
def scoreAuc (yTrueInt : List Int) (yPred : List ℚ) : Option ℚ :=
  let n := yTrueInt.length
  if (yTrueInt.dedup).length = 2 then
    let order := argsort (yPred.map (- ·))
    let ranks := scatter (order.zip ((List.range n).map fun place : Nat => (place : ℚ) + 1)) (List.replicate n 0)
    let nPos := yTrueInt.count 1
    let nNeg := yTrueInt.count 0
    if 0 < nPos ∧ 0 < nNeg then
      let sumPosRanks := (((ranks.zip yTrueInt).filter fun entry => entry.2 = 1).map Prod.fst).sum
      some ((sumPosRanks - nPos * (nPos + 1) / 2) / (nPos * nNeg))
    else none
  else none

/-- The metrics of two arrays of one length. -/
def defaultScoreFn (yTrue yPred : List ℚ) : List (Text × ℚ) :=
  if yTrue.isEmpty then []
  else
    let predLabel : List Int := yPred.map fun p => if 1 / 2 ≤ p then 1 else 0
    let yTrueInt := yTrue.map truncate
    let out : List (Text × ℚ) :=
      [(txt "accuracy", mean ((predLabel.zip yTrueInt).map fun e => if e.1 = e.2 then 1 else 0)),
       (txt "brier", mean ((yPred.zip yTrue).map fun e => (e.1 - e.2) ^ 2))]
    match scoreAuc yTrueInt yPred with
    | some auc => out ++ [(txt "auc", auc)]
    | none => out

/-! ## The pairs -/

/-- The observations with their places. -/
def rows (labels scores : List ℚ) : List ((ℚ × ℚ) × Nat) := (labels.zip scores).zipIdx

/-- The pairs of a positive and a negative. -/
def pairs (labels scores : List ℚ) : List (((ℚ × ℚ) × Nat) × ((ℚ × ℚ) × Nat)) :=
  ((rows labels scores).filter fun row => row.1.1 = 1) ×ˢ ((rows labels scores).filter fun row => row.1.1 = 0)

/-- The pairs whose positive has the higher score. -/
def right (labels scores : List ℚ) : Nat :=
  (pairs labels scores).countP fun pair => pair.2.1.2 < pair.1.1.2

/-- The pairs whose negative has the higher score. -/
def wrong (labels scores : List ℚ) : Nat :=
  (pairs labels scores).countP fun pair => pair.1.1.2 < pair.2.1.2

/-- The ties whose negative comes first in the lists. -/
def negativeFirst (labels scores : List ℚ) : Nat :=
  (pairs labels scores).countP fun pair => pair.2.1.2 = pair.1.1.2 ∧ pair.2.2 < pair.1.2

/-- The ties whose positive comes first. -/
def positiveFirst (labels scores : List ℚ) : Nat :=
  (pairs labels scores).countP fun pair => pair.2.1.2 = pair.1.1.2 ∧ pair.1.2 < pair.2.2

/-- The fraction of the pairs in which the positive has the higher score, a tie as one half. -/
def pairFraction (labels scores : List ℚ) : ℚ :=
  (right labels scores +
      ((pairs labels scores).countP fun pair => pair.2.1.2 = pair.1.1.2 : ℚ) / 2) /
    (pairs labels scores).length

/-! ## The loops of `roc_auc` -/

theorem runEnd_le {ordered : List Item} {probability : ℚ} {stop : Nat} (inside : stop ≤ ordered.length) :
    runEnd ordered probability stop ≤ ordered.length := by
  fun_induction runEnd ordered probability stop with
  | case1 stop item here same ih => exact ih (List.getElem?_eq_some_iff.mp here).1
  | case2 | case3 => exact inside

theorem score_of_lt_runEnd {ordered : List Item} {probability : ℚ} {stop i : Nat} {item : Item}
    (after : stop ≤ i) (before : i < runEnd ordered probability stop) (here : ordered[i]? = some item) :
    item.1.2 = probability := by
  fun_induction runEnd ordered probability stop with
  | case1 stop first found same ih =>
      rcases after.lt_or_eq with later | rfl
      · exact ih later before
      · rw [here] at found
        exact (Option.some.inj found) ▸ same
  | case2 | case3 => omega

theorem score_runEnd_ne {ordered : List Item} {probability : ℚ} {stop : Nat} {item : Item}
    (here : ordered[runEnd ordered probability stop]? = some item) : item.1.2 ≠ probability := by
  fun_induction runEnd ordered probability stop with
  | case1 stop first found same ih => exact ih here
  | case2 stop first found different =>
      rw [here] at found
      exact (Option.some.inj found) ▸ different
  | case3 stop missing =>
      rw [missing] at here
      cases here

/-- The scores rise from one place of the loop to the next. -/
def Boundary (ordered : List Item) (cursor : Nat) : Prop :=
  ∀ x ∈ ordered.take cursor, ∀ y ∈ ordered.drop cursor, x.1.2 < y.1.2

section

variable {ordered : List Item} (sorted : ordered.Pairwise fun a b => a.1.2 ≤ b.1.2)
include sorted

theorem score_le {i j : Nat} {x y : Item} (first : ordered[i]? = some x) (second : ordered[j]? = some y)
    (le : i ≤ j) : x.1.2 ≤ y.1.2 := by
  obtain ⟨inside, rfl⟩ := List.getElem?_eq_some_iff.mp first
  obtain ⟨inside', rfl⟩ := List.getElem?_eq_some_iff.mp second
  rcases le.lt_or_eq with less | rfl
  · exact List.pairwise_iff_getElem.mp sorted i j inside inside' less
  · exact le_rfl

/-- After its run a probability is passed. -/
theorem lt_of_mem_drop_runEnd {first : Item} {cursor : Nat} (here : ordered[cursor]? = some first) {y : Item}
    (member : y ∈ ordered.drop (runEnd ordered first.1.2 (cursor + 1))) : first.1.2 < y.1.2 := by
  obtain ⟨i, below, rfl⟩ := List.mem_drop_iff_getElem.mp member
  have forward : cursor + 1 ≤ runEnd ordered first.1.2 (cursor + 1) := le_runEnd ..
  have stop := List.getElem?_eq_getElem (show runEnd ordered first.1.2 (cursor + 1) < ordered.length by omega)
  have next := score_le sorted here stop (by omega)
  refine lt_of_lt_of_le (lt_of_le_of_ne next (Ne.symm (score_runEnd_ne stop))) ?_
  exact score_le sorted stop (List.getElem?_eq_getElem (by omega)) (Nat.le_add_right _ i)

theorem boundary_runEnd {first : Item} {cursor : Nat} (here : ordered[cursor]? = some first) :
    Boundary ordered (runEnd ordered first.1.2 (cursor + 1)) := by
  intro x before y after
  have above : first.1.2 < y.1.2 := lt_of_mem_drop_runEnd sorted here after
  obtain ⟨i, below, rfl⟩ := List.mem_take_iff_getElem.mp before
  have found := List.getElem?_eq_getElem (show i < ordered.length by omega)
  refine lt_of_le_of_lt ?_ above
  rcases Nat.lt_or_ge cursor i with later | earlier
  · exact (score_of_lt_runEnd (show cursor + 1 ≤ i from later) (by omega) found).le
  · exact score_le sorted found here earlier

/-- The loop gives every item the rank of its score. -/
theorem assignRanks_eq {cursor : Nat} (boundary : Boundary ordered cursor) (ranks : List ℚ) :
    assignRanks ordered cursor ranks =
      scatter ((ordered.drop cursor).map fun item =>
        (item.2, rank (ordered.map fun item => item.1.2) item.1.2)) ranks := by
  fun_induction assignRanks ordered cursor ranks with
  | case1 cursor ranks missing =>
      rw [List.drop_eq_nil_of_le (List.getElem?_eq_none_iff.mp missing)]
      rfl
  | case2 cursor ranks first here stop averageRank run ih =>
      obtain ⟨inside, found⟩ := List.getElem?_eq_some_iff.mp here
      have forward : cursor + 1 ≤ stop := le_runEnd ..
      have inside' : stop ≤ ordered.length := runEnd_le inside
      have rest : ordered.drop cursor = run ++ ordered.drop stop := by
        have after : ordered.drop stop = (ordered.drop cursor).drop (stop - cursor) := by
          rw [List.drop_drop, Nat.add_sub_cancel' (by omega)]
        rw [after, List.take_append_drop]
      have equal : ∀ x ∈ run, x.1.2 = first.1.2 := by
        intro x member
        obtain ⟨i, below, rfl⟩ := List.mem_take_iff_getElem.mp member
        rw [List.getElem_drop]
        rcases Nat.eq_zero_or_pos i with rfl | positive
        · rw [← found]
          rfl
        · exact score_of_lt_runEnd (show cursor + 1 ≤ cursor + i by omega) (by omega)
            (List.getElem?_eq_getElem (by grind))
      have below : ∀ x ∈ ordered.take cursor, x.1.2 < first.1.2 := fun x member =>
        boundary x member first (List.mem_drop_iff_getElem.mpr ⟨0, by omega, by simpa using found⟩)
      have average : rank (ordered.map fun item => item.1.2) first.1.2 = averageRank := by
        have split : ordered = ordered.take cursor ++ run ++ ordered.drop stop := by
          rw [List.append_assoc, ← rest, List.take_append_drop]
        have middle := rank_run (List.forall_mem_map.mpr below) (List.forall_mem_map.mpr equal)
          (List.forall_mem_map.mpr fun y member => lt_of_mem_drop_runEnd sorted here member)
        rw [← List.map_append, ← List.map_append, ← split] at middle
        have before : (ordered.take cursor).length = cursor := by
          rw [List.length_take]
          omega
        have width : run.length = stop - cursor := by grind
        rw [middle, List.length_map, List.length_map, before, width, Nat.cast_sub (by omega)]
        ring
      rw [ih (boundary_runEnd sorted here), rest, List.map_append]
      simp only [scatter, List.foldl_append]
      congr 2
      refine List.map_congr_left fun item member => ?_
      rw [equal item member, average]

end

/-! ## What the two functions return -/

theorem mapM_ok {α β : Type} {f : α → Py β} {g : α → β} {items : List α} (total : ∀ a ∈ items, f a = .ok (g a)) :
    items.mapM f = .ok (items.map g) := by
  induction items with
  | nil => rfl
  | cons a items ih =>
      rw [List.mapM_cons, total a (.head _), ih fun b member => total b (.tail _ member)]
      rfl

theorem exists_of_mapM {α β : Type} {f : α → Py β} {items : List α} {results : List β}
    (ok : items.mapM f = .ok results) {a : α} (member : a ∈ items) : ∃ b, f a = .ok b := by
  induction items generalizing results with
  | nil => cases member
  | cons first items ih =>
      rw [List.mapM_cons] at ok
      obtain ⟨b, here, ok⟩ := Py.bind_eq_ok.mp ok
      obtain ⟨rest, there, -⟩ := Py.bind_eq_ok.mp ok
      rcases List.mem_cons.mp member with rfl | inside
      · exact ⟨b, here⟩
      · exact ih there inside

theorem binaryLabel_binary {label : ℚ} (binary : label = 0 ∨ label = 1) :
    binaryLabel label = .ok (truncate label) := by
  rcases binary with rfl | rfl <;> rfl

/-- The observations with label 1. -/
def positives (labels scores : List ℚ) : List ((ℚ × ℚ) × Nat) :=
  (rows labels scores).filter fun row => row.1.1 = 1

/-- The observations with label 0. -/
def negatives (labels scores : List ℚ) : List ((ℚ × ℚ) × Nat) :=
  (rows labels scores).filter fun row => row.1.1 = 0

section

variable {labels scores : List ℚ} (aligned : labels.length = scores.length)
  (binary : ∀ label ∈ labels, label = 0 ∨ label = 1)

theorem label_mem {row : (ℚ × ℚ) × Nat} (member : row ∈ rows labels scores) : row.1.1 ∈ labels := by
  have inside : row.1 ∈ labels.zip scores := List.fst_mem_of_mem_zipIdx member
  exact (List.of_mem_zip inside).1

include aligned in
theorem rows_map_label : (rows labels scores).map (fun row => row.1.1) = labels := by
  have labels_zip : ((rows labels scores).map Prod.fst).map Prod.fst = labels := by
    rw [rows, List.zipIdx_map_fst, List.map_fst_zip aligned.le]
  rw [List.map_map] at labels_zip
  exact labels_zip

include aligned in
theorem exists_row {label : ℚ} (member : label ∈ labels) : ∃ row ∈ rows labels scores, row.1.1 = label := by
  rw [← rows_map_label aligned] at member
  exact List.mem_map.mp member

include aligned in
theorem positives_ne_nil (positive : 1 ∈ labels) : positives labels scores ≠ [] := by
  obtain ⟨row, member, one⟩ := exists_row aligned positive
  exact List.ne_nil_of_mem (List.mem_filter.mpr ⟨member, by simpa using one⟩)

include aligned in
theorem negatives_ne_nil (negative : 0 ∈ labels) : negatives labels scores ≠ [] := by
  obtain ⟨row, member, zero⟩ := exists_row aligned negative
  exact List.ne_nil_of_mem (List.mem_filter.mpr ⟨member, by simpa using zero⟩)

include aligned in
theorem rows_map_score : (rows labels scores).map (fun row => (row.1.2, row.2)) = scores.zipIdx := by
  have scores_zip : (labels.zip scores).map Prod.snd = scores := List.map_snd_zip aligned.ge
  conv_rhs => rw [← scores_zip, List.zipIdx_map]
  rfl

include binary in
theorem rows_perm : (positives labels scores ++ negatives labels scores).Perm (rows labels scores) := by
  have rest : negatives labels scores = (rows labels scores).filter fun row => !decide (row.1.1 = 1) := by
    refine List.filter_congr fun row member => ?_
    rcases binary _ (label_mem member) with zero | one
    · simp [zero]
    · simp [one]
  rw [rest]
  exact List.filter_append_perm _ _

include binary in
/-- The rank sum of the positives, for any key of the observations. -/
theorem rankSum_rows {κ : Type} [LinearOrder κ] (key : (ℚ × ℚ) × Nat → κ) :
    ((positives labels scores).map fun row => rank ((rows labels scores).map key) (key row)).sum =
      ((positives labels scores).length * ((positives labels scores).length + 1) : ℚ) / 2 +
        crossWins ((positives labels scores).map key) ((negatives labels scores).map key) := by
  have ranks := rankSum_eq ((positives labels scores).map key) ((negatives labels scores).map key)
  rw [List.map_map, List.length_map, ← List.map_append] at ranks
  rw [← ranks]
  congr 1
  refine List.map_congr_left fun row _ => ?_
  exact rank_perm ((rows_perm binary).map key).symm _

include aligned in
theorem count_eq_filter (label : Int) :
    (labels.map truncate).count label = ((rows labels scores).filter fun row => truncate row.1.1 = label).length := by
  conv_lhs => rw [← rows_map_label aligned, List.map_map]
  rw [List.count_eq_countP, List.countP_map, List.countP_eq_length_filter]
  congr 1

include binary in
theorem filter_positives :
    ((rows labels scores).filter fun row => truncate row.1.1 = 1) = positives labels scores := by
  refine List.filter_congr fun row member => ?_
  rcases binary _ (label_mem member) with zero | one
  · simp [zero, truncate]
  · simp [one, truncate]

include binary in
theorem filter_negatives :
    ((rows labels scores).filter fun row => truncate row.1.1 = 0) = negatives labels scores := by
  refine List.filter_congr fun row member => ?_
  rcases binary _ (label_mem member) with zero | one
  · simp [zero, truncate]
  · simp [one, truncate]

/-- The key by which `_default_score_fn` ranks: the higher score first, then the place. -/
def downward (row : (ℚ × ℚ) × Nat) : ℚ ×ₗ Nat := toLex (-row.1.2, row.2)

/-- The ranks that the arrays of `_default_score_fn` hold. -/
theorem scattered_ranks (scores : List ℚ) :
    scatter ((argsort (scores.map (- ·))).zip
        ((List.range scores.length).map fun place : Nat => (place : ℚ) + 1)) (List.replicate scores.length 0) =
      (scores.map (- ·)).zipIdx.map fun entry =>
        rank ((scores.map (- ·)).zipIdx.map toLex) (toLex entry) := by
  have sorted := List.pairwise_map.mpr (pairwise_sortedBy_zipIdx (fun x : ℚ => x) (scores.map (- ·)))
  have counted := ranks_of_sorted sorted
  have same := sortedBy_perm (fun entry : ℚ × Nat => entry.1) (scores.map (- ·)).zipIdx
  rw [List.length_map, length_sortedBy, List.length_zipIdx, List.length_map] at counted
  have length : (List.replicate scores.length (0 : ℚ)).length = (scores.map (- ·)).length := by simp
  rw [← counted, argsort, List.map_map, List.zip_map', ← scatter_eq_map same _ length]
  congr 1
  refine List.map_congr_left fun entry _ => Prod.ext rfl ?_
  exact rank_perm (same.map toLex) _

/-- The sum of the ranks of some rows, out of the arrays of ranks and of tags. -/
theorem sum_ranks {α β : Type} (keep : β → Bool) (tag : α → β) (value : α → ℚ) (all : List α) :
    ((((all.map value).zip (all.map tag)).filter fun entry => keep entry.2).map Prod.fst).sum =
      ((all.filter fun row => keep (tag row)).map value).sum := by
  rw [List.zip_map', List.filter_map, List.map_map]
  rfl

include aligned binary in
theorem scoreAuc_eq (positive : 1 ∈ labels) (negative : 0 ∈ labels) :
    scoreAuc (labels.map truncate) scores =
      some (crossWins ((positives labels scores).map downward) ((negatives labels scores).map downward) /
        ((positives labels scores).length * (negatives labels scores).length)) := by
  have integers : labels.map truncate = (rows labels scores).map fun row => truncate row.1.1 := by
    conv_lhs => rw [← rows_map_label aligned, List.map_map]
    rfl
  have one : (labels.map truncate).count 1 = (positives labels scores).length := by
    rw [count_eq_filter aligned, filter_positives binary]
  have zero : (labels.map truncate).count 0 = (negatives labels scores).length := by
    rw [count_eq_filter aligned, filter_negatives binary]
  have classes : (labels.map truncate).dedup.length = 2 := by
    have same : (labels.map truncate).dedup.Perm [0, 1] := by
      refine (List.perm_ext_iff_of_nodup (List.nodup_dedup _) (by decide)).mpr fun label => ?_
      rw [List.mem_dedup, List.mem_map]
      constructor
      · rintro ⟨given, member, rfl⟩
        rcases binary given member with rfl | rfl <;> decide
      · intro member
        rcases List.mem_pair.mp member with rfl | rfl
        · exact ⟨0, negative, rfl⟩
        · exact ⟨1, positive, rfl⟩
    exact same.length_eq
  have order : (scores.map (- ·)).zipIdx = (rows labels scores).map fun row => (-row.1.2, row.2) := by
    rw [List.zipIdx_map, ← rows_map_score aligned, List.map_map]
    rfl
  have total := @rankSum_rows _ scores binary _ _ downward
  have full : 0 < (positives labels scores).length ∧ 0 < (negatives labels scores).length :=
    ⟨List.length_pos_of_ne_nil (positives_ne_nil aligned positive),
      List.length_pos_of_ne_nil (negatives_ne_nil aligned negative)⟩
  simp only [scoreAuc, classes, if_true, one, zero, if_pos full, List.length_map, aligned]
  rw [scattered_ranks, order, integers, List.map_map, List.map_map, sum_ranks (fun label : Int => decide (label = 1)),
    filter_positives binary]
  have sum : ((positives labels scores).map ((fun entry => rank ((rows labels scores).map
      (toLex ∘ fun row => (-row.1.2, row.2))) (toLex entry)) ∘ fun row => (-row.1.2, row.2))).sum = _ := total
  rw [sum, add_sub_cancel_left]

include aligned in
/-- `roc_auc` takes probabilities only. -/
theorem bounded_of_rocAuc {result : Option ℚ} (ok : rocAuc labels scores = .ok result) :
    ∀ score ∈ scores, 0 ≤ score ∧ score ≤ 1 := by
  simp only [rocAuc, Py.bind_eq_ok] at ok
  obtain ⟨_, -, pairs, read, -⟩ := ok
  intro score member
  have inside : score ∈ (labels.zip scores).map Prod.snd := by rwa [List.map_snd_zip aligned.ge]
  obtain ⟨given, held, rfl⟩ := List.mem_map.mp inside
  obtain ⟨pair, one⟩ := exists_of_mapM read held
  simp only [Py.bind_eq_ok] at one
  obtain ⟨_, -, probability, bounded, -⟩ := one
  by_contra outside
  rw [prob, if_neg outside] at bounded
  cases bounded

include binary in
theorem sum_truncate : (labels.map truncate).sum = (labels.map truncate).count 1 := by
  induction labels with
  | nil => rfl
  | cons label labels ih =>
      rw [List.map_cons, List.sum_cons, ih fun l member => binary l (.tail _ member), List.count_cons]
      rcases binary label (.head _) with rfl | rfl
      · simp [truncate]
      · simp [truncate, add_comm]

/-- The ranks that the loops of `roc_auc` leave. -/
theorem assigned_ranks (pairs : List (Int × ℚ)) :
    assignRanks (sortedBy (fun item : Item => toLex (item.1.2, item.2)) pairs.zipIdx) 0
        (List.replicate pairs.length 0) =
      pairs.zipIdx.map fun item => rank (pairs.zipIdx.map fun item => item.1.2) item.1.2 := by
  have sorted : (sortedBy (fun item : Item => toLex (item.1.2, item.2)) pairs.zipIdx).Pairwise
      fun a b => a.1.2 ≤ b.1.2 := by
    refine (sorted_sortedBy _).imp fun {a b} le => ?_
    rcases Prod.Lex.toLex_le_toLex.mp le with less | same
    · exact less.le
    · exact same.1.le
  have same := sortedBy_perm (fun item : Item => toLex (item.1.2, item.2)) pairs.zipIdx
  rw [assignRanks_eq sorted (fun x member => by simp at member), List.drop_zero,
    scatter_eq_map same _ (List.length_replicate)]
  refine List.map_congr_left fun item _ => ?_
  exact rank_perm (same.map _) _

/-- The pairs that `roc_auc` reads. -/
def given (labels scores : List ℚ) : List (Int × ℚ) :=
  (labels.zip scores).map fun pair => (truncate pair.1, pair.2)

include aligned binary in
theorem given_positives : ((given labels scores).map Prod.fst).sum = (positives labels scores).length := by
  have first : (given labels scores).map Prod.fst = labels.map truncate := by
    conv_rhs => rw [← List.map_fst_zip aligned.le, List.map_map]
    rw [given, List.map_map]
    rfl
  rw [first, sum_truncate binary, count_eq_filter aligned, filter_positives binary]

include binary in
theorem given_negatives :
    ((given labels scores).length : Int) - (positives labels scores).length = (negatives labels scores).length := by
  have all := (@rows_perm _ scores binary).length_eq
  rw [List.length_append, rows, List.length_zipIdx] at all
  rw [given, List.length_map, ← all]
  omega

include binary in
theorem given_ranks :
    (((((given labels scores).zipIdx.map fun item => rank ((given labels scores).zipIdx.map fun item => item.1.2)
        item.1.2).zip (given labels scores)).filter fun entry => entry.2.1 = 1).map Prod.fst).sum =
      ((positives labels scores).length * ((positives labels scores).length + 1) : ℚ) / 2 +
        crossWins ((positives labels scores).map fun row => row.1.2)
          ((negatives labels scores).map fun row => row.1.2) := by
  have numbered : (given labels scores).zipIdx =
      (rows labels scores).map fun row => ((truncate row.1.1, row.1.2), row.2) := by
    rw [given, List.zipIdx_map]
    rfl
  have pairs : (given labels scores) = (rows labels scores).map fun row => (truncate row.1.1, row.1.2) := by
    conv_lhs => rw [← List.zipIdx_map_fst 0 (given labels scores), numbered, List.map_map]
    rfl
  rw [numbered, List.map_map, List.map_map]
  conv_lhs => rw [pairs, sum_ranks (fun pair : Int × ℚ => decide (pair.1 = 1)), filter_positives binary]
  exact rankSum_rows binary fun row => row.1.2

include aligned binary in
theorem rocAuc_eq (positive : 1 ∈ labels) (negative : 0 ∈ labels)
    (bounded : ∀ score ∈ scores, 0 ≤ score ∧ score ≤ 1) :
    rocAuc labels scores = .ok (some
      (crossWins ((positives labels scores).map fun row => row.1.2)
          ((negatives labels scores).map fun row => row.1.2) /
        ((positives labels scores).length * (negatives labels scores).length))) := by
  have read : ((labels.zip scores).mapM fun given => do
      return (← binaryLabel given.1, ← prob given.2 (txt "probability"))) =
      (.ok (given labels scores) : Py (List (Int × ℚ))) := by
    refine mapM_ok fun given member => ?_
    obtain ⟨label, score⟩ := List.of_mem_zip member
    rw [binaryLabel_binary (binary _ label), prob, if_pos (bounded _ score)]
    rfl
  have nonempty : labels.isEmpty = false := List.isEmpty_eq_false_iff.mpr (List.ne_nil_of_mem positive)
  rw [rocAuc, read]
  simp only [aligned, nonempty, ne_eq, not_true_eq_false, decide_false, Bool.or_self, guardNot_false, Py.ok_bind,
    length_sortedBy, List.length_zipIdx]
  rw [assigned_ranks, given_positives aligned binary, given_negatives binary, given_ranks binary,
    if_neg (by simpa using ⟨positives_ne_nil aligned positive, negatives_ne_nil aligned negative⟩)]
  simp

end

/-! ## Both areas and the fraction -/

section

variable {labels scores : List ℚ}

theorem pairFraction_eq :
    pairFraction labels scores =
      crossWins ((positives labels scores).map fun row => row.1.2)
          ((negatives labels scores).map fun row => row.1.2) /
        ((positives labels scores).length * (negatives labels scores).length) := by
  rw [crossWins_eq_count, pairFraction, right, pairs, List.length_product, Nat.cast_mul]
  rfl

theorem lookup_auc (aligned : labels.length = scores.length) (binary : ∀ label ∈ labels, label = 0 ∨ label = 1)
    (positive : 1 ∈ labels) (negative : 0 ∈ labels) :
    (defaultScoreFn labels scores).lookup (txt "auc") =
      some (crossWins ((positives labels scores).map downward) ((negatives labels scores).map downward) /
        ((positives labels scores).length * (negatives labels scores).length)) := by
  have nonempty : labels.isEmpty = false := List.isEmpty_eq_false_iff.mpr (List.ne_nil_of_mem positive)
  simp only [defaultScoreFn, nonempty, scoreAuc_eq aligned binary positive negative]
  rfl

/-- A positive and a negative stand at different places. -/
theorem place_ne {pair : ((ℚ × ℚ) × Nat) × ((ℚ × ℚ) × Nat)} (member : pair ∈ pairs labels scores) :
    pair.2.2 ≠ pair.1.2 := by
  intro same
  obtain ⟨⟨⟨p, s⟩, i⟩, ⟨⟨n, t⟩, j⟩⟩ := pair
  obtain ⟨first, second⟩ := List.pair_mem_product.mp member
  obtain ⟨held, one⟩ := List.mem_filter.mp first
  obtain ⟨held', zero⟩ := List.mem_filter.mp second
  have here := List.mk_mem_zipIdx_iff_getElem?.mp held
  have there := List.mk_mem_zipIdx_iff_getElem?.mp held'
  simp only [decide_eq_true_eq] at one zero same
  rw [same, here] at there
  grind

/-- Ranked downwards, the pairs whose negative stands above the positive are the ones that count. -/
theorem downward_wins :
    crossWins ((positives labels scores).map downward) ((negatives labels scores).map downward) =
      wrong labels scores + negativeFirst labels scores := by
  have none : ((pairs labels scores).countP fun pair => downward pair.2 = downward pair.1) = 0 := by
    refine List.countP_eq_zero.mpr fun pair member => ?_
    have apart : pair.2.2 ≠ pair.1.2 := place_ne member
    simp [downward, apart]
  have split : ((pairs labels scores).countP fun pair => downward pair.2 < downward pair.1) =
      wrong labels scores + negativeFirst labels scores := by
    apply countP_cases
    · intro pair _
      simp [downward, Prod.Lex.toLex_lt_toLex]
    · intro pair _ above tie
      exact above.ne tie.1.symm
  rw [crossWins_eq_count]
  change ((pairs labels scores).countP _ + (pairs labels scores).countP _ / 2 : ℚ) = _
  rw [none, split]
  push_cast
  ring

theorem ties_eq :
    ((pairs labels scores).countP fun pair => pair.2.1.2 = pair.1.1.2) =
      negativeFirst labels scores + positiveFirst labels scores := by
  apply countP_cases
  · intro pair member
    have apart : pair.2.2 ≠ pair.1.2 := place_ne member
    grind
  · intro pair _ first second
    exact first.2.not_gt second.2

end

/-- Both functions compute the fraction exactly for probabilities whose wrongly ranked pairs
    balance the rightly ranked ones, each with the ties that go their way. -/
theorem both_eq_pairFraction_iff (labels scores : List ℚ) (aligned : labels.length = scores.length)
    (binary : ∀ label ∈ labels, label = 0 ∨ label = 1) (positive : 1 ∈ labels) (negative : 0 ∈ labels) :
    ((defaultScoreFn labels scores).lookup (txt "auc") = some (pairFraction labels scores) ∧
        rocAuc labels scores = .ok (some (pairFraction labels scores))) ↔
      (∀ score ∈ scores, 0 ≤ score ∧ score ≤ 1) ∧
        2 * wrong labels scores + negativeFirst labels scores =
          2 * right labels scores + positiveFirst labels scores := by
  have balance : (defaultScoreFn labels scores).lookup (txt "auc") = some (pairFraction labels scores) ↔
      2 * wrong labels scores + negativeFirst labels scores =
        2 * right labels scores + positiveFirst labels scores := by
    have first := List.length_pos_of_ne_nil (positives_ne_nil aligned positive)
    have second := List.length_pos_of_ne_nil (negatives_ne_nil aligned negative)
    have size : ((pairs labels scores).length : ℚ) =
        (positives labels scores).length * (negatives labels scores).length := by
      rw [pairs, List.length_product, Nat.cast_mul]
      rfl
    have some_pairs : ((positives labels scores).length * (negatives labels scores).length : ℚ) ≠ 0 := by
      positivity
    rw [lookup_auc aligned binary positive negative, pairFraction, ties_eq, size, downward_wins, Option.some_inj,
      div_left_inj' some_pairs]
    constructor
    · intro equal
      have counts : (2 * wrong labels scores + negativeFirst labels scores : ℚ) =
          2 * right labels scores + positiveFirst labels scores := by
        push_cast at equal
        linarith
      exact_mod_cast counts
    · intro counts
      have equal : (2 * wrong labels scores + negativeFirst labels scores : ℚ) =
          2 * right labels scores + positiveFirst labels scores := by
        exact_mod_cast counts
      push_cast
      linarith
  constructor
  · rintro ⟨score, roc⟩
    exact ⟨bounded_of_rocAuc aligned roc, balance.mp score⟩
  · rintro ⟨bounded, counts⟩
    refine ⟨balance.mpr counts, ?_⟩
    rw [rocAuc_eq aligned binary positive negative bounded, pairFraction_eq]

theorem both_eq_pairFraction_balanced :
    (defaultScoreFn [1, 0, 1] [1 / 4, 1 / 2, 3 / 4]).lookup (txt "auc") =
        some (pairFraction [1, 0, 1] [1 / 4, 1 / 2, 3 / 4]) ∧
      rocAuc [1, 0, 1] [1 / 4, 1 / 2, 3 / 4] = .ok (some (pairFraction [1, 0, 1] [1 / 4, 1 / 2, 3 / 4])) :=
  (both_eq_pairFraction_iff [1, 0, 1] [1 / 4, 1 / 2, 3 / 4] rfl (by decide) (by decide) (by decide)).mpr
    ⟨by decide +kernel, by decide +kernel⟩

/-- A perfect classifier gets an area of zero from `_default_score_fn`. -/
theorem perfect_scores_zero :
    pairFraction [0, 1] [1 / 4, 3 / 4] = 1 ∧
      (defaultScoreFn [0, 1] [1 / 4, 3 / 4]).lookup (txt "auc") = some 0 ∧
      rocAuc [0, 1] [1 / 4, 3 / 4] = .ok (some 1) := by
  have fraction : pairFraction [0, 1] [1 / 4, 3 / 4] = 1 := by decide +kernel
  have aligned : ([0, 1] : List ℚ).length = ([1 / 4, 3 / 4] : List ℚ).length := rfl
  refine ⟨fraction, by decide +kernel, ?_⟩
  rw [rocAuc_eq aligned (by decide) (by decide) (by decide) (by decide +kernel), ← pairFraction_eq, fraction]

end Senex.Auc
