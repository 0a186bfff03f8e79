import Senex.Scoring.Cohort
import Senex.Settlement.Reconciler
import Mathlib

/-! # Spacing of the cohort

The cohort is taken by rounded seconds.  It is a largest one of rows an hour apart, whatever the order of
the rows, as long as the floats tell the instants of the rows apart: later rows are sorted behind
earlier ones, and an hour between two instants is an hour between their floats.
-/

namespace Senex.Scoring

open Text Settlement

/-- An hour or more between the instants, in microseconds. -/
def Spaced (a b : ScoreRow) : Prop := 3600000000 ≤ |a.instant - b.instant|

/-- Qualified rows of a kind. -/
def Drawn (kind : Set ScoreRow) (rows : List ScoreRow) : Prop := ∀ r ∈ rows, r ∈ kind ∧ r.Qualified

section
variable (localTimestamp : Civil → Double)

/-- The selected rows, each as its time, id and canonical text. -/
def cohortKeys (rows : List ScoreRow) : List RowKey :=
  (independent1hCohort localTimestamp rows).map (stableRowKey localTimestamp)

/-- What the cohort is for, of the lists of qualified rows of a kind. -/
structure Independent (kind : Set ScoreRow) : Prop where
  within : ∀ rows, Drawn kind rows → (independent1hCohort localTimestamp rows).Subperm rows
  apart : ∀ rows, Drawn kind rows → (independent1hCohort localTimestamp rows).Pairwise Spaced
  largest : ∀ rows (subset : List ScoreRow), Drawn kind rows → subset.Subperm rows → subset.Pairwise Spaced →
    subset.length ≤ (independent1hCohort localTimestamp rows).length
  unordered : ∀ rows rows', Drawn kind rows → rows.Perm rows' →
    cohortKeys localTimestamp rows = cohortKeys localTimestamp rows'
  stable : ∀ rows later, Drawn kind rows → Drawn kind later →
    (∀ r ∈ rows, ∀ l ∈ later, r.instant < l.instant) →
      cohortKeys localTimestamp rows <+: cohortKeys localTimestamp (rows ++ later)

/-- The floats tell the qualified rows of a kind apart. -/
structure ToldApart (kind : Set ScoreRow) : Prop where
  finite : ∀ a ∈ kind, a.Qualified → (tsSeconds localTimestamp a).isFinite = true
  later : ∀ a ∈ kind, ∀ b ∈ kind, a.Qualified → b.Qualified → a.instant < b.instant →
    stableRowKey localTimestamp a ≤ stableRowKey localTimestamp b
  hour : ∀ a ∈ kind, ∀ b ∈ kind, a.Qualified → b.Qualified →
    (Spaced a b ↔ follows (tsSeconds localTimestamp a) (tsSeconds localTimestamp b) = true ∨
      follows (tsSeconds localTimestamp b) (tsSeconds localTimestamp a) = true)

end

/-! ## Keys -/

/-- The seconds of a key. -/
def RowKey.seconds (k : RowKey) : ℚ := (ofLex k).1

/-- The gap of the cohort, on keys. -/
def keyFollows (k k' : RowKey) : Bool :=
  decide (k.seconds ≤ k'.seconds) && decide ((Double.round (k.seconds + 3600)).value ≤ k'.seconds)

theorem seconds_le {k k' : RowKey} (le : k ≤ k') : k.seconds ≤ k'.seconds := Prod.Lex.monotone_fst k k' le

theorem gap_keys : Greedy.Gap (fun k k' : RowKey => k.seconds ≤ k'.seconds) keyFollows where
  ahead follow := (by simpa [keyFollows] using follow : _ ∧ _).1
  wider := by
    intro a b c before follow
    simp only [keyFollows, Bool.and_eq_true, decide_eq_true_eq] at follow ⊢
    have earlier : (Double.round (a.seconds + 3600)).value ≤ (Double.round (b.seconds + 3600)).value := by
      apply Double.value_round_mono
      linarith
    exact ⟨before.trans follow.1, earlier.trans follow.2⟩

theorem finite_independentHorizonS : independentHorizonS.isFinite = true := by decide +kernel

theorem value_independentHorizonS : independentHorizonS.value = 3600 := by decide +kernel

/-- A number is rounded to itself. -/
theorem value_round_value {x : Double} (finite : x.isFinite = true) : (Double.round x.value).value = x.value := by
  have near := (Double.round_near finite (q := x.value) (δ := 0) (by simp) (by norm_num)).2
  have same := abs_nonpos_iff.mp near
  linarith

variable {localTimestamp : Civil → Double}

/-- On finite times the loop tests the gap of the keys. -/
theorem follows_eq {a b : ScoreRow} (left : (tsSeconds localTimestamp a).isFinite = true)
    (right : (tsSeconds localTimestamp b).isFinite = true) :
    follows (tsSeconds localTimestamp a) (tsSeconds localTimestamp b) =
      keyFollows (stableRowKey localTimestamp a) (stableRowKey localTimestamp b) := by
  generalize first : tsSeconds localTimestamp a = x at left
  generalize second : tsSeconds localTimestamp b = y at right
  have seconds_left : (stableRowKey localTimestamp a).seconds = x.value := by rw [← first]; rfl
  have seconds_right : (stableRowKey localTimestamp b).seconds = y.value := by rw [← second]; rfl
  obtain ⟨sum, shape⟩ := @Double.add_eq_round x independentHorizonS left finite_independentHorizonS
  have grows : x.value ≤ (Double.round (x.value + 3600)).value := by
    calc x.value = (Double.round x.value).value := (value_round_value left).symm
      _ ≤ (Double.round (x.value + 3600)).value := Double.value_round_mono (by linarith)
  rw [value_independentHorizonS] at sum shape
  rw [keyFollows, seconds_left, seconds_right, follows, Double.le, Double.isNan_eq_false right, sum]
  rw [Double.isNan_add left finite_independentHorizonS, Bool.eq_iff_iff]
  simp only [Bool.not_false, Bool.true_and, Bool.and_eq_true, decide_eq_true_eq]
  exact ⟨fun le => ⟨grows.trans le, le⟩, fun both => both.2⟩

/-- The gap on rows. -/
def rowFollows (localTimestamp : Civil → Double) (a b : ScoreRow) : Bool :=
  keyFollows (stableRowKey localTimestamp a) (stableRowKey localTimestamp b)

theorem gap_rows : Greedy.Gap
    (fun a b : ScoreRow => (stableRowKey localTimestamp a).seconds ≤ (stableRowKey localTimestamp b).seconds)
    (rowFollows localTimestamp) where
  ahead follow := gap_keys.ahead follow
  wider before follow := gap_keys.wider before follow

/-! ## The cohort is a greedy selection -/

theorem cohortLoop_eq {rows : List ScoreRow} (finite : ∀ r ∈ rows, (tsSeconds localTimestamp r).isFinite = true)
    (last : Option ScoreRow) (finite_last : ∀ l ∈ last, (tsSeconds localTimestamp l).isFinite = true) :
    cohortLoop localTimestamp (last.map (tsSeconds localTimestamp)) rows =
      Greedy.select (rowFollows localTimestamp) last rows := by
  induction rows generalizing last with
  | nil => rfl
  | cons row rows ih =>
      have first := finite row List.mem_cons_self
      have rest := fun r member => finite r (List.mem_cons_of_mem row member)
      have test : (last.map (tsSeconds localTimestamp)).all (follows · (tsSeconds localTimestamp row)) =
          last.all (rowFollows localTimestamp · row) := by
        cases last with
        | none => rfl
        | some l => exact follows_eq (finite_last l rfl) first
      rw [cohortLoop, Greedy.select, first, test]
      simp only [Bool.not_true, Bool.false_eq_true, if_false]
      split
      · refine congrArg (row :: ·) (ih rest (some row) ?_)
        intro l same
        rwa [← Option.some.inj same]
      · exact ih rest last finite_last

section
variable {rows : List ScoreRow} (finite : ∀ r ∈ rows, (tsSeconds localTimestamp r).isFinite = true)
include finite

theorem cohort_eq_select : independent1hCohort localTimestamp rows =
    Greedy.select (rowFollows localTimestamp) none (sortRows localTimestamp rows) :=
  cohortLoop_eq (fun r member => finite r (List.mem_mergeSort.mp member)) none (fun _ absent => nomatch absent)

/-- The keys of the cohort are selected from the keys in order. -/
theorem cohortKeys_eq : cohortKeys localTimestamp rows =
    Greedy.select keyFollows none ((rows.map (stableRowKey localTimestamp)).mergeSort (· ≤ ·)) := by
  have keys := @Greedy.map_select _ _ (rowFollows localTimestamp) (stableRowKey localTimestamp) keyFollows
    (fun _ _ => rfl) none (sortRows localTimestamp rows)
  rw [cohortKeys, cohort_eq_select finite, keys, Option.map_none, sortRows]
  exact congrArg (Greedy.select keyFollows none) (List.map_mergeSort fun _ _ _ _ => rfl)

end

/-! ## Where the floats tell the rows apart -/

theorem Drawn.finite {kind : Set ScoreRow} (told : ToldApart localTimestamp kind) {rows : List ScoreRow}
    (drawn : Drawn kind rows) : ∀ r ∈ rows, (tsSeconds localTimestamp r).isFinite = true :=
  fun r member => told.finite r (drawn r member).1 (drawn r member).2

theorem Drawn.of_subset {kind : Set ScoreRow} {rows subset : List ScoreRow} (drawn : Drawn kind rows)
    (inside : subset ⊆ rows) : Drawn kind subset := fun r member => drawn r (inside member)

theorem sortRows_perm (rows : List ScoreRow) : (sortRows localTimestamp rows).Perm rows := List.mergeSort_perm rows _

/-- Rows of a list, taken in order. -/
theorem cohort_subperm {rows : List ScoreRow} (finite : ∀ r ∈ rows, (tsSeconds localTimestamp r).isFinite = true) :
    (independent1hCohort localTimestamp rows).Subperm rows := by
  rw [cohort_eq_select finite]
  exact (Greedy.select_sublist none _).subperm.trans (sortRows_perm rows).subperm

theorem sorted_keys (keys : List RowKey) : (keys.mergeSort (· ≤ ·)).Pairwise (· ≤ ·) :=
  List.pairwise_mergeSort' (· ≤ ·) keys

/-- Of two rows in order that are an hour apart, the second one follows the first. -/
theorem keyFollows_of_le {k k' : RowKey} (le : k ≤ k') (apart : keyFollows k k' = true ∨ keyFollows k' k = true) :
    keyFollows k k' = true := by
  rcases apart with follow | follow
  · exact follow
  · -- Then both have the same seconds.
    have same : k.seconds = k'.seconds := le_antisymm (seconds_le le) (gap_keys.ahead follow)
    simpa [keyFollows, same] using follow

section
variable {kind : Set ScoreRow} (told : ToldApart localTimestamp kind)
include told

theorem spaced_iff {a b : ScoreRow} (left : a ∈ kind ∧ a.Qualified) (right : b ∈ kind ∧ b.Qualified) :
    Spaced a b ↔ rowFollows localTimestamp a b = true ∨ rowFollows localTimestamp b a = true := by
  have first := told.finite a left.1 left.2
  have second := told.finite b right.1 right.2
  rw [told.hour a left.1 b right.1 left.2 right.2, follows_eq first second, follows_eq second first]
  rfl

theorem apart_of_told {rows : List ScoreRow} (drawn : Drawn kind rows) :
    (independent1hCohort localTimestamp rows).Pairwise Spaced := by
  have inside := drawn.of_subset (cohort_subperm (drawn.finite told)).subset
  have gaps := Greedy.pairwise_select (@gap_rows localTimestamp) none (sortRows localTimestamp rows)
  rw [← cohort_eq_select (drawn.finite told)] at gaps
  refine gaps.imp_of_mem ?_
  intro a b first second follow
  exact (spaced_iff told (inside a first) (inside b second)).mpr (.inl follow)

theorem largest_of_told {rows subset : List ScoreRow} (drawn : Drawn kind rows) (inside : subset.Subperm rows)
    (spaced : subset.Pairwise Spaced) : subset.length ≤ (independent1hCohort localTimestamp rows).length := by
  have finite := drawn.finite told
  have drawn' := drawn.of_subset inside.subset
  -- The keys of the subset in order are a sublist of all keys in order.
  have sublist : (((subset.map (stableRowKey localTimestamp)).mergeSort (· ≤ ·))).Sublist
      ((rows.map (stableRowKey localTimestamp)).mergeSort (· ≤ ·)) := by
    refine List.sublist_of_subperm_of_pairwise ?_ (sorted_keys _) (sorted_keys _)
    obtain ⟨taken, perm, sub⟩ := inside
    have inside' : (subset.map (stableRowKey localTimestamp)).Subperm (rows.map (stableRowKey localTimestamp)) :=
      ⟨taken.map _, perm.map _, sub.map _⟩
    exact (List.mergeSort_perm _ _).subperm.trans (inside'.trans (List.mergeSort_perm _ _).symm.subperm)
  have gaps : ((subset.map (stableRowKey localTimestamp)).mergeSort (· ≤ ·)).Pairwise
      fun k k' => keyFollows k k' = true ∨ keyFollows k' k = true := by
    refine (List.Perm.pairwise_iff (fun either => either.symm) (List.mergeSort_perm _ _)).mpr ?_
    rw [List.pairwise_map]
    refine spaced.imp_of_mem ?_
    intro a b first second apart
    exact (spaced_iff told (drawn' a first) (drawn' b second)).mp apart
  have forward := (gaps.and (sorted_keys _)).imp fun both => keyFollows_of_le both.2 both.1
  have bound := @Greedy.length_le_select _ _ _ gap_keys none _ _ sublist ((sorted_keys _).imp seconds_le)
    (by simp) forward
  rw [← cohortKeys_eq finite, cohortKeys] at bound
  simpa using bound

theorem unordered_of_told {rows rows' : List ScoreRow} (drawn : Drawn kind rows) (perm : rows.Perm rows') :
    cohortKeys localTimestamp rows = cohortKeys localTimestamp rows' := by
  have drawn' := drawn.of_subset perm.symm.subset
  rw [cohortKeys_eq (drawn.finite told), cohortKeys_eq (drawn'.finite told)]
  have same : (rows.map (stableRowKey localTimestamp)).mergeSort (· ≤ ·) =
      (rows'.map (stableRowKey localTimestamp)).mergeSort (· ≤ ·) := by
    refine List.Perm.eq_of_pairwise' (sorted_keys _) (sorted_keys _) ?_
    exact (List.mergeSort_perm _ _).trans ((perm.map _).trans (List.mergeSort_perm _ _).symm)
  rw [same]

theorem stable_of_told {rows later : List ScoreRow} (drawn : Drawn kind rows) (drawn' : Drawn kind later)
    (after : ∀ r ∈ rows, ∀ l ∈ later, r.instant < l.instant) :
    cohortKeys localTimestamp rows <+: cohortKeys localTimestamp (rows ++ later) := by
  have drawn_all : Drawn kind (rows ++ later) := by
    intro r member
    exact (List.mem_append.mp member).elim (drawn r) (drawn' r)
  have split : ((rows ++ later).map (stableRowKey localTimestamp)).mergeSort (· ≤ ·) =
      (rows.map (stableRowKey localTimestamp)).mergeSort (· ≤ ·) ++
        (later.map (stableRowKey localTimestamp)).mergeSort (· ≤ ·) := by
    refine List.Perm.eq_of_pairwise' (sorted_keys _) ?_ ?_
    · refine List.pairwise_append.mpr ⟨sorted_keys _, sorted_keys _, ?_⟩
      intro k first k' second
      obtain ⟨r, member, rfl⟩ := List.mem_map.mp (List.mem_mergeSort.mp first)
      obtain ⟨l, member', rfl⟩ := List.mem_map.mp (List.mem_mergeSort.mp second)
      exact told.later r (drawn r member).1 l (drawn' l member').1 (drawn r member).2 (drawn' l member').2
        (after r member l member')
    · rw [List.map_append]
      exact (List.mergeSort_perm _ _).trans
        ((List.mergeSort_perm _ _).symm.append (List.mergeSort_perm _ _).symm)
  rw [cohortKeys_eq (drawn.finite told), cohortKeys_eq (drawn_all.finite told), split]
  exact Greedy.select_append none _ _

theorem independent_of_told : Independent localTimestamp kind where
  within _ drawn := cohort_subperm (drawn.finite told)
  apart _ drawn := apart_of_told told drawn
  largest _ _ drawn inside spaced := largest_of_told told drawn inside spaced
  unordered _ _ drawn perm := unordered_of_told told drawn perm
  stable _ _ drawn drawn' after := stable_of_told told drawn drawn' after

end

/-! ## Only there -/

theorem sortRows_of_le {a b : ScoreRow} (le : stableRowKey localTimestamp a ≤ stableRowKey localTimestamp b) :
    sortRows localTimestamp [a, b] = [a, b] :=
  List.mergeSort_of_pairwise (by simpa using le)

theorem sortRows_of_lt {a b : ScoreRow} (lt : stableRowKey localTimestamp b < stableRowKey localTimestamp a) :
    sortRows localTimestamp [a, b] = [b, a] := by
  have out : ¬ stableRowKey localTimestamp a ≤ stableRowKey localTimestamp b := not_le.mpr lt
  simp [sortRows, List.mergeSort, out]

theorem spaced_comm {a b : ScoreRow} : Spaced a b ↔ Spaced b a := by
  rw [Spaced, Spaced, abs_sub_comm]

theorem cohort_singleton {a : ScoreRow} (finite : (tsSeconds localTimestamp a).isFinite = true) :
    independent1hCohort localTimestamp [a] = [a] := by
  simp [independent1hCohort, sortRows, cohortLoop, finite]

/-- Two rows that are sorted as `x` and `y`: the second one is taken if it follows the first. -/
theorem cohort_pair {a b x y : ScoreRow} (left : (tsSeconds localTimestamp a).isFinite = true)
    (right : (tsSeconds localTimestamp b).isFinite = true) (sorted : sortRows localTimestamp [a, b] = [x, y]) :
    independent1hCohort localTimestamp [a, b] = if rowFollows localTimestamp x y then [x, y] else [x] := by
  rw [cohort_eq_select (by simp [left, right]), sorted]
  simp only [Greedy.select, Option.all_none, if_true, Option.all_some]
  split <;> rfl

theorem drawn_pair {kind : Set ScoreRow} {a b : ScoreRow} (left : a ∈ kind ∧ a.Qualified)
    (right : b ∈ kind ∧ b.Qualified) : Drawn kind [a, b] := by
  simp [Drawn, left, right]

theorem rowFollows_of_le {a b : ScoreRow} (le : stableRowKey localTimestamp a ≤ stableRowKey localTimestamp b)
    (either : rowFollows localTimestamp a b = true ∨ rowFollows localTimestamp b a = true) :
    rowFollows localTimestamp a b = true := keyFollows_of_le le either

section
variable {kind : Set ScoreRow} (independent : Independent localTimestamp kind)
include independent

theorem finite_of_independent {a : ScoreRow} (member : a ∈ kind ∧ a.Qualified) :
    (tsSeconds localTimestamp a).isFinite = true := by
  have drawn : Drawn kind [a] := by simpa [Drawn] using member
  have one := independent.largest [a] [a] drawn (List.Subperm.refl _) (List.pairwise_singleton _ _)
  by_contra unreadable
  rw [Bool.not_eq_true] at unreadable
  simp [independent1hCohort, sortRows, cohortLoop, unreadable] at one

theorem later_of_independent {a b : ScoreRow} (left : a ∈ kind ∧ a.Qualified) (right : b ∈ kind ∧ b.Qualified)
    (later : a.instant < b.instant) : stableRowKey localTimestamp a ≤ stableRowKey localTimestamp b := by
  by_contra out
  have lt := not_le.mp out
  have first := finite_of_independent independent left
  have second := finite_of_independent independent right
  have kept := independent.stable [a] [b] (by simpa [Drawn] using left) (by simpa [Drawn] using right) (by simpa using later)
  rw [cohortKeys, cohortKeys, cohort_singleton first, List.singleton_append,
    cohort_pair first second (sortRows_of_lt lt)] at kept
  have same : stableRowKey localTimestamp a = stableRowKey localTimestamp b := by
    split at kept <;> simpa using kept
  exact lt.ne' same

theorem hour_of_independent {a b : ScoreRow} (left : a ∈ kind ∧ a.Qualified) (right : b ∈ kind ∧ b.Qualified) :
    Spaced a b ↔ rowFollows localTimestamp a b = true ∨ rowFollows localTimestamp b a = true := by
  have first := finite_of_independent independent left
  have second := finite_of_independent independent right
  have drawn := drawn_pair left right
  constructor
  · intro spaced
    have two := independent.largest [a, b] [a, b] drawn (List.Subperm.refl _) (by simpa using spaced)
    rcases le_or_gt (stableRowKey localTimestamp a) (stableRowKey localTimestamp b) with le | lt
    · rw [cohort_pair first second (sortRows_of_le le)] at two
      by_contra neither
      simp [(not_or.mp neither).1] at two
    · rw [cohort_pair first second (sortRows_of_lt lt)] at two
      by_contra neither
      simp [(not_or.mp neither).2] at two
  · intro either
    have apart := independent.apart [a, b] drawn
    rcases le_or_gt (stableRowKey localTimestamp a) (stableRowKey localTimestamp b) with le | lt
    · rw [cohort_pair first second (sortRows_of_le le), if_pos (rowFollows_of_le le either)] at apart
      simpa using apart
    · rw [cohort_pair first second (sortRows_of_lt lt), if_pos (rowFollows_of_le lt.le either.symm)] at apart
      exact spaced_comm.mp (by simpa using apart)

theorem told_of_independent : ToldApart localTimestamp kind where
  finite a member qualified := finite_of_independent independent ⟨member, qualified⟩
  later a member b member' qualified qualified' later :=
    later_of_independent independent ⟨member, qualified⟩ ⟨member', qualified'⟩ later
  hour a member b member' qualified qualified' := by
    have first := finite_of_independent independent ⟨member, qualified⟩
    have second := finite_of_independent independent ⟨member', qualified'⟩
    rw [follows_eq first second, follows_eq second first]
    exact hour_of_independent independent ⟨member, qualified⟩ ⟨member', qualified'⟩

end

/-- The cohort is right for a kind of rows exactly where the floats tell its rows apart. -/
theorem independent_iff (localTimestamp : Civil → Double) (kind : Set ScoreRow) :
    Independent localTimestamp kind ↔ ToldApart localTimestamp kind :=
  ⟨told_of_independent, independent_of_told⟩

/-! An hour over 19 January 2038, 03:14:08, where the floats of seconds get coarser. -/

/-- `timestamp()` of a datetime without an offset where local time is UTC. -/
def utcTimestamp (c : Civil) : Double := .round (((Datetime.toMicros c : Int) - unixEpoch) / 1000000)

/-- Five in the morning of a day in 2038. -/
def checkedAt : Civil := ⟨2038, 1, 19, 5, 0, 0, 0, by decide⟩

/-- A prediction of a rise from 100 that came out with the same price both times, with the evidence for it. -/
def movedRow (id : Nat) (ts outcome : String) (price target15m open15m target1h open1h : Int) : ScoreRow where
  id := id
  ts := txt ts
  symbol := txt "BTC/USDT"
  prediction := txt "LONG"
  exchangeUsed := txt "okx"
  priceNow := .int 100
  price15mLater := .int price
  outcome := some (txt outcome)
  audit := .ofMembers [
    (txt "origin_price_v1", .ofMembers [
      (txt "version", .str (txt "origin-price-v1")),
      (txt "source", .str (txt "okx")),
      (txt "timestamp", .str (txt ts)),
      (txt "price", .int 100)]),
    (txt "outcomes_dual", repairedDual (txt outcome) (txt outcome) (.round price) (.round price)
      (evidence (txt "okx") (txt "BTC/USDT") 900 target15m open15m (.round price) checkedAt)
      (evidence (txt "okx") (txt "BTC/USDT") 3600 target1h open1h (.round price) checkedAt)
      (Datetime.isoformat checkedAt))]
  others := []

def beforeRow : ScoreRow := movedRow 1 "2038-01-19T02:14:08.000013+00:00" "WIN" 110
  2147480948000 2147480940000 2147483648000 2147483640000

def behindRow : ScoreRow := movedRow 2 "2038-01-19T03:14:08.000013+00:00" "WIN" 110
  2147484548000 2147484540000 2147487248000 2147487240000

def risingPair : Set ScoreRow := {r | r = beforeRow ∨ r = behindRow}

private theorem drawn_rising : Drawn risingPair [beforeRow, behindRow] := by
  intro r member
  simp only [List.mem_cons, List.not_mem_nil, or_false] at member
  rcases member with rfl | rfl
  · exact ⟨.inl rfl, by unfold ScoreRow.Qualified; decide +kernel⟩
  · exact ⟨.inr rfl, by unfold ScoreRow.Qualified; decide +kernel⟩

private theorem rising_in_order : stableRowKey utcTimestamp beforeRow < stableRowKey utcTimestamp behindRow := by
  refine Prod.Lex.toLex_lt_toLex.mpr (.inl ?_)
  decide +kernel

/-- Two rows an hour apart to the microsecond, of which the cohort has one only. -/
theorem not_independent_2038 : ¬ Independent utcTimestamp risingPair := by
  intro independent
  have spaced : [beforeRow, behindRow].Pairwise Spaced := by
    rw [List.pairwise_pair, Spaced]
    decide +kernel
  have two := independent.largest _ _ drawn_rising (List.Subperm.refl _) spaced
  have one : independent1hCohort utcTimestamp [beforeRow, behindRow] = [beforeRow] := by
    have left : (tsSeconds utcTimestamp beforeRow).isFinite = true := by decide +kernel
    have right : (tsSeconds utcTimestamp behindRow).isFinite = true := by decide +kernel
    have early : follows (tsSeconds utcTimestamp beforeRow) (tsSeconds utcTimestamp behindRow) = false := by
      decide +kernel
    rw [follows_eq left right] at early
    rw [cohort_pair left right (sortRows_of_le rising_in_order.le), rowFollows, early]
    rfl
  rw [one] at two
  exact absurd two (by simp)

end Senex.Scoring
