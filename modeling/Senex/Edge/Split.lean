import Senex.Edge.Join
import Senex.Foundation.Sorting

/-! # The chronological split

`chronological_market_split` cuts the markets in the order in which they close, and drops from the
training side what was resolved too late for the test side.
-/

namespace Senex.Edge

open Text

/-- An observation that the extraction and the join make of some rows and resolutions. -/
def Joined (containerText : PyValue → Text) (reprKey : MarketKey → Text) (o : JoinedObservation) : Prop :=
  ∃ rows resolutions pairs joined, extractT0Pairs containerText rows = .ok pairs ∧
    joinResolutions containerText reprKey pairs resolutions = .ok joined ∧ o ∈ joined

/-- What the split relies on: a causal pair, and a time behind its window. -/
structure JoinedObservation.Sound (o : JoinedObservation) : Prop where
  causal : Causal o.pair
  finite : o.resolvedAt.isFinite = true
  closed : o.pair.marketEndTs ≤ o.resolvedAt.value

theorem Joined.sound {containerText : PyValue → Text} {reprKey : MarketKey → Text} {o : JoinedObservation}
    (joined : Joined containerText reprKey o) : o.Sound := by
  obtain ⟨rows, resolutions, pairs, all, extracted, ok, member⟩ := joined
  obtain ⟨byMarket, collected, fits, rfl⟩ := joinResolutions_eq_ok_iff.mp ok
  obtain ⟨pair, inside, found⟩ := List.mem_filterMap.mp member
  obtain ⟨r, held, rfl⟩ := Option.map_eq_some_iff.mp found
  obtain ⟨raw, given, record, same⟩ := (collected_empty collected _ _).mp held
  obtain ⟨row, -, made⟩ := mem_extractT0Pairs extracted inside
  exact ⟨causal_of_extractT0Pair made, (valid_of_record record).finite, (fits pair inside raw given r record same).2.2⟩

/-! ## `chronological_market_split` -/

/-- The key of the sort: the end of the window, the slug and the decision. -/
def splitKey (o : JoinedObservation) : Int ×ₗ Text ×ₗ ℚ :=
  toLex (o.pair.marketEndTs, toLex (o.pair.marketSlug, o.pair.decisionTs.value))

/-- The markets in the order of their first rows. -/
def marketKeys (keys : List MarketKey) : List JoinedObservation → List MarketKey
  | [] => keys
  | item :: rest =>
      if item.pair.key ∈ keys then marketKeys keys rest else marketKeys (keys ++ [item.pair.key]) rest

/-- `min(item.pair.decision_ts for item in test)` -/
def earliestDecision : List JoinedObservation → Double
  | [] => .nan
  | first :: rest => Double.minimum first.pair.decisionTs (rest.map fun o => o.pair.decisionTs)

/-- `int(len(market_keys) * train_fraction)`, kept within the list. -/
def cutOf (markets : Nat) (trainFraction : Double) : Nat :=
  (min ((markets : Int) - 1) (max 1 (Double.mul (Double.round markets) trainFraction).trunc)).toNat

def chronologicalMarketSplit (observations : List JoinedObservation) (trainFraction : Double) :
    Py (List JoinedObservation × List JoinedObservation) := do
  guardNot (!(Double.lt (Double.round 0) trainFraction && Double.lt trainFraction (Double.round 1))) .valueError
    (txt "train_fraction must be in (0,1)")
  let rows := sortedBy splitKey observations
  let keys := marketKeys [] rows
  guardNot (decide (keys.length < 2)) .valueError (txt "at least two resolved markets are required")
  let trainKeys := keys.take (cutOf keys.length trainFraction)
  let trainCandidates := rows.filter fun item => item.pair.key ∈ trainKeys
  let test := rows.filter fun item => item.pair.key ∉ trainKeys
  guardNot test.isEmpty .valueError (txt "chronological holdout is empty")
  let train := trainCandidates.filter fun item => item.resolvedAt.lt (earliestDecision test)
  return (train, test)

/-! ## The order of the markets -/

theorem mem_marketKeys {keys : List MarketKey} {rows : List JoinedObservation} {key : MarketKey} :
    key ∈ marketKeys keys rows ↔ key ∈ keys ∨ ∃ o ∈ rows, o.pair.key = key := by
  induction rows generalizing keys with
  | nil => simp [marketKeys]
  | cons item rest ih =>
      rw [marketKeys]
      split
      · rw [ih]
        grind
      · rw [ih]
        grind

/-- Of two markets the first one has a row before all that follow the other's first row. -/
theorem pairwise_marketKeys {before : JoinedObservation → JoinedObservation → Prop} {keys : List MarketKey}
    {rows : List JoinedObservation} (sorted : rows.Pairwise before)
    (known : ∀ key ∈ keys, ∃ a, a.pair.key = key ∧ ∀ b ∈ rows, before a b)
    (ordered : keys.Pairwise fun k k' => ∃ a b, a.pair.key = k ∧ b.pair.key = k' ∧ before a b) :
    (marketKeys keys rows).Pairwise fun k k' => ∃ a b, a.pair.key = k ∧ b.pair.key = k' ∧ before a b := by
  induction rows generalizing keys with
  | nil => exact ordered
  | cons item rest ih =>
      obtain ⟨first, tail⟩ := List.pairwise_cons.mp sorted
      have known' : ∀ key ∈ keys, ∃ a, a.pair.key = key ∧ ∀ b ∈ rest, before a b := fun key member => by
        obtain ⟨a, same, all⟩ := known key member
        exact ⟨a, same, fun b inside => all b (.tail _ inside)⟩
      rw [marketKeys]
      split
      · exact ih tail known' ordered
      · refine ih tail (fun key member => ?_) ?_
        · rcases List.mem_append.mp member with old | new
          · exact known' key old
          · exact ⟨item, (List.mem_singleton.mp new).symm, first⟩
        · refine List.pairwise_append.mpr ⟨ordered, List.pairwise_singleton _ _, fun key member key' new => ?_⟩
          obtain ⟨a, same, all⟩ := known key member
          exact ⟨a, item, same, (List.mem_singleton.mp new).symm, all item (.head _)⟩

/-- A slug has one window. -/
theorem JoinedObservation.Sound.window {a b : JoinedObservation} (sound : a.Sound) (sound' : b.Sound)
    (same : a.pair.marketSlug = b.pair.marketSlug) : a.pair.marketEndTs = b.pair.marketEndTs := by
  have start : a.pair.marketStartTs = b.pair.marketStartTs := by
    have named := sound.causal.named
    rw [same, sound'.causal.named] at named
    exact (Option.some.inj named).symm
  have width := sound.causal.width
  have width' := sound'.causal.width
  omega

/-- The place of a market in time: the end of its window, then its slug. -/
def closing (o : JoinedObservation) : Int ×ₗ Text := toLex (o.pair.marketEndTs, o.pair.marketSlug)

theorem closing_le {a b : JoinedObservation} (le : splitKey a ≤ splitKey b) : closing a ≤ closing b := by
  rcases Prod.Lex.toLex_le_toLex.mp le with earlier | ⟨same, inner⟩
  · exact Prod.Lex.toLex_le_toLex.mpr (.inl earlier)
  · refine Prod.Lex.toLex_le_toLex.mpr (.inr ⟨same, ?_⟩)
    rcases Prod.Lex.toLex_le_toLex.mp inner with less | ⟨equal, -⟩
    · exact less.le
    · exact equal.le

/-- Observations of one market close at one place. -/
theorem closing_eq {a b : JoinedObservation} (sound : a.Sound) (sound' : b.Sound) (same : a.pair.key = b.pair.key) :
    closing a = closing b := by
  have slug : a.pair.marketSlug = b.pair.marketSlug := congrArg Prod.fst same
  rw [closing, closing, slug, sound.window sound' slug]

section

variable {observations : List JoinedObservation} (sound : ∀ o ∈ observations, o.Sound)
include sound

/-- A market before the cut closes no later than one behind it. -/
theorem closing_le_of_cut {keys : List MarketKey} {cut : Nat}
    (listed : keys = marketKeys [] (sortedBy splitKey observations)) {a b : JoinedObservation}
    (inside : a ∈ observations) (inside' : b ∈ observations) (before : a.pair.key ∈ keys.take cut)
    (after : b.pair.key ∉ keys.take cut) : closing a ≤ closing b := by
  have sorted := List.Pairwise.and_mem.mp (@sorted_sortedBy _ _ _ splitKey observations)
  have ordered := @pairwise_marketKeys _ [] _ sorted (by simp) .nil
  rw [← listed] at ordered
  have held : b.pair.key ∈ keys := by
    rw [listed, mem_marketKeys]
    exact .inr ⟨b, (mem_sortedBy splitKey).mpr inside', rfl⟩
  have rest : b.pair.key ∈ keys.drop cut := by
    rw [← List.take_append_drop cut keys] at held
    exact (List.mem_append.mp held).resolve_left after
  rw [← List.take_append_drop cut keys] at ordered
  obtain ⟨x, y, first, second, member, member', le⟩ := (List.pairwise_append.mp ordered).2.2 _ before _ rest
  have soundX := sound x ((mem_sortedBy splitKey).mp member)
  have soundY := sound y ((mem_sortedBy splitKey).mp member')
  rw [← closing_eq soundX (sound a inside) first, ← closing_eq soundY (sound b inside') second]
  exact closing_le le

end

/-- The earliest decision of the test side is one of it. -/
theorem earliestDecision_spec {test : List JoinedObservation} (sound : ∀ t ∈ test, t.Sound) (nonempty : test ≠ []) :
    (∃ t ∈ test, t.pair.decisionTs = earliestDecision test) ∧
      ∀ t ∈ test, (earliestDecision test).value ≤ t.pair.decisionTs.value := by
  cases test with
  | nil => exact absurd rfl nonempty
  | cons first rest =>
      have all : ∀ x ∈ first.pair.decisionTs :: rest.map (fun o => o.pair.decisionTs), x.isFinite = true := by
        intro x member
        obtain ⟨t, inside, rfl⟩ := List.mem_map.mp (show x ∈ (first :: rest).map fun o => o.pair.decisionTs from member)
        exact (sound t inside).causal.finite
      constructor
      · have attained := Double.minimum_mem first.pair.decisionTs (rest.map fun o => o.pair.decisionTs)
        exact List.mem_map.mp (show _ ∈ (first :: rest).map fun o => o.pair.decisionTs from attained)
      · intro t member
        exact Double.value_minimum_le all
          (show _ ∈ (first :: rest).map fun o => o.pair.decisionTs from List.mem_map_of_mem member)

/-- The split leaks nothing: the markets of the two sides differ, those of the test side close last and
    are whole, the training side was resolved before every test decision, and nothing else is dropped. -/
theorem chronologicalMarketSplit_leaks_nothing (containerText : PyValue → Text) (reprKey : MarketKey → Text)
    (observations train test : List JoinedObservation) (trainFraction : Double)
    (joined : ∀ o ∈ observations, Joined containerText reprKey o)
    (ok : chronologicalMarketSplit observations trainFraction = .ok (train, test)) :
    (∀ o ∈ train, ∀ t ∈ test, o.pair.key ≠ t.pair.key) ∧
    (∀ o ∈ train, ∀ t ∈ test, o.resolvedAt.value < t.pair.decisionTs.value) ∧
    test ≠ [] ∧
    (∀ t ∈ test, ∀ o ∈ observations, o.pair.key = t.pair.key → o ∈ test) ∧
    (∀ o ∈ observations, o ∉ test → ∀ t ∈ test, closing o ≤ closing t) ∧
    ∃ dropped, (train ++ dropped ++ test).Perm observations ∧
      ∀ o ∈ dropped, ∃ t ∈ test, t.pair.decisionTs.value ≤ o.resolvedAt.value := by
  have sound : ∀ o ∈ observations, o.Sound := fun o member => (joined o member).sound
  simp only [chronologicalMarketSplit, Py.bind_eq_ok, guardNot_eq_ok] at ok
  obtain ⟨_, -, _, -, _, nonempty, same⟩ := ok
  obtain ⟨rfl, rfl⟩ := Prod.mk.inj (Except.ok.inj same)
  generalize listed : marketKeys [] (sortedBy splitKey observations) = keys at *
  generalize cutOf keys.length trainFraction = cut at *
  have mem_test {o : JoinedObservation} : o ∈ (sortedBy splitKey observations).filter
      (fun item => item.pair.key ∉ keys.take cut) ↔ o ∈ observations ∧ o.pair.key ∉ keys.take cut := by
    simp
  have mem_train {o : JoinedObservation} : o ∈ (sortedBy splitKey observations).filter
      (fun item => item.pair.key ∈ keys.take cut) ↔ o ∈ observations ∧ o.pair.key ∈ keys.take cut := by
    simp
  have all : ((sortedBy splitKey observations).filter (fun item => item.pair.key ∈ keys.take cut) ++
      (sortedBy splitKey observations).filter fun item => item.pair.key ∉ keys.take cut).Perm
        (sortedBy splitKey observations) := by
    simpa only [decide_not] using List.filter_append_perm
      (fun item : JoinedObservation => decide (item.pair.key ∈ keys.take cut)) (sortedBy splitKey observations)
  generalize (sortedBy splitKey observations).filter (fun item => item.pair.key ∉ keys.take cut) = test at *
  generalize (sortedBy splitKey observations).filter (fun item => item.pair.key ∈ keys.take cut) = candidates at *
  have nonempty : test ≠ [] := List.isEmpty_eq_false_iff.mp nonempty
  have testSound : ∀ t ∈ test, t.Sound := fun t member => sound t (mem_test.mp member).1
  obtain ⟨⟨earliest, inside, attained⟩, least⟩ := earliestDecision_spec testSound nonempty
  refine ⟨fun o member t member' same => ?_, fun o member t member' => ?_, nonempty, fun t member o given same => ?_,
    fun o given outside t member => ?_,
    candidates.filter fun item => !item.resolvedAt.lt (earliestDecision test), ?_, fun o member => ?_⟩
  · have before := (mem_train.mp (List.mem_filter.mp member).1).2
    exact (mem_test.mp member').2 (same ▸ before)
  · obtain ⟨candidate, less⟩ := List.mem_filter.mp member
    have finite := (sound o (mem_train.mp candidate).1).finite
    have below := (Double.lt_iff finite (attained ▸ (testSound earliest inside).causal.finite)).mp less
    exact below.trans_le (least t member')
  · exact mem_test.mpr ⟨given, same ▸ (mem_test.mp member).2⟩
  · have before : o.pair.key ∈ keys.take cut := by
      by_contra after
      exact outside (mem_test.mpr ⟨given, after⟩)
    exact closing_le_of_cut sound listed.symm given (mem_test.mp member).1 before (mem_test.mp member).2
  · have kept := List.filter_append_perm (fun item => item.resolvedAt.lt (earliestDecision test)) candidates
    exact (kept.append_right test).trans (all.trans (sortedBy_perm splitKey observations))
  · obtain ⟨candidate, notLess⟩ := List.mem_filter.mp member
    have finite := (sound o (mem_train.mp candidate).1).finite
    refine ⟨earliest, inside, ?_⟩
    rw [attained]
    refine not_lt.mp fun less => ?_
    rw [(Double.lt_iff finite (attained ▸ (testSound earliest inside).causal.finite)).mpr less] at notLess
    cases notLess

/-- Two markets, the first one resolved before the decision on the second one. -/
def sampleObservations : Option (List JoinedObservation) := do
  let pairs ← (extractT0Pairs (fun _ => []) [sampleRow "btc-updown-5m-900" "0x2" 900 910 (1 / 4) (1 / 2),
    sampleRow "btc-updown-5m-600" "0x1" 600 610 (1 / 2) (3 / 4)]).toOption
  (joinResolutions (fun _ => []) (fun _ => []) pairs [sampleResolution "btc-updown-5m-600" "0x1" "up" 600 905,
    sampleResolution "btc-updown-5m-900" "0x2" "down" 900 1200]).toOption

theorem joined_sampleObservations {observations : List JoinedObservation}
    (made : sampleObservations = some observations) :
    ∀ o ∈ observations, Joined (fun _ => []) (fun _ => []) o := by
  obtain ⟨pairs, extracted, joined⟩ := Option.bind_eq_some_iff.mp made
  exact fun o member => ⟨_, _, pairs, observations, toOption_eq_some.mp extracted,
    toOption_eq_some.mp joined, member⟩

theorem chronologicalMarketSplit_sample :
    ∃ observations train test, sampleObservations = some observations ∧
      chronologicalMarketSplit observations (Double.round (1 / 2)) = .ok (train, test) ∧ train ≠ [] ∧
      ∀ o ∈ train, ∀ t ∈ test, o.resolvedAt.value < t.pair.decisionTs.value := by
  have run : (sampleObservations.bind fun observations =>
      (chronologicalMarketSplit observations (Double.round (1 / 2))).toOption.map fun sides => sides.1.isEmpty) =
        some false := by
    decide +kernel
  obtain ⟨observations, made, split⟩ := Option.bind_eq_some_iff.mp run
  obtain ⟨⟨train, test⟩, ok, nonempty⟩ := Option.map_eq_some_iff.mp split
  refine ⟨observations, train, test, made, toOption_eq_some.mp ok, List.isEmpty_eq_false_iff.mp nonempty, ?_⟩
  exact (chronologicalMarketSplit_leaks_nothing _ _ observations train test _ (joined_sampleObservations made)
    (toOption_eq_some.mp ok)).2.1

end Senex.Edge
