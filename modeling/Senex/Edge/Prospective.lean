import Senex.Edge.Split
import Senex.Foundation.Earliest

/-! # The prospective samples

`prospective_primary_subset` and `prospective_high_disagreement_subset` take the earliest observation
of each fresh market, and of these a band of disagreement.  A tie of decision times is decided by the
order of the list, and so is a tie of the final sort.
-/

namespace Senex.Edge

open Text

def prospectiveStartTs : Int := 1791090000

/-- `LOW_DISAGREEMENT_MAX` -/
def lowDisagreementMax : Double := Double.round (17693099999999995 / 10 ^ 17)

/-- `HIGH_DISAGREEMENT_MIN` -/
def highDisagreementMin : Double := Double.round (60501925 / 10 ^ 8)

/-- The loop of `_earliest_unique_market_rows`. -/
def selectEarliest (selected : Dict MarketKey JoinedObservation) :
    List JoinedObservation → Dict MarketKey JoinedObservation
  | [] => selected
  | item :: rest =>
      match selected.get? item.pair.key with
      | none => selectEarliest (selected.set item.pair.key item) rest
      | some existing =>
          if item.pair.decisionTs.lt existing.pair.decisionTs then
            selectEarliest (selected.set item.pair.key item) rest
          else selectEarliest selected rest

/-- The key of the final sort. -/
def prospectiveKey (o : JoinedObservation) : Int ×ₗ Text ×ₗ ℚ :=
  toLex (o.pair.marketStartTs, toLex (o.pair.marketSlug, o.pair.decisionTs.value))

def earliestUniqueMarketRows (observations : List JoinedObservation) : List JoinedObservation :=
  sortedBy prospectiveKey (selectEarliest Dict.empty observations).values

/-- The observations of markets that start behind the boundary. -/
def fresh (o : JoinedObservation) : Bool := decide (prospectiveStartTs ≤ o.pair.marketStartTs)

/-- `abs(senex_raw_up - p_market)` -/
def disagreement (o : JoinedObservation) : Double := PyFloat.absolute (o.pair.senexRawUp - o.pair.pMarket)

def prospectivePrimarySubset (observations : List JoinedObservation) : List JoinedObservation :=
  (earliestUniqueMarketRows (observations.filter fresh)).filter fun item =>
    (disagreement item).le lowDisagreementMax

def prospectiveHighDisagreementSubset (observations : List JoinedObservation) : List JoinedObservation :=
  (earliestUniqueMarketRows (observations.filter fresh)).filter fun item =>
    highDisagreementMin.lt (disagreement item)

/-! ## The selection -/

def lowBand (o : JoinedObservation) : Bool := (disagreement o).le lowDisagreementMax

def highBand (o : JoinedObservation) : Bool := highDisagreementMin.lt (disagreement o)

/-- The key of a market. -/
def marketKey (o : JoinedObservation) : MarketKey := o.pair.key

/-- The time of a decision. -/
def decided (o : JoinedObservation) : ℚ := o.pair.decisionTs.value

/-- The observations of a band, as both functions select them. -/
def bandSubset (band : JoinedObservation → Bool) (observations : List JoinedObservation) : List JoinedObservation :=
  (earliestUniqueMarketRows (observations.filter fresh)).filter band

theorem selectEarliest_eq {observations : List JoinedObservation} (sound : ∀ o ∈ observations, o.Sound)
    {selected : Dict MarketKey JoinedObservation} (before : selected.Every fun _ o => o.Sound) :
    selectEarliest selected observations = observations.foldl (Earliest.step marketKey decided) selected := by
  induction observations generalizing selected with
  | nil => rfl
  | cons item rest ih =>
      have here : item.Sound := sound item (.head _)
      have others : ∀ o ∈ rest, o.Sound := fun o member => sound o (.tail _ member)
      rw [selectEarliest, List.foldl_cons, Earliest.step]
      simp only [marketKey]
      cases found : selected.get? item.pair.key with
      | none => exact ih others (before.set here)
      | some existing =>
          have less := Double.lt_iff here.causal.finite (before.get? found).causal.finite
          by_cases earlier : item.pair.decisionTs.value < existing.pair.decisionTs.value
          · simp only [decided, less, earlier, if_true]
            exact ih others (before.set here)
          · simp only [decided, less, earlier, if_false]
            exact ih others before

theorem bandSubset_eq {observations : List JoinedObservation} (sound : ∀ o ∈ observations, o.Sound)
    (band : JoinedObservation → Bool) :
    bandSubset band observations =
      Earliest.select marketKey decided prospectiveKey band (observations.filter fresh) := by
  rw [bandSubset, earliestUniqueMarketRows, selectEarliest_eq (fun o member => sound o (List.mem_filter.mp member).1)
    (Dict.every_empty _)]
  rfl

/-- Observations of one market start together. -/
theorem fresh_eq {a b : JoinedObservation} (sound : a.Sound) (sound' : b.Sound) (same : a.pair.key = b.pair.key) :
    fresh a = fresh b := by
  have slug : a.pair.marketSlug = b.pair.marketSlug := congrArg Prod.fst same
  have named := sound.causal.named
  rw [slug, sound'.causal.named] at named
  rw [fresh, fresh, Option.some.inj named]

/-! ## What the data fix -/

/-- A sample is fixed by the observations: one of each market, its earliest; whatever their order; and
    unchanged for a market by later observations of it and by any of others, wherever they are
    added.  `true` marks the observations that were there before. -/
structure FixedByData (containerText : PyValue → Text) (reprKey : MarketKey → Text)
    (sample : List JoinedObservation → List JoinedObservation) (observations : List JoinedObservation) : Prop where
  earliest : ∀ o ∈ sample observations, o ∈ observations ∧
    ∀ x ∈ observations, x.pair.key = o.pair.key → o.pair.decisionTs.value ≤ x.pair.decisionTs.value
  single : (sample observations).Pairwise fun a b => a.pair.key ≠ b.pair.key
  order : ∀ observations', observations.Perm observations' → sample observations' = sample observations
  stable : ∀ marked : List (Bool × JoinedObservation), (∀ x ∈ marked, Joined containerText reprKey x.2) →
    (marked.filter Prod.fst).map Prod.snd = observations → ∀ key,
      (∀ x ∈ marked, x.1 = false → x.2.pair.key = key → ∃ a ∈ observations, a.pair.key = key ∧
        a.pair.decisionTs.value < x.2.pair.decisionTs.value) →
      ∀ o, o.pair.key = key → (o ∈ sample (marked.map Prod.snd) ↔ o ∈ sample observations)

/-- No tie decides the sample of a band: an earliest observation of a fresh market that is in the band has
    no other one at its time, and no two of them share start, slug and decision time. -/
def NoTies (band : JoinedObservation → Bool) (observations : List JoinedObservation) : Prop :=
  Earliest.TieFree marketKey decided prospectiveKey band (observations.filter fresh)

section

variable {containerText : PyValue → Text} {reprKey : MarketKey → Text} {observations : List JoinedObservation}
  {band : JoinedObservation → Bool}

theorem mem_bandSubset (sound : ∀ o ∈ observations, o.Sound) {o : JoinedObservation} :
    o ∈ bandSubset band observations ↔
      Earliest.First marketKey decided (observations.filter fresh) o ∧ band o = true := by
  rw [bandSubset_eq sound, Earliest.mem_select]

/-- Later observations and other markets change nothing for a market. -/
theorem bandSubset_stable {marked : List (Bool × JoinedObservation)} (sound : ∀ x ∈ marked, x.2.Sound)
    (same : (marked.filter Prod.fst).map Prod.snd = observations) {o : JoinedObservation}
    (later : ∀ x ∈ marked, x.1 = false → x.2.pair.key = o.pair.key → ∃ a ∈ observations, a.pair.key = o.pair.key ∧
      a.pair.decisionTs.value < x.2.pair.decisionTs.value) :
    o ∈ bandSubset band (marked.map Prod.snd) ↔ o ∈ bandSubset band observations := by
  subst same
  have soundAll : ∀ x ∈ marked.map Prod.snd, x.Sound := List.forall_mem_map.mpr sound
  have soundOld : ∀ x ∈ (marked.filter Prod.fst).map Prod.snd, x.Sound :=
    fun x member => soundAll x ((List.filter_sublist.map Prod.snd).subset member)
  rw [mem_bandSubset soundAll, mem_bandSubset soundOld]
  refine and_congr_left fun _ => ?_
  have all : (marked.map Prod.snd).filter fresh = (marked.filter fun x => fresh x.2).map Prod.snd := by
    rw [List.filter_map]
    rfl
  have old : ((marked.filter Prod.fst).map Prod.snd).filter fresh =
      ((marked.filter fun x => fresh x.2).filter Prod.fst).map Prod.snd := by
    rw [List.filter_map, List.filter_filter, List.filter_filter]
    congr 1
    exact List.filter_congr fun x _ => Bool.and_comm _ _
  rw [all, old]
  apply Earliest.first_filter_iff
  intro x member new sameKey
  obtain ⟨inside, isFresh⟩ := List.mem_filter.mp member
  obtain ⟨a, held, sameKey', earlier⟩ := later x inside new sameKey
  obtain ⟨⟨mark, b⟩, kept, rfl⟩ := List.mem_map.mp held
  obtain ⟨given, rfl⟩ := List.mem_filter.mp kept
  have freshA : fresh b = true := by
    rw [fresh_eq (sound _ given) (sound x inside) (sameKey'.trans sameKey.symm)]
    exact isFresh
  exact ⟨b, List.mem_filter.mpr ⟨given, freshA⟩, sameKey', earlier⟩

theorem fixedByData_iff (joined : ∀ o ∈ observations, Joined containerText reprKey o) :
    FixedByData containerText reprKey (bandSubset band) observations ↔ NoTies band observations := by
  have sound : ∀ o ∈ observations, o.Sound := fun o member => (joined o member).sound
  have order : (∀ observations', observations.Perm observations' →
      bandSubset band observations' = bandSubset band observations) ↔ NoTies band observations := by
    rw [NoTies, ← Earliest.select_perm_iff]
    have samples (all : List JoinedObservation) (perm : observations.Perm all) : bandSubset band all =
        Earliest.select marketKey decided prospectiveKey band (all.filter fresh) :=
      bandSubset_eq (fun o member => sound o (perm.mem_iff.mpr member)) band
    constructor
    · intro same items perm
      -- The old observations go behind the fresh ones.
      have whole : observations.Perm (items ++ observations.filter fun o => !fresh o) :=
        (List.filter_append_perm fresh observations).symm.trans (perm.append_right _)
      have kept : (items ++ observations.filter fun o => !fresh o).filter fresh = items := by
        have all : ∀ o ∈ items, fresh o = true := fun o member => (List.mem_filter.mp (perm.mem_iff.mpr member)).2
        have none : (observations.filter fun o => !fresh o).filter fresh = [] := by
          rw [List.filter_filter]
          exact List.filter_eq_nil_iff.mpr fun o _ => by simp
        rw [List.filter_append, none, List.append_nil]
        exact List.filter_eq_self.mpr all
      have equal := same _ whole
      rw [samples _ whole, samples _ (.refl _), kept] at equal
      exact equal
    · intro same observations' perm
      rw [samples _ perm, samples _ (.refl _)]
      exact same _ (perm.filter fresh)
  constructor
  · exact fun fixed => order.mp fixed.order
  · intro free
    refine ⟨fun o member => ?_, ?_, order.mpr free, fun marked all same key later o sameKey => ?_⟩
    · have first := ((mem_bandSubset sound).mp member).1
      have held := (List.mem_filter.mp first.mem)
      refine ⟨held.1, fun x inside sameKey => first.isEarliest x (List.mem_filter.mpr ⟨inside, ?_⟩) sameKey⟩
      rw [fresh_eq (sound x inside) (sound o held.1) sameKey]
      exact held.2
    · rw [bandSubset_eq sound]
      exact Earliest.pairwise_select _
    · subst sameKey
      exact bandSubset_stable (fun x member => (all x member).sound) same later

/-- No market is in both bands. -/
theorem bands_disjoint (sound : ∀ o ∈ observations, o.Sound) {a b : JoinedObservation}
    (low : a ∈ bandSubset lowBand observations) (high : b ∈ bandSubset highBand observations) :
    a.pair.key ≠ b.pair.key := by
  intro same
  obtain ⟨first, inside⟩ := (mem_bandSubset sound).mp low
  obtain ⟨first', inside'⟩ := (mem_bandSubset sound).mp high
  obtain rfl := first.unique first' same
  have apart : lowDisagreementMax.value < highDisagreementMin.value := by decide +kernel
  simp only [lowBand, highBand, Double.le, Double.lt, Bool.and_eq_true, decide_eq_true_eq] at inside inside'
  exact absurd (inside.2.trans_lt apart) (not_lt.mpr inside'.2.le)

end

/-- The samples are fixed by the observations exactly if no tie decides either of them. -/
theorem samples_fixed_iff (containerText : PyValue → Text) (reprKey : MarketKey → Text)
    (observations : List JoinedObservation) (joined : ∀ o ∈ observations, Joined containerText reprKey o) :
    (FixedByData containerText reprKey prospectivePrimarySubset observations ∧
      FixedByData containerText reprKey prospectiveHighDisagreementSubset observations ∧
      ∀ a ∈ prospectivePrimarySubset observations, ∀ b ∈ prospectiveHighDisagreementSubset observations,
        a.pair.key ≠ b.pair.key) ↔
      NoTies lowBand observations ∧ NoTies highBand observations := by
  have sound : ∀ o ∈ observations, o.Sound := fun o member => (joined o member).sound
  have low : FixedByData containerText reprKey (bandSubset lowBand) observations ↔ _ := fixedByData_iff joined
  have high : FixedByData containerText reprKey (bandSubset highBand) observations ↔ _ := fixedByData_iff joined
  constructor
  · rintro ⟨primary, disagreement, -⟩
    exact ⟨low.mp primary, high.mp disagreement⟩
  · rintro ⟨primary, disagreement⟩
    exact ⟨low.mpr primary, high.mpr disagreement, fun a member b member' => bands_disjoint sound member member'⟩

/-- One observation of a fresh market. -/
def sampleFresh (measured : List (ℚ × ℚ)) : Option (List JoinedObservation) := do
  let rows := measured.map fun m => sampleRow "btc-updown-5m-1791090000" "0x1" 1791090000 1791090010 m.1 m.2
  let pairs ← (extractT0Pairs (fun _ => []) rows).toOption
  (joinResolutions (fun _ => []) (fun _ => []) pairs
    [sampleResolution "btc-updown-5m-1791090000" "0x1" "up" 1791090000 1791090400]).toOption

theorem joined_sampleFresh {measured : List (ℚ × ℚ)} {observations : List JoinedObservation}
    (made : sampleFresh measured = some observations) : ∀ o ∈ observations, Joined (fun _ => []) (fun _ => []) o := by
  obtain ⟨pairs, extracted, joined⟩ := Option.bind_eq_some_iff.mp made
  exact fun o member => ⟨_, _, pairs, observations, toOption_eq_some.mp extracted, toOption_eq_some.mp joined, member⟩

theorem samples_fixed_single :
    ∃ o, sampleFresh [(1 / 2, 1 / 2)] = some [o] ∧
      FixedByData (fun _ => []) (fun _ => []) prospectivePrimarySubset [o] := by
  have run : (sampleFresh [(1 / 2, 1 / 2)]).map List.length = some 1 := by decide +kernel
  obtain ⟨observations, made, length⟩ := Option.map_eq_some_iff.mp run
  obtain ⟨o, rfl⟩ := List.length_eq_one_iff.mp length
  have free (band : JoinedObservation → Bool) : NoTies band [o] := by
    intro a member b member' _ _ _
    have first : a = o := by simpa using (List.mem_filter.mp member).1
    have second : b = o := by simpa using (List.mem_filter.mp member').1
    exact ⟨fun _ => first.trans second.symm, fun _ _ => first.trans second.symm⟩
  exact ⟨o, made, ((samples_fixed_iff _ _ [o] (joined_sampleFresh made)).mpr ⟨free _, free _⟩).1⟩

/-- Two observations of one market at one time: the first one of the list is in the sample or is not. -/
theorem samples_depend_on_order :
    ∃ observations, sampleFresh [(1 / 2, 1 / 2), (1 / 4, 3 / 4)] = some observations ∧
      (∀ o ∈ observations, Joined (fun _ => []) (fun _ => []) o) ∧
      (prospectivePrimarySubset observations).length = 1 ∧
      prospectivePrimarySubset observations.reverse = [] := by
  have run : (sampleFresh [(1 / 2, 1 / 2), (1 / 4, 3 / 4)]).map (fun observations =>
      ((prospectivePrimarySubset observations).length, (prospectivePrimarySubset observations.reverse).length)) =
        some (1, 0) := by
    decide +kernel
  obtain ⟨observations, made, lengths⟩ := Option.map_eq_some_iff.mp run
  obtain ⟨one, none⟩ := Prod.mk.inj lengths
  exact ⟨observations, made, joined_sampleFresh made, one, List.length_eq_zero_iff.mp none⟩

end Senex.Edge
