import Senex.Edge.Extraction
import Senex.Foundation.Dict

/-! # Labels of the pairs

`join_resolutions` collects the resolutions by market, refuses two that differ, and gives each pair
the label of its market.  What it collects and whether it refuses do not depend on the order
(`collect_ok_iff`, `collected_iff`).
-/

namespace Senex.Edge

open Text PyValue

/-- A market by its slug and its condition. -/
abbrev MarketKey := Text × Text

/-- A resolution as `_resolution_record` normalizes it. -/
structure Resolution where
  slug : Text
  conditionId : Text
  startTs : Int
  endTs : Int
  outcome : Text
  resolvedAt : Double
  source : Text

def Resolution.key (r : Resolution) : MarketKey := (r.slug, r.conditionId)

/-- `existing == normalized` -/
def Resolution.same (a b : Resolution) : Bool :=
  decide (a.slug = b.slug) && decide (a.conditionId = b.conditionId) && decide (a.startTs = b.startTs) &&
    decide (a.endTs = b.endTs) && decide (a.outcome = b.outcome) && a.resolvedAt.eq b.resolvedAt &&
    decide (a.source = b.source)

structure JoinedObservation where
  pair : T0Pair
  labelUp : Int
  resolvedAt : Double

def T0Pair.key (pair : T0Pair) : MarketKey := (pair.marketSlug, pair.conditionId)

section

-- `str()` of a list or of a `dict`, and `repr()` of a market's key.
variable (containerText : PyValue → Text) (reprKey : MarketKey → Text)

/-- The source of a resolution, which has to be a text that is not blank. -/
def sourceOf : PyValue → Option Text
  | .str t => if strip t = [] then Option.none else some (strip t)
  | _ => Option.none

/-- `_resolution_record`, the key being the one of the record. -/
def resolutionRecord (raw : PyValue) : Py Resolution := do
  let refuse (failed : Bool) (message : String) := guardNot failed .resolutionContractError (txt message)
  refuse (!raw.isDict) "resolution must be an object"
  let slug := strOr containerText (raw.get (txt "slug"))
  let conditionId := strOr containerText (raw.get (txt "condition_id"))
  refuse (slug.isEmpty || conditionId.isEmpty) "resolution market identity is missing"
  let (startTs, endTs) ← rewrap PyError.isValueError .resolutionContractError
    (fun _ => txt "resolution market grid is invalid") (do
      let startTs ← epochSecond (raw.get (txt "start_ts")) (txt "resolution_start_ts")
      let endTs ← epochSecond (raw.get (txt "end_ts")) (txt "resolution_end_ts")
      return (startTs, endTs))
  refuse (!onGrid slug startTs endTs) "resolution market identity/grid is not BTC 5m"
  let outcome := upper (strOr containerText (raw.get (txt "outcome")))
  refuse (!([txt "UP", txt "DOWN"].contains outcome)) "resolution outcome must be UP or DOWN"
  let source ← orRaise (sourceOf (raw.get (txt "source"))) .resolutionContractError
    (txt "resolution source is missing or invalid")
  let resolvedAt ← rewrap PyError.isValueError .resolutionContractError id
    (parseTime (raw.get (txt "resolved_at")) (txt "resolved_at"))
  refuse (decide (resolvedAt.value < endTs)) "resolution observed before market close"
  return { slug, conditionId, startTs, endTs, outcome, resolvedAt, source }

/-- The loop over the resolutions. -/
def collect (byMarket : Dict MarketKey Resolution) : List PyValue → Py (Dict MarketKey Resolution)
  | [] => .ok byMarket
  | raw :: rest => do
      let normalized ← resolutionRecord containerText raw
      guardNot ((byMarket.get? normalized.key).any fun existing => !existing.same normalized)
        .resolutionContractError (txt "conflicting resolution for market identity " ++ reprKey normalized.key)
      collect (byMarket.set normalized.key normalized) rest

/-- The loop over the pairs. -/
def label (byMarket : Dict MarketKey Resolution) : List T0Pair → Py (List JoinedObservation)
  | [] => .ok []
  | pair :: rest => do
      match byMarket.get? pair.key with
      | Option.none => label byMarket rest
      | some resolution => do
          guardNot (decide (resolution.startTs ≠ pair.marketStartTs) || decide (resolution.endTs ≠ pair.marketEndTs))
            .resolutionContractError (txt "resolution market identity/grid mismatch for " ++ reprKey pair.key)
          guardNot (decide (resolution.resolvedAt.value < pair.marketEndTs)) .resolutionContractError
            (txt "resolution observed before market close")
          let joined ← label byMarket rest
          return ⟨pair, if resolution.outcome = txt "UP" then 1 else 0, resolution.resolvedAt⟩ :: joined

def joinResolutions (pairs : List T0Pair) (resolutions : List PyValue) : Py (List JoinedObservation) := do
  let byMarket ← collect containerText reprKey Dict.empty resolutions
  label reprKey byMarket pairs

end

/-! ## Records -/

/-- What a normalized record satisfies. -/
structure Resolution.Valid (r : Resolution) : Prop where
  grid : onGrid r.slug r.startTs r.endTs = true
  outcome : r.outcome = txt "UP" ∨ r.outcome = txt "DOWN"
  finite : r.resolvedAt.isFinite = true
  closed : r.endTs ≤ r.resolvedAt.value

section

variable {containerText : PyValue → Text} {reprKey : MarketKey → Text}

theorem intDigits_nonneg {t : Text} {n : Int} (read : intDigits t = some n) : 0 ≤ n := by
  have fold (digits : List Nat) : ∀ start : Int, 0 ≤ start →
      0 ≤ digits.foldl (fun (n : Int) digit => 10 * n + digit) start := by
    induction digits with
    | nil => exact fun _ nonneg => nonneg
    | cons digit digits ih => exact fun start nonneg => ih _ (show 0 ≤ 10 * start + digit by omega)
  simp only [intDigits] at read
  split at read
  · obtain ⟨digits, -, rfl⟩ := Option.map_eq_some_iff.mp read
    exact fold digits 0 le_rfl
  · cases read

theorem slugStart_nonneg {slug : Text} {n : Int} (named : slugStart slug = some n) : 0 ≤ n := by
  simp only [slugStart] at named
  split at named
  · split at named
    · exact intDigits_nonneg named
    · cases named
  · cases named

/-- A market is resolved after the start of 1970. -/
theorem Resolution.Valid.positive {r : Resolution} (valid : r.Valid) : 0 < r.resolvedAt.value := by
  obtain ⟨-, width, named⟩ := onGrid_iff.mp valid.grid
  have start : 0 ≤ r.startTs := slugStart_nonneg named
  have stop : (0 : ℚ) < r.endTs := by exact_mod_cast (show 0 < r.endTs by omega)
  exact stop.trans_le valid.closed

/-- Records that compare equal are equal. -/
theorem Resolution.same_iff {a b : Resolution} (valid : a.Valid) (valid' : b.Valid) : a.same b = true ↔ a = b := by
  constructor
  · intro same
    simp only [Resolution.same, Bool.and_eq_true, decide_eq_true_eq] at same
    obtain ⟨⟨⟨⟨⟨⟨slug, condition⟩, start⟩, stop⟩, outcome⟩, time⟩, source⟩ := same
    simp only [Double.eq, Bool.and_eq_true, decide_eq_true_eq] at time
    have resolvedAt : a.resolvedAt = b.resolvedAt :=
      Double.eq_of_value_eq valid.finite valid'.finite valid.positive time.2
    cases a
    cases b
    simp_all
  · rintro rfl
    simp [Resolution.same, Double.eq_self valid.finite]

theorem valid_of_record {raw : PyValue} {r : Resolution} (ok : resolutionRecord containerText raw = .ok r) :
    r.Valid := by
  simp only [resolutionRecord, Py.bind_eq_ok, guardNot_eq_ok, rewrap_eq_ok] at ok
  obtain ⟨_, -, _, -, ⟨startTs, endTs⟩, -, _, onGrid, _, outcome, source, -, resolvedAt, time, _, closed, same⟩ := ok
  obtain rfl := Except.ok.inj same
  refine ⟨by simpa using onGrid, Classical.or_iff_not_imp_left.mpr (by simpa using outcome), isFinite_parseTime time, ?_⟩
  simpa using closed

/-! ## What the loops do -/

/-- Every record is well formed, and no two of one market differ. -/
def Consistent (containerText : PyValue → Text) (resolutions : List PyValue) : Prop :=
  (∀ raw ∈ resolutions, ∃ r, resolutionRecord containerText raw = .ok r) ∧
    ∀ raw ∈ resolutions, ∀ raw' ∈ resolutions, ∀ r r', resolutionRecord containerText raw = .ok r →
      resolutionRecord containerText raw' = .ok r' → r.key = r'.key → r = r'

/-- What a dictionary holds under the keys of its records. -/
def Filed (byMarket : Dict MarketKey Resolution) : Prop :=
  ∀ key r, byMarket.get? key = some r → r.key = key ∧ r.Valid

theorem Filed.set {byMarket : Dict MarketKey Resolution} (filed : Filed byMarket) {r : Resolution}
    (valid : r.Valid) : Filed (byMarket.set r.key r) := by
  intro key s found
  by_cases same : key = r.key
  · subst same
    rw [Dict.get?_set_self] at found
    exact Option.some.inj found ▸ ⟨rfl, valid⟩
  · rw [Dict.get?_set_of_ne same] at found
    exact filed key s found

/-- The records agree with what the dictionary holds. -/
def AgreesWith (containerText : PyValue → Text) (byMarket : Dict MarketKey Resolution) (resolutions : List PyValue) :
    Prop :=
  ∀ raw ∈ resolutions, ∀ r existing, resolutionRecord containerText raw = .ok r →
    byMarket.get? r.key = some existing → existing = r

theorem collect_cons {byMarket : Dict MarketKey Resolution} (filed : Filed byMarket) {raw : PyValue}
    {rest : List PyValue} {result : Dict MarketKey Resolution} :
    collect containerText reprKey byMarket (raw :: rest) = .ok result ↔
      ∃ r, resolutionRecord containerText raw = .ok r ∧ (∀ existing, byMarket.get? r.key = some existing →
        existing = r) ∧ collect containerText reprKey (byMarket.set r.key r) rest = .ok result := by
  simp only [collect, Py.bind_eq_ok, guardNot_eq_ok]
  refine exists_congr fun r => and_congr_right fun record => ?_
  have valid : r.Valid := valid_of_record record
  constructor
  · rintro ⟨_, agree, rest⟩
    refine ⟨fun existing found => ?_, rest⟩
    rw [found] at agree
    exact (Resolution.same_iff (filed _ _ found).2 valid).mp (by simpa using agree)
  · rintro ⟨agree, rest⟩
    refine ⟨(), ?_, rest⟩
    cases found : byMarket.get? r.key with
    | none => rfl
    | some existing =>
        have same := (Resolution.same_iff (filed _ _ found).2 valid).mpr (agree existing found)
        simp [same]

/-- The dictionary that the loop returns holds what the records and the one before it hold. -/
theorem collected_iff {byMarket result : Dict MarketKey Resolution} (filed : Filed byMarket)
    {resolutions : List PyValue} (ok : collect containerText reprKey byMarket resolutions = .ok result)
    (key : MarketKey) (r : Resolution) :
    result.get? key = some r ↔ byMarket.get? key = some r ∨
      ∃ raw ∈ resolutions, resolutionRecord containerText raw = .ok r ∧ r.key = key := by
  induction resolutions generalizing byMarket with
  | nil =>
      cases ok
      simp
  | cons raw rest ih =>
      obtain ⟨first, record, agree, ok⟩ := (collect_cons filed).mp ok
      rw [ih (filed.set (valid_of_record record)) ok]
      by_cases same : key = first.key
      · subst same
        rw [Dict.get?_set_self]
        constructor
        · rintro (here | ⟨other, member, made⟩)
          · obtain rfl := Option.some.inj here
            exact .inr ⟨raw, .head _, record, rfl⟩
          · exact .inr ⟨other, .tail _ member, made⟩
        · rintro (before | ⟨other, member, made, sameKey⟩)
          · exact .inl (congrArg some (agree r before).symm)
          · rcases List.mem_cons.mp member with rfl | inside
            · exact .inl (Except.ok.inj (record.symm.trans made) ▸ rfl)
            · exact .inr ⟨other, inside, made, sameKey⟩
      · rw [Dict.get?_set_of_ne same]
        constructor
        · rintro (before | ⟨other, member, made⟩)
          · exact .inl before
          · exact .inr ⟨other, .tail _ member, made⟩
        · rintro (before | ⟨other, member, made, sameKey⟩)
          · exact .inl before
          · rcases List.mem_cons.mp member with rfl | inside
            · have one : first = r := Except.ok.inj (record.symm.trans made)
              exact absurd (one ▸ sameKey.symm) same
            · exact .inr ⟨other, inside, made, sameKey⟩

/-- The loop returns exactly for consistent records that agree with those before. -/
theorem collect_ok_iff {byMarket : Dict MarketKey Resolution} (filed : Filed byMarket) {resolutions : List PyValue} :
    (∃ result, collect containerText reprKey byMarket resolutions = .ok result) ↔
      Consistent containerText resolutions ∧ AgreesWith containerText byMarket resolutions := by
  induction resolutions generalizing byMarket with
  | nil => simp [collect, Consistent, AgreesWith]
  | cons raw rest ih =>
      constructor
      · rintro ⟨result, ok⟩
        obtain ⟨first, record, agree, ok⟩ := (collect_cons filed).mp ok
        obtain ⟨⟨wellFormed, consistent⟩, agreed⟩ := (ih (filed.set (valid_of_record record))).mp ⟨result, ok⟩
        have one {raw' : PyValue} (member : raw' ∈ rest) {r : Resolution}
            (record' : resolutionRecord containerText raw' = .ok r) (same : r.key = first.key) : first = r := by
          refine agreed raw' member r first record' ?_
          rw [same, Dict.get?_set_self]
        have head {r : Resolution} (record' : resolutionRecord containerText raw = .ok r) : first = r :=
          Except.ok.inj (record.symm.trans record')
        refine ⟨⟨List.forall_mem_cons.mpr ⟨⟨first, record⟩, wellFormed⟩, ?_⟩, ?_⟩
        · intro a member b member' r r' made made' same
          rcases List.mem_cons.mp member with rfl | inside
          · obtain rfl := head made
            rcases List.mem_cons.mp member' with rfl | inside'
            · exact head made'
            · exact one inside' made' same.symm
          · rcases List.mem_cons.mp member' with rfl | inside'
            · obtain rfl := head made'
              exact (one inside made same).symm
            · exact consistent a inside b inside' r r' made made' same
        · intro a member r existing made found
          rcases List.mem_cons.mp member with rfl | inside
          · obtain rfl := head made
            exact agree existing found
          · by_cases same : r.key = first.key
            · exact (agree existing (same ▸ found)).trans (one inside made same)
            · exact agreed a inside r existing made (by rwa [Dict.get?_set_of_ne same])
      · rintro ⟨⟨wellFormed, consistent⟩, agreed⟩
        obtain ⟨first, record⟩ := wellFormed raw (.head _)
        have rest' : AgreesWith containerText (byMarket.set first.key first) rest := by
          intro a inside r existing made found
          by_cases same : r.key = first.key
          · rw [same, Dict.get?_set_self] at found
            obtain rfl := Option.some.inj found
            exact consistent raw (.head _) a (.tail _ inside) _ _ record made same.symm
          · rw [Dict.get?_set_of_ne same] at found
            exact agreed a (.tail _ inside) r existing made found
        have tail : Consistent containerText rest :=
          ⟨fun a inside => wellFormed a (.tail _ inside),
            fun a inside b inside' => consistent a (.tail _ inside) b (.tail _ inside')⟩
        obtain ⟨result, ok⟩ := (ih (filed.set (valid_of_record record))).mpr ⟨tail, rest'⟩
        exact ⟨result, (collect_cons filed).mpr ⟨first, record,
          fun existing found => agreed raw (.head _) first existing record found, ok⟩⟩

/-! ## Labels -/

/-- The label that a resolution gives a pair. -/
def T0Pair.labelled (pair : T0Pair) (r : Resolution) : JoinedObservation :=
  ⟨pair, if r.outcome = txt "UP" then 1 else 0, r.resolvedAt⟩

/-- The resolution has the grid of the pair's window, and came behind it. -/
def Fits (pair : T0Pair) (r : Resolution) : Prop :=
  r.startTs = pair.marketStartTs ∧ r.endTs = pair.marketEndTs ∧ pair.marketEndTs ≤ r.resolvedAt.value

/-- The loop returns exactly if each resolution fits its pairs, and labels these pairs. -/
theorem label_eq_ok_iff {byMarket : Dict MarketKey Resolution} {pairs : List T0Pair}
    {joined : List JoinedObservation} :
    label reprKey byMarket pairs = .ok joined ↔
      (∀ pair ∈ pairs, ∀ r, byMarket.get? pair.key = some r → Fits pair r) ∧
        joined = pairs.filterMap fun pair => (byMarket.get? pair.key).map pair.labelled := by
  induction pairs generalizing joined with
  | nil => simp [label, eq_comm]
  | cons pair rest ih =>
      cases found : byMarket.get? pair.key with
      | none =>
          rw [label, found]
          simp [ih, found]
      | some r =>
          rw [label, found]
          simp only [Py.bind_eq_ok, guardNot_eq_ok, ih, Bool.or_eq_false_iff, decide_eq_false_iff_not, not_not, not_lt,
            List.forall_mem_cons, found, Option.some.injEq, forall_eq', List.filterMap_cons, Option.map_some]
          constructor
          · rintro ⟨_, ⟨start, stop⟩, _, closed, tail, ⟨fits, rfl⟩, same⟩
            exact ⟨⟨⟨start, stop, closed⟩, fits⟩, (Except.ok.inj same).symm⟩
          · rintro ⟨⟨⟨start, stop, closed⟩, fits⟩, rfl⟩
            exact ⟨(), ⟨start, stop⟩, (), closed, _, ⟨fits, rfl⟩, rfl⟩

theorem filed_empty : Filed Dict.empty := fun _ _ found => nomatch found

theorem agreesWith_empty (resolutions : List PyValue) : AgreesWith containerText Dict.empty resolutions :=
  fun _ _ _ _ _ found => nomatch found

/-- Each resolution of a pair's market fits the pair. -/
def AllFit (containerText : PyValue → Text) (pairs : List T0Pair) (resolutions : List PyValue) : Prop :=
  ∀ pair ∈ pairs, ∀ raw ∈ resolutions, ∀ r, resolutionRecord containerText raw = .ok r → r.key = pair.key → Fits pair r

theorem collected_empty {resolutions : List PyValue} {byMarket : Dict MarketKey Resolution}
    (ok : collect containerText reprKey Dict.empty resolutions = .ok byMarket) (key : MarketKey) (r : Resolution) :
    byMarket.get? key = some r ↔ ∃ raw ∈ resolutions, resolutionRecord containerText raw = .ok r ∧ r.key = key := by
  simp [collected_iff filed_empty ok]

theorem joinResolutions_eq_ok_iff {pairs : List T0Pair} {resolutions : List PyValue}
    {joined : List JoinedObservation} :
    joinResolutions containerText reprKey pairs resolutions = .ok joined ↔
      ∃ byMarket, collect containerText reprKey Dict.empty resolutions = .ok byMarket ∧
        AllFit containerText pairs resolutions ∧
        joined = pairs.filterMap fun pair => (byMarket.get? pair.key).map pair.labelled := by
  rw [joinResolutions, Py.bind_eq_ok]
  refine exists_congr fun byMarket => and_congr_right fun ok => ?_
  rw [label_eq_ok_iff]
  refine and_congr_left fun _ => ?_
  simp only [collected_empty ok]
  grind [AllFit]

theorem joinResolutions_ok_iff {pairs : List T0Pair} {resolutions : List PyValue} :
    (∃ joined, joinResolutions containerText reprKey pairs resolutions = .ok joined) ↔
      Consistent containerText resolutions ∧ AllFit containerText pairs resolutions := by
  constructor
  · rintro ⟨joined, ok⟩
    obtain ⟨byMarket, collected, fits, -⟩ := joinResolutions_eq_ok_iff.mp ok
    exact ⟨((collect_ok_iff filed_empty).mp ⟨byMarket, collected⟩).1, fits⟩
  · rintro ⟨consistent, fits⟩
    obtain ⟨byMarket, collected⟩ :=
      (collect_ok_iff filed_empty).mpr ⟨consistent, agreesWith_empty resolutions⟩
    exact ⟨_, joinResolutions_eq_ok_iff.mpr ⟨byMarket, collected, fits, rfl⟩⟩

/-- Two lists of resolutions with the same records, each well formed if the other is. -/
structure SameRecords (containerText : PyValue → Text) (resolutions resolutions' : List PyValue) : Prop where
  wellFormed : (∀ raw ∈ resolutions, ∃ r, resolutionRecord containerText raw = .ok r) ↔
    ∀ raw ∈ resolutions', ∃ r, resolutionRecord containerText raw = .ok r
  records (r : Resolution) : (∃ raw ∈ resolutions, resolutionRecord containerText raw = .ok r) ↔
    ∃ raw ∈ resolutions', resolutionRecord containerText raw = .ok r

theorem SameRecords.symm {resolutions resolutions' : List PyValue}
    (same : SameRecords containerText resolutions resolutions') :
    SameRecords containerText resolutions' resolutions :=
  ⟨same.wellFormed.symm, fun r => (same.records r).symm⟩

theorem SameRecords.join {pairs : List T0Pair} {resolutions resolutions' : List PyValue}
    (same : SameRecords containerText resolutions resolutions') {joined : List JoinedObservation}
    (ok : joinResolutions containerText reprKey pairs resolutions = .ok joined) :
    joinResolutions containerText reprKey pairs resolutions' = .ok joined := by
  obtain ⟨⟨wellFormed, consistent⟩, -⟩ := joinResolutions_ok_iff.mp ⟨joined, ok⟩
  obtain ⟨byMarket, collected, fits, rfl⟩ := joinResolutions_eq_ok_iff.mp ok
  have back {raw : PyValue} (member : raw ∈ resolutions') {r : Resolution}
      (record : resolutionRecord containerText raw = .ok r) :
      ∃ raw ∈ resolutions, resolutionRecord containerText raw = .ok r := (same.records r).mpr ⟨raw, member, record⟩
  have consistent' : Consistent containerText resolutions' := by
    refine ⟨same.wellFormed.mp wellFormed, fun raw member raw' member' r r' record record' => ?_⟩
    obtain ⟨a, inside, made⟩ := back member record
    obtain ⟨b, inside', made'⟩ := back member' record'
    exact consistent a inside b inside' r r' made made'
  have fits' : AllFit containerText pairs resolutions' := by
    intro pair inside raw member r record sameKey
    obtain ⟨a, held, made⟩ := back member record
    exact fits pair inside a held r made sameKey
  obtain ⟨byMarket', collected'⟩ :=
    (collect_ok_iff filed_empty).mpr ⟨consistent', agreesWith_empty resolutions'⟩
  have equal (key : MarketKey) : byMarket.get? key = byMarket'.get? key := by
    refine Option.ext fun r => ?_
    rw [collected_empty collected, collected_empty collected']
    grind [same.records r]
  refine joinResolutions_eq_ok_iff.mpr ⟨byMarket', collected', fits', ?_⟩
  simp only [equal]

theorem joinResolutions_congr {pairs : List T0Pair} {resolutions resolutions' : List PyValue}
    (same : SameRecords containerText resolutions resolutions') :
    (joinResolutions containerText reprKey pairs resolutions).toOption =
      (joinResolutions containerText reprKey pairs resolutions').toOption := by
  cases first : joinResolutions containerText reprKey pairs resolutions with
  | ok joined => rw [same.join first]
  | error e =>
      cases second : joinResolutions containerText reprKey pairs resolutions' with
      | ok joined =>
          have back := same.symm.join second
          rw [first] at back
          cases back
      | error e' => rfl

theorem sameRecords_of_perm {resolutions resolutions' : List PyValue} (perm : resolutions.Perm resolutions') :
    SameRecords containerText resolutions resolutions' :=
  ⟨by simp only [perm.mem_iff], fun r => by simp only [perm.mem_iff]⟩

/-- A further copy of a record that is there. -/
theorem sameRecords_duplicate {resolutions : List PyValue} {raw copy : PyValue} (member : raw ∈ resolutions)
    {r : Resolution} (record : resolutionRecord containerText raw = .ok r)
    (record' : resolutionRecord containerText copy = .ok r) :
    SameRecords containerText (copy :: resolutions) resolutions := by
  refine ⟨by grind, fun s => ⟨?_, ?_⟩⟩
  · rintro ⟨a, inside, made⟩
    rcases List.mem_cons.mp inside with rfl | inside
    · exact ⟨raw, member, record.trans (record'.symm.trans made)⟩
    · exact ⟨a, inside, made⟩
  · rintro ⟨a, inside, made⟩
    exact ⟨a, .tail _ inside, made⟩

/-- For pairs of the extraction every resolution of the market fits. -/
theorem fits_of_causal {pair : T0Pair} (causal : Causal pair) {r : Resolution} (valid : r.Valid)
    (same : r.key = pair.key) : Fits pair r := by
  obtain ⟨-, width, named⟩ := onGrid_iff.mp valid.grid
  have slug : r.slug = pair.marketSlug := congrArg Prod.fst same
  have start : r.startTs = pair.marketStartTs := by
    rw [slug, causal.named] at named
    exact (Option.some.inj named).symm
  have stop : r.endTs = pair.marketEndTs := by
    have width' := causal.width
    omega
  exact ⟨start, stop, stop ▸ valid.closed⟩

end

theorem toOption_eq_some {α : Type} {call : Py α} {a : α} : call.toOption = some a ↔ call = .ok a := by
  cases call <;> simp [Except.toOption]

theorem raises_iff {α : Type} {call : Py α} : (∃ e, call = .error e) ↔ ¬∃ a, call = .ok a := by
  cases call <;> simp

theorem not_consistent_iff {containerText : PyValue → Text} {resolutions : List PyValue} :
    ¬Consistent containerText resolutions ↔
      (∃ raw ∈ resolutions, ∃ e, resolutionRecord containerText raw = .error e) ∨
        ∃ raw ∈ resolutions, ∃ raw' ∈ resolutions, ∃ r r', resolutionRecord containerText raw = .ok r ∧
          resolutionRecord containerText raw' = .ok r' ∧ r.slug = r'.slug ∧ r.conditionId = r'.conditionId ∧
            r ≠ r' := by
  simp only [Consistent, not_and_or, raises_iff, Resolution.key, Prod.mk.injEq]
  grind

/-- The record of a resolution that is right for an observation: its market, its grid, its label. -/
structure Labels (r : Resolution) (o : JoinedObservation) : Prop where
  slug : r.slug = o.pair.marketSlug
  condition : r.conditionId = o.pair.conditionId
  start : r.startTs = o.pair.marketStartTs
  stop : r.endTs = o.pair.marketEndTs
  closed : o.pair.marketEndTs ≤ o.resolvedAt.value
  time : o.resolvedAt = r.resolvedAt
  label : o.labelUp = if r.outcome = txt "UP" then 1 else 0
  decision : o.pair.marketStartTs ≤ o.pair.decisionTs.value ∧ o.pair.decisionTs.value < o.pair.marketEndTs

/-- The join labels pairs of the extraction soundly, in any order of the resolutions, and refuses
    exactly malformed records and two records of one market that differ. -/
theorem joinResolutions_sound (containerText : PyValue → Text) (reprKey : MarketKey → Text)
    (rows resolutions : List PyValue) (pairs : List T0Pair)
    (extracted : extractT0Pairs containerText rows = .ok pairs) :
    (∀ joined, joinResolutions containerText reprKey pairs resolutions = .ok joined →
      ∀ o ∈ joined, o.pair ∈ pairs ∧
        ∃ raw ∈ resolutions, ∃ r, resolutionRecord containerText raw = .ok r ∧ Labels r o) ∧
    (∀ resolutions', resolutions.Perm resolutions' →
      (joinResolutions containerText reprKey pairs resolutions').toOption =
        (joinResolutions containerText reprKey pairs resolutions).toOption) ∧
    (∀ raw ∈ resolutions, ∀ copy r, resolutionRecord containerText raw = .ok r →
      resolutionRecord containerText copy = .ok r →
        (joinResolutions containerText reprKey pairs (copy :: resolutions)).toOption =
          (joinResolutions containerText reprKey pairs resolutions).toOption) ∧
    ((∃ e, joinResolutions containerText reprKey pairs resolutions = .error e) ↔
      (∃ raw ∈ resolutions, ∃ e, resolutionRecord containerText raw = .error e) ∨
        ∃ raw ∈ resolutions, ∃ raw' ∈ resolutions, ∃ r r', resolutionRecord containerText raw = .ok r ∧
          resolutionRecord containerText raw' = .ok r' ∧ r.slug = r'.slug ∧ r.conditionId = r'.conditionId ∧
            r ≠ r') := by
  have causal : ∀ pair ∈ pairs, Causal pair := fun pair member => by
    obtain ⟨row, -, made⟩ := mem_extractT0Pairs extracted member
    exact causal_of_extractT0Pair made
  refine ⟨fun joined ok o member => ?_, fun resolutions' perm => ?_, fun raw member copy r record record' => ?_, ?_⟩
  · obtain ⟨byMarket, collected, fits, rfl⟩ := joinResolutions_eq_ok_iff.mp ok
    obtain ⟨pair, inside, found⟩ := List.mem_filterMap.mp member
    obtain ⟨r, held, rfl⟩ := Option.map_eq_some_iff.mp found
    obtain ⟨raw, given, record, same⟩ := (collected_empty collected _ _).mp held
    obtain ⟨start, stop, closed⟩ := fits pair inside raw given r record same
    exact ⟨inside, raw, given, r, record, congrArg Prod.fst same, congrArg Prod.snd same, start, stop, closed, rfl,
      rfl, (causal pair inside).inside⟩
  · exact joinResolutions_congr (sameRecords_of_perm perm.symm)
  · exact joinResolutions_congr (sameRecords_duplicate member record record')
  · have fit : AllFit containerText pairs resolutions := fun pair inside raw _ r record same =>
      fits_of_causal (causal pair inside) (valid_of_record record) same
    rw [raises_iff, joinResolutions_ok_iff, and_iff_left fit, not_consistent_iff]

/-- A row for a market, decided and measured as given. -/
def sampleRow (slug conditionId : String) (startTs : Int) (decisionTs pMarket senexRawUp : ℚ) : PyValue :=
  let poly := ofMembers [(txt "source", .str (txt "POLYMARKET_PUBLIC")),
    (txt "version", .str (txt "polymarket-btc-5m-v1")), (txt "eligible_for_prediction", .bool true),
    (txt "slug", .str (txt slug)), (txt "condition_id", .str (txt conditionId)), (txt "start_ts", .int startTs),
    (txt "end_ts", .int (startTs + 300)), (txt "up_probability", .float (Double.round pMarket))]
  let influence := ofMembers [(txt "directional_use", .bool false), (txt "experiment_enabled", .bool false),
    (txt "effective_weight", .int 0)]
  let step2 := ofMembers [(txt "polymarket_context_v1", influence),
    (txt "up_prob", .float (Double.round senexRawUp))]
  ofMembers [(txt "symbol", .str (txt "BTC/USDT")), (txt "ts", .float (Double.round decisionTs)),
    (txt "audit", ofMembers [(txt "pipeline", ofMembers [(txt "step2_features", step2)]),
      (txt "external_markets_v1", ofMembers [(txt "polymarket", poly)])])]

/-- A resolution of a market. -/
def sampleResolution (slug conditionId outcome : String) (startTs : Int) (resolvedAt : ℚ) : PyValue :=
  ofMembers [(txt "slug", .str (txt slug)), (txt "condition_id", .str (txt conditionId)),
    (txt "start_ts", .int startTs), (txt "end_ts", .int (startTs + 300)), (txt "outcome", .str (txt outcome)),
    (txt "source", .str (txt "chain")), (txt "resolved_at", .float (Double.round resolvedAt))]

def sampleRows : List PyValue := [sampleRow "btc-updown-5m-600" "0x1" 600 610 (1 / 2) (3 / 4)]

theorem joinResolutions_sound_sample :
    ∃ pairs, extractT0Pairs (fun _ => []) sampleRows = .ok pairs ∧ pairs.length = 1 ∧
      (joinResolutions (fun _ => []) (fun _ => []) pairs
          [sampleResolution "btc-updown-5m-900" "0x2" "down" 900 1200,
            sampleResolution "btc-updown-5m-600" "0x1" "up" 600 905]).toOption =
        (joinResolutions (fun _ => []) (fun _ => []) pairs
          [sampleResolution "btc-updown-5m-600" "0x1" "up" 600 905,
            sampleResolution "btc-updown-5m-900" "0x2" "down" 900 1200]).toOption := by
  have one : (match extractT0Pairs (fun _ => []) sampleRows with
      | .ok pairs => pairs.length == 1
      | .error _ => false) = true := by
    decide +kernel
  cases extracted : extractT0Pairs (fun _ => []) sampleRows with
  | error e => simp [extracted] at one
  | ok pairs =>
      refine ⟨pairs, rfl, by simpa [extracted] using one, ?_⟩
      exact (joinResolutions_sound _ _ _ _ pairs extracted).2.1 _ (.swap ..)

end Senex.Edge
