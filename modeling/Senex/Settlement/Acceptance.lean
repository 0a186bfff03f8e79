import Senex.Gateway.Patch
import Senex.Gateway.Row
import Senex.Settlement.Reconciler
import Senex.Settlement.Wire

/-! # The reconciler and the gateway

The local authority keeps two members of an audit, the reconciler sends back what the local
authority keeps, and the gateway wants all of the audit back.
-/

namespace Senex

open Text

/-! ## Values that can be written -/

namespace PyValue

mutual
/-- `json.dumps` writes the value: no float in it is infinite or no number. -/
def Dumpable : PyValue → Prop
  | .none | .bool _ | .int _ | .str _ => True
  | .float x => x.isFinite = true
  | .list items => DumpableItems items
  | .dict members => DumpableMembers members

def DumpableItems : List PyValue → Prop
  | [] => True
  | item :: items => Dumpable item ∧ DumpableItems items

def DumpableMembers : List (Text × PyValue) → Prop
  | [] => True
  | (_, value) :: members => Dumpable value ∧ DumpableMembers members
end

mutual
theorem dumps_of_dumpable {v : PyValue} (dumpable : Dumpable v) : ∃ j, dumps v = some j := by
  cases v with
  | none | bool | int | str => exact ⟨_, rfl⟩
  | float x => exact ⟨_, if_pos dumpable⟩
  | list items =>
      obtain ⟨js, written⟩ := dumpItems_of_dumpable dumpable
      exact ⟨.arr js, by rw [dumps, written]; rfl⟩
  | dict members =>
      obtain ⟨js, written⟩ := dumpMembers_of_dumpable dumpable
      exact ⟨.obj js, by rw [dumps, written]; rfl⟩

theorem dumpItems_of_dumpable {items : List PyValue} (dumpable : DumpableItems items) :
    ∃ js, dumpItems items = some js := by
  cases items with
  | nil => exact ⟨[], rfl⟩
  | cons item items =>
      obtain ⟨j, written⟩ := dumps_of_dumpable dumpable.1
      obtain ⟨js, rest⟩ := dumpItems_of_dumpable dumpable.2
      exact ⟨j :: js, by simp [dumpItems, written, rest]⟩

theorem dumpMembers_of_dumpable {members : List (Text × PyValue)} (dumpable : DumpableMembers members) :
    ∃ js, dumpMembers members = some js := by
  cases members with
  | nil => exact ⟨[], rfl⟩
  | cons m members =>
      obtain ⟨key, value⟩ := m
      obtain ⟨j, written⟩ := dumps_of_dumpable dumpable.1
      obtain ⟨js, rest⟩ := dumpMembers_of_dumpable dumpable.2
      exact ⟨(key, j) :: js, by simp [dumpMembers, written, rest]⟩
end

theorem dumpableMembers_iff (members : List (Text × PyValue)) :
    DumpableMembers members ↔ ∀ m ∈ members, Dumpable m.2 := by
  induction members with
  | nil => simp [DumpableMembers]
  | cons m members ih => simp [DumpableMembers, ih]

theorem dumpable_ofMembers {members : List (Text × PyValue)} (dumpable : ∀ m ∈ members, Dumpable m.2) :
    Dumpable (ofMembers members) := by
  have fold : ∀ (members acc : List (Text × PyValue)), (∀ m ∈ members, Dumpable m.2) →
      (∀ m ∈ acc, Dumpable m.2) →
      ∀ m ∈ members.foldl (fun acc m => Json.insert m.1 m.2 acc) acc, Dumpable m.2 := by
    intro members
    induction members with
    | nil => exact fun acc _ ready => ready
    | cons first members ih =>
        intro acc todo ready
        apply ih
        · exact fun m hm => todo m (List.mem_cons_of_mem _ hm)
        · intro m hm
          rcases Json.mem_insert hm with rfl | old
          · exact todo first List.mem_cons_self
          · exact ready m old
  exact (dumpableMembers_iff _).mpr (fold members [] dumpable (by simp))

/-- The members of a `dict` are written one by one. -/
theorem lookup_dumpMembers {members : List (Text × PyValue)} {js : List (Text × Json)}
    (written : dumpMembers members = some js) (key : Text) :
    Json.lookup key js = (Json.lookup key members).bind dumps := by
  induction members generalizing js with
  | nil =>
      cases written
      rfl
  | cons m members ih =>
      obtain ⟨k, value⟩ := m
      simp only [dumpMembers, Option.bind_eq_bind, Option.bind_eq_some_iff, Option.pure_def,
        Option.some.injEq] at written
      obtain ⟨j, first, rest, others, rfl⟩ := written
      rw [Json.lookup, Json.lookup, ih others]
      split
      · rw [Option.bind_some, first]
      · rfl

end PyValue

namespace Settlement

open Gateway

/-! ## Evidence can be written -/

theorem dumpable_evidence {exchange : PyValue} {symbol : Text} {tsIso : PyValue} {windowSeconds : Int}
    (r : PriceReading exchange symbol tsIso windowSeconds) : r.evidence.Dumpable := by
  have finite : r.price.isFinite = true := by
    have fit := r.admissible
    simp only [admissible, Bool.and_eq_true] at fit
    exact fit.1.1.2
  apply PyValue.dumpable_ofMembers
  simp [PyValue.Dumpable, finite]

theorem dumpable_repairedDual {outcome15m outcome1h observedAt : Text} {price15m price1h : Double}
    {ev15m ev1h : PyValue} (finite15m : price15m.isFinite = true) (finite1h : price1h.isFinite = true)
    (dumpable15m : ev15m.Dumpable) (dumpable1h : ev1h.Dumpable) :
    (repairedDual outcome15m outcome1h price15m price1h ev15m ev1h observedAt).Dumpable := by
  have evidence : (PyValue.ofMembers [(txt "15m", ev15m), (txt "1h", ev1h)]).Dumpable :=
    PyValue.dumpable_ofMembers (by simp [dumpable15m, dumpable1h])
  have observation (writer : Text) : (settlementObservation observedAt writer).Dumpable :=
    PyValue.dumpable_ofMembers (by simp [PyValue.Dumpable])
  apply PyValue.dumpable_ofMembers
  simp [PyValue.Dumpable, finite15m, finite1h, evidence, observation]

theorem outcomeOf_finite {direction outcome : Text} {origin later : Double}
    (decided : outcomeOf direction origin later = some outcome) : later.isFinite = true := by
  unfold outcomeOf at decided
  split at decided
  · cases decided
  · rename_i sound
    simp only [Bool.or_eq_true, not_or, Bool.not_eq_true] at sound
    simpa using sound.2

/-! ## From the store to the reconciler -/

/-- What a GET of the authority projection says of one member of the audit, as Python reads it. -/
def projectedMember (stored : Source) (key : Text) : Option PyValue :=
  PyValue.ofJson (stringify ((stored.audit.get? key).getD .null))

/-- The row of a GET in the local authority: `_authority_row_from_projection` of
    `AUTHORITY_HISTORY_SELECT`. -/
def authorityRow (stored : Source) : Option Row := do
  let origin ← projectedMember stored (txt "origin_price_v1")
  let dual ← projectedMember stored (txt "outcomes_dual")
  let priceNow ← PyValue.ofNumber stored.priceNow.jsString
  let keep (key : Text) (value : PyValue) : List (Text × PyValue) := if value.isDict then [(key, value)] else []
  return {
    id := stored.id
    ts := apiTs stored.ts
    symbol := stored.symbol
    prediction := stored.prediction
    exchangeUsed := stored.exchangeUsed
    priceNow
    price15mLater := .none
    outcome := stored.outcome
    audit := .ofMembers (keep (txt "origin_price_v1") origin ++ keep (txt "outcomes_dual") dual) }

/-- The parameters of the PATCH. -/
def repairFilters (row : Row) : List (Text × Text) :=
  [(txt "id", txt "eq." ++ ofNat row.id), (txt "outcome", txt "eq." ++ row.outcome.getD (txt "None")),
    (txt "audit->outcomes_dual", txt "is.null")]

/-- The body of the PATCH, as the gateway reads it. -/
def RepairPatch.body (patch : RepairPatch) : Option Json :=
  (PyValue.ofMembers [(txt "price_15m_later", .float patch.price15mLater), (txt "audit", patch.audit)]).dumps.map
    Json.own

/-- A repair leaves the other members as they are and sets the outcomes for good. -/
structure Settles (old new : Json) : Prop where
  others : ∀ key, key ≠ txt "outcomes_dual" →
    (Json.lookup key (membersOf new)).map canonical = (Json.lookup key (membersOf old)).map canonical
  settled : ∃ dual, Json.lookup (txt "outcomes_dual") (membersOf new) = some dual ∧ dual.isObject = true
  once : ∀ later, validateAuditPatch new later = .ok () →
    (Json.lookup (txt "outcomes_dual") (membersOf later)).map canonical =
      (Json.lookup (txt "outcomes_dual") (membersOf new)).map canonical

/-- The row has no outcomes yet. -/
def Unsettled (stored : Source) : Prop :=
  Json.lookup (txt "outcomes_dual") (membersOf stored.audit) = none ∨
    Json.lookup (txt "outcomes_dual") (membersOf stored.audit) = some .null

/-! ## The body of the PATCH -/

/-- The body for a witness and some outcomes, as the gateway reads it. -/
def repairBody (origin dual : Json) (price : Double) : Json :=
  .obj [(txt "audit", .obj [(txt "origin_price_v1", origin), (txt "outcomes_dual", dual)]),
    (txt "price_15m_later", .num price.pyRepr)]

theorem body_eq {origin dual : PyValue} {price : Double} {originJson dualJson : Json}
    (finite : price.isFinite = true) (origin_eq : origin.dumps = some originJson)
    (dual_eq : dual.dumps = some dualJson) :
    RepairPatch.body ⟨price, (PyValue.ofMembers [(txt "origin_price_v1", origin)]).set (txt "outcomes_dual") dual⟩ =
      some (repairBody originJson.own dualJson.own price) := by
  have keys : ¬ txt "outcomes_dual" < txt "origin_price_v1" ∧ ¬ txt "price_15m_later" < txt "audit" ∧
      txt "audit" < txt "price_15m_later" := by decide
  have audit : (PyValue.ofMembers [(txt "origin_price_v1", origin)]).set (txt "outcomes_dual") dual =
      .dict [(txt "origin_price_v1", origin), (txt "outcomes_dual", dual)] := by
    simp [PyValue.ofMembers, PyValue.set, Json.insert, keys]
  rw [RepairPatch.body, audit]
  simp [PyValue.ofMembers, Json.insert, keys, PyValue.dumps, PyValue.dumpMembers, finite, origin_eq, dual_eq,
    repairBody, Json.own, Json.ownMembers, Json.protoKey]

/-- What the reconciler has read of the witness and of the outcomes. -/
theorem authorityRow_audit {stored : Source} {row : Row} (read : authorityRow stored = some row)
    (unsettled : Unsettled stored)
    (dict : ((auditDict row.audit).get (txt "origin_price_v1")).isDict = true) :
    ∃ origin, projectedMember stored (txt "origin_price_v1") = some origin ∧ origin.isDict = true ∧
      auditDict row.audit = .ofMembers [(txt "origin_price_v1", origin)] := by
  have nothing : projectedMember stored (txt "outcomes_dual") = some .none := by
    have member : (stored.audit.get? (txt "outcomes_dual")).getD .null = .null := by
      cases audit : stored.audit with
      | obj members =>
          simp only [Unsettled, audit, membersOf] at unsettled
          rcases unsettled with absent | null <;> simp [Json.get?, *]
      | _ => rfl
    rw [projectedMember, member]
    rfl
  simp only [authorityRow, nothing, Option.bind_eq_bind, Option.bind_some, Option.bind_eq_some_iff,
    Option.pure_def, Option.some.injEq] at read
  obtain ⟨origin, origin_eq, _, -, rfl⟩ := read
  refine ⟨origin, origin_eq, ?_⟩
  by_cases isDict : origin.isDict = true
  · refine ⟨isDict, ?_⟩
    simp only [isDict, if_true]
    rfl
  · simp only [isDict] at dict
    cases dict

/-! ## The checks of the gateway -/

theorem validatePatchShape_repairBody {origin dual : Json} {price : Double} (finite : price.isFinite = true)
    (positive : notPositive price = false) : validatePatchShape (repairBody origin dual price) = .ok () := by
  have notZero : price.magnitude ≠ 0 := by
    cases price with
    | nan => cases finite
    | infinity => cases finite
    | finite negative m e canonical =>
        intro zero
        simp only [Double.magnitude] at zero
        simp [notPositive, Double.le, Double.isNan, Double.value, zero, Double.round, Double.ofMagnitude] at positive
  have read : number (.num price.pyRepr) = .ok price := by
    simp [number, toNumber, numberOf, Double.read_pyRepr finite notZero]
  have least : price.le (Double.round 0) = false := positive
  simp only [repairBody, validatePatchShape, patchAllowedTopLevel, Json.lookup]
  simp [read, Json.isObject]
  simp [bind, Except.bind, refuse, finite, least]

/-- The gateway counts an id exactly. -/
def IsSafe (id : Nat) : Prop := id ≤ 9007199254740991

theorem numberOfText_ofNat (n : Nat) : numberOfText (ofNat n) = Double.ofMagnitude false n := by
  obtain ⟨c, ds, shape, digit, rest, -⟩ := ofNat_shape n
  have digits : ∀ d ∈ ofNat n, isDigit d = true := fun _ hd => isDigit_of_mem_ofNat hd
  have solid : ∀ d ∈ ofNat n, isJsSpace d = false := by
    intro d inside
    have isDigit := digits d inside
    simp only [Text.isDigit, Bool.and_eq_true, decide_eq_true_eq] at isDigit
    simp only [isJsSpace, Bool.or_eq_false_iff, Bool.and_eq_false_iff, decide_eq_false_iff_not,
      List.contains_eq_mem, List.mem_cons, List.not_mem_nil, or_false, not_or]
    omega
  have stripped : stripBy isJsSpace (ofNat n) = ofNat n := by
    apply stripBy_eq_self
    · exact fun d hd => solid d (List.mem_of_mem_head? hd)
    · exact fun d hd => solid d (List.mem_of_mem_getLast? hd)
  have nonempty : ofNat n ≠ [] := by simp [shape]
  have read : numberOf (ofNat n) = Double.ofMagnitude false n := by
    rw [numberOf, ← List.nil_append (ofNat n)]
    exact congrArg (Option.getD · .nan) (read_ofNat false n)
  have signed := PyValue.sign_digits false nonempty digits
  rw [if_neg (by decide), List.nil_append] at signed
  have unnamed : ofNat n ≠ txt "Infinity" := by
    intro named
    have first := digits 73 (by rw [named]; decide)
    cases first
  have letter (c : Nat) (notDigit : isDigit c = false) : c ∉ ofNat n := by
    intro inside
    rw [digits c inside] at notDigit
    cases notDigit
  rw [numberOfText, stripped]
  simp only
  split
  · rename_i empty
    exact absurd empty nonempty
  · rename_i spelled
    exact absurd (by simp [spelled]) (letter 120 (by decide))
  · rename_i spelled
    exact absurd (by simp [spelled]) (letter 88 (by decide))
  · rename_i spelled
    exact absurd (by simp [spelled]) (letter 111 (by decide))
  · rename_i spelled
    exact absurd (by simp [spelled]) (letter 79 (by decide))
  · rename_i spelled
    exact absurd (by simp [spelled]) (letter 98 (by decide))
  · rename_i spelled
    exact absurd (by simp [spelled]) (letter 66 (by decide))
  · rw [signed, if_neg unnamed, read]

theorem isSafeInteger_natCast (n : Nat) : isSafeInteger (Double.ofMagnitude false n) = true ↔ IsSafe n := by
  unfold IsSafe
  constructor
  · intro safe
    by_contra large
    simp only [isSafeInteger, Bool.and_eq_true, decide_eq_true_eq] at safe
    have above := @Double.le_value_natCast n (by omega)
    have below := (le_abs_self _).trans safe.2
    norm_num at above below
    linarith
  · intro small
    have exact := @Double.value_natCast n (by omega)
    have bound : (n : ℚ) ≤ 9007199254740991 := by exact_mod_cast small
    simp [isSafeInteger, isInteger, @Double.isFinite_natCast n (by omega), exact, abs_of_nonneg, bound]

theorem decodeFilter_eq (t : Text) : decodeFilter (txt "eq." ++ t) = (txt "eq", t) := by
  simp [decodeFilter, txt]

/-- The target of a repair is approved if its id is counted exactly. -/
theorem validatePatchTarget_repairFilters {row : Row} {outcome : Text} {origin dual : Json} {price : Double}
    (settled : row.outcome = some outcome) (valid : validOutcomes.contains outcome = true) :
    validatePatchTarget (repairFilters row) (membersOf (repairBody origin dual price)) = .ok () ↔
      IsSafe row.id := by
  have upper : [txt "WIN", txt "LOSS"].contains (toUpperCase outcome) = true := by
    simp only [validOutcomes, List.contains_cons, List.contains_nil, Bool.or_false, Bool.or_eq_true,
      beq_iff_eq] at valid
    rcases valid with rfl | rfl <;> decide
  have nonneg : (Double.ofMagnitude false row.id).lt (Double.round 0) = false := by
    have least := Double.value_ofMagnitude_nonneg (row.id : ℚ)
    have zero : (Double.round 0).value = 0 := by simp [Double.round, Double.ofMagnitude, Double.value]
    simp [Double.lt, zero, least]
  have names : (repairFilters row).find? (fun p =>
      !([txt "id", txt "outcome", txt "audit->outcomes_dual"].contains p.1)) = none := by
    simp [repairFilters]
  have filters : getAll (txt "id") (repairFilters row) = [txt "eq." ++ ofNat row.id] ∧
      getAll (txt "outcome") (repairFilters row) = [txt "eq." ++ outcome] ∧
      getAll (txt "audit->outcomes_dual") (repairFilters row) = [txt "is.null"] := by
    simp [getAll, repairFilters, settled]
  have auditFilter : decodeFilter (txt "is.null") = (txt "is", txt "null") := by decide
  have outcomeFilter : (txt "eq", outcome) ≠ (txt "is", txt "null") := by simp
  have noOutcome : Json.lookup (txt "outcome") (membersOf (repairBody origin dual price)) = none := by
    simp [repairBody, membersOf, Json.lookup]
  simp only [validatePatchTarget, names, filters.1, filters.2.1, filters.2.2, decodeFilter_eq, auditFilter,
    outcomeFilter, noOutcome, numberOfText_ofNat, nonneg, upper]
  simp [bind_eq_ok, isSafeInteger_natCast]

/-- The witness comes back whole if none of its members is called `__proto__`. -/
theorem canonical_carried {origin : Json} (holds : Holds origin) :
    canonical (origin.mapNumbers carry).own = canonical origin ↔ origin.Plain := by
  rw [← canonical_own_iff holds, Json.own_mapNumbers, canonical, mapNumbers_respell_carry holds.own.finite]
  rfl

/-- The audit that a repair brings. -/
def repairedAudit (origin dual : Json) : Json :=
  .obj [(txt "origin_price_v1", origin), (txt "outcomes_dual", dual)]

theorem lookup_repairedAudit (origin dual : Json) (key : Text) :
    Json.lookup key (membersOf (repairedAudit origin dual)) =
      if key = txt "origin_price_v1" then some origin
      else if key = txt "outcomes_dual" then some dual else none := rfl

theorem validateAuditPatch_repairedAudit {old : List (Text × Json)} {origin dual : Json}
    (holds : Holds (.obj old))
    (unsettled : Json.lookup (txt "outcomes_dual") old = none ∨
      Json.lookup (txt "outcomes_dual") old = some .null)
    (found : Json.lookup (txt "origin_price_v1") old = some origin) :
    validateAuditPatch (.obj old) (repairedAudit (origin.mapNumbers carry).own dual) = .ok () ↔
      (∀ m ∈ old, m.1 = txt "origin_price_v1" ∨ m.1 = txt "outcomes_dual") ∧ origin.Plain := by
  have carried := canonical_carried (holds.lookup found)
  have present : hasKey (txt "origin_price_v1") old = true := by simp [hasKey, found]
  have distinct := Json.Sorted.distinct holds.wellFormed.1
  rw [@validateAuditPatch_eq_ok (.obj old) _ unsettled]
  constructor
  · rintro ⟨kept, _⟩
    constructor
    · intro m member
      rcases kept m member with settled | ⟨v, carriedMember, -⟩
      · exact Or.inr settled
      · rw [lookup_repairedAudit] at carriedMember
        split at carriedMember
        · exact Or.inl ‹_›
        · split at carriedMember
          · exact Or.inr ‹_›
          · cases carriedMember
    · have member := (Json.lookup_eq_some_iff distinct).mp found
      rcases kept _ member with settled | ⟨v, carriedMember, same⟩
      · simp at settled
      · rw [lookup_repairedAudit, if_pos rfl] at carriedMember
        cases carriedMember
        exact carried.mp same
  · rintro ⟨keys, plain⟩
    constructor
    · intro m member
      rcases keys m member with witness | settled
      · right
        have value : Json.lookup m.1 old = some m.2 := (Json.lookup_eq_some_iff distinct).mpr member
        rw [witness, found] at value
        refine ⟨(origin.mapNumbers carry).own, ?_, ?_⟩
        · rw [lookup_repairedAudit, if_pos witness]
        · rw [← Option.some.inj value]
          exact carried.mpr plain
      · exact Or.inl settled
    · intro m member
      simp only [repairedAudit, membersOf, List.mem_cons, List.not_mem_nil, or_false] at member
      rcases member with rfl | rfl
      · exact Or.inl present
      · exact Or.inr rfl

/-- Once it has outcomes, an audit keeps them. -/
theorem settled_once {dual later : Json} {members : List (Text × Json)} (isObject : dual.isObject = true)
    (found : Json.lookup (txt "outcomes_dual") members = some dual)
    (accepted : validateAuditPatch (.obj members) later = .ok ()) :
    (Json.lookup (txt "outcomes_dual") (membersOf later)).map canonical =
      (Json.lookup (txt "outcomes_dual") members).map canonical := by
  simp only [validateAuditPatch, bind_eq_ok, membersOf, found] at accepted
  obtain ⟨_, -, _, -, checked⟩ := accepted
  cases dual with
  | obj dualMembers =>
      simp only [checkDual, canonicalMember, bind_eq_ok] at checked
      obtain ⟨text, same, checked⟩ := checked
      split at same
      · rename_i v present
        cases same
        rw [refuse_eq_ok, decide_eq_false_iff_not, not_not] at checked
        rw [found, membersOf.eq_def, present, Option.map_some, Option.map_some, checked]
      · cases same
  | _ => cases isObject

theorem settles_repairedAudit {old : List (Text × Json)} {origin dual : Json} (isObject : dual.isObject = true)
    (holds : Holds (.obj old)) (found : Json.lookup (txt "origin_price_v1") old = some origin)
    (keys : ∀ m ∈ old, m.1 = txt "origin_price_v1" ∨ m.1 = txt "outcomes_dual") (plain : origin.Plain) :
    Settles (.obj old) (repairedAudit (origin.mapNumbers carry).own dual) where
  others := by
    intro key other
    rw [lookup_repairedAudit]
    split
    · rename_i witness
      rw [witness, membersOf, found]
      exact congrArg some ((canonical_carried (holds.lookup found)).mpr plain)
    · rename_i noWitness
      rw [membersOf]
      cases stored : Json.lookup key old with
      | none => rfl
      | some v =>
          have member := (Json.lookup_eq_some_iff (Json.Sorted.distinct holds.wellFormed.1)).mp stored
          rcases keys _ member with witness | settled
          · exact absurd witness noWitness
          · exact absurd settled other
  settled := ⟨dual, by rw [lookup_repairedAudit]; simp, isObject⟩
  once := by
    intro later accepted
    have found : Json.lookup (txt "outcomes_dual") (membersOf (repairedAudit (origin.mapNumbers carry).own dual)) =
        some dual := by
      rw [lookup_repairedAudit]
      simp
    exact settled_once isObject found accepted

/-- The witness of a stored row, as the reconciler sends it back. -/
theorem witness_of_projected {stored : Source} {origin : PyValue} (holds : Holds stored.audit)
    (read : projectedMember stored (txt "origin_price_v1") = some origin) (dict : origin.isDict = true) :
    ∃ members witness, stored.audit = .obj members ∧
      Json.lookup (txt "origin_price_v1") members = some witness ∧
      origin.dumps = some (witness.mapNumbers carry) := by
  have nothing : PyValue.ofJson (stringify .null) = some .none := rfl
  rw [projectedMember] at read
  cases audit : stored.audit with
  | obj members =>
      rw [audit] at read holds
      cases found : Json.lookup (txt "origin_price_v1") members with
      | none =>
          rw [Json.get?, found, Option.getD_none, nothing] at read
          cases read
          cases dict
      | some witness =>
          rw [Json.get?, found, Option.getD_some] at read
          obtain ⟨v, back, written⟩ := dumps_ofJson (holds.lookup found).finite
          rw [back] at read
          cases read
          exact ⟨members, witness, rfl, found, written⟩
  | _ =>
      rw [audit] at read
      cases nothing.symm.trans read
      cases dict

theorem checkPatch_repairBody {row : Row} {outcome : Text} {origin dual oldAudit : Json} {price : Double}
    {oldOutcome : Option Text} (finite : price.isFinite = true) (positive : notPositive price = false)
    (settled : row.outcome = some outcome) (valid : validOutcomes.contains outcome = true) :
    checkPatch (repairFilters row) (repairBody origin dual price) oldAudit oldOutcome = .ok () ↔
      IsSafe row.id ∧ validateAuditPatch oldAudit (repairedAudit origin dual) = .ok () := by
  have audit : Json.lookup (txt "audit") (membersOf (repairBody origin dual price)) =
      some (repairedAudit origin dual) := by
    simp [repairBody, membersOf, Json.lookup, repairedAudit]
  have noOutcome : Json.lookup (txt "outcome") (membersOf (repairBody origin dual price)) = none := by
    simp [repairBody, membersOf, Json.lookup]
  have target := @validatePatchTarget_repairFilters row outcome origin dual price settled valid
  rw [← target, checkPatch, validatePatchShape_repairBody finite positive, audit, noOutcome]
  simp only [bind_eq_ok]
  constructor
  · rintro ⟨⟨⟩, _, ⟨⟩, approved, ⟨⟩, accepted, _⟩
    exact ⟨approved, accepted⟩
  · rintro ⟨approved, accepted⟩
    exact ⟨(), trivial, (), approved, (), accepted, rfl⟩

/-- The PATCH of a repair is accepted, leaves the other members as they are and settles the row if
    and only if the audit has no member beside the witness and the outcomes. -/
theorem repair_accepted_iff {market15m market1h : Market} {now : Civil} {stored : Source} {row : Row}
    {patch : RepairPatch} (holds : Holds stored.audit) (unsettled : Unsettled stored)
    (read : authorityRow stored = some row)
    (built : repairPatch market15m market1h now row = .ok (.inr patch)) :
    (∃ body, patch.body = some body ∧
      checkPatch (repairFilters row) body stored.audit stored.outcome = .ok () ∧
      Settles stored.audit ((Json.lookup (txt "audit") (membersOf body)).getD .null)) ↔
    (∀ m ∈ membersOf stored.audit, m.1 = txt "origin_price_v1" ∨ m.1 = txt "outcomes_dual") ∧
      (∀ witness, Json.lookup (txt "origin_price_v1") (membersOf stored.audit) = some witness → witness.Plain) ∧
      IsSafe stored.id := by
  obtain ⟨source, rowPrice, ev15m, ev1h, price15m, price1h, outcome15m, outcome1h, found, rfl⟩ :=
    found_of_patch built
  obtain ⟨origin, projected, dict, audit_eq⟩ := authorityRow_audit read unsettled found.witness.dict
  obtain ⟨members, witness, stored_eq, member, written⟩ := witness_of_projected holds projected dict
  have id_eq : row.id = stored.id := by
    simp only [authorityRow, Option.bind_eq_bind, Option.bind_eq_some_iff, Option.pure_def,
      Option.some.injEq] at read
    obtain ⟨_, -, _, -, _, -, rfl⟩ := read
    rfl
  obtain ⟨-, positive15m, -⟩ := outcomeOf_some found.outcome15m_eq
  obtain ⟨-, -, valid1h⟩ := outcomeOf_some found.outcome1h_eq
  have finite15m := outcomeOf_finite found.outcome15m_eq
  have finite1h := outcomeOf_finite found.outcome1h_eq
  have dumpable {market : Market} {windowSeconds : Int} {ev : PyValue} {price : Double}
      (priced : Priced market row windowSeconds ev price) : ev.Dumpable := by
    obtain ⟨_, -, r, rfl⟩ := reading_of_fetched priced.1
    exact dumpable_evidence r
  obtain ⟨dualJson, dual_eq⟩ : ∃ dualMembers, (repairedDual outcome15m outcome1h price15m price1h ev15m ev1h
      (Datetime.isoformat now)).dumps = some (.obj dualMembers) := by
    obtain ⟨j, dumped⟩ := PyValue.dumps_of_dumpable (@dumpable_repairedDual outcome15m outcome1h
      (Datetime.isoformat now) price15m price1h ev15m ev1h finite15m finite1h (dumpable found.priced15m)
      (dumpable found.priced1h))
    rw [repairedDual, PyValue.ofMembers, PyValue.dumps, Option.map_eq_some_iff] at dumped
    obtain ⟨dualMembers, written, rfl⟩ := dumped
    refine ⟨dualMembers, ?_⟩
    rw [repairedDual, PyValue.ofMembers, PyValue.dumps, written]
    rfl
  have body := body_eq finite15m written dual_eq
  rw [← audit_eq] at body
  rw [stored_eq] at holds ⊢
  have unsettled : Json.lookup (txt "outcomes_dual") members = none ∨
      Json.lookup (txt "outcomes_dual") members = some .null := by
    rw [Unsettled, stored_eq] at unsettled
    exact unsettled
  have accepted := @validateAuditPatch_repairedAudit members witness (Json.obj dualJson).own holds unsettled member
  have checked := @checkPatch_repairBody row outcome1h (witness.mapNumbers carry).own (Json.obj dualJson).own
    (.obj members) price15m stored.outcome finite15m positive15m found.settled valid1h
  rw [id_eq] at checked
  have isObject : (Json.obj dualJson).own.isObject = true := rfl
  simp only [body, Option.some.injEq, exists_eq_left', checked, accepted]
  constructor
  · rintro ⟨⟨safe, keys, plain⟩, _⟩
    refine ⟨keys, ?_, safe⟩
    intro other same
    cases member.symm.trans same
    exact plain
  · rintro ⟨keys, plain, safe⟩
    refine ⟨⟨safe, keys, plain witness member⟩, ?_⟩
    have audit : (Json.lookup (txt "audit") (membersOf (repairBody (witness.mapNumbers carry).own
        (Json.obj dualJson).own price15m))).getD .null =
        repairedAudit (witness.mapNumbers carry).own (Json.obj dualJson).own := by
      simp [repairBody, membersOf, Json.lookup, repairedAudit]
    rw [audit]
    exact settles_repairedAudit isObject holds member keys (plain witness member)

/-- A settled row without `outcomes_dual`, whose audit has a witness and some more members. -/
def auditedRow (more : List (Text × Json)) : Source where
  id := 1
  ts := txt "2026-01-01T00:00:00.000000Z"
  symbol := txt "BTCUSDT"
  prediction := txt "LONG"
  confidence := Double.round 1
  ev := Double.round 1
  priceNow := Double.round 100
  price15mLater := none
  outcome := some (txt "WIN")
  exchangeUsed := txt "okx"
  createdAt := txt "2026-01-01T00:00:01.000000Z"
  audit := .obj ((txt "origin_price_v1", .obj [
    (txt "price", .num (ofNat 100)),
    (txt "source", .str (txt "okx")),
    (txt "timestamp", .str (txt "2026-01-01T00:00:00Z")),
    (txt "version", .str (txt "origin-price-v1"))]) :: more)

/-- The repair of such a row in the rising market and whether the gateway accepts it. -/
def risingAcceptance (stored : Source) : Option (Option Bool) :=
  (authorityRow stored).bind fun row =>
    ((repairPatch risingMarket risingMarket risingMarket.now row).toOption.bind Sum.getRight?).map fun patch =>
      patch.body.map fun body => (checkPatch (repairFilters row) body stored.audit stored.outcome).isOk

theorem risingAcceptance_eq {stored : Source} {accepted : Option Bool}
    (run : risingAcceptance stored = some accepted) :
    ∃ row patch, authorityRow stored = some row ∧
      repairPatch risingMarket risingMarket risingMarket.now row = .ok (.inr patch) ∧
      (patch.body.map fun body => (checkPatch (repairFilters row) body stored.audit stored.outcome).isOk) =
        accepted := by
  rw [risingAcceptance, Option.bind_eq_some_iff] at run
  obtain ⟨row, read, run⟩ := run
  rw [Option.map_eq_some_iff] at run
  obtain ⟨patch, sent, checked⟩ := run
  refine ⟨row, patch, read, ?_, checked⟩
  cases result : repairPatch risingMarket risingMarket risingMarket.now row with
  | error e => rw [result] at sent; cases sent
  | ok found =>
      rw [result] at sent
      cases found with
      | inl reported => cases sent
      | inr other => cases sent; rfl

theorem holds_auditedRow {more : List (Text × Json)}
    (sorted : (txt "origin_price_v1" :: more.map Prod.fst).Pairwise (· < ·))
    (wellFormed : Json.WellFormedMembers more) (finite : Json.EachNumberMembers IsFinite more) :
    Holds (auditedRow more).audit := by
  have number : IsFinite (ofNat 100) := by
    rw [IsFinite]
    decide +kernel
  have inner : [txt "price", txt "source", txt "timestamp", txt "version"].Pairwise (· < ·) := by decide
  refine ⟨⟨List.pairwise_map.mp sorted, ⟨?_, ?_⟩, wellFormed⟩, ⟨number, trivial, trivial, trivial, trivial⟩, finite⟩
  · exact List.pairwise_map.mp inner
  · exact ⟨Json.isNumber_ofNat 100, trivial, trivial, trivial, trivial⟩

/-- With one more member in the audit, the repair is refused. -/
theorem repair_refused : ∃ row patch,
    Holds (auditedRow [(txt "prompt", .str (txt "v1"))]).audit ∧
      Unsettled (auditedRow [(txt "prompt", .str (txt "v1"))]) ∧
      authorityRow (auditedRow [(txt "prompt", .str (txt "v1"))]) = some row ∧
      repairPatch risingMarket risingMarket risingMarket.now row = .ok (.inr patch) ∧
      ¬ ∃ body, patch.body = some body ∧
        checkPatch (repairFilters row) body (auditedRow [(txt "prompt", .str (txt "v1"))]).audit
          (some (txt "WIN")) = .ok () := by
  obtain ⟨row, patch, read, built, refused⟩ :=
    @risingAcceptance_eq (auditedRow [(txt "prompt", .str (txt "v1"))]) (some false) (by decide +kernel)
  refine ⟨row, patch, ?_, Or.inl (by decide), read, built, ?_⟩
  · exact holds_auditedRow (by decide) ⟨trivial, trivial⟩ ⟨trivial, trivial⟩
  · rintro ⟨body, body_eq, accepted⟩
    rw [body_eq, Option.map_some, Option.some.injEq] at refused
    have same : (checkPatch (repairFilters row) body (auditedRow [(txt "prompt", .str (txt "v1"))]).audit
        (some (txt "WIN"))).isOk = false := refused
    rw [accepted] at same
    cases same

theorem repair_accepted_rising : ∃ row patch,
    authorityRow (auditedRow []) = some row ∧
      repairPatch risingMarket risingMarket risingMarket.now row = .ok (.inr patch) ∧
      ((∃ body, patch.body = some body ∧
          checkPatch (repairFilters row) body (auditedRow []).audit (auditedRow []).outcome = .ok () ∧
          Settles (auditedRow []).audit ((Json.lookup (txt "audit") (membersOf body)).getD .null)) ↔
        (∀ m ∈ membersOf (auditedRow []).audit,
            m.1 = txt "origin_price_v1" ∨ m.1 = txt "outcomes_dual") ∧
          (∀ witness, Json.lookup (txt "origin_price_v1") (membersOf (auditedRow []).audit) = some witness →
            witness.Plain) ∧
          IsSafe (auditedRow []).id) := by
  obtain ⟨row, patch, read, built, -⟩ :=
    @risingAcceptance_eq (auditedRow []) (some true) (by decide +kernel)
  have holds : Holds (auditedRow []).audit := holds_auditedRow (by decide) trivial trivial
  exact ⟨row, patch, read, built, repair_accepted_iff holds (Or.inl (by decide)) read built⟩

end Settlement

end Senex
