import Senex.Foundation.PyValue
import Senex.Gateway.Value

/-! # What a PATCH may change

The checks of the gateway on the body of a PATCH, on its target and on the audit it brings.  Keys
are visited in their order, where the source visits them as they were written.
-/

namespace Senex.Gateway

open Text

/-- `if (failed) throw new Error(message)` -/
def refuse (failed : Bool) (message : Text) : Except Text Unit :=
  if failed then .error message else .ok ()

@[simp] theorem refuse_eq_ok {failed : Bool} {message : Text} {u : Unit} :
    refuse failed message = .ok u ↔ failed = false := by
  cases failed <;> simp [refuse]

theorem bind_eq_ok {α β : Type} {x : Except Text α} {f : α → Except Text β} {b : β} :
    x >>= f = .ok b ↔ ∃ a, x = .ok a ∧ f a = .ok b := by
  cases x <;> simp [bind, Except.bind]

/-- `Number(value)` with its `TypeError`. -/
def number (value : Json) : Except Text Double :=
  match toNumber value with
  | some x => .ok x
  | none => .error (txt "Cannot convert object to primitive value")

/-! ## The body -/

/-- `PATCH_ALLOWED_TOP_LEVEL` -/
def patchAllowedTopLevel : List Text := [txt "outcome", txt "price_15m_later", txt "audit"]

/-- `["WIN", "LOSS"].includes(value)` -/
def isOutcomeValue : Json → Bool
  | .str t => [txt "WIN", txt "LOSS"].contains t
  | _ => false

def validatePatchShape (value : Json) : Except Text Unit :=
  match value with
  | .obj members => do
      match members.find? fun m => !patchAllowedTopLevel.contains m.1 with
      | some m => .error (txt "immutable T0 field: " ++ m.1)
      | none =>
          refuse ((Json.lookup (txt "outcome") members).any fun v => !isOutcomeValue v)
            (txt "invalid outcome patch")
          match Json.lookup (txt "price_15m_later") members with
          | none => .ok ()
          | some v =>
              let price ← number v
              refuse (!price.isFinite || price.le (Double.round 0)) (txt "invalid price_15m_later patch")
          refuse ((Json.lookup (txt "audit") members).any fun v => !v.isObject)
            (txt "audit patch must be an object")
  | _ => .error (txt "patch body")

/-! ## The target -/

def decodeFilter (raw : Text) : Text × Text :=
  if raw.contains 46 then (raw.takeWhile (· ≠ 46), (raw.dropWhile (· ≠ 46)).drop 1)
  else (txt "eq", raw)

/-- `url.searchParams.getAll(key)` -/
def getAll (key : Text) (params : List (Text × Text)) : List Text :=
  (params.filter fun p => p.1 = key).map Prod.snd

/-- `text.toUpperCase()`, as far as it can come to an outcome. -/
def toUpperCase (t : Text) : Text := t.flatMap fun c => if c = 0xDF then [83, 83] else [upperUnit c]

/-- `Number.isSafeInteger(x)` -/
def isSafeInteger (x : Double) : Bool := isInteger x && decide (|x.value| ≤ 9007199254740991)

/-- `members` are those of the body, `params` those of the URL. -/
def validatePatchTarget (params : List (Text × Text)) (members : List (Text × Json)) : Except Text Unit := do
  match params.find? fun p => !([txt "id", txt "outcome", txt "audit->outcomes_dual"].contains p.1) with
  | some p => .error (txt "patch target unsupported filter: " ++ p.1)
  | none =>
      match getAll (txt "id") params, getAll (txt "outcome") params,
        getAll (txt "audit->outcomes_dual") params with
      | [idFilter], [outcomeFilter], [auditFilter] => do
          let id := numberOfText (decodeFilter idFilter).2
          refuse ((decodeFilter idFilter).1 ≠ txt "eq" || !isSafeInteger id || id.lt (Double.round 0))
            (txt "patch target requires id=eq.<integer>")
          refuse (decodeFilter auditFilter ≠ (txt "is", txt "null"))
            (txt "patch target requires audit->outcomes_dual=is.null")
          let outcome := Json.lookup (txt "outcome") members
          if decodeFilter outcomeFilter = (txt "is", txt "null") then
            refuse (!outcome.any isOutcomeValue)
              (txt "patch target primary settlement requires outcome transition")
          else if (decodeFilter outcomeFilter).1 = txt "eq" ∧
              [txt "WIN", txt "LOSS"].contains (toUpperCase (decodeFilter outcomeFilter).2) then
            refuse outcome.isSome (txt "patch target repair cannot rewrite settled outcome")
          else .error (txt "patch target requires approved outcome compare-and-set")
      | _, _, _ => .error (txt "patch target requires exact id + outcome CAS + outcomes_dual CAS")

/-! ## The audit -/

/-- What `in` finds in every object. -/
def objectPrototype : List Text :=
  [txt "constructor", txt "__defineGetter__", txt "__defineSetter__", txt "hasOwnProperty",
    txt "__lookupGetter__", txt "__lookupSetter__", txt "isPrototypeOf", txt "propertyIsEnumerable",
    txt "toString", txt "valueOf", txt "__proto__", txt "toLocaleString"]

/-- `key in object` -/
def hasKey (key : Text) (members : List (Text × Json)) : Bool :=
  (Json.lookup key members).isSome || objectPrototype.contains key

/-- `canonical(object[key])`; `undefined` and a function have no text. -/
def canonicalMember (key : Text) (members : List (Text × Json)) : Except Text Text :=
  match Json.lookup key members with
  | some v => .ok (canonical v)
  | none => .error (txt "unsupported canonical type")

/-- The members of an object; anything else stands for an empty one. -/
def membersOf : Json → List (Text × Json)
  | .obj members => members
  | _ => []

/-- The check of one old member. -/
def checkOld (next : List (Text × Json)) (m : Text × Json) : Except Text Unit :=
  if m.1 = txt "outcomes_dual" then .ok ()
  else if !hasKey m.1 next then .error (txt "immutable audit field: " ++ m.1)
  else do
    refuse ((← canonicalMember m.1 next) ≠ canonical m.2) (txt "immutable audit field: " ++ m.1)

/-- The check of one new member. -/
def checkNew (old : List (Text × Json)) (m : Text × Json) : Except Text Unit :=
  refuse (!hasKey m.1 old && m.1 ≠ txt "outcomes_dual") (txt "new audit field not allowed: " ++ m.1)

/-- The check of the old outcomes. -/
def checkDual (next : List (Text × Json)) : Option Json → Except Text Unit
  | none | some .null => .ok ()
  | some dual => do
      refuse ((← canonicalMember (txt "outcomes_dual") next) ≠ canonical dual)
        (txt "outcomes_dual rewrite forbidden")

def validateAuditPatch (oldAudit newAudit : Json) : Except Text Unit := do
  let old := membersOf oldAudit
  let next := membersOf newAudit
  forM old (checkOld next)
  forM next (checkNew old)
  checkDual next (Json.lookup (txt "outcomes_dual") old)

/-- The checks of `rawPatch`, up to those against the row that the target has matched. -/
def checkPatch (params : List (Text × Text)) (body oldAudit : Json) (oldOutcome : Option Text) :
    Except Text Unit := do
  validatePatchShape body
  validatePatchTarget params (membersOf body)
  match Json.lookup (txt "audit") (membersOf body) with
  | some audit => validateAuditPatch oldAudit audit
  | none => .ok ()
  refuse ((Json.lookup (txt "outcome") (membersOf body)).isSome && oldOutcome.isSome)
    (txt "outcome rewrite forbidden")

/-! ## What the audit check lets through -/

theorem forM_eq_ok {α : Type} {check : α → Except Text Unit} {items : List α} {u : Unit} :
    forM items check = .ok u ↔ ∀ item ∈ items, check item = .ok () := by
  induction items with
  | nil => simp [pure, Except.pure]
  | cons item items ih =>
      rw [List.forM_cons, bind_eq_ok, List.forall_mem_cons, ← ih]
      constructor
      · rintro ⟨⟨⟩, first, rest⟩
        exact ⟨first, rest⟩
      · rintro ⟨first, rest⟩
        exact ⟨(), first, rest⟩

theorem checkOld_eq_ok {next : List (Text × Json)} {m : Text × Json} :
    checkOld next m = .ok () ↔
      m.1 = txt "outcomes_dual" ∨ ∃ v, Json.lookup m.1 next = some v ∧ canonical v = canonical m.2 := by
  unfold checkOld canonicalMember
  by_cases dual : m.1 = txt "outcomes_dual"
  · simp [dual]
  · rw [if_neg dual]
    cases found : Json.lookup m.1 next with
    | none =>
        split
        · simp [dual]
        · simp [dual, bind, Except.bind]
    | some v =>
        have present : hasKey m.1 next = true := by simp [hasKey, found]
        simp [dual, present, bind_eq_ok]

/-- Where the row has no outcomes yet, the check is one on the other members. -/
theorem validateAuditPatch_eq_ok {oldAudit newAudit : Json}
    (unsettled : Json.lookup (txt "outcomes_dual") (membersOf oldAudit) = none ∨
      Json.lookup (txt "outcomes_dual") (membersOf oldAudit) = some .null) :
    validateAuditPatch oldAudit newAudit = .ok () ↔
      (∀ m ∈ membersOf oldAudit, m.1 = txt "outcomes_dual" ∨
        ∃ v, Json.lookup m.1 (membersOf newAudit) = some v ∧ canonical v = canonical m.2) ∧
      ∀ m ∈ membersOf newAudit, hasKey m.1 (membersOf oldAudit) = true ∨ m.1 = txt "outcomes_dual" := by
  have last : checkDual (membersOf newAudit) (Json.lookup (txt "outcomes_dual") (membersOf oldAudit)) =
      .ok () := by
    rcases unsettled with nothing | nothing <;> rw [nothing] <;> rfl
  simp only [validateAuditPatch, bind_eq_ok, last, forM_eq_ok, checkOld_eq_ok, checkNew, refuse_eq_ok]
  simp [or_iff_not_imp_left]

end Senex.Gateway
