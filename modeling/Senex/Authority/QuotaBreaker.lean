import Senex.Challengers.Receipt
import Senex.Foundation.Midnight
import Senex.Foundation.TornTail
import Senex.Foundation.Transition

/-! # The quota breaker

D1 answers a read over its daily quota with an error until the next midnight in UTC.  `_d1_get` then
opens a breaker, in memory and in a file, and sends nothing before that midnight.
-/

namespace Senex.Authority

open Text Datetime

/-! ## Time -/

/-- What `datetime.now(timezone.utc)` returns, before the last day of the calendar. -/
structure UtcClock where
  now : Civil
  reset : Civil
  next : nextMidnight now = some reset

namespace UtcClock

/-- `_next_d1_reset` -/
def nextD1Reset (clock : UtcClock) : Civil := clock.reset

/-- `current < until` of two datetimes in UTC. -/
def before (clock : UtcClock) (until_ : Civil) : Bool := decide (orderKey clock.now < orderKey until_)

end UtcClock

/-! ## The state -/

/-- `_d1_quota_breaker` -/
structure BreakerMemory where
  openedAt : PyValue := .none
  openUntil : Option Text := none
  reason : PyValue := .none
  networkCalls : Nat := 0
  suppressedCalls : Nat := 0

/-- A process with its memory, the file of its breaker and `_PERSISTENT_WRITES_ALLOWED`. -/
structure BreakerProcess where
  memory : BreakerMemory := {}
  file : Option Bytes := none
  writes : Bool := true

/-- `_quota_payload_hash`; nothing is an exception. -/
def quotaPayloadHash (payload : PyValue) : Option Text := do
  let text ← PyJson.dumps (Challengers.pop (txt "state_hash") payload)
  let bytes ← Utf8.encode text
  return txt "sha256:" ++ Sha256.hexdigest bytes

/-- The unsigned payload of `_persist_quota_breaker_state`. -/
def breakerPayload (memory : BreakerMemory) : PyValue :=
  .ofMembers [(txt "contract", .str (txt "senex-d1-quota-breaker-v1")), (txt "opened_at", memory.openedAt),
    (txt "open_until", (memory.openUntil.map PyValue.str).getD .none), (txt "reason", memory.reason)]

/-- What `_persist_quota_breaker_state` writes.  All texts are ASCII, which `json.dumps` escapes nowhere. -/
def breakerBytes (memory : BreakerMemory) : Option Bytes := do
  let hash ← quotaPayloadHash (breakerPayload memory)
  let text ← PyJson.dumps ((breakerPayload memory).set (txt "state_hash") (.str hash))
  Utf8.encode text

/-- `_persist_quota_breaker_state` -/
def persistQuotaBreakerState (p : BreakerProcess) : BreakerProcess :=
  if !p.writes then p
  else { p with file := (breakerBytes p.memory).or p.file }

/-- `datetime.fromisoformat` of a text with a zone, in UTC. -/
def parseUntil (t : Text) : Option Civil := do
  let parsed ← fromIsoformat t
  let offset ← parsed.offset
  toUtc parsed.civil offset

/-- What the file says: when it was opened, until when, and why.  Nothing is an exception; the text of a
    list or of a `dict` begins with a bracket, and is neither a hash nor a datetime. -/
def readBreaker (bytes : Bytes) : Option (PyValue × Civil × PyValue) := do
  let text ← Utf8.decode bytes
  let payload ← PyJson.loads text
  if !payload.isDict || !(payload.get (txt "contract")).eqText (txt "senex-d1-quota-breaker-v1") then none
  else do
    let stated ← (payload.get (txt "state_hash")).textOrEmpty
    let hash ← quotaPayloadHash payload
    if stated ≠ hash then none
    else do
      let raw ← (payload.get (txt "open_until")).textOrEmpty
      let openUntil ← parseUntil raw
      let reason := payload.get (txt "reason")
      return (payload.get (txt "opened_at"), openUntil,
        if reason.truthy then reason else .str (txt "D1_QUOTA_EXCEEDED"))

/-- The memory of a breaker that was opened now. -/
def openedMemory (clock : UtcClock) (reason : Text) (memory : BreakerMemory) : BreakerMemory :=
  { memory with
    openedAt := .str (isoformat clock.now)
    openUntil := some (isoformat clock.nextD1Reset)
    reason := .str reason }

/-- `_load_quota_breaker_state` -/
def loadQuotaBreakerState (clock : UtcClock) (p : BreakerProcess) : BreakerProcess :=
  match p.file with
  | none => p
  | some bytes =>
      match readBreaker bytes with
      | some (openedAt, openUntil, reason) =>
          { p with memory := { p.memory with openedAt, openUntil := some (isoformat openUntil), reason } }
      | none =>
          persistQuotaBreakerState
            { p with memory := openedMemory clock (txt "D1_QUOTA_BREAKER_STATE_CORRUPT") p.memory }

/-- `_clear_quota_breaker_state` -/
def clearQuotaBreakerState (p : BreakerProcess) : BreakerProcess :=
  if !p.writes then p else { p with file := none }

/-- The fields of `_quota_breaker_status`. -/
structure BreakerStatus where
  isOpen : Bool
  openedAt : PyValue
  openUntil : Option Text
  reason : PyValue
  networkCalls : Nat
  suppressedCalls : Nat

/-- `_quota_breaker_status` behind its loading, where `early` says whether a date is still to come. -/
def loadedStatus (early : Civil → Bool) (loaded : BreakerProcess) : BreakerProcess × BreakerStatus :=
  let openUntil := (loaded.memory.openUntil.filter fun raw => !raw.isEmpty).bind parseUntil
  let isOpen := openUntil.any early
  let settled := if openUntil.isSome && !isOpen then
      clearQuotaBreakerState { loaded with memory := { loaded.memory with
        openedAt := .none, openUntil := none, reason := .none } }
    else loaded
  (settled, {
    isOpen
    openedAt := settled.memory.openedAt
    openUntil := if openUntil.isSome && !isOpen then none else openUntil.map isoformat
    reason := settled.memory.reason
    networkCalls := settled.memory.networkCalls
    suppressedCalls := settled.memory.suppressedCalls })

/-- `_quota_breaker_status` -/
def quotaBreakerStatus (clock : UtcClock) (p : BreakerProcess) : BreakerProcess × BreakerStatus :=
  loadedStatus clock.before
    (if (p.memory.openUntil.getD []).isEmpty then loadQuotaBreakerState clock p else p)

/-- `_open_d1_quota_breaker` -/
def openD1QuotaBreaker (clock : UtcClock) (p : BreakerProcess) : BreakerProcess × BreakerStatus :=
  quotaBreakerStatus clock (persistQuotaBreakerState
    { p with memory := openedMemory clock (txt "D1_QUOTA_EXCEEDED") p.memory })

/-! ## Requests -/

structure D1Response where
  statusCode : Int
  text : Text

/-- `_is_d1_quota_response` -/
def isD1QuotaResponse (response : D1Response) : Bool :=
  response.statusCode == 429 ||
    [txt "daily row read limit", txt "free tier daily row read", txt "d1 quota", txt "quota exceeded",
      txt "exceeded d1", txt "exceeded d1's free tier daily row read limit"].any fun marker =>
        decide (marker <:+: pyLower response.text)

/-- The text of a `D1QuotaExceededError`. -/
def quotaMessage (status : BreakerStatus) (suppressed : Bool) : Text :=
  txt "D1_QUOTA_EXCEEDED;retry_at=" ++ status.openUntil.getD (txt "None") ++ txt ";network_call_suppressed=" ++
    if suppressed then txt "true" else txt "false"

/-- `_d1_get` up to its request, which is sent unless the call raises. -/
def beginGet (clock : UtcClock) (p : BreakerProcess) : BreakerProcess × Except Text Unit :=
  let (checked, status) := quotaBreakerStatus clock p
  if status.isOpen then
    ({ checked with memory := { checked.memory with suppressedCalls := checked.memory.suppressedCalls + 1 } },
      .error (quotaMessage status true))
  else
    ({ checked with memory := { checked.memory with networkCalls := checked.memory.networkCalls + 1 } }, .ok ())

/-- `_d1_get` behind its request. -/
def finishGet (clock : UtcClock) (response : D1Response) (p : BreakerProcess) :
    BreakerProcess × Except Text D1Response :=
  if isD1QuotaResponse response then
    let (opened, status) := openD1QuotaBreaker clock p
    (opened, .error (quotaMessage status false))
  else (p, .ok response)

/-! ## Steps -/

inductive BreakerStep where
  /-- A read begins. -/
  | begin (clock : UtcClock)
  /-- A read is answered; other reads may have begun since. -/
  | finish (clock : UtcClock) (response : D1Response)
  /-- `get_d1_quota_breaker_status` -/
  | status (clock : UtcClock)
  | restart
  /-- `set_persistent_writes_allowed` -/
  | setWrites (allowed : Bool)
  /-- The file is damaged. -/
  | damage (bytes : Bytes)

def breakerStep (p : BreakerProcess) : BreakerStep → BreakerProcess
  | .begin clock => (beginGet clock p).1
  | .finish clock response => (finishGet clock response p).1
  | .status clock => (quotaBreakerStatus clock p).1
  | .restart => { memory := {}, file := p.file, writes := true }
  | .setWrites allowed => { p with writes := allowed }
  | .damage bytes => { p with file := some bytes }

/-- The reads that a step sends. -/
def sends (p : BreakerProcess) : BreakerStep → List UtcClock
  | .begin clock => if (quotaBreakerStatus clock p).2.isOpen then [] else [clock]
  | _ => []

/-! ## The file is read back -/

/-- A `dict` of texts. -/
def textDict (members : List (Text × Text)) : PyValue := .dict (members.map fun m => (m.1, .str m.2))

private theorem exists_dumpMembers {members : List (Text × Text)}
    (ascii : ∀ m ∈ members, (∀ c ∈ m.1, c < 0x80) ∧ ∀ c ∈ m.2, c < 0x80) :
    ∃ t, PyJson.dumpMembers (members.map fun m => (m.1, .str m.2)) = some t ∧ ∀ c ∈ t, c < 0x80 := by
  induction members with
  | nil => exact ⟨[], rfl, by simp⟩
  | cons m members ih =>
      obtain ⟨key, value⟩ := m
      obtain ⟨ascii_key, ascii_value⟩ := ascii (key, value) (.head _)
      have quoted_key := TornTail.ascii_pyQuote ascii_key
      have quoted_value := TornTail.ascii_pyQuote ascii_value
      obtain ⟨t, written, ascii_rest⟩ := ih fun m inside => ascii m (.tail _ inside)
      cases members with
      | nil =>
          refine ⟨_, rfl, ?_⟩
          intro c inside
          simp only [List.mem_cons, List.mem_append, List.not_mem_nil, or_false] at inside
          grind
      | cons next members =>
          refine ⟨34 :: Json.pyQuote key ++ 34 :: 58 :: ((34 :: Json.pyQuote value ++ [34]) ++ 44 :: t), ?_, ?_⟩
          · simp only [List.map_cons, PyJson.dumpMembers, PyJson.dumps]
            rw [List.map_cons] at written
            rw [written]
            rfl
          · intro c inside
            simp only [List.mem_cons, List.mem_append, List.not_mem_nil, or_false] at inside
            grind

theorem exists_dumps_textDict {members : List (Text × Text)}
    (ascii : ∀ m ∈ members, (∀ c ∈ m.1, c < 0x80) ∧ ∀ c ∈ m.2, c < 0x80) :
    ∃ t, PyJson.dumps (textDict members) = some t ∧ Utf8.encode t = some t := by
  obtain ⟨t, written, plain⟩ := exists_dumpMembers ascii
  refine ⟨123 :: t ++ [125], by rw [textDict, PyJson.dumps, written]; rfl, Utf8.encode_ascii ?_⟩
  intro c inside
  simp only [List.mem_cons, List.mem_append, List.not_mem_nil, or_false] at inside
  grind

theorem ordered_textDict {members : List (Text × Text)} (sorted : (members.map Prod.fst).Pairwise (· < ·)) :
    PyJson.Ordered (textDict members) := by
  have below : PyJson.OrderedMembers (members.map fun m => (m.1, PyValue.str m.2)) := by
    clear sorted
    induction members with
    | nil => trivial
    | cons m members ih => exact ⟨trivial, ih⟩
  refine ⟨?_, below⟩
  rw [Json.Sorted, List.pairwise_map]
  exact List.pairwise_map.mp sorted

/-- A breaker that was opened at one text until a datetime, for a reason. -/
structure Opened (memory : BreakerMemory) (at_ : Text) (until_ : Civil) (reason : Text) : Prop where
  openedAt : memory.openedAt = .str at_
  openUntil : memory.openUntil = some (isoformat until_)
  reason_eq : memory.reason = .str reason
  ascii : (∀ c ∈ at_, c < 0x80) ∧ ∀ c ∈ reason, c < 0x80
  given : reason ≠ []

theorem ascii_isoformat (c : Civil) : ∀ u ∈ isoformat c, u < 0x80 := by
  have digits {width n u : Nat} (inside : u ∈ padded width n) : u < 0x80 := by
    have digit := isDigit_of_mem_padded inside
    simp only [isDigit, Bool.and_eq_true, decide_eq_true_eq] at digit
    omega
  have zone : ∀ u ∈ txt "+00:00", u < 0x80 := by decide
  intro u inside
  unfold isoformat isoDate isoClock at inside
  split at inside <;>
    simp only [List.mem_append, List.mem_cons] at inside <;>
    grind

theorem isoformat_ne_nil (c : Civil) : isoformat c ≠ [] := by
  unfold isoformat isoDate
  split <;> simp

theorem parseUntil_isoformat (c : Civil) : parseUntil (isoformat c) = some c := by
  simp [parseUntil, fromIsoformat_isoformat]

/-- What is written for an opened breaker says when, until when and why. -/
theorem readBreaker_breakerBytes {memory : BreakerMemory} {at_ reason : Text} {until_ : Civil}
    (opened : Opened memory at_ until_ reason) :
    ∃ bytes, breakerBytes memory = some bytes ∧ readBreaker bytes = some (.str at_, until_, .str reason) := by
  let unsigned : List (Text × Text) := [(txt "contract", txt "senex-d1-quota-breaker-v1"),
    (txt "open_until", isoformat until_), (txt "opened_at", at_), (txt "reason", reason)]
  have ascii : ∀ m ∈ unsigned, (∀ c ∈ m.1, c < 0x80) ∧ ∀ c ∈ m.2, c < 0x80 := by
    have iso := ascii_isoformat until_
    intro m inside
    simp only [unsigned, List.mem_cons, List.not_mem_nil, or_false] at inside
    rcases inside with rfl | rfl | rfl | rfl
    · exact ⟨by decide, by decide⟩
    · exact ⟨show ∀ c ∈ txt "open_until", c < 0x80 by decide, iso⟩
    · exact ⟨show ∀ c ∈ txt "opened_at", c < 0x80 by decide, opened.ascii.1⟩
    · exact ⟨show ∀ c ∈ txt "reason", c < 0x80 by decide, opened.ascii.2⟩
  have payload : breakerPayload memory = textDict unsigned := by
    rw [breakerPayload, opened.openedAt, opened.openUntil, opened.reason_eq]
    rfl
  obtain ⟨text, written, coded⟩ := exists_dumps_textDict ascii
  let hash := txt "sha256:" ++ Sha256.hexdigest text
  let signed := unsigned ++ [(txt "state_hash", hash)]
  have hashed : quotaPayloadHash (textDict unsigned) = some hash := by
    have whole : Challengers.pop (txt "state_hash") (textDict unsigned) = textDict unsigned := rfl
    simp only [quotaPayloadHash, whole, written, coded, Option.bind_eq_bind, Option.bind_some]
    rfl
  have signing : (textDict unsigned).set (txt "state_hash") (.str hash) = textDict signed := rfl
  have ascii_signed : ∀ m ∈ signed, (∀ c ∈ m.1, c < 0x80) ∧ ∀ c ∈ m.2, c < 0x80 := by
    intro m inside
    rcases List.mem_append.mp inside with old | new
    · exact ascii m old
    · rw [List.mem_singleton.mp new]
      refine ⟨show ∀ c ∈ txt "state_hash", c < 0x80 by decide, ?_⟩
      intro c inside
      rcases List.mem_append.mp inside with front | digest
      · exact (show ∀ c ∈ txt "sha256:", c < 0x80 by decide) c front
      · exact TornTail.ascii_hexdigest text c digest
  obtain ⟨bytes, written', coded'⟩ := exists_dumps_textDict ascii_signed
  have ordered : PyJson.Ordered (textDict signed) :=
    ordered_textDict (show [txt "contract", txt "open_until", txt "opened_at", txt "reason", txt "state_hash"].Pairwise
      (· < ·) by decide)
  refine ⟨bytes, ?_, ?_⟩
  · simp only [breakerBytes, payload, hashed, signing, written', Option.bind_eq_bind, Option.bind_some, coded']
  · have object : (textDict signed).isDict = true := rfl
    have contract : (textDict signed).get (txt "contract") = .str (txt "senex-d1-quota-breaker-v1") := rfl
    have stated : (textDict signed).get (txt "state_hash") = .str hash := rfl
    have openUntil : (textDict signed).get (txt "open_until") = .str (isoformat until_) := rfl
    have openedAt : (textDict signed).get (txt "opened_at") = .str at_ := rfl
    have why : (textDict signed).get (txt "reason") = .str reason := rfl
    have again : quotaPayloadHash (textDict signed) = some hash := hashed
    have given := opened.given
    have iso := isoformat_ne_nil until_
    have filled : hash ≠ [] := List.cons_ne_nil _ _
    simp [readBreaker, Utf8.decode_encode coded', PyJson.loads_dumps ordered written', object, contract, stated, again,
      openUntil, openedAt, why, PyValue.textOrEmpty, PyValue.truthy, PyValue.text?, filled, given, iso,
      parseUntil_isoformat]

end Senex.Authority
