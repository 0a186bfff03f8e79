import Senex.Foundation.PyValue
import Senex.Foundation.TornTail

/-! # Sealed packets

From a prediction to its packet: the check for future fields, the projection on the decision
time, the compaction of what exceeds the target size, and the identity.
-/

namespace Senex.T0Audit

open Text

/-! ## The schema -/

/-- `SCHEMA_VERSION` -/
def schemaVersion : Text := txt "gptrader.t0.v1"

/-- `PACKET_ID_PREFIX` -/
def packetIdPrefix : Text := txt "gpt0-"

/-- `TOP_LEVEL_ALLOWLIST` without `candle_ts`, which has its own rule. -/
def topLevelAllowlist : List Text :=
  [txt "timestamp", txt "symbol", txt "prediction", txt "confidence", txt "ev", txt "price_now",
   txt "exchange_used"]

/-- `AUDIT_ALLOWLIST` -/
def auditAllowlist : List Text :=
  [txt "origin_price_v1", txt "confidence_semantics_v1", txt "execution_state",
   txt "external_markets_v1", txt "decision_replay_v1", txt "canonical_ev_contract_v1"]

/-- `PIPELINE_ALLOWLIST` -/
def pipelineAllowlist : List Text := [txt "step2_features", txt "step4_ev"]

/-- `OUTCOME_FUTURE_KEYS` -/
def outcomeFutureKeys : List Text :=
  [txt "outcome", txt "outcome_15m", txt "outcome_1h", txt "outcomes_dual", txt "price_15m_later",
   txt "price_1h_later", txt "future_price", txt "future_prices", txt "post_t0_price",
   txt "post_prediction_price", txt "current_price", txt "settled", txt "settled_at", txt "settlement",
   txt "settlement_proof", txt "settlement_proof_v1", txt "settlement_cas", txt "resolution_price",
   txt "resolved_at", txt "realized_pnl", txt "realized_pnl_usd", txt "unrealized_pnl",
   txt "unrealized_pnl_usd", txt "pnl", txt "profit", txt "review_mcp", txt "review_payload"]

/-- `str(key).lower() in OUTCOME_FUTURE_KEYS` -/
def isFutureKey (key : Text) : Bool := outcomeFutureKeys.contains (pyLower key)

/-- `has_meaningful_value` -/
def hasMeaningfulValue : Json → Bool
  | .null => false
  | .str s => !(strip s).isEmpty
  | .arr items => !items.isEmpty
  | .obj members => !members.isEmpty
  | .bool _ | .num _ => true

/-- `PACKET_TARGET_BYTES` -/
def packetTargetBytes : Nat := 4096

/-- `PACKET_HARD_MAX_BYTES` -/
def packetHardMaxBytes : Nat := 8192

/-- `_RECOVERY_MARKER_KEY` -/
def recoveryMarkerKey : Text := txt "_gptrader_recovery_v1"

/-! ## Future fields -/

mutual
/-- `_find_contamination`, the members in key order. -/
def findContamination (path : List Text) : Json → Option (List Text)
  | .obj members => findInMembers path members
  | .arr items => findInItems path 0 items
  | _ => none

def findInMembers (path : List Text) : List (Text × Json) → Option (List Text)
  | [] => none
  | (key, child) :: members =>
      if isFutureKey key && hasMeaningfulValue child then some (path ++ [key])
      else (findContamination (path ++ [key]) child).or (findInMembers path members)

def findInItems (path : List Text) (idx : Nat) : List Json → Option (List Text)
  | [] => none
  | child :: items =>
      (findContamination (path ++ [ofNat idx]) child).or (findInItems path (idx + 1) items)
end

mutual
/-- `_scrub_future_fields` -/
def scrubFutureFields : Json → Json
  | .obj members => .obj (scrubMembers members)
  | .arr items => .arr (scrubItems items)
  | other => other

def scrubMembers : List (Text × Json) → List (Text × Json)
  | [] => []
  | (key, child) :: members =>
      if isFutureKey key then scrubMembers members
      else (key, scrubFutureFields child) :: scrubMembers members

def scrubItems : List Json → List Json
  | [] => []
  | child :: items => scrubFutureFields child :: scrubItems items
end

/-- `raise OutcomeContaminationError` with the place of the field. -/
def refuseContamination (value : Json) : Py Unit :=
  match findContamination [] value with
  | some path =>
      raise .outcomeContaminationError
        (txt "PACKET_REFUSED_OUTCOME_PRESENT: " ++ (path.intersperse (txt ".")).flatten)
  | none => .ok ()

/-! ## Projection -/

/-- The members of the source under the allowed keys. -/
def pick (allowed : List Text) (source : Json) : List (Text × Json) :=
  allowed.filterMap fun key => (source.get? key).map fun value => (key, value)

/-- `value if isinstance(value, dict) else {}` -/
def objectOrEmpty (value : Json) : Json := if value.isObject then value else .obj []

/-- The payload of `_project_decision_time` before its last line scrubs it. -/
def projectedMembers (source : Json) : List (Text × Json) :=
  let auditSource := objectOrEmpty (source.get (txt "_audit"))
  let candleTs :=
    if source.get (txt "candle_ts") = .null then auditSource.get (txt "candle_ts")
    else source.get (txt "candle_ts")
  let pipeline := pick pipelineAllowlist (objectOrEmpty (auditSource.get (txt "pipeline")))
  let audit := pick auditAllowlist auditSource ++
    if pipeline.isEmpty then [] else [(txt "pipeline", .ofMembers pipeline)]
  pick topLevelAllowlist source ++
    (if candleTs = .null then [] else [(txt "candle_ts", candleTs)]) ++
    if audit.isEmpty then [] else [(txt "_audit", .ofMembers audit)]

/-- `_project_decision_time` -/
def projectDecisionTime (source : Json) : Py Json := do
  guardNot (!source.isObject) .typeError (txt "prediction source must be a dict")
  refuseContamination source
  return scrubFutureFields (.ofMembers (projectedMembers source))

/-! ## Compaction -/

/-- `_canonical_bytes` -/
def canonicalBytes (value : Json) : Py Bytes :=
  orRaise value.bytes .unicodeEncodeError (txt "surrogates not allowed")

/-- `object[key] = value` -/
def put (key : Text) (value : Json) : Json → Json
  | .obj members => .obj (Json.insert key value members)
  | other => other

/-- The inner `compact_manifest`. -/
def compactManifest (owner : Json) : Py Json :=
  match owner.get (txt "canonical_inputs") with
  | .arr inputs => do
      let sha256 := Sha256.hexdigest (← canonicalBytes (.arr inputs))
      return (put (txt "canonical_inputs_manifest_v1")
        (.ofMembers [(txt "count", .ofNat inputs.length), (txt "sha256", .str sha256)]) owner).without
          [txt "canonical_inputs"]
  | _ => .ok owner

/-- `_compact_runtime_provenance` -/
def compactRuntimeProvenance (value : Json) : Py Json := do
  let compact ← compactManifest value
  let identity := compact.get (txt "artifact_identity")
  if identity.isObject then
    return put (txt "artifact_identity") (← compactManifest identity) compact
  else return compact

/-- The keys of `_extract_provenance`. -/
def provenanceKeys : List Text :=
  [txt "version", txt "captured_at", txt "snapshot_hash", txt "query_observed_at_epoch",
   txt "feature_source_identity", txt "runtime_provenance", txt "learning_source_evidence_hash",
   txt "effective_weights_hash", txt "code_hash", txt "config_hash"]

/-- `_extract_provenance` -/
def extractProvenance (audit : Json) : Py (Option Json) := do
  let replay := audit.get (txt "decision_replay_v1")
  if !replay.isObject then return none
  let out := Json.ofMembers (pick provenanceKeys replay)
  let runtime := out.get (txt "runtime_provenance")
  let out ← if runtime.isObject then
      (compactRuntimeProvenance runtime).map fun compact => put (txt "runtime_provenance") compact out
    else pure out
  return if out = .obj [] then none else some out

/-- What `_compact_payload` leaves of a pipeline that is a `dict`. -/
def compactPipeline (pipeline audit : Json) : Json :=
  match (objectOrEmpty (pipeline.get (txt "step2_features"))).get? (txt "up_prob") with
  | some upProb =>
      put (txt "pipeline") (.ofMembers [(txt "step2_features", .ofMembers [(txt "up_prob", upProb)])]) audit
  | none => audit.without [txt "pipeline"]

/-- `_compact_payload` -/
def compactPayload (payload : Json) : Py Json := do
  let audit := payload.get (txt "_audit")
  if !audit.isObject || audit == .obj [] then return payload
  let provenance ← extractProvenance audit
  let audit := (match provenance with
    | some provenance => put (txt "provenance_v1") provenance audit
    | none => audit).without [txt "decision_replay_v1", txt "external_markets_v1"]
  let pipeline := audit.get (txt "pipeline")
  return put (txt "_audit") (if pipeline.isObject then compactPipeline pipeline audit else audit) payload

/-! ## Identity -/

/-- `_identity_envelope` -/
def identityEnvelope (payload : Json) : Json :=
  .ofMembers [(txt "schema_version", .str schemaVersion), (txt "payload", payload)]

/-- The hash of a payload. -/
def payloadDigest (payload : Json) : Py Text :=
  (canonicalBytes (identityEnvelope payload)).map Sha256.hexdigest

/-- `object.items()` -/
def membersOf : Json → List (Text × Json)
  | .obj members => members
  | _ => []

/-- The keys of a packet that are not its payload's: the `metadata` of `ingest`. -/
def metadataKeys : List Text :=
  [txt "schema_version", txt "packet_seq", txt "packet_id", txt "packet_hash"]

/-- `f"{PACKET_ID_PREFIX}{digest[:24]}"` -/
def packetIdOf (digest : Text) : Text := packetIdPrefix ++ digest.take 24

/-- The packet of a payload whose hash is known. -/
def packetWith (digest : Text) (payload : Json) (packetSeq : Nat) : Json :=
  .ofMembers ([(txt "schema_version", .str schemaVersion), (txt "packet_seq", .ofNat packetSeq),
    (txt "packet_id", .str (packetIdOf digest)), (txt "packet_hash", .str digest)] ++ membersOf payload)

/-- `_packet_from_payload` -/
def packetFromPayload (payload : Json) (packetSeq : Nat) : Py Json := do
  return packetWith (← payloadDigest payload) payload packetSeq

/-- `len(_canonical_bytes(packet))` -/
def packetSize (packet : Json) : Py Nat := (canonicalBytes packet).map List.length

/-- `build_sealed_packet`; every caller passes a positive number. -/
def buildSealedPacket (source : Json) (packetSeq : Nat) : Py Json := do
  guardNot (packetSeq == 0) .valueError (txt "packet_seq must be a positive integer")
  let payload ← projectDecisionTime source
  let packet ← packetFromPayload payload packetSeq
  let packet ← if packetTargetBytes < (← packetSize packet) then
      compactPayload payload >>= fun compact => packetFromPayload compact packetSeq
    else pure packet
  let size ← packetSize packet
  guardNot (decide (packetHardMaxBytes < size)) .packetSizeError
    (txt "sealed packet exceeds hard limit: " ++ ofNat size ++ txt ">8192")
  return packet

end Senex.T0Audit
