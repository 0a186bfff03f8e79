import Senex.Paper.Append

/-! # Checkpoints and recovery

`save_checkpoint`, the replay of a journal and `recover`, whose reading of the
files and whose construction of the engine are two separate moments.
-/

namespace Senex.Paper

open Text

variable {D : Type} [Decimal D]

/-! ## Checkpoints -/

def statusPayload (s : Text × OrderStatus) : Json :=
  .ofMembers [(txt "order_id", .str s.1), (txt "status", .str s.2.text)]

/-- `_engine_state_payload` -/
def Core.statePayload (c : Core D) : Json :=
  .ofMembers [
    (txt "state", c.state.toPayload),
    (txt "terminal_statuses", .arr (c.terminalStatuses.map statusPayload)),
    (txt "journal_seq", .ofNat c.journalSeq), (txt "journal_head", .str c.journalHead),
    (txt "last_timestamp", optionalText c.lastTimestamp),
    (txt "blocked_reason", optionalText (c.blockedReason.map BlockReason.text)),
    (txt "discrepancies", .arr (c.discrepancies.map .str)),
    (txt "risk_limits", c.riskLimits.toPayload)]

/-- `SCHEMA_VERSION` -/
def schemaVersion : Nat := 1

def envelope (payload : Json) (sha : Text) : Json :=
  .ofMembers [(txt "schema_version", .ofNat schemaVersion), (txt "state_sha256", .str sha),
    (txt "engine_state", payload)]

/-- `save_checkpoint`: the bytes of the file that it puts in place. -/
def Core.saveCheckpoint (c : Core D) : Py Bytes := do
  guardNot (c.blockedReason.any BlockReason.journalFault) .contractError
    (txt "cannot checkpoint while journal integrity/durability is uncertain; restart through fail-closed recovery")
  let sha ← digest c.statePayload
  encodeUtf8 (canonicalJson (envelope c.statePayload sha) ++ [10])

/-! ## Replay -/

/-- One turn of the replay loop of `recover`. -/
def Core.replayRecord (c : Core D) (r : Record) : Py (Core D) := do
  let _ ← c.checkEventTime (.str r.timestamp)
  let candidate ← c.reduce r
  return c.advance r candidate

/-- The reducer over a list of records. -/
def Core.replay (c : Core D) : List Record → Py (Core D)
  | [] => .ok c
  | r :: rs => do (← c.replayRecord r).replay rs

/-- The check against the checkpoint. -/
def Core.checkPayload (c : Core D) (checkpoint : Json) (message : Text) : Py Unit :=
  guardNot (canonicalJson c.statePayload != canonicalJson checkpoint) .contractError message

/-- The replay loop of `recover`; `idx` records are behind it. -/
def Core.replayChecked (checkpoint : Json) (checkpointSeq : Nat) (c : Core D) (idx : Nat) :
    List Record → Py (Core D)
  | [] => .ok c
  | r :: rs => do
      let next ← c.replayRecord r
      onlyWhen (idx + 1 == checkpointSeq)
        (next.checkPayload checkpoint (txt "checkpoint state does not match replayed journal prefix"))
      replayChecked checkpoint checkpointSeq next (idx + 1) rs

/-! ## Recovery -/

/-- What `recover` has read and verified when it constructs the engine. -/
structure Recovery (D : Type) [Decimal D] where
  checkpoint : Json
  checkpointSeq : Nat
  records : List Record
  starting : PaperState D
  riskLimits : RiskLimits D

def engineKeys : List Text :=
  [txt "blocked_reason", txt "discrepancies", txt "journal_head", txt "journal_seq",
   txt "last_timestamp", txt "risk_limits", txt "state", txt "terminal_statuses"]

/-- `expected_head` of a checkpoint over these records. -/
def expectedHead (records : List Record) (checkpointSeq : Nat) : Text :=
  if checkpointSeq = 0 then genesisHash
  else ((records[checkpointSeq - 1]?).map (·.eventSha256)).getD genesisHash

/-- The checks of `recover` on the checkpoint alone: its engine state and sequence number. -/
def readCheckpoint (data : Bytes) (expectedSourceSha256 expectedConfigSha256 : PyArg)
    (riskLimits : RiskLimits D) : Py (Json × Nat × PaperState D × Text × Text) := do
  let document ← orRaise ((Utf8.decode data).bind (Json.parse true)) .contractError
    (txt "cannot read checkpoint")
  guardNot (document.keys != [txt "engine_state", txt "schema_version", txt "state_sha256"])
    .contractError (txt "checkpoint envelope fields do not match schema")
  guardNot (field document (txt "schema_version") != .ofNat schemaVersion) .contractError
    (txt "unsupported paper engine checkpoint schema")
  let cp := field document (txt "engine_state")
  guardNot (cp.keys != engineKeys) .contractError
    (txt "checkpoint engine-state fields do not match schema")
  let sha ← digest cp
  guardNot (field document (txt "state_sha256") != .str sha) .contractError
    (txt "checkpoint checksum mismatch")
  let source := lower (← nonempty expectedSourceSha256 (txt "expected_source_sha256"))
  let config := lower (← nonempty expectedConfigSha256 (txt "expected_config_sha256"))
  let state : PaperState D ← rewrap
    (fun e => e.isValueError || e == .typeError || e == .keyError) .contractError
    (fun t => txt "invalid checkpoint PaperState: " ++ t)
    (PaperState.fromPayload (field cp (txt "state")))
  guardNot (state.sourceSha256 != source) .contractError (txt "checkpoint source hash mismatch")
  guardNot (state.configSha256 != config) .contractError (txt "checkpoint config hash mismatch")
  guardNot (field cp (txt "risk_limits") != riskLimits.toPayload) .contractError
    (txt "checkpoint risk limits mismatch")
  let seq ← orRaise (field cp (txt "journal_seq")).asNat? .contractError
    (txt "checkpoint journal_seq invalid")
  return (cp, seq, state, source, config)

/-- `recover` up to the construction of the engine. -/
def recoverRead (checkpoint disk : Bytes) (expectedSourceSha256 expectedConfigSha256 : PyArg)
    (riskLimits : RiskLimits D) : Py (Recovery D) := do
  let (cp, seq, state, source, config) ←
    readCheckpoint checkpoint expectedSourceSha256 expectedConfigSha256 riskLimits
  let records ← readJournal disk
  guardNot (decide (records.length < seq)) .contractError
    (txt "checkpoint points beyond the durable journal")
  guardNot (field cp (txt "journal_head") != .str (expectedHead records seq)) .contractError
    (txt "checkpoint/journal anchor mismatch")
  let starting ← PaperState.initial (objectArg state.startingCash) source config
  return ⟨cp, seq, records, starting, riskLimits⟩

def genesisMismatch : Text := txt "genesis checkpoint state does not match initial state"

/-- `recover` from the construction on, which records the size of the file at that moment. -/
def Recovery.build (r : Recovery D) (fileSize : Nat) : Py (Engine D) := do
  let fresh := Core.fresh r.starting r.riskLimits
  onlyWhen (r.checkpointSeq == 0) (fresh.checkPayload r.checkpoint genesisMismatch)
  let core ← fresh.replayChecked r.checkpoint r.checkpointSeq 0 r.records
  onlyWhen (r.checkpointSeq == 0) (core.checkPayload r.checkpoint genesisMismatch)
  return ⟨core, fileSize⟩

/-- `recover` with nobody else at the file. -/
def recover (checkpoint disk : Bytes) (expectedSourceSha256 expectedConfigSha256 : PyArg)
    (riskLimits : RiskLimits D) : Py (Engine D) := do
  let reading ← recoverRead checkpoint disk expectedSourceSha256 expectedConfigSha256 riskLimits
  reading.build disk.length

end Senex.Paper
