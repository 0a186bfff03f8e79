import Senex.Foundation.Disk
import Senex.T0Audit.Packet

/-! # The packet log

`PacketSealer`: an append-only file of packets and a checkpoint of the last sequence number.
-/

namespace Senex.T0Audit

open Text

/-- `raise PacketSequenceError(message)` if it failed. -/
def refuse (failed : Bool) (message : Text) : Py Unit := guardNot failed .packetSequenceError message

/-! ## The disk -/

/-- `sealed_packets.jsonl` and the text of `packet_seq`. -/
structure AuditDisk where
  log : Bytes
  packetSeq : Option Text

/-- The log is appended to; the checkpoint is replaced at once. -/
inductive AuditWrite where
  | append (bytes : Bytes)
  | checkpoint (text : Text)
  deriving DecidableEq

instance : Disk AuditDisk AuditWrite where
  write disk w :=
    match w with
    | .append bytes => { disk with log := disk.log ++ bytes }
    | .checkpoint text => { disk with packetSeq := some text }
  cut disk w n :=
    match w with
    | .append bytes => { disk with log := disk.log ++ bytes.take n }
    | .checkpoint _ => disk

abbrev SealerCall (α : Type) := DiskCall AuditDisk α

/-! ## Scanning -/

/-- The value of an `int` that is no `bool`. -/
def asInt? : Json → Option Int
  | .num raw =>
      if raw.any fun c => c == 46 || c == 101 || c == 69 then none
      else
        let (negative, digits) := RationalDecimal.sign raw
        some (if negative then -(toNat digits) else toNat digits)
  | _ => none

/-- `by_id` and `max_seq`. -/
structure Scanned where
  byId : List (Text × Json)
  maxSeq : Nat

def packetFormat : LogFormat Json.Document :=
  TornTail.format recoveryMarkerKey fun lineNo =>
    ⟨.packetSequenceError, txt "invalid sealed packet JSON at line " ++ ofNat lineNo⟩

/-- What `_scan` does with a decoded line. -/
def acceptPacket (lineNo : Nat) (scanned : Scanned) (packet : Json.Document) : Py Scanned := do
  refuse (packet.1.isObject && packet.1.keys.contains recoveryMarkerKey)
    (txt "orphan recovery marker at line " ++ ofNat lineNo)
  let invalid := txt "invalid sealed packet metadata at line " ++ ofNat lineNo
  let seq ← orRaise (asInt? (packet.1.get (txt "packet_seq"))) .packetSequenceError invalid
  refuse (decide (seq ≤ 0)) invalid
  let packetId ← orRaise (packet.1.get (txt "packet_id")).asText? .packetSequenceError invalid
  refuse (seq != scanned.maxSeq + 1)
    (txt "sealed packet sequence gap: expected " ++ ofNat (scanned.maxSeq + 1) ++ txt ", found " ++
      ofNat seq.toNat)
  refuse ((Json.lookup packetId scanned.byId).isSome)
    (txt "duplicate packet_id at line " ++ ofNat lineNo ++ txt ": " ++ packetId)
  return ⟨scanned.byId ++ [(packetId, packet.1)], scanned.maxSeq + 1⟩

/-- `_scan` -/
def scanLog : SealerCall (Scan Scanned) := do
  let disk ← DiskCall.read
  DiskCall.lift (packetFormat.scan acceptPacket ⟨[], 0⟩ disk.log)

/-- `_checkpoint_seq` -/
def checkpointSeq : SealerCall Nat := do
  let disk ← DiskCall.read
  match disk.packetSeq with
  | none => return 0
  | some text =>
      let raw := strip text
      if raw.isEmpty then return 0
      else do
        DiskCall.lift (refuse (!raw.all isDigit) (txt "packet_seq checkpoint is invalid"))
        return toNat raw

/-- `_append_torn_tail_marker` for what `_scan` found pending. -/
def appendTornTailMarker : Ending → SealerCall Unit
  | .torn raw lineNo =>
      DiskCall.write (.append (10 :: (packetFormat.marker raw lineNo ++ [10])))
  | _ => pure ()

/-- The append of a packet and its checkpoint. -/
def appendPacket (packet : Json) (packetSeq : Nat) : SealerCall Unit := do
  let encoded ← DiskCall.lift (canonicalBytes packet)
  DiskCall.write (.append (encoded ++ [10]))
  DiskCall.write (.checkpoint (ofNat packetSeq ++ [10]))

/-- The scan with the check of the checkpoint, with which both operations begin. -/
def openLog : SealerCall (Scan Scanned × Nat) := do
  let scan ← scanLog
  let checkpoint ← checkpointSeq
  DiskCall.lift (refuse (decide (scan.state.maxSeq < checkpoint))
    (txt "packet_seq checkpoint " ++ ofNat checkpoint ++ txt " is ahead of durable log " ++
      ofNat scan.state.maxSeq))
  return (scan, checkpoint)

/-! ## Operations -/

/-- `seal` -/
def sealSource (source : Json) : SealerCall Json := do
  let candidate ← DiskCall.lift (buildSealedPacket source 1)
  let packetId := (candidate.get (txt "packet_id")).asText?.getD []
  let (scan, _) ← openLog
  match Json.lookup packetId scan.state.byId with
  | some existing => return existing
  | none => do
      appendTornTailMarker scan.ending
      let nextSeq := scan.state.maxSeq + 1
      let packet ← DiskCall.lift (buildSealedPacket source nextSeq)
      appendPacket packet nextSeq
      return packet

/-- What a replicated packet says of itself. -/
structure Claimed where
  packetSeq : Nat
  packetId : Text
  packetHash : Text

/-- The checks of `ingest` before it scans. -/
def checkPacket (packet : Json) : Py Claimed := do
  refuse (!packet.isObject) (txt "replicated packet must be an object")
  let size ← packetSize packet
  guardNot (decide (packetHardMaxBytes < size)) .packetSizeError
    (txt "replicated packet exceeds hard limit: " ++ ofNat size ++ txt ">8192")
  refuseContamination packet
  refuse (!(packet.get (txt "schema_version")).pyEq (.str schemaVersion))
    (txt "replicated packet schema mismatch")
  let seqMessage := txt "replicated packet_seq must be a positive integer"
  let seq ← orRaise (asInt? (packet.get (txt "packet_seq"))) .packetSequenceError seqMessage
  refuse (decide (seq ≤ 0)) seqMessage
  let packetId ← orRaise (packet.get (txt "packet_id")).asText? .packetSequenceError
    (txt "replicated packet_id is required")
  refuse packetId.isEmpty (txt "replicated packet_id is required")
  let packetHash ← orRaise (packet.get (txt "packet_hash")).asText? .packetSequenceError
    (txt "replicated packet hash is invalid")
  refuse (packetHash.length != 64) (txt "replicated packet hash is invalid")
  let digest ← payloadDigest (packet.without metadataKeys)
  refuse (digest != packetHash || packetIdOf digest != packetId)
    (txt "replicated packet hash/id mismatch")
  return ⟨seq.toNat, packetId, packetHash⟩

/-- The recovery of `ingest`: a pending torn tail is marked and the log scanned again. -/
def recoverTail (scan : Scan Scanned) : SealerCall (Scan Scanned) :=
  match scan.ending with
  | .torn raw lineNo => do
      appendTornTailMarker (.torn raw lineNo)
      let again ← scanLog
      DiskCall.lift (refuse (again.ending matches .torn _ _) (txt "torn-tail recovery did not converge"))
      return again
  | _ => return scan

/-- `ingest` -/
def ingest (packet : Json) : SealerCall Json := do
  let claimed ← DiskCall.lift (checkPacket packet)
  let (scan, checkpoint) ← openLog
  match Json.lookup claimed.packetId scan.state.byId with
  | some existing => do
      DiskCall.lift (refuse (!(existing.get (txt "packet_hash")).pyEq (.str claimed.packetHash) ||
          !(existing.get (txt "packet_seq")).pyEq (.ofNat claimed.packetSeq) || !existing.pyEq packet)
        (txt "replicated packet conflict for packet_id " ++ claimed.packetId))
      if checkpoint < scan.state.maxSeq then
        DiskCall.write (.checkpoint (ofNat scan.state.maxSeq ++ [10]))
      return existing
  | none => do
      let scan ← recoverTail scan
      let expectedSeq := scan.state.maxSeq + 1
      DiskCall.lift (refuse (claimed.packetSeq != expectedSeq)
        (txt "replicated packet sequence gap: expected " ++ ofNat expectedSeq ++ txt ", found " ++
          ofNat claimed.packetSeq))
      appendPacket packet claimed.packetSeq
      return packet

/-- The packets of `read_after`, in the order of their numbers. -/
def readPackets : SealerCall (List Json) := do
  let scan ← scanLog
  return scan.state.byId.map Prod.snd

end Senex.T0Audit
