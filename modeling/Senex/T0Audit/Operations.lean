import Senex.T0Audit.Stored

/-! # Operations on a log

What `seal` and `ingest` do to a log that holds packets: which writes they make, in which order,
and what they return.
-/

namespace Senex.T0Audit

open Text

/-- The disk holds these packets. -/
structure Reads (disk : AuditDisk) (file : LogFile packetFormat) (packets : List Packet)
    (checkpoint : Nat) : Prop where
  log : disk.log = file.data
  holds : Holds file packets
  stored : CheckpointOf disk.packetSeq checkpoint
  behind : checkpoint ≤ packets.length

/-- What marks a torn tail. -/
def markerWrites (file : LogFile packetFormat) : List AuditWrite :=
  match file.tail with
  | .torn _ => [.append file.recovery]
  | _ => []

/-- The writes that store a packet. -/
def storeWrites (line : Bytes) (packetSeq : Nat) : List AuditWrite :=
  [.append (line ++ [10]), .checkpoint (ofNat packetSeq ++ [10])]

section
variable {disk : AuditDisk} {file : LogFile packetFormat} {packets : List Packet} {checkpoint : Nat}

theorem openLog_of_reads (reads : Reads disk file packets checkpoint) :
    openLog disk = ([], .ok (scanOf file packets, checkpoint)) := by
  have scanned := scanLog_of_holds reads.holds reads.log
  have current : decide ((scanOf file packets).state.maxSeq < checkpoint) = false :=
    decide_eq_false (not_lt.mpr reads.behind)
  rw [openLog, DiskCall.bind_of_ok scanned]
  simp only [DiskCall.written, List.foldl_nil, DiskCall.bind_of_ok (checkpointSeq_of reads.stored), current,
    refuse, guardNot_false, DiskCall.lift_ok_bind, DiskCall.pure_apply, List.append_nil]

theorem appendTornTailMarker_ending (file : LogFile packetFormat) (disk : AuditDisk) :
    appendTornTailMarker file.ending disk = (markerWrites file, .ok ()) := by
  unfold markerWrites LogFile.ending LogFile.recovery
  cases file.tail <;> rfl

theorem appendPacket_of_coded {packet : Json} {line : Bytes} (coded : packet.bytes = some line)
    (packetSeq : Nat) (disk : AuditDisk) :
    appendPacket packet packetSeq disk = (storeWrites line packetSeq, .ok ()) := by
  simp only [appendPacket, canonicalBytes, coded, orRaise_some, DiskCall.lift_ok_bind]
  rfl

/-! ## Writes -/

theorem reads_repaired (reads : Reads disk file packets checkpoint) (open_ : ∀ e, file.tail ≠ .unended e) :
    Reads (DiskCall.written disk (markerWrites file)) file.repaired packets checkpoint := by
  have holds := reads.holds.repaired
  have log := reads.log
  unfold markerWrites
  cases tail : file.tail with
  | clean =>
      refine ⟨?_, holds, reads.stored, reads.behind⟩
      rw [LogFile.data_repaired, LogFile.recovery_of_clean tail, List.append_nil]
      exact log
  | torn raw =>
      refine ⟨?_, holds, reads.stored, reads.behind⟩
      rw [LogFile.data_repaired, ← log]
      rfl
  | unended e => exact absurd tail (open_ e)

/-- A log to which a packet was added. -/
theorem reads_stored (reads : Reads disk file packets checkpoint) (open_ : ∀ e, file.tail ≠ .unended e)
    {p : Packet} (next : p.seq = packets.length + 1) (fresh : p.id ∉ packets.map Packet.id) {line : Bytes}
    (coded : p.json.bytes = some line) :
    Reads (DiskCall.written disk (markerWrites file ++ storeWrites line (packets.length + 1)))
      (file.repaired.append (p.entry line) (Packet.sound_entry coded)) (packets ++ [p])
      (packets.length + 1) := by
  have repaired := reads_repaired reads open_
  have data := LogFile.data_append file.tail_repaired (Packet.sound_entry coded)
  have values := LogFile.values_append file.tail_repaired (Packet.sound_entry coded)
  refine ⟨?_, ⟨?_, repaired.holds.chained.snoc next fresh⟩, Or.inr ?_, by simp⟩
  · rw [data, ← repaired.log]
    simp only [DiskCall.written, List.foldl_append]
    rfl
  · rw [values, repaired.holds.values, List.map_append]
    rfl
  · simp only [DiskCall.written, List.foldl_append]
    rfl

/-! ## Seal -/

/-- The packet of a payload. -/
def Payload.packet (p : Payload) (digest : Text) {packetSeq : Nat} (positive : 0 < packetSeq) : Packet where
  document := ⟨packetWith digest p.json packetSeq, p.packet_wellFormed digest packetSeq⟩
  seq := packetSeq
  id := packetIdOf digest
  object := rfl
  no_marker := p.packet_no_marker digest packetSeq
  seqMember := by simp
  positive := positive
  idMember := by simp

/-- The packet that a source gets. -/
def Built.stored {source : Json} {packetSeq : Nat} {packet : Json} (built : Built source packetSeq packet) :
    Packet :=
  built.payload.packet built.digest built.positive

theorem Built.json_stored {source : Json} {packetSeq : Nat} {packet : Json}
    (built : Built source packetSeq packet) : built.stored.json = packet :=
  built.packet_eq.symm

theorem Built.get_id {source : Json} {packetSeq : Nat} {packet : Json} (built : Built source packetSeq packet) :
    packet.get (txt "packet_id") = .str (packetIdOf built.digest) := by
  have member := built.payload.get_id built.digest packetSeq
  rw [← built.packet_eq] at member
  exact member

theorem Built.get_hash {source : Json} {packetSeq : Nat} {packet : Json}
    (built : Built source packetSeq packet) : packet.get (txt "packet_hash") = .str built.digest := by
  have member := built.payload.get_hash built.digest packetSeq
  rw [← built.packet_eq] at member
  exact member

theorem Built.exists_line {source : Json} {packetSeq : Nat} {packet : Json}
    (built : Built source packetSeq packet) : ∃ line, packet.bytes = some line := by
  obtain ⟨line, coded, -⟩ := Py.map_eq_ok.mp built.measured
  exact ⟨line, orRaise_eq_ok.mp coded⟩

/-- What `seal` makes of a log. -/
inductive Sealed (file : LogFile packetFormat) (packets : List Packet) (source : Json) :
    List AuditWrite × Py Json → Prop where
  | refused (raised : Raised) (unbuilt : ∀ candidate, buildSealedPacket source 1 ≠ .ok candidate) :
      Sealed file packets source ([], .error raised)
  | known (candidate : Json) (first : Built source 1 candidate) (p : Packet) (member : p ∈ packets)
      (same : p.id = packetIdOf first.digest) : Sealed file packets source ([], .ok p.json)
  | unbuilt (candidate : Json) (first : Built source 1 candidate)
      (fresh : packetIdOf first.digest ∉ packets.map Packet.id) (raised : Raised)
      (unbuilt : ∀ packet, buildSealedPacket source (packets.length + 1) ≠ .ok packet) :
      Sealed file packets source (markerWrites file, .error raised)
  | appended (candidate packet : Json) (first : Built source 1 candidate)
      (fresh : packetIdOf first.digest ∉ packets.map Packet.id)
      (built : Built source (packets.length + 1) packet) (line : Bytes) (coded : packet.bytes = some line) :
      Sealed file packets source
        (markerWrites file ++ storeWrites line (packets.length + 1), .ok packet)

theorem sealSource_of_reads (reads : Reads disk file packets checkpoint) (source : Json.Document) :
    Sealed file packets source.1 (sealSource source.1 disk) := by
  unfold sealSource
  cases made : buildSealedPacket source.1 1 with
  | error raised =>
      rw [DiskCall.lift_raised_bind]
      exact .refused raised (by simp [made])
  | ok candidate =>
      obtain ⟨first⟩ := built_of_buildSealedPacket made
      have id : ((candidate.get (txt "packet_id")).asText?.getD []) = packetIdOf first.digest := by
        rw [first.get_id]
        rfl
      rw [DiskCall.lift_ok_bind, id, DiskCall.bind_of_ok (openLog_of_reads reads)]
      simp only [DiskCall.written, List.foldl_nil, List.nil_append, scanOf, scannedOf]
      cases found : Json.lookup (packetIdOf first.digest) (packets.map Packet.indexed) with
      | some existing =>
          obtain ⟨p, member, same, rfl⟩ := exists_of_lookup found
          exact .known candidate first p member same
      | none =>
          dsimp only
          rw [DiskCall.bind_of_ok (appendTornTailMarker_ending file disk)]
          cases made' : buildSealedPacket source.1 (packets.length + 1) with
          | error raised =>
              rw [DiskCall.lift_raised_bind]
              simp only [DiskCall.lift, List.append_nil]
              exact .unbuilt candidate first (lookup_indexed.mp found) raised (by simp [made'])
          | ok packet =>
              obtain ⟨built⟩ := built_of_buildSealedPacket made'
              obtain ⟨line, coded⟩ := built.exists_line
              rw [DiskCall.lift_ok_bind, DiskCall.bind_of_ok (appendPacket_of_coded coded _ _)]
              simp only [DiskCall.pure_apply, List.append_nil]
              exact .appended candidate packet first (lookup_indexed.mp found) built line coded

/-! ## Ingest -/

theorem recoverTail_of_reads (reads : Reads disk file packets checkpoint) :
    ∃ scan : Scan Scanned, scan.state = scannedOf packets ∧
      recoverTail (scanOf file packets) disk = (markerWrites file, .ok scan) := by
  cases tail : file.tail with
  | clean =>
      refine ⟨scanOf file packets, rfl, ?_⟩
      simp [recoverTail, scanOf, LogFile.ending, markerWrites, tail]
  | unended e =>
      refine ⟨scanOf file packets, rfl, ?_⟩
      simp [recoverTail, scanOf, LogFile.ending, markerWrites, tail]
  | torn raw =>
      refine ⟨scanOf file.repaired packets, rfl, ?_⟩
      have marked := appendTornTailMarker_ending file disk
      have repaired := reads_repaired reads (by simp [tail])
      have again := scanLog_of_holds repaired.holds repaired.log
      have ending : (scanOf file packets).ending = .torn raw file.lineNo := by
        simp [scanOf, LogFile.ending, tail]
      have whole : (scanOf file.repaired packets).ending = .whole := by
        simp [scanOf, LogFile.ending]
      rw [show file.ending = .torn raw file.lineNo from ending] at marked
      simp only [recoverTail, ending]
      rw [DiskCall.bind_of_ok marked, DiskCall.bind_of_ok again]
      simp only [whole, refuse, guardNot_false, DiskCall.lift_ok_bind, DiskCall.pure_apply, List.append_nil]

/-- Whether `ingest` refuses a packet whose id the log knows. -/
def conflicts (existing packet : Json) (claimed : Claimed) : Bool :=
  !(existing.get (txt "packet_hash")).pyEq (.str claimed.packetHash) ||
    !(existing.get (txt "packet_seq")).pyEq (.ofNat claimed.packetSeq) || !existing.pyEq packet

theorem ingest_of_refused {packet : Json} {raised : Raised} (refused : checkPacket packet = .error raised) :
    ingest packet disk = ([], .error raised) := by
  rw [ingest, refused, DiskCall.lift_raised_bind]
  rfl

section
variable {packet : Json} {claimed : Claimed} (checked : checkPacket packet = .ok claimed)
include checked

theorem ingest_of_conflict (reads : Reads disk file packets checkpoint) {existing : Json}
    (found : Json.lookup claimed.packetId (packets.map Packet.indexed) = some existing)
    (conflict : conflicts existing packet claimed = true) :
    ingest packet disk =
      ([], raise .packetSequenceError (txt "replicated packet conflict for packet_id " ++ claimed.packetId)) := by
  unfold conflicts at conflict
  rw [ingest, checked, DiskCall.lift_ok_bind, DiskCall.bind_of_ok (openLog_of_reads reads)]
  simp only [DiskCall.written, List.foldl_nil, List.nil_append, scanOf, scannedOf, found, conflict, refuse,
    guardNot_true]
  rfl

theorem ingest_of_known (reads : Reads disk file packets checkpoint) {existing : Json}
    (found : Json.lookup claimed.packetId (packets.map Packet.indexed) = some existing)
    (agrees : conflicts existing packet claimed = false) :
    ingest packet disk =
      (if checkpoint < packets.length then [.checkpoint (ofNat packets.length ++ [10])] else [],
        .ok existing) := by
  unfold conflicts at agrees
  rw [ingest, checked, DiskCall.lift_ok_bind, DiskCall.bind_of_ok (openLog_of_reads reads)]
  have here : Json.lookup claimed.packetId (scanOf file packets).state.byId = some existing := found
  simp only [DiskCall.written, List.foldl_nil, List.nil_append, here, agrees, refuse, guardNot_false,
    DiskCall.lift_ok_bind]
  have last : (scanOf file packets).state.maxSeq = packets.length := rfl
  by_cases behind : checkpoint < packets.length
  · rw [if_pos (last ▸ behind), if_pos behind]
    rfl
  · rw [if_neg (last ▸ behind), if_neg behind]
    rfl

theorem ingest_of_gap (reads : Reads disk file packets checkpoint)
    (fresh : claimed.packetId ∉ packets.map Packet.id) (gap : claimed.packetSeq ≠ packets.length + 1) :
    ingest packet disk = (markerWrites file, raise .packetSequenceError
      (txt "replicated packet sequence gap: expected " ++ ofNat (packets.length + 1) ++ txt ", found " ++
        ofNat claimed.packetSeq)) := by
  obtain ⟨scan, state, recovered⟩ := recoverTail_of_reads reads
  rw [ingest, checked, DiskCall.lift_ok_bind, DiskCall.bind_of_ok (openLog_of_reads reads)]
  simp only [DiskCall.written, List.foldl_nil, List.nil_append]
  rw [show Json.lookup claimed.packetId (scanOf file packets).state.byId = none from lookup_indexed.mpr fresh]
  have different : (claimed.packetSeq != packets.length + 1) = true := by simpa using gap
  dsimp only
  rw [DiskCall.bind_of_ok recovered]
  simp only [state, scannedOf, different, refuse, guardNot_true]
  exact Prod.ext (List.append_nil _) rfl

theorem ingest_of_next (reads : Reads disk file packets checkpoint)
    (fresh : claimed.packetId ∉ packets.map Packet.id) (next : claimed.packetSeq = packets.length + 1)
    {line : Bytes} (coded : packet.bytes = some line) :
    ingest packet disk = (markerWrites file ++ storeWrites line (packets.length + 1), .ok packet) := by
  obtain ⟨scan, state, recovered⟩ := recoverTail_of_reads reads
  rw [ingest, checked, DiskCall.lift_ok_bind, DiskCall.bind_of_ok (openLog_of_reads reads)]
  simp only [DiskCall.written, List.foldl_nil, List.nil_append]
  rw [show Json.lookup claimed.packetId (scanOf file packets).state.byId = none from lookup_indexed.mpr fresh]
  dsimp only
  rw [DiskCall.bind_of_ok recovered]
  simp only [state, scannedOf, next, bne_self_eq_false, refuse, guardNot_false, DiskCall.lift_ok_bind]
  rw [DiskCall.bind_of_ok (appendPacket_of_coded coded _ _)]
  simp only [DiskCall.pure_apply, List.append_nil]

/-- A packet that passes the checks, under its number and id. -/
theorem exists_packet_of_checked (object : Json.WellFormed packet)
    (no_marker : packet.keys.contains recoveryMarkerKey = false) :
    ∃ p : Packet, p.json = packet ∧ p.seq = claimed.packetSeq ∧ p.id = claimed.packetId ∧
      ∃ line, packet.bytes = some line := by
  obtain ⟨u, isObject, checked⟩ := Py.bind_eq_ok.mp checked
  obtain ⟨size, measured, checked⟩ := Py.bind_eq_ok.mp checked
  obtain ⟨-, -, checked⟩ := Py.bind_eq_ok.mp checked
  obtain ⟨-, -, checked⟩ := Py.bind_eq_ok.mp checked
  obtain ⟨-, -, checked⟩ := Py.bind_eq_ok.mp checked
  obtain ⟨seq, seqMember, checked⟩ := Py.bind_eq_ok.mp checked
  obtain ⟨v, positive, checked⟩ := Py.bind_eq_ok.mp checked
  obtain ⟨id, idMember, checked⟩ := Py.bind_eq_ok.mp checked
  obtain ⟨-, -, checked⟩ := Py.bind_eq_ok.mp checked
  obtain ⟨hash, -, checked⟩ := Py.bind_eq_ok.mp checked
  obtain ⟨-, -, checked⟩ := Py.bind_eq_ok.mp checked
  obtain ⟨digest, -, checked⟩ := Py.bind_eq_ok.mp checked
  obtain ⟨-, -, checked⟩ := Py.bind_eq_ok.mp checked
  cases checked
  have positive : 0 < seq := by
    have above := guardNot_eq_ok.mp positive
    simpa using above
  obtain ⟨line, coded, -⟩ := Py.map_eq_ok.mp measured
  refine ⟨⟨⟨packet, object⟩, seq.toNat, id, ?_, no_marker, ?_, ?_, orRaise_eq_ok.mp idMember⟩, rfl, rfl, rfl,
    line, orRaise_eq_ok.mp coded⟩
  · simpa using guardNot_eq_ok.mp isObject
  · rw [orRaise_eq_ok.mp seqMember, Int.toNat_of_nonneg (by omega)]
  · omega

end

/-- What `ingest` makes of a log. -/
inductive Ingested (file : LogFile packetFormat) (packets : List Packet) (packet : Json) :
    List AuditWrite × Py Json → Prop where
  | refused (raised : Raised) : Ingested file packets packet ([], .error raised)
  | known (p : Packet) (member : p ∈ packets) (writes : List AuditWrite)
      (checkpointed : writes = [] ∨ writes = [.checkpoint (ofNat packets.length ++ [10])]) :
      Ingested file packets packet (writes, .ok p.json)
  | gap (raised : Raised) : Ingested file packets packet (markerWrites file, .error raised)
  | appended (p : Packet) (same : p.json = packet) (fresh : p.id ∉ packets.map Packet.id)
      (next : p.seq = packets.length + 1) (line : Bytes) (coded : packet.bytes = some line) :
      Ingested file packets packet
        (markerWrites file ++ storeWrites line (packets.length + 1), .ok packet)

theorem ingest_of_reads (reads : Reads disk file packets checkpoint) (packet : Json.Document)
    (no_marker : packet.1.keys.contains recoveryMarkerKey = false) :
    Ingested file packets packet.1 (ingest packet.1 disk) := by
  cases checked : checkPacket packet.1 with
  | error raised =>
      rw [ingest_of_refused checked]
      exact .refused raised
  | ok claimed =>
      obtain ⟨p, same, seq, id, line, coded⟩ := exists_packet_of_checked checked packet.2 no_marker
      cases found : Json.lookup claimed.packetId (packets.map Packet.indexed) with
      | some existing =>
          obtain ⟨q, member, -, rfl⟩ := exists_of_lookup found
          cases conflict : conflicts q.json packet.1 claimed with
          | true =>
              rw [ingest_of_conflict checked reads found conflict]
              exact .refused _
          | false =>
              rw [ingest_of_known checked reads found conflict]
              apply Ingested.known q member
              split
              · exact Or.inr rfl
              · exact Or.inl rfl
      | none =>
          have fresh := lookup_indexed.mp found
          by_cases next : claimed.packetSeq = packets.length + 1
          · rw [ingest_of_next checked reads fresh next coded]
            exact .appended p same (id ▸ fresh) (seq.trans next) line coded
          · rw [ingest_of_gap checked reads fresh next]
            exact .gap _

end

end Senex.T0Audit
