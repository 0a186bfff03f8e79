import Senex.T0Audit.Crash

/-! # Replication of sealed packets

A replica takes the packets of a producer in any order and any number of times.  What it holds is
a beginning of what the producer holds, and a packet is taken exactly when it is the next one.
-/

namespace Senex.T0Audit

open Text

/-! ## The packets of a producer -/

/-- A packet with the identity of its payload, as `seal` builds it. -/
structure Genuine (p : Packet) where
  payload : Payload
  digest : Text
  size : Nat
  hash : payloadDigest payload.json = .ok digest
  json_eq : p.json = packetWith digest payload.json p.seq
  id_eq : p.id = packetIdOf digest
  measured : packetSize p.json = .ok size
  fits : size ≤ packetHardMaxBytes

theorem genuine_stored {source : Json} {packetSeq : Nat} {packet : Json} (built : Built source packetSeq packet) :
    Nonempty (Genuine built.stored) :=
  ⟨built.payload, built.digest, built.size, built.hash, rfl, rfl, by
    rw [built.json_stored]
    exact built.measured, built.fits⟩

theorem length_payloadDigest {payload : Json} {digest : Text} (hash : payloadDigest payload = .ok digest) :
    digest.length = 64 := by
  obtain ⟨raw, -, rfl⟩ := Py.map_eq_ok.mp hash
  have hex := Sha256.isHex64_hexdigest raw
  simp only [Sha256.isHex64, Bool.and_eq_true, beq_iff_eq] at hex
  exact hex.1

/-- `ingest` finds nothing to refuse in what `seal` built. -/
theorem Genuine.checkPacket_eq {p : Packet} (genuine : Genuine p) :
    checkPacket p.json = .ok ⟨p.seq, p.id, genuine.digest⟩ := by
  have object : (!p.json.isObject) = false := by
    rw [show p.json.isObject = true from p.object]
    rfl
  have small := decide_eq_false (not_lt.mpr genuine.fits)
  have clean : findContamination [] p.json = none := by
    rw [genuine.json_eq]
    exact findContamination_eq_none _ (genuine.payload.packet_noFuture _ _)
  have schema : p.json.get (txt "schema_version") = .str schemaVersion := by
    rw [genuine.json_eq]
    simp
  have hash : (p.json.get (txt "packet_hash")).asText? = some genuine.digest := by
    rw [genuine.json_eq]
    simp
  have payload : p.json.without metadataKeys = genuine.payload.json := by
    rw [genuine.json_eq]
    exact genuine.payload.without_metadata _ _
  have positive : decide ((p.seq : Int) ≤ 0) = false := by
    have here := p.positive
    simp
    omega
  have named : (packetIdOf genuine.digest).isEmpty = false := rfl
  have seq : asInt? (p.json.get (txt "packet_seq")) = some (p.seq : Int) := p.seqMember
  have id : (p.json.get (txt "packet_id")).asText? = some p.id := p.idMember
  simp only [checkPacket, object, refuse, guardNot_false, Py.ok_bind, genuine.measured, small,
    refuseContamination, clean, schema, Json.pyEq_refl, Bool.not_true, seq, orRaise_some, positive, id,
    named, hash, length_payloadDigest genuine.hash, bne_self_eq_false, payload, genuine.hash, genuine.id_eq,
    Bool.or_self, Py.pure_eq_ok, Int.toNat_natCast]

/-- A log that no scan reads. -/
def Broken (disk : AuditDisk) : Prop := ∃ raised, scanLog disk = ([], .error raised)

/-- A packet whose id the log has breaks it. -/
theorem broken_of_duplicate {disk : AuditDisk} {file : LogFile packetFormat} {packets : List Packet}
    {checkpoint : Nat} (reads : Reads disk file packets checkpoint) (open_ : ∀ e, file.tail ≠ .unended e)
    {p : Packet} (next : p.seq = packets.length + 1) (known : p.id ∈ packets.map Packet.id) {line : Bytes}
    (coded : p.json.bytes = some line) :
    Broken (DiskCall.written disk (markerWrites file ++ storeWrites line (packets.length + 1))) := by
  have repaired := reads_repaired reads open_
  have sound := Packet.sound_entry coded
  have data := LogFile.data_append file.tail_repaired sound
  have log : (DiskCall.written disk (markerWrites file ++ storeWrites line (packets.length + 1))).log =
      (file.repaired.append (p.entry line) sound).data := by
    rw [data, ← repaired.log]
    simp only [DiskCall.written, List.foldl_append]
    rfl
  have scanned := @LogFile.scan_data _ _ _ (file.repaired.append (p.entry line) sound) lawful acceptPacket ⟨[], 0⟩
  have all := @acceptAll_packets _ [] _ (flatMap_repaired reads.holds.values) reads.holds.chained 1
  have segments : (file.repaired.append (p.entry line) sound).repaired.segments =
      file.repaired.segments ++ [.record (p.entry line)] := by
    simp [LogFile.append, LogFile.repaired]
  have last : ∃ raised, Segment.acceptAll acceptPacket (1 + Segment.total file.repaired.segments)
      (scannedOf packets) [.record (p.entry line)] = .error raised := by
    have refused := acceptPacket_document next (1 + Segment.total file.repaired.segments)
    rw [if_pos known] at refused
    rw [Segment.acceptAll, show (p.entry line).value = p.document from rfl, refused]
    exact ⟨_, rfl⟩
  obtain ⟨raised, last⟩ := last
  rw [segments, Segment.acceptAll_append, show (⟨[], 0⟩ : Scanned) = scannedOf [] from rfl, all,
    List.nil_append] at scanned
  have failed : packetFormat.scan acceptPacket (scannedOf [])
      (file.repaired.append (p.entry line) sound).data = .error raised := by
    rw [scanned, show (Except.ok (scannedOf packets)).bind (fun s => Segment.acceptAll acceptPacket
      (1 + Segment.total file.repaired.segments) s [.record (p.entry line)]) = .error raised from last]
    rfl
  rw [← log] at failed
  refine ⟨raised, ?_⟩
  simp only [scanLog, DiskCall.read, bind, DiskCall.lift, DiskCall.written, List.append_nil]
  exact congrArg (Prod.mk []) failed

theorem sealStep_of_broken {disk : AuditDisk} (broken : Broken disk) (source : Json.Document) :
    sealStep disk source = disk := by
  obtain ⟨raised, scanned⟩ := broken
  have opened : openLog disk = ([], .error raised) := by
    rw [openLog, DiskCall.bind_of_error scanned]
  have outcome : ∃ raised', sealSource source.1 disk = ([], .error raised') := by
    unfold sealSource
    cases made : buildSealedPacket source.1 1 with
    | error raised' =>
        rw [DiskCall.lift_raised_bind]
        exact ⟨raised', rfl⟩
    | ok candidate =>
        rw [DiskCall.lift_ok_bind, DiskCall.bind_of_error opened]
        exact ⟨raised, rfl⟩
  obtain ⟨raised', outcome⟩ := outcome
  rw [sealStep, DiskCall.after, outcome]
  rfl

/-- The disk holds packets that `seal` built. -/
def Produced (disk : AuditDisk) (packets : List Packet) : Prop :=
  Intact disk packets ∧ ∀ p ∈ packets, Nonempty (Genuine p)

theorem sealStep_of_produced {disk : AuditDisk} {packets : List Packet} (produced : Produced disk packets)
    (source : Json.Document) :
    (∃ packets', Produced (sealStep disk source) packets') ∨ Broken (sealStep disk source) := by
  obtain ⟨⟨file, checkpoint, reads, open_⟩, genuine⟩ := produced
  have outcome := sealSource_of_reads reads source
  unfold sealStep DiskCall.after
  generalize sealSource source.1 disk = result at outcome
  cases outcome with
  | refused raised unbuilt => exact Or.inl ⟨packets, ⟨file, checkpoint, reads, open_⟩, genuine⟩
  | known candidate first p member same => exact Or.inl ⟨packets, ⟨file, checkpoint, reads, open_⟩, genuine⟩
  | unbuilt candidate first fresh raised unbuilt =>
      exact Or.inl ⟨packets, ⟨_, _, reads_repaired reads open_, by simp⟩, genuine⟩
  | appended candidate packet first fresh built line coded =>
      rw [← built.json_stored] at coded
      by_cases known : built.stored.id ∈ packets.map Packet.id
      · exact Or.inr (broken_of_duplicate reads open_ rfl known coded)
      · refine Or.inl ⟨packets ++ [built.stored],
          ⟨_, _, reads_stored reads open_ rfl known coded, by simp [LogFile.append]⟩, ?_⟩
        intro p member
        rcases List.mem_append.mp member with h | h
        · exact genuine p h
        · rw [List.mem_singleton.mp h]
          exact genuine_stored built

/-- What a producer wrote cannot be read, or holds packets that `seal` built. -/
theorem sealRun_produced {disk : AuditDisk} (start : (∃ packets, Produced disk packets) ∨ Broken disk)
    (sources : List Json.Document) :
    (∃ packets, Produced (run sealStep disk sources) packets) ∨ Broken (run sealStep disk sources) := by
  induction sources generalizing disk with
  | nil => exact start
  | cons source sources ih =>
      apply ih
      rcases start with ⟨packets, produced⟩ | broken
      · exact sealStep_of_produced produced source
      · rw [sealStep_of_broken broken]
        exact Or.inr broken

theorem exists_produced {sources : List Json.Document} {packets : List Json}
    (read : (readPackets (run sealStep emptyDisk sources)).2 = .ok packets) :
    ∃ ps : List Packet, packets = ps.map Packet.json ∧ Chained ps ∧ ∀ p ∈ ps, Nonempty (Genuine p) := by
  rcases sealRun_produced (Or.inl ⟨[], intact_empty, by simp⟩) sources with ⟨ps, intact, genuine⟩ | broken
  · rw [intact.readPackets_eq] at read
    cases read
    obtain ⟨file, checkpoint, reads, -⟩ := intact
    exact ⟨ps, rfl, reads.holds.chained, genuine⟩
  · obtain ⟨raised, scanned⟩ := broken
    rw [readPackets, DiskCall.bind_of_error scanned] at read
    cases read

/-! ## A replica -/

/-- A packet that arrives, and the crash that interrupts its `ingest`, if one does. -/
structure Delivery where
  packet : Json.Document
  crash : Option (Nat × Nat)

def Delivery.label (d : Delivery) : Label := ⟨.ingest d.packet, d.crash⟩

def deliver (disk : AuditDisk) (d : Delivery) : AuditDisk := step disk d.label

/-- The `ingest` is not interrupted where its log cannot be read on. -/
def SparesDelivery (disk : AuditDisk) (d : Delivery) : Prop :=
  ∀ k n, d.crash = some (k, n) → ∀ w ∈ (ingest d.packet.1 disk).1[k]?, ReadableCut n w

/-- The document of a packet determines it. -/
theorem Packet.eq_of_json {p q : Packet} (same : p.json = q.json) : p = q := by
  have seq : p.seq = q.seq := by
    have left := p.seqMember
    have right := q.seqMember
    unfold Packet.json at same
    rw [same, right] at left
    exact (Int.ofNat_inj.mp (Option.some.inj left)).symm
  have id : p.id = q.id := by
    have left := p.idMember
    have right := q.idMember
    unfold Packet.json at same
    rw [same, right] at left
    exact (Option.some.inj left).symm
  have document : p.document = q.document := Subtype.ext same
  cases p
  cases q
  cases document
  cases seq
  cases id
  rfl

theorem Chained.seq_getElem {packets : List Packet} (chained : Chained packets) {i : Nat}
    (inside : i < packets.length) : packets[i].seq = i + 1 := by
  have here := congrArg (fun seqs => seqs[i]?) chained.numbered
  simp only [List.getElem?_map, List.getElem?_eq_getElem inside, Option.map_some,
    List.getElem?_range' inside] at here
  have same := Option.some.inj here
  omega

/-- Numbered packets among those of a producer are the first of them. -/
theorem Chained.prefix_of_subset {held packets : List Packet} (chained : Chained held)
    (whole : Chained packets) (known : ∀ p ∈ held, p ∈ packets) : held <+: packets := by
  have each (i : Nat) (inside : i < held.length) : ∃ there : i < packets.length, packets[i] = held[i] := by
    obtain ⟨j, there, same⟩ := List.getElem_of_mem (known held[i] (List.getElem_mem inside))
    have left := chained.seq_getElem inside
    have right := whole.seq_getElem there
    rw [same, left] at right
    have equal : j = i := by omega
    subst equal
    exact ⟨there, same⟩
  rw [List.prefix_iff_eq_take]
  apply List.ext_getElem?
  intro i
  by_cases inside : i < held.length
  · obtain ⟨there, same⟩ := each i inside
    rw [List.getElem?_take_of_lt inside, List.getElem?_eq_getElem inside, List.getElem?_eq_getElem there, same]
  · rw [List.getElem?_eq_none (by omega), List.getElem?_eq_none (by simp; omega)]

/-- The replica holds packets of the producer. -/
structure Follows (disk : AuditDisk) (packets held : List Packet) : Prop where
  intact : Intact disk held
  known : ∀ p ∈ held, p ∈ packets

section
variable {disk : AuditDisk} {packets held : List Packet}

theorem deliver_of_follows (follows : Follows disk packets held) {d : Delivery}
    (delivered : d.packet.1 ∈ packets.map Packet.json) (spares : SparesDelivery disk d) :
    ∃ more, Follows (deliver disk d) packets (held ++ more) := by
  obtain ⟨p, member, same⟩ := List.mem_map.mp delivered
  have spared : Spares disk d.label := by
    refine ⟨?_, ?_, spares⟩
    · intro source equal
      cases equal
    · intro packet equal
      cases equal
      rw [← same]
      exact p.no_marker
  obtain ⟨more, intact, given, -⟩ := step_of_intact follows.intact spared
  refine ⟨more, intact, ?_⟩
  intro q hq
  rcases List.mem_append.mp hq with h | h
  · exact follows.known q h
  · have equal : q = p := Packet.eq_of_json ((given q h d.packet rfl).trans same.symm)
    rw [equal]
    exact member

theorem deliverRun_of_follows {disk : AuditDisk} {held : List Packet} (follows : Follows disk packets held)
    {deliveries : List Delivery} (delivered : ∀ d ∈ deliveries, d.packet.1 ∈ packets.map Packet.json)
    (allowed : Allowed deliver SparesDelivery disk deliveries) :
    ∃ more, Follows (run deliver disk deliveries) packets (held ++ more) := by
  induction deliveries generalizing disk held with
  | nil => exact ⟨[], by simpa using follows⟩
  | cons d deliveries ih =>
      obtain ⟨first, between⟩ := deliver_of_follows follows (delivered d (by simp)) allowed.1
      obtain ⟨rest, last⟩ := ih between (fun e he => delivered e (List.mem_cons_of_mem _ he)) allowed.2
      exact ⟨first ++ rest, by simpa using last⟩

/-- A packet that the replica holds is answered, and the log stays as it is. -/
theorem ingest_held (intact : Intact disk held) {p : Packet} (member : p ∈ held) (genuine : Genuine p) :
    (ingest p.json disk).2 = .ok p.json ∧ ((ingest p.json).after disk).log = disk.log := by
  have found := lookup_of_mem intact.distinct member
  obtain ⟨file, checkpoint, reads, -⟩ := intact
  have agrees : conflicts p.json p.json ⟨p.seq, p.id, genuine.digest⟩ = false := by
    have hash : p.json.get (txt "packet_hash") = .str genuine.digest := by
      rw [genuine.json_eq]
      simp
    have seq : p.json.get (txt "packet_seq") = .ofNat p.seq := by
      rw [genuine.json_eq]
      simp
    simp [conflicts, hash, seq, Json.pyEq_refl]
  have outcome := ingest_of_known genuine.checkPacket_eq reads found agrees
  refine ⟨by rw [outcome], ?_⟩
  rw [DiskCall.after, outcome]
  dsimp only
  split <;> rfl

/-- The next packet is taken. -/
theorem ingest_next (intact : Intact disk held) {p : Packet} (next : p.seq = held.length + 1)
    (fresh : p.id ∉ held.map Packet.id) (genuine : Genuine p) :
    (ingest p.json disk).2 = .ok p.json ∧ Intact ((ingest p.json).after disk) (held ++ [p]) := by
  obtain ⟨file, checkpoint, reads, open_⟩ := intact
  obtain ⟨line, coded, -⟩ := Py.map_eq_ok.mp genuine.measured
  have coded := orRaise_eq_ok.mp coded
  have outcome := ingest_of_next genuine.checkPacket_eq reads fresh next coded
  refine ⟨by rw [outcome], ?_⟩
  rw [DiskCall.after, outcome]
  exact (reads_stored reads open_ next fresh coded).intact (by simp [LogFile.append])

end

/-! ## Runs -/

/-- What deliveries leave of a replica: its packets are the producer's first ones; delivering one of
    them again answers with it and adds nothing to the log; and delivering the next one adds it. -/
structure Replicated (packets : List Json) (deliveries : List Delivery) : Prop where
  begins : ∃ held, (readPackets (run deliver emptyDisk deliveries)).2 = .ok held ∧ held <+: packets
  again : ∀ held, (readPackets (run deliver emptyDisk deliveries)).2 = .ok held → ∀ packet ∈ held,
    (ingest packet (run deliver emptyDisk deliveries)).2 = .ok packet ∧
      ((ingest packet).after (run deliver emptyDisk deliveries)).log = (run deliver emptyDisk deliveries).log
  next : ∀ held, (readPackets (run deliver emptyDisk deliveries)).2 = .ok held →
    ∀ packet rest, packets = held ++ packet :: rest →
      (ingest packet (run deliver emptyDisk deliveries)).2 = .ok packet ∧
        (readPackets ((ingest packet).after (run deliver emptyDisk deliveries))).2 = .ok (held ++ [packet])

/-- A replica follows a producer whose log reads through all deliveries of its packets that no crash
    cuts where the log cannot be read on. -/
theorem replicated_of_spares {sources : List Json.Document} {packets : List Json}
    (produced : (readPackets (run sealStep emptyDisk sources)).2 = .ok packets) {deliveries : List Delivery}
    (delivered : ∀ d ∈ deliveries, d.packet.1 ∈ packets)
    (allowed : Allowed deliver SparesDelivery emptyDisk deliveries) : Replicated packets deliveries := by
  obtain ⟨ps, rfl, chained, genuine⟩ := exists_produced produced
  obtain ⟨held, follows⟩ := @deliverRun_of_follows ps _ [] ⟨intact_empty, by simp⟩ _
    delivered allowed
  rw [List.nil_append] at follows
  have read := congrArg Prod.snd follows.intact.readPackets_eq
  have held_ : Chained held := by
    obtain ⟨file, checkpoint, reads, -⟩ := follows.intact
    exact reads.holds.chained
  obtain ⟨rest', split⟩ := held_.prefix_of_subset chained follows.known
  constructor
  · exact ⟨_, read, by rw [← split, List.map_append]; exact List.prefix_append _ _⟩
  · intro held' read' packet member
    rw [read] at read'
    cases read'
    obtain ⟨p, hp, rfl⟩ := List.mem_map.mp member
    obtain ⟨genuine⟩ := genuine p (follows.known p hp)
    exact ingest_held follows.intact hp genuine
  · intro held' read' packet rest same
    rw [read] at read'
    cases read'
    rw [← split, List.map_append, List.append_cancel_left_eq] at same
    cases rest' with
    | nil => cases same
    | cons p rest' =>
        cases same
        have member : p ∈ ps := by
          rw [← split]
          simp
        have next : p.seq = held.length + 1 := by
          have inside : held.length < ps.length := by
            rw [← split]
            simp
          have here := chained.seq_getElem inside
          simpa [← split] using here
        have fresh : p.id ∉ held.map Packet.id := by
          have apart := chained.distinct
          rw [← split, List.map_append, List.nodup_append] at apart
          intro inside
          exact apart.2.2 _ inside p.id (by simp) rfl
        obtain ⟨genuine⟩ := genuine p member
        obtain ⟨answer, after⟩ := ingest_next follows.intact next fresh genuine
        refine ⟨answer, ?_⟩
        rw [after.readPackets_eq, List.map_append]
        rfl

/-! ## A replica that is set back, and one that follows -/

/-- The packet of a small source under its own number. -/
def smallPacket (n : Nat) : Json.Document :=
  ⟨packetWith ((sealedHash (smallSource n).1 1).getD []) (smallSource n).1 n, by
    apply Json.wellFormed_ofMembers
    intro m hm
    rcases List.mem_append.mp hm with h | h
    · simp only [List.mem_cons, List.not_mem_nil, or_false] at h
      rcases h with rfl | rfl | rfl | rfl <;> simp
    · rw [List.mem_singleton.mp h]
      exact Json.wellFormed_ofNat n⟩

def smallPackets : List Json := [(smallPacket 1).1, (smallPacket 2).1]

theorem produced_small :
    (readPackets (run sealStep emptyDisk [smallSource 1, smallSource 2])).2 = .ok smallPackets := by
  decide +kernel

/-- The first packet loses its newline, is delivered again and checkpointed, and is lost with the
    second one, whose append is interrupted. -/
def setBack : List Delivery :=
  [⟨smallPacket 1, some (0, 182)⟩, ⟨smallPacket 1, none⟩, ⟨smallPacket 2, some (0, 10)⟩]

theorem not_replicated_setBack :
    (readPackets (run sealStep emptyDisk [smallSource 1, smallSource 2])).2 = .ok smallPackets ∧
      (∀ d ∈ setBack, d.packet.1 ∈ smallPackets) ∧ ¬Replicated smallPackets setBack := by
  refine ⟨produced_small, by simp [setBack, smallPackets], ?_⟩
  intro replicated
  have empty : (readPackets (run deliver emptyDisk setBack)).2 = .ok [] := by decide +kernel
  have refused : (ingest (smallPacket 1).1 (run deliver emptyDisk setBack)).2.isOk = false := by
    decide +kernel
  obtain ⟨answer, -⟩ := replicated.next [] empty _ _ rfl
  rw [answer] at refused
  cases refused

/-- Deliveries out of order, twice and interrupted. -/
def disturbed : List Delivery :=
  [⟨smallPacket 2, none⟩, ⟨smallPacket 1, some (0, 5)⟩, ⟨smallPacket 1, none⟩, ⟨smallPacket 1, none⟩,
    ⟨smallPacket 2, some (0, 7)⟩]

theorem replicated_disturbed : Replicated smallPackets disturbed := by
  apply replicated_of_spares produced_small
  · simp [disturbed, smallPackets]
  · refine ⟨?_, ?_, ?_, ?_, ?_, trivial⟩
    all_goals
      intro k n crash
      cases crash
    · decide +kernel
    · decide +kernel

end Senex.T0Audit
