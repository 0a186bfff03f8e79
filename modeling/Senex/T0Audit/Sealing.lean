import Senex.Foundation.Transition
import Senex.T0Audit.Operations

/-! # Repeated sealing

`seal` looks for a source under the id that its packet has with the number one, and stores it
under the id that its packet has with the next number.  The ids are the same unless the number
decides whether the payload is compacted, and where they are, sealing again changes nothing.
-/

namespace Senex.T0Audit

open Text

def emptyDisk : AuditDisk := ⟨[], none⟩

def sealStep (disk : AuditDisk) (source : Json.Document) : AuditDisk := (sealSource source.1).after disk

/-- The disk holds these packets, and no packet lacks its newline only. -/
def Intact (disk : AuditDisk) (packets : List Packet) : Prop :=
  ∃ file checkpoint, Reads disk file packets checkpoint ∧ ∀ e, file.tail ≠ .unended e

theorem intact_empty : Intact emptyDisk [] :=
  ⟨.empty, 0, ⟨rfl, holds_empty, Or.inl ⟨rfl, rfl⟩, Nat.le_refl 0⟩, by simp [LogFile.empty]⟩

section
variable {disk : AuditDisk} {packets : List Packet}

theorem Intact.scanLog_eq (intact : Intact disk packets) :
    ∃ scan : Scan Scanned, scan.state = scannedOf packets ∧ scanLog disk = ([], .ok scan) := by
  obtain ⟨file, checkpoint, reads, -⟩ := intact
  exact ⟨scanOf file packets, rfl, scanLog_of_holds reads.holds reads.log⟩

theorem Intact.readPackets_eq (intact : Intact disk packets) :
    readPackets disk = ([], .ok (packets.map Packet.json)) := by
  obtain ⟨scan, state, scanned⟩ := intact.scanLog_eq
  rw [readPackets, DiskCall.bind_of_ok scanned, state]
  simp [scannedOf, Packet.indexed]

theorem Intact.distinct (intact : Intact disk packets) : (packets.map Packet.id).Nodup := by
  obtain ⟨file, checkpoint, reads, -⟩ := intact
  exact reads.holds.chained.distinct

theorem get_id_json (p : Packet) : p.json.get (txt "packet_id") = .str p.id := by
  have member := p.idMember
  unfold Packet.json
  cases id : p.document.1.get (txt "packet_id") with
  | str t =>
      rw [id] at member
      exact congrArg Json.str (Option.some.inj member)
  | _ =>
      rw [id] at member
      cases member

/-- The packets of a log have distinct ids. -/
theorem Intact.nodup_ids (intact : Intact disk packets) :
    ((packets.map Packet.json).map fun packet => packet.get (txt "packet_id")).Nodup := by
  have ids : ((packets.map Packet.json).map fun packet => packet.get (txt "packet_id")) =
      (packets.map Packet.id).map Json.str := by
    simp [get_id_json]
  rw [ids]
  exact intact.distinct.map fun _ _ same => Json.str.inj same

/-! ## One call -/

/-- Where `seal` appends the source, its payload is the one that it is looked for under. -/
def KeepsIdentity (disk : AuditDisk) (source : Json.Document) : Prop :=
  ∀ scan, (scanLog disk).2 = .ok scan → ∀ candidate, buildSealedPacket source.1 1 = .ok candidate →
    Json.lookup ((candidate.get (txt "packet_id")).asText?.getD []) scan.state.byId = none →
      Stable source.1 (scan.state.maxSeq + 1)

/-- The id under which `seal` looks for a source. -/
theorem Built.candidate_id {source : Json} {candidate : Json} (first : Built source 1 candidate) :
    (candidate.get (txt "packet_id")).asText?.getD [] = packetIdOf first.digest := by
  rw [first.get_id]
  rfl

/-- A source whose packet the log has. -/
theorem sealSource_of_member (intact : Intact disk packets) {source : Json.Document} {candidate : Json}
    (first : Built source.1 1 candidate) {p : Packet} (member : p ∈ packets)
    (same : p.id = packetIdOf first.digest) : sealSource source.1 disk = ([], .ok p.json) := by
  have found := lookup_of_mem intact.distinct member
  obtain ⟨file, checkpoint, reads, -⟩ := intact
  rw [sealSource, first.made, DiskCall.lift_ok_bind, first.candidate_id,
    DiskCall.bind_of_ok (openLog_of_reads reads), ← same]
  simp only [DiskCall.written, List.foldl_nil, List.nil_append, scanOf, scannedOf, found]
  rfl

/-- What a call adds, and what it returns. -/
theorem sealStep_of_intact (intact : Intact disk packets) {source : Json.Document}
    (keeps : KeepsIdentity disk source) :
    ∃ more, Intact (sealStep disk source) (packets ++ more) ∧
      ∀ packet, (sealSource source.1 disk).2 = .ok packet →
        ∃ candidate, ∃ first : Built source.1 1 candidate, ∃ p ∈ packets ++ more, p.json = packet ∧
          p.id = packetIdOf first.digest := by
  obtain ⟨scan, state, scanned⟩ := intact.scanLog_eq
  obtain ⟨file, checkpoint, reads, open_⟩ := intact
  have outcome := sealSource_of_reads reads source
  unfold sealStep DiskCall.after
  generalize sealSource source.1 disk = result at outcome
  cases outcome with
  | refused raised unbuilt =>
      refine ⟨[], ⟨file, checkpoint, by simpa using reads, open_⟩, ?_⟩
      intro packet returned
      cases returned
  | known candidate first p member same =>
      refine ⟨[], ⟨file, checkpoint, by simpa using reads, open_⟩, ?_⟩
      intro packet returned
      cases returned
      exact ⟨candidate, first, p, by simpa using member, rfl, same⟩
  | unbuilt candidate first fresh raised unbuilt =>
      refine ⟨[], ⟨file.repaired, checkpoint, by simpa using reads_repaired reads open_, by simp⟩, ?_⟩
      intro packet returned
      cases returned
  | appended candidate packet first fresh built line coded =>
      have stable := keeps scan (by rw [scanned]) candidate first.made
      rw [state, first.candidate_id] at stable
      have id : built.stored.id = packetIdOf first.digest :=
        congrArg packetIdOf (built.digest_eq first (stable (lookup_indexed.mpr fresh)))
      rw [← built.json_stored] at coded
      refine ⟨[built.stored], ⟨_, _, reads_stored reads open_ rfl (id ▸ fresh) coded, by simp [LogFile.append]⟩, ?_⟩
      intro packet returned
      cases returned
      exact ⟨candidate, first, built.stored, by simp, built.json_stored, id⟩

end

/-! ## Runs -/

theorem sealRun_of_intact {disk : AuditDisk} {packets : List Packet} (intact : Intact disk packets)
    {sources : List Json.Document} (allowed : Allowed sealStep KeepsIdentity disk sources) :
    ∃ more, Intact (run sealStep disk sources) (packets ++ more) := by
  induction sources generalizing disk packets with
  | nil => exact ⟨[], by simpa using intact⟩
  | cons source sources ih =>
      obtain ⟨first, between, -⟩ := sealStep_of_intact intact allowed.1
      obtain ⟨rest, last⟩ := ih between allowed.2
      exact ⟨first ++ rest, by simpa using last⟩

/-- Sealing is idempotent: after every call the log reads, and no id occurs twice; a packet that
    is appended has the identity that its source has at any place; and a source that was sealed is
    answered with its packet, which the log holds, and nothing is written. -/
structure Idempotent (sources : List Json.Document) : Prop where
  readable : ∀ first rest, sources = first ++ rest → ∃ packets,
    (readPackets (run sealStep emptyDisk first)).2 = .ok packets ∧
      (packets.map fun packet => packet.get (txt "packet_id")).Nodup
  identity : ∀ first source rest, sources = first ++ source :: rest →
    ∀ writes packet, sealSource source.1 (run sealStep emptyDisk first) = (writes, .ok packet) →
      writes ≠ [] → ∃ candidate, buildSealedPacket source.1 1 = .ok candidate ∧
        packet.get (txt "packet_id") = candidate.get (txt "packet_id") ∧
        packet.get (txt "packet_hash") = candidate.get (txt "packet_hash")
  again : ∀ first source rest, sources = first ++ source :: rest →
    ∀ packet, (sealSource source.1 (run sealStep emptyDisk first)).2 = .ok packet →
      sealSource source.1 (run sealStep emptyDisk sources) = ([], .ok packet) ∧
        ∃ packets, (readPackets (run sealStep emptyDisk sources)).2 = .ok packets ∧ packet ∈ packets

/-- A packet that is appended has the identity of the packet its source was looked for under. -/
theorem identity_of_appended {disk : AuditDisk} {packets : List Packet} (intact : Intact disk packets)
    {source : Json.Document} (keeps : KeepsIdentity disk source) {writes : List AuditWrite} {packet : Json}
    (returned : sealSource source.1 disk = (writes, .ok packet)) (written : writes ≠ []) :
    ∃ candidate, buildSealedPacket source.1 1 = .ok candidate ∧
      packet.get (txt "packet_id") = candidate.get (txt "packet_id") ∧
      packet.get (txt "packet_hash") = candidate.get (txt "packet_hash") := by
  obtain ⟨scan, state, scanned⟩ := intact.scanLog_eq
  obtain ⟨file, checkpoint, reads, open_⟩ := intact
  have outcome := sealSource_of_reads reads source
  rw [returned] at outcome
  cases outcome with
  | known candidate first p member same => exact absurd rfl written
  | appended candidate packet first fresh built line coded =>
      have stable := keeps scan (by rw [scanned]) candidate first.made
      rw [state, first.candidate_id] at stable
      have same := built.digest_eq first (stable (lookup_indexed.mpr fresh))
      refine ⟨candidate, first.made, ?_, ?_⟩
      · rw [built.get_id, first.get_id, same]
      · rw [built.get_hash, first.get_hash, same]

/-- Sealing is idempotent in every run whose appends keep the payload. -/
theorem idempotent_of_keepsIdentity {sources : List Json.Document}
    (allowed : Allowed sealStep KeepsIdentity emptyDisk sources) : Idempotent sources := by
  constructor
  · intro first rest split
    rw [split, allowed_append] at allowed
    obtain ⟨packets, intact⟩ := sealRun_of_intact intact_empty allowed.1
    exact ⟨_, congrArg Prod.snd intact.readPackets_eq, intact.nodup_ids⟩
  · intro first source rest split writes packet returned written
    rw [split, allowed_append] at allowed
    obtain ⟨packets, intact⟩ := sealRun_of_intact intact_empty allowed.1
    exact identity_of_appended intact allowed.2.1 returned written
  · intro first source rest split packet returned
    rw [split, allowed_append] at allowed
    obtain ⟨packets, intact⟩ := sealRun_of_intact intact_empty allowed.1
    obtain ⟨more, between, answers⟩ := sealStep_of_intact intact allowed.2.1
    obtain ⟨rest', last⟩ := sealRun_of_intact between allowed.2.2
    obtain ⟨candidate, known, p, member, rfl, same⟩ := answers packet returned
    have kept := List.mem_append_left rest' member
    rw [split, run_append]
    exact ⟨sealSource_of_member last known kept same, _, congrArg Prod.snd last.readPackets_eq,
      List.mem_map_of_mem kept⟩

/-! ## A number with one digit more -/

/-- The hash of the packet that a source gets at a place. -/
def sealedHash (source : Json) (packetSeq : Nat) : Option Text :=
  (buildSealedPacket source packetSeq).toOption.bind fun packet => (packet.get (txt "packet_hash")).asText?

theorem exists_built_of_sealedHash {source : Json.Document} {packetSeq : Nat} {digest : Text}
    (hash : sealedHash source.1 packetSeq = some digest) :
    ∃ packet, ∃ built : Built source.1 packetSeq packet, built.digest = digest := by
  unfold sealedHash at hash
  cases made : buildSealedPacket source.1 packetSeq with
  | error raised =>
      rw [made] at hash
      cases hash
  | ok packet =>
      obtain ⟨built⟩ := built_of_buildSealedPacket made
      rw [made] at hash
      refine ⟨packet, built, ?_⟩
      simpa [Except.toOption, built.get_hash] using hash

theorem Built.digest_unique {source : Json} {packetSeq : Nat} {packet packet' : Json}
    (built : Built source packetSeq packet) (built' : Built source packetSeq packet') :
    built.digest = built'.digest := by
  have same : packet = packet' := Except.ok.inj (built.made.symm.trans built'.made)
  subst same
  exact Json.str.inj (built.get_hash.symm.trans built'.get_hash)

theorem Built.digest_unique_at {source : Json} {m n : Nat} (same : m = n) {packet packet' : Json}
    (built : Built source m packet) (built' : Built source n packet') : built.digest = built'.digest := by
  subst same
  exact built.digest_unique built'

/-- Sources with ids of their own that no place changes are stored one behind the other. -/
theorem sealRun_of_fresh {disk : AuditDisk} {packets : List Packet} (intact : Intact disk packets)
    {items : List (Json.Document × Text)}
    (hashes : ∀ m ∈ items.zipIdx (packets.length + 1),
      sealedHash m.1.1.1 1 = some m.1.2 ∧ sealedHash m.1.1.1 m.2 = some m.1.2)
    (fresh : (packets.map Packet.id ++ items.map fun m => packetIdOf m.2).Nodup) :
    ∃ more, Intact (run sealStep disk (items.map Prod.fst)) (packets ++ more) ∧
      more.map Packet.id = items.map fun m => packetIdOf m.2 := by
  induction items generalizing disk packets with
  | nil => exact ⟨[], by simpa using intact, rfl⟩
  | cons item items ih =>
      obtain ⟨source, digest⟩ := item
      rw [List.zipIdx_cons] at hashes
      obtain ⟨looked, stored⟩ := hashes ((source, digest), packets.length + 1) (by simp)
      obtain ⟨candidate', first', isFirst⟩ := exists_built_of_sealedHash looked
      obtain ⟨packet', built', isBuilt⟩ := exists_built_of_sealedHash stored
      have new : packetIdOf digest ∉ packets.map Packet.id := by
        intro member
        exact (List.nodup_append.mp fresh).2.2 _ member _ (by simp) rfl
      have added : ∃ p : Packet, p.id = packetIdOf digest ∧ Intact (sealStep disk source) (packets ++ [p]) := by
        obtain ⟨file, checkpoint, reads, open_⟩ := intact
        have outcome := sealSource_of_reads reads source
        unfold sealStep DiskCall.after
        generalize sealSource source.1 disk = result at outcome
        cases outcome with
        | refused raised unbuilt => exact absurd first'.made (unbuilt _)
        | unbuilt candidate first fresh raised unbuilt => exact absurd built'.made (unbuilt _)
        | known candidate first p member same =>
            rw [first.digest_unique first', isFirst] at same
            exact absurd (List.mem_map.mpr ⟨p, member, same⟩) new
        | appended candidate packet first absent built line coded =>
            have id : built.stored.id = packetIdOf digest :=
              congrArg packetIdOf ((built.digest_unique built').trans isBuilt)
            rw [← built.json_stored] at coded
            exact ⟨built.stored, id, _, _, reads_stored reads open_ rfl (id ▸ new) coded, by simp [LogFile.append]⟩
      obtain ⟨p, id, here⟩ := added
      have later : ∀ m ∈ items.zipIdx ((packets ++ [p]).length + 1),
          sealedHash m.1.1.1 1 = some m.1.2 ∧ sealedHash m.1.1.1 m.2 = some m.1.2 := by
        rw [List.length_append, List.length_singleton]
        exact fun m hm => hashes m (List.mem_cons_of_mem _ hm)
      obtain ⟨more, last, ids⟩ := ih here later (by simpa [id] using fresh)
      refine ⟨p :: more, by simpa using last, ?_⟩
      rw [List.map_cons, List.map_cons, ids, id]

/-- A small source. -/
def smallSource (n : Nat) : Json.Document :=
  ⟨.ofMembers [(txt "ev", .ofNat n)], Json.wellFormed_ofMembers (by simp)⟩

/-- The payload with this text as its external markets. -/
def marketPayload (market : Text) : Json :=
  .ofMembers [(txt "_audit", .ofMembers [(txt "external_markets_v1", .str market)])]

/-- What the compaction leaves of it. -/
def compactedPayload : Json := .ofMembers [(txt "_audit", .obj [])]

def largeMarket : Text := List.replicate 3885 120

/-- Its packet has 4096 bytes with a number of one digit. -/
def largeSource : Json.Document :=
  ⟨marketPayload largeMarket, Json.wellFormed_ofMembers (by
    intro m hm
    rw [List.mem_singleton.mp hm]
    apply Json.wellFormed_ofMembers
    intro n hn
    rw [List.mem_singleton.mp hn]
    exact Json.wellFormed_str _)⟩

theorem project_small (n : Nat) : projectDecisionTime (smallSource n).1 = .ok (smallSource n).1 := rfl

/-- The payload of a small source has nothing to compact. -/
theorem keepsIdentity_small (disk : AuditDisk) (n : Nat) : KeepsIdentity disk (smallSource n) := by
  intro scan _ candidate _ _ payload projected
  rw [project_small] at projected
  cases projected
  exact Or.inr rfl

theorem idempotent_small : Idempotent [smallSource 1, smallSource 2, smallSource 1] :=
  idempotent_of_keepsIdentity
    ⟨keepsIdentity_small _ 1, keepsIdentity_small _ 2, keepsIdentity_small _ 1, trivial⟩

/-- Nine small sources, and the large one as the tenth. -/
def tenSources : List Json.Document := (List.range 9).map smallSource ++ [largeSource]

/-- The digest under which the large source is looked for. -/
def largeDigest : Text :=
  Sha256.hexdigest (Json.render Json.pyQuote (identityEnvelope (marketPayload largeMarket)))

def compactedDigest : Text :=
  Sha256.hexdigest (Json.render Json.pyQuote (identityEnvelope compactedPayload))

def smallItems : List (Json.Document × Text) :=
  (List.range 9).map fun n => (smallSource n, (sealedHash (smallSource n).1 1).getD [])

/-- ASCII that no quoting changes. -/
def Plain (t : Text) : Prop := ∀ c ∈ t, Json.escapeUnit c = [c] ∧ c < 0x80

theorem pyQuote_plain {t : Text} (plain : Plain t) : Json.pyQuote t = t := by
  induction t with
  | nil => rfl
  | cons c t ih =>
      have rest : Plain t := fun d hd => plain d (List.mem_cons_of_mem _ hd)
      have unfolded : Json.pyQuote (c :: t) = Json.escapeUnit c ++ Json.pyQuote t := rfl
      rw [unfolded, (plain c (by simp)).1, ih rest]
      rfl

theorem plain_largeMarket : Plain largeMarket := by
  intro c hc
  rw [List.eq_of_mem_replicate hc]
  decide

theorem plain_hexdigest (raw : Bytes) : Plain (Sha256.hexdigest raw) := by
  have hex := Sha256.isHex64_hexdigest raw
  simp only [Sha256.isHex64, Bool.and_eq_true, List.all_eq_true] at hex
  intro c hc
  have lower := hex.2 c hc
  simp only [Sha256.isLowerHex, isDigit, Bool.or_eq_true, Bool.and_eq_true, decide_eq_true_eq] at lower
  simp only [Json.escapeUnit]
  split_ifs <;> first | omega | exact ⟨rfl, by omega⟩

theorem plain_packetIdOf {digest : Text} (plain : Plain digest) : Plain (packetIdOf digest) := by
  intro c hc
  rcases List.mem_append.mp hc with h | h
  · have prefix_ : ∀ c ∈ packetIdPrefix, Json.escapeUnit c = [c] ∧ c < 0x80 := by decide
    exact prefix_ c h
  · exact plain c (List.mem_of_mem_take h)

theorem render_packet {market digest : Text} (market_ : Plain market) (digest_ : Plain digest)
    (packetSeq : Nat) :
    Json.render Json.pyQuote (packetWith digest (marketPayload market) packetSeq) =
      txt "\x7b\"_audit\":\x7b\"external_markets_v1\":\"" ++ (market ++
        (txt "\"\x7d,\"packet_hash\":\"" ++ (digest ++ (txt "\",\"packet_id\":\"" ++ (packetIdOf digest ++
          (txt "\",\"packet_seq\":" ++ (ofNat packetSeq ++
            txt ",\"schema_version\":\"gptrader.t0.v1\"\x7d"))))))) := by
  have members : packetWith digest (marketPayload market) packetSeq =
      .obj [(txt "_audit", .obj [(txt "external_markets_v1", .str market)]), (txt "packet_hash", .str digest),
        (txt "packet_id", .str (packetIdOf digest)), (txt "packet_seq", .ofNat packetSeq),
        (txt "schema_version", .str schemaVersion)] := rfl
  rw [members]
  simp only [Json.render, Json.renderMembers, pyQuote_plain market_, pyQuote_plain digest_,
    pyQuote_plain (plain_packetIdOf digest_), Json.ofNat, List.append_assoc, List.cons_append]
  rfl

theorem packetSize_large (packetSeq : Nat) :
    packetSize (packetWith largeDigest (marketPayload largeMarket) packetSeq) =
      .ok (4095 + (ofNat packetSeq).length) := by
  have digest_ : Plain largeDigest := plain_hexdigest _
  have rendered := render_packet plain_largeMarket digest_ packetSeq
  have ascii : ∀ c ∈ Json.render Json.pyQuote (packetWith largeDigest (marketPayload largeMarket) packetSeq),
      c < 0x80 := by
    have closed (s : String) (small : ∀ c ∈ txt s, c < 0x80) : ∀ c ∈ txt s, c < 0x80 := small
    rw [rendered]
    intro c hc
    simp only [List.mem_append] at hc
    rcases hc with h | h | h | h | h | h | h | h | h
    · exact closed _ (by decide) c h
    · exact (plain_largeMarket c h).2
    · exact closed _ (by decide) c h
    · exact (digest_ c h).2
    · exact closed _ (by decide) c h
    · exact (plain_packetIdOf digest_ c h).2
    · exact closed _ (by decide) c h
    · have digit := isDigit_of_mem_ofNat h
      simp only [isDigit, Bool.and_eq_true, decide_eq_true_eq] at digit
      omega
    · exact closed _ (by decide) c h
  have market_ : largeMarket.length = 3885 := List.length_replicate
  have hash : largeDigest.length = 64 := by
    have hex := Sha256.isHex64_hexdigest
      (Json.render Json.pyQuote (identityEnvelope (marketPayload largeMarket)))
    simp only [Sha256.isHex64, Bool.and_eq_true, beq_iff_eq] at hex
    exact hex.1
  have length : (Json.render Json.pyQuote
      (packetWith largeDigest (marketPayload largeMarket) packetSeq)).length =
        4095 + (ofNat packetSeq).length := by
    rw [rendered]
    simp [txt, market_, hash, packetIdOf, packetIdPrefix]
    omega
  rw [packetSize, canonicalBytes, Json.bytes, Utf8.encode_ascii ascii, orRaise_some, ← length]
  rfl

theorem project_market (market : Text) :
    projectDecisionTime (marketPayload market) = .ok (marketPayload market) := rfl

theorem compact_market (market : Text) : compactPayload (marketPayload market) = .ok compactedPayload := rfl

theorem hash_market (market digest : Text) (packetSeq : Nat) :
    ((packetWith digest (marketPayload market) packetSeq).get (txt "packet_hash")).asText? = some digest := rfl

theorem hash_compacted (digest : Text) (packetSeq : Nat) :
    ((packetWith digest compactedPayload packetSeq).get (txt "packet_hash")).asText? = some digest := rfl

theorem render_identity {market : Text} (market_ : Plain market) :
    Json.render Json.pyQuote (identityEnvelope (marketPayload market)) =
      txt "\x7b\"payload\":\x7b\"_audit\":\x7b\"external_markets_v1\":\"" ++ (market ++
        txt "\"\x7d\x7d,\"schema_version\":\"gptrader.t0.v1\"\x7d") := by
  have members : identityEnvelope (marketPayload market) =
      .obj [(txt "payload", .obj [(txt "_audit", .obj [(txt "external_markets_v1", .str market)])]),
        (txt "schema_version", .str schemaVersion)] := rfl
  rw [members]
  simp only [Json.render, Json.renderMembers, pyQuote_plain market_, List.append_assoc, List.cons_append]
  rfl

theorem ascii_identity {market : Text} (market_ : Plain market) :
    ∀ c ∈ Json.render Json.pyQuote (identityEnvelope (marketPayload market)), c < 0x80 := by
  have closed (s : String) (small : ∀ c ∈ txt s, c < 0x80) : ∀ c ∈ txt s, c < 0x80 := small
  rw [render_identity market_]
  intro c hc
  simp only [List.mem_append] at hc
  rcases hc with h | h | h
  · exact closed _ (by decide) c h
  · exact (market_ c h).2
  · exact closed _ (by decide) c h

theorem packetFromPayload_large (packetSeq : Nat) : packetFromPayload (marketPayload largeMarket) packetSeq =
    .ok (packetWith largeDigest (marketPayload largeMarket) packetSeq) := by
  have coded : payloadDigest (marketPayload largeMarket) = .ok largeDigest := by
    rw [payloadDigest, canonicalBytes, Json.bytes, Utf8.encode_ascii (ascii_identity plain_largeMarket),
      orRaise_some]
    rfl
  rw [packetFromPayload, coded]
  rfl

theorem sealedHash_large_first : sealedHash largeSource.1 1 = some largeDigest := by
  have made := buildSealedPacket_of_small (by decide) (project_market largeMarket)
    (packetFromPayload_large 1) (packetSize_large 1) (by decide)
  rw [sealedHash, largeSource, made]
  exact hash_market largeMarket largeDigest 1

theorem sealedHash_large_tenth : sealedHash largeSource.1 10 = some compactedDigest := by
  have again : packetFromPayload compactedPayload 10 = .ok (packetWith compactedDigest compactedPayload 10) := by
    decide +kernel
  have measured : packetSize (packetWith compactedDigest compactedPayload 10) = .ok 188 := by decide +kernel
  have made := buildSealedPacket_of_large (by decide) (project_market largeMarket)
    (packetFromPayload_large 10) (packetSize_large 10) (by decide) (compact_market largeMarket) again measured
    (by decide)
  rw [sealedHash, largeSource, made]
  exact hash_compacted compactedDigest 10

/-- The padded identity of the large source, as words. -/
def largeWords : List Nat :=
  [2065854561, 2037149537, 1679964795, 576676213, 1684632610, 981148261, 2020894066, 1851878495, 1835102827,
    1702130527, 1982931514, 578320504] ++ (List.replicate 970 2021161080 ++
  [2021139069, 2100044403, 1667786093, 1633646181, 1920166255, 1847736866, 1735423090, 1633969522, 779366446,
    1982931581, 2147483648, 0, 0, 0, 0, 0, 0, 0, 0, 0, 0, 0, 0, 0, 0, 31744])

/-- The id of the large source, with the chaining words after every sixteen of its blocks. -/
theorem packetIdOf_large : packetIdOf largeDigest = txt "gpt0-6025a7e6c0bd96d7af9f0222" := by
  have words : Sha256.bigEndianWords (Sha256.pad
      (Json.render Json.pyQuote (identityEnvelope (marketPayload largeMarket)))) = largeWords := by
    rw [render_identity plain_largeMarket]
    decide +kernel
  have count : largeWords.length / 16 = 16 + 16 + 16 + 15 := by decide +kernel
  have first : Sha256.blocks 16 largeWords Sha256.Chain.initial = ⟨97368231, 877398137, 1703657923, 4224916187,
      3261571439, 2514710895, 1141353929, 3627113031⟩ := by decide +kernel
  have second : Sha256.blocks 16 (largeWords.drop (16 * 16)) ⟨97368231, 877398137, 1703657923, 4224916187,
      3261571439, 2514710895, 1141353929, 3627113031⟩ = ⟨2381188255, 1618544547, 511527748, 3478561979, 3213537965,
      1510771229, 4055124464, 798851795⟩ := by decide +kernel
  have third : Sha256.blocks 16 (largeWords.drop (16 * (16 + 16))) ⟨2381188255, 1618544547, 511527748, 3478561979,
      3213537965, 1510771229, 4055124464, 798851795⟩ = ⟨3026655588, 3821436244, 1969432367, 127846379, 2387343403,
      1585814924, 1130625729, 1026360137⟩ := by decide +kernel
  rw [largeDigest, Sha256.hexdigest, words, count, Sha256.blocks_add, Sha256.blocks_add, Sha256.blocks_add,
    first, second, third]
  decide +kernel

/-- The first digits of the digests of the small sources. -/
def smallStarts : List Text :=
  [txt "7a49", txt "3282", txt "b5d6", txt "36a6", txt "eb48", txt "faa9", txt "64f6", txt "0c08", txt "979e"]

theorem sealedHash_small {n : Nat} (small : n < 9) :
    sealedHash (smallSource n).1 (n + 1) = sealedHash (smallSource n).1 1 ∧
      (sealedHash (smallSource n).1 1).map (List.take 4) = smallStarts[n]? := by
  have place : n = 0 ∨ n = 1 ∨ n = 2 ∨ n = 3 ∨ n = 4 ∨ n = 5 ∨ n = 6 ∨ n = 7 ∨ n = 8 := by omega
  rcases place with rfl | rfl | rfl | rfl | rfl | rfl | rfl | rfl | rfl <;>
    exact ⟨by decide +kernel, by decide +kernel⟩

/-- What an id begins with. -/
theorem take_packetIdOf (digest : Text) : (packetIdOf digest).take 9 = packetIdPrefix ++ digest.take 4 := by
  have length : packetIdPrefix.length = 5 := rfl
  rw [packetIdOf, List.take_append, length, List.take_take]
  rfl

theorem take_packetIdOf_small : smallItems.map (List.take 9 ∘ fun m => packetIdOf m.2) =
    smallStarts.map (packetIdPrefix ++ ·) := by
  have starts : smallStarts = (List.range 9).map fun n => smallStarts.getD n [] := rfl
  rw [starts, smallItems, List.map_map, List.map_map]
  apply List.map_congr_left
  intro n member
  have taken := (sealedHash_small (List.mem_range.mp member)).2
  simp only [Function.comp_apply, take_packetIdOf, List.getD]
  rw [← taken]
  cases sealedHash (smallSource n).1 1 <;> rfl

/-- The small sources keep their digests at their places, and all ids are different. -/
theorem digests_tenSources :
    (∀ m ∈ smallItems.zipIdx 1, sealedHash m.1.1.1 1 = some m.1.2 ∧ sealedHash m.1.1.1 m.2 = some m.1.2) ∧
      (packetIdOf largeDigest :: packetIdOf compactedDigest ::
        smallItems.map fun m => packetIdOf m.2).Nodup := by
  constructor
  · intro m member
    obtain ⟨first, last, item⟩ := List.mem_zipIdx member
    simp only [smallItems, List.length_map, List.length_range] at last
    obtain ⟨same, known⟩ := @sealedHash_small (m.2 - 1) (by omega)
    have back : m.2 - 1 + 1 = m.2 := by omega
    rw [back] at same
    have found : smallStarts[m.2 - 1]?.isSome = true := by
      simp [smallStarts]
      omega
    rw [← known, Option.isSome_map] at found
    obtain ⟨digest, value⟩ := Option.isSome_iff_exists.mp found
    have kept : m.1 = (smallSource (m.2 - 1), digest) := by
      rw [item]
      simp only [smallItems, List.getElem_map, List.getElem_range, value, Option.getD_some]
    rw [kept]
    exact ⟨value, same.trans value⟩
  · have compacted : (packetIdOf compactedDigest).take 9 = txt "gpt0-b6cc" := by decide +kernel
    apply List.Nodup.of_map (List.take 9)
    rw [List.map_cons, List.map_cons, List.map_map, packetIdOf_large, compacted]
    rw [take_packetIdOf_small]
    decide +kernel

theorem not_idempotent_tenSources : ¬Idempotent tenSources := by
  intro idempotent
  obtain ⟨hashes, ids⟩ := digests_tenSources
  have distinct := (List.nodup_cons.mp (List.nodup_cons.mp ids).2).2
  obtain ⟨packets, intact, nine⟩ := sealRun_of_fresh intact_empty hashes distinct
  rw [List.nil_append] at intact
  have length : packets.length = 9 := by
    have count := congrArg List.length nine
    simpa [smallItems] using count
  have sources : smallItems.map Prod.fst = (List.range 9).map smallSource := by simp [smallItems]
  rw [sources] at intact
  obtain ⟨candidate', first', isFirst⟩ := exists_built_of_sealedHash sealedHash_large_first
  obtain ⟨packet', built', isBuilt⟩ := exists_built_of_sealedHash sealedHash_large_tenth
  have identity := idempotent.identity _ largeSource [] rfl
  obtain ⟨file, checkpoint, reads, -⟩ := intact
  have outcome := sealSource_of_reads reads largeSource
  generalize sealSource largeSource.1 _ = result at outcome identity
  cases outcome with
  | refused raised unbuilt => exact unbuilt _ first'.made
  | unbuilt candidate first fresh raised unbuilt =>
      rw [length] at unbuilt
      exact unbuilt _ built'.made
  | known candidate first p member same =>
      rw [first.digest_unique first', isFirst] at same
      apply (List.nodup_cons.mp ids).1
      rw [← nine, ← same]
      exact List.mem_cons_of_mem _ (List.mem_map_of_mem member)
  | appended candidate packet first absent built line coded =>
      obtain ⟨candidate'', made, sameId, -⟩ := identity _ _ rfl (by simp [storeWrites])
      have again : candidate'' = candidate' := Except.ok.inj (made.symm.trans first'.made)
      rw [again, first'.get_id, built.get_id, isFirst] at sameId
      have tenth : built.digest = compactedDigest := by
        rw [← isBuilt]
        exact Built.digest_unique_at (by rw [length]) built built'
      apply (List.nodup_cons.mp ids).1
      rw [← Json.str.inj sameId, tenth]
      exact List.mem_cons_self

end Senex.T0Audit
