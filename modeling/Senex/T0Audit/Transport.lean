import Senex.T0Audit.Replication

/-! # Transport of sealed packets

`replicate_pending_t0` posts the packets behind its cursor one after another and moves the cursor
behind each one that the consumer acknowledges.  Requests and answers get lost, arrive late, and either
side may crash in between; the consumer holds at all times a beginning of what the producer holds, and
the cursor never passes it.
-/

namespace Senex.T0Audit

open Text

/-! ## The cursor -/

/-- What a call raises: its own error, or one that the sealer raised. -/
inductive TransportError where
  | packetReplicationError (message : Text)
  | sealer (raised : Raised)
  deriving DecidableEq

/-- The text of `_write_cursor`, which replaces the file at once. -/
def cursorText (packetSeq : Nat) : Text :=
  Json.render Json.pyQuote (.ofMembers [(txt "packet_seq", .ofNat packetSeq)]) ++ [10]

/-- `_read_cursor` -/
def readCursor : Option Text → Except TransportError Nat
  | none => .ok 0
  | some text =>
      match (Json.parse true text).bind fun value => asInt? (value.get (txt "packet_seq")) with
      | none => .error (.packetReplicationError (txt "replication cursor is invalid"))
      | some seq =>
          if seq < 0 then .error (.packetReplicationError (txt "replication cursor is invalid"))
          else .ok seq.toNat

/-- `packet["packet_seq"]` of a packet that `_scan` took. -/
def packetSeqOf (packet : Json) : Int := (asInt? (packet.get (txt "packet_seq"))).getD 0

/-- `read_after` -/
def readAfter (cursor limit : Nat) : SealerCall (List Json) := do
  DiskCall.lift (guardNot (!decide (1 ≤ limit ∧ limit ≤ 16)) .valueError (txt "limit must be between 1 and 16"))
  let scan ← scanLog
  let packets := (scan.state.byId.map Prod.snd).mergeSort fun a b => decide (packetSeqOf a ≤ packetSeqOf b)
  return (packets.filter fun packet => decide ((cursor : Int) < packetSeqOf packet)).take limit

/-- `MAX_REPLICATION_BATCH` -/
def maxReplicationBatch : Nat := 16

theorem fits_maxReplicationBatch : 1 ≤ maxReplicationBatch ∧ maxReplicationBatch ≤ 16 := by decide

/-! ## One call -/

/-- The producer's files and the consumer's. -/
structure Link where
  producer : AuditDisk
  /-- `replication_cursor.json` -/
  cursor : Option Text
  replica : AuditDisk

/-- What becomes of one request; the names are those of the exceptions that the producer sees. -/
inductive Trip where
  /-- The request does not arrive. -/
  | lost (exception : Text)
  /-- The consumer crashes in its write `k`, behind `n` bytes of it. -/
  | crashed (exception : Text) (k n : Nat)
  /-- The consumer is done with the packet, and its answer is lost. -/
  | unanswered (exception : Text)
  /-- The answer arrives, and the producer crashes before it writes the cursor. -/
  | stopped
  | answered

namespace Trip

/-- What the trip of a packet leaves of the consumer. -/
def replicaAfter (packet : Json) (replica : AuditDisk) : Trip → AuditDisk
  | .lost _ => replica
  | .crashed _ k n => (ingest packet).interrupted replica k n
  | .unanswered _ | .stopped | .answered => (ingest packet).after replica

/-- The acknowledgement, or the name of the exception; a packet that `ingest` refuses is an HTTP error. -/
def answer (packet : Json) (replica : AuditDisk) : Trip → Except Text Json
  | .lost exception | .crashed exception _ _ | .unanswered exception => .error exception
  | .stopped | .answered => (ingest packet replica).2.mapError fun _ => txt "HTTPError"

def isStopped : Trip → Bool
  | .stopped => true
  | _ => false

end Trip

/-- The check of an acknowledgement. -/
def acknowledges (acknowledgement packet : Json) : Bool :=
  [txt "packet_id", txt "packet_seq", txt "packet_hash"].all fun key =>
    (acknowledgement.get key).pyEq (packet.get key)

/-- The loop of `replicate_pending_t0`, with what becomes of each request; nothing is returned where the
    producer crashes. -/
def replicateLoop (link : Link) (replicated : Nat) :
    List Json → List Trip → Link × Option (Except TransportError Nat)
  | [], _ => (link, some (.ok replicated))
  | _ :: _, [] => (link, none)
  | packet :: packets, trip :: trips =>
      let sent := { link with replica := trip.replicaAfter packet link.replica }
      match trip.answer packet link.replica with
      | .error exception =>
          (sent, some (.error (.packetReplicationError (txt "consumer unavailable: " ++ exception))))
      | .ok acknowledgement =>
          if !acknowledges acknowledgement packet then
            (sent, some (.error (.packetReplicationError (txt "consumer acknowledgement mismatch"))))
          else if trip.isStopped then (sent, none)
          else replicateLoop { sent with cursor := some (cursorText (packetSeqOf packet).toNat) } (replicated + 1)
            packets trips

/-- `replicate_pending_t0` with a configured endpoint and token: the number of packets that it replicated. -/
def replicatePending (trips : List Trip) (link : Link) : Link × Option (Except TransportError Nat) :=
  match readCursor link.cursor with
  | .error failed => (link, some (.error failed))
  | .ok cursor =>
      match (readAfter cursor maxReplicationBatch link.producer).2 with
      | .error raised => (link, some (.error (.sealer raised)))
      | .ok packets => replicateLoop link 0 packets trips

/-! ## Reading -/

@[simp] theorem readCursor_cursorText (packetSeq : Nat) : readCursor (some (cursorText packetSeq)) = .ok packetSeq := by
  have wellFormed : (Json.ofMembers [(txt "packet_seq", .ofNat packetSeq)]).WellFormed :=
    Json.wellFormed_ofMembers (by simp)
  have parsed : Json.parse true (cursorText packetSeq) = some (.ofMembers [(txt "packet_seq", .ofNat packetSeq)]) :=
    Json.parse_render Json.reads_pyQuote wellFormed rfl
  have member : (Json.ofMembers [(txt "packet_seq", .ofNat packetSeq)]).get (txt "packet_seq") = .ofNat packetSeq := by
    rw [Json.get, Json.get?_ofMembers]
    simp [Json.lookup]
  simp only [readCursor, parsed, Option.bind_some, member, asInt?_ofNat]
  rw [if_neg (by omega), Int.toNat_natCast]

theorem packetSeqOf_json (p : Packet) : packetSeqOf p.json = p.seq := by
  have member : asInt? (p.json.get (txt "packet_seq")) = some (p.seq : Int) := p.seqMember
  rw [packetSeqOf, member, Option.getD_some]

/-- Numbered packets behind a number are the ones that stand behind that many. -/
theorem filter_seq {packets : List Packet} {first : Nat}
    (numbered : packets.map Packet.seq = List.range' first packets.length) (cursor : Nat) :
    packets.filter (fun p => decide (cursor < p.seq)) = packets.drop (cursor + 1 - first) := by
  induction packets generalizing first with
  | nil => simp
  | cons p packets ih =>
      rw [List.map_cons, List.length_cons, List.range'_succ, List.cons.injEq] at numbered
      obtain ⟨here, later⟩ := numbered
      rw [List.filter_cons, ih later]
      by_cases behind : cursor < p.seq
      · have none_ : cursor + 1 - first = 0 := by omega
        have none' : cursor + 1 - (first + 1) = 0 := by omega
        rw [decide_eq_true behind, if_pos rfl, none_, none', List.drop_zero, List.drop_zero]
      · have more : cursor + 1 - first = (cursor + 1 - (first + 1)) + 1 := by omega
        rw [decide_eq_false behind, if_neg Bool.false_ne_true, more, List.drop_succ_cons]

theorem readAfter_of_intact {disk : AuditDisk} {packets : List Packet} (intact : Intact disk packets) (cursor : Nat)
    {limit : Nat} (fits : 1 ≤ limit ∧ limit ≤ 16) :
    (readAfter cursor limit disk).2 = .ok (((packets.drop cursor).take limit).map Packet.json) := by
  obtain ⟨scan, state, scanned⟩ := intact.scanLog_eq
  obtain ⟨file, checkpoint, reads, -⟩ := intact
  have chained := reads.holds.chained
  have sorted : (packets.map Packet.json).Pairwise fun a b => decide (packetSeqOf a ≤ packetSeqOf b) = true := by
    have seqs : (packets.map Packet.seq).Pairwise (· < ·) := by
      rw [chained.numbered]
      exact List.pairwise_lt_range'
    rw [List.pairwise_map] at seqs ⊢
    refine seqs.imp fun {p q} before => ?_
    rw [packetSeqOf_json, packetSeqOf_json]
    exact decide_eq_true (by omega)
  have listed : (scannedOf packets).byId.map Prod.snd = packets.map Packet.json := by
    simp [scannedOf, Packet.indexed]
  have kept : (packets.map Packet.json).filter (fun packet => decide ((cursor : Int) < packetSeqOf packet)) =
      (packets.drop cursor).map Packet.json := by
    have filtered := filter_seq chained.numbered cursor
    rw [Nat.add_sub_cancel] at filtered
    rw [List.filter_map, ← filtered]
    congr 1
    apply List.filter_congr
    intro p _
    simp [packetSeqOf_json]
  rw [readAfter]
  have limited : (!decide (1 ≤ limit ∧ limit ≤ 16)) = false := by rw [decide_eq_true fits, Bool.not_true]
  rw [limited, guardNot_false, DiskCall.lift_ok_bind, DiskCall.bind_of_ok scanned, state, listed,
    List.mergeSort_of_pairwise sorted, kept, ← List.map_take]
  rfl

/-! ## What a trip leaves -/

/-- The producer holds the first packets and the cursor stands among what the consumer holds. -/
structure Linked (link : Link) (packets held : List Packet) (cursor : Nat) : Prop where
  producer : Produced link.producer packets
  follows : Follows link.replica packets held
  read : readCursor link.cursor = .ok cursor
  behind : cursor ≤ held.length

/-- Where the consumer crashes, it is not where its log cannot be read on. -/
def Trip.Spares (packet : Json) (replica : AuditDisk) : Trip → Prop
  | .crashed _ k n => ∀ w ∈ (ingest packet replica).1[k]?, ReadableCut n w
  | _ => True

section
variable {link : Link} {packets held : List Packet} {cursor : Nat}

theorem Linked.chained (linked : Linked link packets held cursor) : Chained packets := by
  obtain ⟨file, checkpoint, reads, -⟩ := linked.producer.1
  exact reads.holds.chained

theorem Follows.beginning (follows : Follows link.replica packets held) (chained : Chained packets) : held <+: packets := by
  obtain ⟨file, checkpoint, reads, -⟩ := follows.intact
  exact reads.holds.chained.prefix_of_subset chained follows.known

/-- A trip takes the consumer on, or leaves it. -/
theorem Trip.follows {replica : AuditDisk} (follows : Follows replica packets held) {p : Packet}
    (member : p ∈ packets) {trip : Trip} (spares : trip.Spares p.json replica) :
    ∃ more, Follows (trip.replicaAfter p.json replica) packets (held ++ more) := by
  have listed : p.document.1 ∈ packets.map Packet.json := List.mem_map_of_mem member
  have whole := @deliver_of_follows replica packets held follows ⟨p.document, none⟩ listed (by
    intro k n crash
    cases crash)
  cases trip with
  | lost exception =>
      refine ⟨[], ?_⟩
      rw [List.append_nil]
      exact follows
  | crashed exception k n =>
      refine @deliver_of_follows replica packets held follows ⟨p.document, some (k, n)⟩ listed ?_
      intro k' n' crash
      cases crash
      exact spares
  | unanswered exception => exact whole
  | stopped => exact whole
  | answered => exact whole

/-- The consumer takes the packet that the cursor stands before, and answers with it. -/
theorem Linked.ingest_eq (linked : Linked link packets held cursor) {p : Packet} (next : packets[cursor]? = some p) :
    (ingest p.json link.replica).2 = .ok p.json ∧
      ∃ more, Follows ((ingest p.json).after link.replica) packets (held ++ more) ∧
        cursor + 1 ≤ (held ++ more).length := by
  have member := List.mem_of_getElem? next
  obtain ⟨inside, here⟩ := List.getElem?_eq_some_iff.mp next
  obtain ⟨genuine⟩ := linked.producer.2 p member
  obtain ⟨rest, split⟩ := linked.follows.beginning linked.chained
  by_cases taken : cursor < held.length
  · have known : p ∈ held := by
      rw [← split, List.getElem?_append_left taken] at next
      exact List.mem_of_getElem? next
    obtain ⟨more, follows⟩ := @Trip.follows packets held _ linked.follows p member .answered trivial
    exact ⟨(ingest_held linked.follows.intact known genuine).1, more, follows, by
      rw [List.length_append]
      omega⟩
  · have at_end : cursor = held.length := by
      have behind := linked.behind
      omega
    have seq : p.seq = held.length + 1 := by
      have numbered := linked.chained.seq_getElem inside
      rw [here] at numbered
      omega
    have fresh : p.id ∉ held.map Packet.id := by
      intro known
      have first : rest.head? = some p := by
        rw [← split, at_end, List.getElem?_append_right (Nat.le_refl _), Nat.sub_self] at next
        rw [List.head?_eq_getElem?]
        exact next
      have apart := linked.chained.distinct
      rw [← split, List.map_append, List.nodup_append] at apart
      exact apart.2.2 _ known p.id (List.mem_map_of_mem (List.mem_of_head? first)) rfl
    obtain ⟨answer, after⟩ := ingest_next linked.follows.intact seq fresh genuine
    refine ⟨answer, [p], ⟨after, ?_⟩, by simp [at_end]⟩
    intro q inside
    rcases List.mem_append.mp inside with old | new
    · exact linked.follows.known q old
    · rw [List.mem_singleton.mp new]
      exact member

theorem acknowledges_self (packet : Json) : acknowledges packet packet = true := by
  simp [acknowledges, Json.pyEq_refl]

/-- The rest of a call is spared where it is reached. -/
def SparesTrips : Link → List Json → List Trip → Prop
  | link, packet :: packets, trip :: trips =>
      trip.Spares packet link.replica ∧
        SparesTrips ⟨link.producer, some (cursorText (packetSeqOf packet).toNat), trip.replicaAfter packet link.replica⟩
          packets trips
  | _, _, _ => True

/-- The requests of one call take the consumer and the cursor on together. -/
theorem replicateLoop_linked {link : Link} {held : List Packet} {cursor : Nat}
    (linked : Linked link packets held cursor) (replicated : Nat) {pending : List Packet}
    (next : pending <+: packets.drop cursor) {trips : List Trip}
    (spares : SparesTrips link (pending.map Packet.json) trips) :
    ∃ more cursor', cursor ≤ cursor' ∧
      Linked (replicateLoop link replicated (pending.map Packet.json) trips).1 packets (held ++ more) cursor' := by
  induction pending generalizing link held cursor replicated trips with
  | nil => exact ⟨[], cursor, Nat.le_refl _, by simpa [replicateLoop] using linked⟩
  | cons p pending ih =>
      have here : packets[cursor]? = some p := by
        obtain ⟨rest, split⟩ := next
        rw [← List.head?_drop, ← split]
        rfl
      have later : pending <+: packets.drop (cursor + 1) := by
        obtain ⟨rest, split⟩ := next
        rw [← List.tail_drop, ← split]
        exact List.prefix_append _ _
      have member := List.mem_of_getElem? here
      cases trips with
      | nil => exact ⟨[], cursor, Nat.le_refl _, by simpa [replicateLoop] using linked⟩
      | cons trip trips =>
          obtain ⟨first, rest⟩ := spares
          obtain ⟨more, follows⟩ := Trip.follows linked.follows member first
          have stays : Linked { link with replica := trip.replicaAfter p.json link.replica } packets (held ++ more) cursor :=
            ⟨linked.producer, follows, linked.read, by
              have behind := linked.behind
              rw [List.length_append]
              omega⟩
          obtain ⟨answer, more', follows', reached⟩ := linked.ingest_eq here
          rw [List.map_cons, replicateLoop]
          cases trip with
          | lost exception => exact ⟨more, cursor, Nat.le_refl _, stays⟩
          | crashed exception k n => exact ⟨more, cursor, Nat.le_refl _, stays⟩
          | unanswered exception => exact ⟨more, cursor, Nat.le_refl _, stays⟩
          | stopped =>
              simp only [Trip.answer, answer, Except.mapError, acknowledges_self, Bool.not_true, Bool.false_eq_true,
                if_false, Trip.isStopped, if_true]
              exact ⟨more, cursor, Nat.le_refl _, stays⟩
          | answered =>
              simp only [Trip.answer, answer, Except.mapError, acknowledges_self, Bool.not_true, Bool.false_eq_true,
                if_false, Trip.isStopped]
              have seq : (packetSeqOf p.json).toNat = cursor + 1 := by
                obtain ⟨inside, same⟩ := List.getElem?_eq_some_iff.mp here
                have numbered := linked.chained.seq_getElem inside
                rw [packetSeqOf_json, Int.toNat_natCast, ← numbered, same]
              have moved : Linked ⟨link.producer, some (cursorText (packetSeqOf p.json).toNat),
                  (Trip.answered).replicaAfter p.json link.replica⟩ packets (held ++ more') (cursor + 1) :=
                ⟨linked.producer, follows', by rw [seq, readCursor_cursorText], reached⟩
              obtain ⟨last, cursor', grown, whole⟩ := ih moved (replicated + 1) later rest
              exact ⟨more' ++ last, cursor', by omega, by simpa using whole⟩

/-- A call whose requests are all answered takes in everything that it read. -/
theorem replicateLoop_answered {link : Link} {held : List Packet} {cursor : Nat}
    (linked : Linked link packets held cursor) (replicated : Nat) {pending : List Packet}
    (next : pending <+: packets.drop cursor) {n : Nat} (enough : pending.length ≤ n) :
    (replicateLoop link replicated (pending.map Packet.json) (List.replicate n .answered)).2 =
        some (.ok (replicated + pending.length)) ∧
      ∃ more, Linked (replicateLoop link replicated (pending.map Packet.json) (List.replicate n .answered)).1 packets
        (held ++ more) (cursor + pending.length) := by
  induction pending generalizing link held cursor replicated n with
  | nil => exact ⟨rfl, [], by simpa [replicateLoop] using linked⟩
  | cons p pending ih =>
      obtain ⟨rest, split⟩ := next
      have here : packets[cursor]? = some p := by
        rw [← List.head?_drop, ← split]
        rfl
      have later : pending <+: packets.drop (cursor + 1) := by
        rw [← List.tail_drop, ← split]
        exact List.prefix_append _ _
      obtain ⟨n, rfl⟩ : ∃ k, n = k + 1 := ⟨n - 1, by rw [List.length_cons] at enough; omega⟩
      obtain ⟨answer, more, follows, reached⟩ := linked.ingest_eq here
      have seq : (packetSeqOf p.json).toNat = cursor + 1 := by
        obtain ⟨inside, same⟩ := List.getElem?_eq_some_iff.mp here
        have numbered := linked.chained.seq_getElem inside
        rw [packetSeqOf_json, Int.toNat_natCast, ← numbered, same]
      have moved : Linked ⟨link.producer, some (cursorText (packetSeqOf p.json).toNat),
          (Trip.answered).replicaAfter p.json link.replica⟩ packets (held ++ more) (cursor + 1) :=
        ⟨linked.producer, follows, by rw [seq, readCursor_cursorText], reached⟩
      obtain ⟨result, last, whole⟩ := @ih _ _ _ moved (replicated + 1) later n (Nat.le_of_succ_le_succ enough)
      rw [List.map_cons, List.replicate_succ, replicateLoop]
      simp only [Trip.answer, answer, Except.mapError, acknowledges_self, Bool.not_true, Bool.false_eq_true, if_false,
        Trip.isStopped, List.length_cons]
      refine ⟨?_, more ++ last, ?_⟩
      · rw [result, Nat.add_assoc, Nat.add_comm 1]
      · rw [← List.append_assoc, Nat.add_comm pending.length, ← Nat.add_assoc]
        exact whole

end

/-! ## Steps -/

inductive LinkStep where
  /-- A prediction is sealed; the producer may crash in it. -/
  | sealSource (source : Json.Document) (crash : Option (Nat × Nat))
  | replicate (trips : List Trip)
  /-- A request of an earlier call arrives late; the consumer may crash in it. -/
  | late (packet : Json.Document) (crash : Option (Nat × Nat))

def linkStep (link : Link) : LinkStep → Link
  | .sealSource source crash => { link with producer := step link.producer ⟨.sealSource source, crash⟩ }
  | .replicate trips => (replicatePending trips link).1
  | .late packet crash => { link with replica := deliver link.replica ⟨packet, crash⟩ }

/-- A seal keeps the identity of its source, a late request is one for a packet of the producer, and no
    crash leaves a log that cannot be read on. -/
def SparesLink (link : Link) : LinkStep → Prop
  | .sealSource source crash => Spares link.producer ⟨.sealSource source, crash⟩
  | .replicate trips => ∀ cursor pending, readCursor link.cursor = .ok cursor →
      (readAfter cursor maxReplicationBatch link.producer).2 = .ok pending → SparesTrips link pending trips
  | .late packet crash => (∃ packets, (readPackets link.producer).2 = .ok packets ∧ packet.1 ∈ packets) ∧
      SparesDelivery link.replica ⟨packet, crash⟩

/-- The producer goes on with packets that `seal` built, also where it crashes. -/
theorem Produced.of_step {disk : AuditDisk} {packets : List Packet} (produced : Produced disk packets)
    {source : Json.Document} {crash : Option (Nat × Nat)} (spares : Spares disk ⟨.sealSource source, crash⟩) :
    ∃ more, Produced (step disk ⟨.sealSource source, crash⟩) (packets ++ more) := by
  obtain ⟨⟨file, checkpoint, reads, open_⟩, genuine⟩ := produced
  obtain ⟨k, n, stepped, readable, -⟩ := exists_cut_of_step disk spares
  rw [stepped]
  have outcome := sealSource_of_reads reads source
  have scanned := scanLog_of_holds reads.holds reads.log
  have keeps := spares.keeps source rfl
  have unchanged : Produced disk (packets ++ []) := by
    rw [List.append_nil]
    exact ⟨reads.intact open_, genuine⟩
  have marked {k n : Nat} (spared : ∀ w ∈ (markerWrites file)[k]?, ReadableCut n w) :
      Produced (DiskCall.cutWrites disk (markerWrites file) k n) (packets ++ []) := by
    rw [List.append_nil]
    exact ⟨intact_marker reads open_ spared, genuine⟩
  dsimp only [Op.call] at readable ⊢
  generalize T0Audit.sealSource source.1 disk = result at outcome readable
  cases outcome with
  | refused raised unbuilt => exact ⟨[], by simpa [DiskCall.cutWrites] using unchanged⟩
  | known candidate first p member same => exact ⟨[], by simpa [DiskCall.cutWrites] using unchanged⟩
  | unbuilt candidate first fresh raised unbuilt => exact ⟨[], marked readable⟩
  | appended candidate packet first fresh built line coded =>
      have stable := keeps _ (by rw [scanned]) candidate first.made
      rw [first.candidate_id] at stable
      have id : built.stored.id = packetIdOf first.digest :=
        congrArg packetIdOf (built.digest_eq first (stable (lookup_indexed.mpr fresh)))
      have fresh : built.stored.id ∉ packets.map Packet.id := id ▸ fresh
      rw [← built.json_stored] at coded
      by_cases front : k < (markerWrites file).length
      · rw [DiskCall.cutWrites_front _ _ front]
        refine ⟨[], marked fun w found => readable w ?_⟩
        rw [List.getElem?_append_left front]
        exact found
      · obtain ⟨j, rfl⟩ := Nat.exists_eq_add_of_le (not_lt.mp front)
        rw [DiskCall.cutWrites_back]
        have spared : j = 0 → n ≠ line.length := by
          rintro rfl rfl
          obtain ⟨tail, rfl⟩ := Json.head_bytes built.stored.object coded
          have cut := readable (.append (123 :: tail ++ [10])) (by
            rw [List.getElem?_append_right (Nat.le_add_right _ _), Nat.add_sub_cancel_left]
            rfl)
          simp [ReadableCut] at cut
        rcases intact_store (reads_repaired reads open_) file.tail_repaired rfl fresh coded spared with
          ⟨here, -, -⟩ | here
        · exact ⟨[], by rw [List.append_nil]; exact ⟨here, genuine⟩⟩
        · refine ⟨[built.stored], here, ?_⟩
          intro p member
          rcases List.mem_append.mp member with old | new
          · exact genuine p old
          · rw [List.mem_singleton.mp new]
            exact genuine_stored built

/-! ## Runs -/

/-- Nothing was sealed or sent. -/
def freshLink : Link := ⟨emptyDisk, none, emptyDisk⟩

theorem linked_fresh : Linked freshLink [] [] 0 :=
  ⟨⟨intact_empty, by simp⟩, ⟨intact_empty, by simp⟩, rfl, Nat.le_refl 0⟩

/-- A producer that goes on leaves the consumer behind it. -/
theorem Follows.mono {replica : AuditDisk} {packets held : List Packet} (follows : Follows replica packets held)
    (more : List Packet) : Follows replica (packets ++ more) held :=
  ⟨follows.intact, fun p member => List.mem_append_left more (follows.known p member)⟩

section
variable {link : Link} {packets held : List Packet} {cursor : Nat}

theorem Linked.of_replicate (linked : Linked link packets held cursor) {trips : List Trip}
    (spares : SparesLink link (.replicate trips)) :
    ∃ more cursor', cursor ≤ cursor' ∧ Linked (replicatePending trips link).1 packets (held ++ more) cursor' := by
  have reads := readAfter_of_intact linked.producer.1 cursor fits_maxReplicationBatch
  have spared := spares cursor _ linked.read reads
  rw [replicatePending, linked.read]
  dsimp only
  rw [reads]
  exact replicateLoop_linked linked 0 (List.take_prefix _ _) spared

/-- Every step keeps what was sealed, held and acknowledged, in its order. -/
theorem Linked.of_step (linked : Linked link packets held cursor) {a : LinkStep} (spares : SparesLink link a) :
    ∃ sealed taken cursor', cursor ≤ cursor' ∧
      Linked (linkStep link a) (packets ++ sealed) (held ++ taken) cursor' := by
  cases a with
  | sealSource source crash =>
      obtain ⟨sealed, produced⟩ := linked.producer.of_step spares
      refine ⟨sealed, [], cursor, Nat.le_refl _, produced, ?_, linked.read, ?_⟩
      · rw [List.append_nil]
        exact linked.follows.mono sealed
      · rw [List.append_nil]
        exact linked.behind
  | replicate trips =>
      obtain ⟨taken, cursor', grown, whole⟩ := linked.of_replicate spares
      exact ⟨[], taken, cursor', grown, by rw [List.append_nil]; exact whole⟩
  | late packet crash =>
      obtain ⟨⟨listed, read, member⟩, spared⟩ := spares
      rw [linked.producer.1.readPackets_eq] at read
      cases read
      obtain ⟨taken, follows⟩ := deliver_of_follows linked.follows member spared
      refine ⟨[], taken, cursor, Nat.le_refl _, ?_, ?_, linked.read, ?_⟩
      · rw [List.append_nil]
        exact linked.producer
      · rw [List.append_nil]
        exact follows
      · have behind := linked.behind
        rw [List.length_append]
        omega

theorem Linked.of_run (linked : Linked link packets held cursor) {steps : List LinkStep}
    (allowed : Allowed linkStep SparesLink link steps) :
    ∃ sealed taken cursor', cursor ≤ cursor' ∧
      Linked (run linkStep link steps) (packets ++ sealed) (held ++ taken) cursor' := by
  induction steps generalizing link packets held cursor with
  | nil => exact ⟨[], [], cursor, Nat.le_refl _, by simpa using linked⟩
  | cons a steps ih =>
      obtain ⟨sealed, taken, middle, grown, between⟩ := linked.of_step allowed.1
      obtain ⟨sealed', taken', cursor', grown', last⟩ := ih between allowed.2
      refine ⟨sealed ++ sealed', taken ++ taken', cursor', by omega, ?_⟩
      rw [← List.append_assoc, ← List.append_assoc]
      exact last

/-- A call in which every request is answered. -/
def undisturbed : LinkStep := .replicate (List.replicate maxReplicationBatch .answered)

theorem Linked.of_undisturbed (linked : Linked link packets held cursor) :
    ∃ taken, Linked (linkStep link undisturbed) packets (held ++ taken)
      (cursor + min maxReplicationBatch (packets.length - cursor)) := by
  have reads := readAfter_of_intact linked.producer.1 cursor fits_maxReplicationBatch
  have taken := replicateLoop_answered linked 0 (List.take_prefix maxReplicationBatch (packets.drop cursor))
    (n := maxReplicationBatch) (List.length_take_le _ _)
  obtain ⟨-, more, whole⟩ := taken
  rw [List.length_take, List.length_drop] at whole
  refine ⟨more, ?_⟩
  show Linked (replicatePending (List.replicate maxReplicationBatch .answered) link).1 _ _ _
  rw [replicatePending, linked.read]
  dsimp only
  rw [reads]
  exact whole

theorem Linked.catchUp (linked : Linked link packets held cursor) {calls : Nat}
    (enough : packets.length ≤ cursor + maxReplicationBatch * calls) :
    Linked (run linkStep link (List.replicate calls undisturbed)) packets packets packets.length := by
  induction calls generalizing link held cursor with
  | zero =>
      obtain ⟨rest, split⟩ := linked.follows.beginning linked.chained
      have lengths := congrArg List.length split
      have behind := linked.behind
      rw [List.length_append] at lengths
      have none_ : rest = [] := List.eq_nil_of_length_eq_zero (by omega)
      subst none_
      rw [List.append_nil] at split
      subst split
      have same : cursor = held.length := by omega
      rw [same] at linked
      exact linked
  | succ calls ih =>
      obtain ⟨taken, next⟩ := linked.of_undisturbed
      rw [List.replicate_succ, run_cons]
      apply ih next
      rw [Nat.mul_succ] at enough
      simp only [maxReplicationBatch] at enough ⊢
      omega

end

/-- Transport is safe and live: the consumer always holds a beginning of what the producer holds, with
    every packet that the cursor has passed; neither log loses a packet and the cursor never goes back; and
    from wherever the run has come, undisturbed calls bring the consumer to all that was sealed. -/
structure Transports (steps : List LinkStep) : Prop where
  follows : ∃ packets held cursor, (readPackets (run linkStep freshLink steps).producer).2 = .ok packets ∧
    (readPackets (run linkStep freshLink steps).replica).2 = .ok held ∧
      readCursor (run linkStep freshLink steps).cursor = .ok cursor ∧ held <+: packets ∧ cursor ≤ held.length
  grows : ∀ first rest, steps = first ++ rest →
    ∀ packets held cursor, (readPackets (run linkStep freshLink first).producer).2 = .ok packets →
      (readPackets (run linkStep freshLink first).replica).2 = .ok held →
        readCursor (run linkStep freshLink first).cursor = .ok cursor →
          ∃ sealed taken cursor', cursor ≤ cursor' ∧
            (readPackets (run linkStep freshLink steps).producer).2 = .ok (packets ++ sealed) ∧
              (readPackets (run linkStep freshLink steps).replica).2 = .ok (held ++ taken) ∧
                readCursor (run linkStep freshLink steps).cursor = .ok cursor'
  catchesUp : ∀ packets cursor, (readPackets (run linkStep freshLink steps).producer).2 = .ok packets →
    readCursor (run linkStep freshLink steps).cursor = .ok cursor →
      ∀ calls, packets.length ≤ cursor + maxReplicationBatch * calls →
        (readPackets (run linkStep (run linkStep freshLink steps) (List.replicate calls undisturbed)).replica).2 =
          .ok packets

theorem transports_of_spares {steps : List LinkStep} (allowed : Allowed linkStep SparesLink freshLink steps) :
    Transports steps := by
  obtain ⟨packets, held, cursor, -, linked⟩ := linked_fresh.of_run allowed
  rw [List.nil_append, List.nil_append] at linked
  have produced := congrArg Prod.snd linked.producer.1.readPackets_eq
  have taken := congrArg Prod.snd linked.follows.intact.readPackets_eq
  constructor
  · exact ⟨_, _, cursor, produced, taken, linked.read, (linked.follows.beginning linked.chained).map _, by
      rw [List.length_map]
      exact linked.behind⟩
  · intro first rest split old oldHeld oldCursor read readHeld readCursor_
    rw [split, allowed_append] at allowed
    obtain ⟨packets₀, held₀, cursor₀, -, before⟩ := linked_fresh.of_run allowed.1
    rw [List.nil_append, List.nil_append] at before
    rw [before.producer.1.readPackets_eq] at read
    rw [before.follows.intact.readPackets_eq] at readHeld
    rw [before.read] at readCursor_
    cases read
    cases readHeld
    cases readCursor_
    obtain ⟨sealed, more, cursor', grown, after⟩ := before.of_run allowed.2
    refine ⟨sealed.map Packet.json, more.map Packet.json, cursor', grown, ?_, ?_, ?_⟩
    · rw [split, run_append, after.producer.1.readPackets_eq, List.map_append]
    · rw [split, run_append, after.follows.intact.readPackets_eq, List.map_append]
    · rw [split, run_append, after.read]
  · intro listed cursor' read readCursor_ calls enough
    rw [produced] at read
    cases read
    rw [linked.read] at readCursor_
    cases readCursor_
    rw [List.length_map] at enough
    exact congrArg Prod.snd (linked.catchUp enough).follows.intact.readPackets_eq

/-- Two packets, of which the first is lost on its way and then taken without an answer. -/
theorem transports_disturbed : Transports
    [.sealSource (smallSource 1) none, .replicate [.lost (txt "URLError")], .sealSource (smallSource 2) none,
      .replicate [.unanswered (txt "TimeoutError")], .replicate [.answered, .stopped]] := by
  have sealing (disk : AuditDisk) (n : Nat) : Spares disk ⟨.sealSource (smallSource n), none⟩ := by
    refine ⟨?_, ?_, ?_⟩
    · intro source same
      cases same
      exact keepsIdentity_small disk n
    · intro packet same
      cases same
    · intro k n' crash
      cases crash
  have sending (link : Link) (trips : List Trip) (plain : ∀ trip ∈ trips, ∀ packet replica, trip.Spares packet replica) :
      SparesLink link (.replicate trips) := by
    intro cursor pending _ _
    clear * - plain
    induction trips generalizing link pending with
    | nil => cases pending <;> trivial
    | cons trip trips ih =>
        cases pending with
        | nil => trivial
        | cons packet pending =>
            exact ⟨plain trip (.head _) packet _, ih _ (fun t inside => plain t (.tail _ inside)) pending⟩
  apply transports_of_spares
  refine ⟨sealing _ 1, sending _ _ ?_, sealing _ 2, sending _ _ ?_, sending _ _ ?_, trivial⟩
  all_goals
    intro trip inside packet replica
    simp only [List.mem_cons, List.not_mem_nil, or_false] at inside
  · subst inside
    trivial
  · subst inside
    trivial
  · rcases inside with rfl | rfl <;> trivial

end Senex.T0Audit
