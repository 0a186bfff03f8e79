import Senex.T0Audit.Log
import Senex.T0Audit.Payload

/-! # Stored packets

A log that holds packets: they are numbered from one on and no id occurs twice.  `scanLog` reads
it back (`scanLog_of_holds`), and each operation adds at most one packet to it
(`sealSource_outcome`, `ingest_outcome`).
-/

namespace Senex.T0Audit

open Text

/-- A document that the log takes as a packet. -/
structure Packet where
  document : Json.Document
  seq : Nat
  id : Text
  object : document.1.isObject = true
  no_marker : document.1.keys.contains recoveryMarkerKey = false
  seqMember : asInt? (document.1.get (txt "packet_seq")) = some (seq : Int)
  positive : 0 < seq
  idMember : (document.1.get (txt "packet_id")).asText? = some id

namespace Packet

def json (p : Packet) : Json := p.document.1

def entry (p : Packet) (line : Bytes) : Entry Json.Document := TornTail.entry p.document line

theorem sound_entry {p : Packet} {line : Bytes} (coded : p.json.bytes = some line) :
    (p.entry line).Sound packetFormat :=
  TornTail.sound_entry p.object coded

/-- The packet under its id. -/
def indexed (p : Packet) : Text × Json := (p.id, p.json)

end Packet

theorem lawful : packetFormat.Lawful := TornTail.lawful_format (by decide) _

@[simp] theorem asInt?_ofNat (n : Nat) : asInt? (.ofNat n) = some (n : Int) := by
  have digits {c : Nat} (member : c ∈ Text.ofNat n) : 48 ≤ c ∧ c ≤ 57 := by
    have digit := isDigit_of_mem_ofNat member
    simpa [isDigit] using digit
  have plain : (Text.ofNat n).any (fun c => c == 46 || c == 101 || c == 69) = false := by
    apply List.any_eq_false.mpr
    intro c member
    have bounds := digits member
    simp only [Bool.or_eq_true, beq_iff_eq, not_or]
    omega
  have unsigned : RationalDecimal.sign (Text.ofNat n) = (false, Text.ofNat n) := by
    obtain ⟨c, ds, shape, -⟩ := Text.ofNat_shape n
    have bounds := @digits c (by simp [shape])
    rw [shape, RationalDecimal.sign.eq_def]
    split <;> grind
  simp [asInt?, Json.ofNat, plain, unsigned]

/-! ## Reading -/

/-- Numbered from one on, without a repeated id. -/
structure Chained (packets : List Packet) : Prop where
  numbered : packets.map Packet.seq = List.range' 1 packets.length
  distinct : (packets.map Packet.id).Nodup

theorem chained_nil : Chained [] := ⟨rfl, List.nodup_nil⟩

theorem Chained.snoc {packets : List Packet} (chained : Chained packets) {p : Packet}
    (next : p.seq = packets.length + 1) (fresh : p.id ∉ packets.map Packet.id) :
    Chained (packets ++ [p]) where
  numbered := by
    simp [List.range'_concat, chained.numbered, next, Nat.add_comm]
  distinct := by
    rw [List.map_append, List.nodup_append]
    refine ⟨chained.distinct, by simp, ?_⟩
    intro id member other hother
    rw [List.map_cons, List.map_nil, List.mem_singleton] at hother
    rintro rfl
    exact fresh (hother ▸ member)

def scannedOf (packets : List Packet) : Scanned := ⟨packets.map Packet.indexed, packets.length⟩

theorem lookup_indexed {packets : List Packet} {id : Text} :
    Json.lookup id (packets.map Packet.indexed) = none ↔ id ∉ packets.map Packet.id := by
  induction packets with
  | nil => simp [Json.lookup]
  | cons p packets ih =>
      simp only [List.map_cons, Packet.indexed, Json.lookup, List.mem_cons, not_or]
      by_cases same : id = p.id
      · simp [same]
      · simpa [same] using ih

theorem exists_of_lookup {packets : List Packet} {id : Text} {j : Json}
    (found : Json.lookup id (packets.map Packet.indexed) = some j) :
    ∃ p ∈ packets, p.id = id ∧ p.json = j := by
  induction packets with
  | nil => cases found
  | cons p packets ih =>
      simp only [List.map_cons, Packet.indexed, Json.lookup] at found
      split at found
      · rename_i same
        exact ⟨p, by simp, same.symm, Option.some.inj found⟩
      · obtain ⟨q, member, here⟩ := ih found
        exact ⟨q, List.mem_cons_of_mem _ member, here⟩

theorem lookup_of_mem {packets : List Packet} (distinct : (packets.map Packet.id).Nodup) {p : Packet}
    (member : p ∈ packets) : Json.lookup p.id (packets.map Packet.indexed) = some p.json := by
  apply (Json.lookup_eq_some_iff _).mpr (List.mem_map_of_mem (f := Packet.indexed) member)
  rw [List.map_map]
  exact distinct

theorem acceptPacket_document {packets : List Packet} {p : Packet} (next : p.seq = packets.length + 1)
    (lineNo : Nat) :
    acceptPacket lineNo (scannedOf packets) p.document =
      if p.id ∈ packets.map Packet.id then
        raise .packetSequenceError (txt "duplicate packet_id at line " ++ ofNat lineNo ++ txt ": " ++ p.id)
      else .ok (scannedOf (packets ++ [p])) := by
  have positive := p.positive
  have notNegative : decide ((p.seq : Int) ≤ 0) = false := by simp; omega
  have expected : ((p.seq : Int) != (packets.length : Int) + 1) = false := by simp [next]
  simp only [acceptPacket, p.object, p.no_marker, Bool.and_false, refuse, guardNot_false, Py.ok_bind,
    p.seqMember, orRaise_some, notNegative, p.idMember, scannedOf, expected]
  by_cases known : p.id ∈ packets.map Packet.id
  · have found : (Json.lookup p.id (packets.map Packet.indexed)).isSome = true := by
      rw [Option.isSome_iff_ne_none]
      intro none
      exact lookup_indexed.mp none known
    rw [found, if_pos known]
    rfl
  · rw [lookup_indexed.mpr known, if_neg known]
    simp [Packet.indexed, Packet.json]

theorem acceptAll_packets {segs : List (Segment Json.Document)} {front packets : List Packet}
    (values : segs.flatMap Segment.values = packets.map Packet.document)
    (chained : Chained (front ++ packets)) (lineNo : Nat) :
    Segment.acceptAll acceptPacket lineNo (scannedOf front) segs = .ok (scannedOf (front ++ packets)) := by
  induction segs generalizing front packets lineNo with
  | nil =>
      have empty : packets = [] := by simpa using values.symm
      rw [empty, List.append_nil]
      rfl
  | cons seg segs ih =>
      cases seg with
      | record entry =>
          cases packets with
          | nil => simp [Segment.values] at values
          | cons p packets =>
              simp only [List.flatMap_cons, Segment.values, List.cons_append, List.nil_append,
                List.map_cons, List.cons.injEq] at values
              have next : p.seq = front.length + 1 := by
                have here := congrArg (fun l => l[front.length]?) chained.numbered
                simpa [Nat.add_comm] using here
              have fresh : p.id ∉ front.map Packet.id := by
                have apart := chained.distinct
                rw [List.map_append, List.nodup_append] at apart
                intro member
                exact apart.2.2 _ member p.id (by simp) rfl
              have whole : front ++ p :: packets = (front ++ [p]) ++ packets := by simp
              rw [whole] at chained ⊢
              simp only [Segment.acceptAll, values.1, acceptPacket_document next, if_neg fresh, Except.bind,
                ih values.2 chained]
      | repaired raw => exact ih (by simpa [Segment.values] using values) chained _

/-- The packets of a file. -/
structure Holds (file : LogFile packetFormat) (packets : List Packet) : Prop where
  values : file.values = packets.map Packet.document
  chained : Chained packets

theorem holds_empty : Holds .empty [] := ⟨rfl, chained_nil⟩

theorem Holds.repaired {file : LogFile packetFormat} {packets : List Packet} (holds : Holds file packets) :
    Holds file.repaired packets :=
  ⟨file.values_repaired.trans holds.values, holds.chained⟩

/-- What `_scan` makes of a file. -/
def scanOf (file : LogFile packetFormat) (packets : List Packet) : Scan Scanned :=
  ⟨scannedOf packets, Segment.repairs file.segments, file.ending⟩

theorem flatMap_repaired {file : LogFile packetFormat} {packets : List Packet}
    (values : file.values = packets.map Packet.document) :
    file.repaired.segments.flatMap Segment.values = packets.map Packet.document := by
  rw [← values, ← file.values_repaired, LogFile.values, LogFile.tail_repaired, Tail.values, List.append_nil]

theorem scan_of_holds {file : LogFile packetFormat} {packets : List Packet} (holds : Holds file packets) :
    packetFormat.scan acceptPacket ⟨[], 0⟩ file.data = .ok (scanOf file packets) := by
  have scanned := @LogFile.scan_data _ _ _ file lawful acceptPacket ⟨[], 0⟩
  have all := @acceptAll_packets _ [] _ (flatMap_repaired holds.values) holds.chained 1
  rw [List.nil_append] at all
  rw [scanned, show (⟨[], 0⟩ : Scanned) = scannedOf [] from rfl, all]
  rfl

theorem scanLog_of_holds {file : LogFile packetFormat} {packets : List Packet} (holds : Holds file packets)
    {disk : AuditDisk} (data : disk.log = file.data) : scanLog disk = ([], .ok (scanOf file packets)) := by
  have scanned := scan_of_holds holds
  rw [← data] at scanned
  simp only [scanLog, DiskCall.read, bind, DiskCall.lift, scanned, List.append_nil]

/-! ## The checkpoint -/

/-- The checkpoint is absent, or the number of a packet. -/
def CheckpointOf (packetSeq : Option Text) (checkpoint : Nat) : Prop :=
  packetSeq = none ∧ checkpoint = 0 ∨ packetSeq = some (ofNat checkpoint ++ [10])

theorem checkpointSeq_of {disk : AuditDisk} {checkpoint : Nat}
    (stored : CheckpointOf disk.packetSeq checkpoint) : checkpointSeq disk = ([], .ok checkpoint) := by
  rcases stored with ⟨absent, rfl⟩ | written
  · simp [checkpointSeq, DiskCall.read, bind, absent, DiskCall.written]
  · obtain ⟨c, ds, shape, first⟩ := Text.ofNat_shape checkpoint
    have digits : ∀ c ∈ ofNat checkpoint, isDigit c = true := fun c hc => isDigit_of_mem_ofNat hc
    have solid : ∀ c ∈ ofNat checkpoint, isPySpace c = false := by
      intro c hc
      have digit := digits c hc
      simp only [isDigit, Bool.and_eq_true, decide_eq_true_eq] at digit
      simp [isPySpace]
      omega
    have stripped : strip (ofNat checkpoint ++ [10]) = ofNat checkpoint := by
      apply stripBy_concat (by decide) (by simp [shape])
      · exact fun c hc => solid c (List.mem_of_mem_head? hc)
      · exact fun c hc => solid c (List.mem_of_getLast? hc)
    have nonempty : (ofNat checkpoint).isEmpty = false := by simp [shape]
    have all : (ofNat checkpoint).all isDigit = true := List.all_eq_true.mpr digits
    simp [checkpointSeq, DiskCall.read, bind, written, DiskCall.written, stripped, nonempty, all, refuse,
      DiskCall.lift]

end Senex.T0Audit
