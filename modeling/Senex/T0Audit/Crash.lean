import Senex.T0Audit.Sealing

/-! # Crashes of the packet log

A crash cuts the append then in flight.  Two cuts are not survived: of the marker behind a torn
line, since what is left of it reads as nothing, and of a packet's newline alone, since the line
reads as whole and the next append continues it.
-/

namespace Senex.T0Audit

open Text

/-! ## Steps -/

inductive Op where
  | sealSource (source : Json.Document)
  | ingest (packet : Json.Document)

def Op.call : Op → SealerCall Json
  | .sealSource source => T0Audit.sealSource source.1
  | .ingest packet => T0Audit.ingest packet.1

/-- A call, and the crash that cuts its write `k` behind `n` bytes, if one does. -/
structure Label where
  op : Op
  crash : Option (Nat × Nat)

def step (disk : AuditDisk) (a : Label) : AuditDisk :=
  match a.crash with
  | none => a.op.call.after disk
  | some (k, n) => a.op.call.interrupted disk k n

/-- Whether a write that is cut behind `n` bytes is complete. -/
def AuditWrite.completeAt (n : Nat) : AuditWrite → Bool
  | .append bytes => decide (bytes.length ≤ n)
  | .checkpoint _ => false

/-- The writes that were completed. -/
def completed (disk : AuditDisk) (a : Label) : List AuditWrite :=
  match a.crash with
  | none => (a.op.call disk).1
  | some (k, n) =>
      (a.op.call disk).1.take k ++ (a.op.call disk).1[k]?.toList.filter (AuditWrite.completeAt n)

/-- What is left of a write is read rightly: a marker, which begins with a newline, is not begun or
    whole, and a packet does not lack its newline only. -/
def ReadableCut (n : Nat) : AuditWrite → Prop
  | .append bytes =>
      if bytes.head? = some 10 then n = 0 ∨ bytes.length ≤ n else n + 1 ≠ bytes.length
  | .checkpoint _ => True

instance (n : Nat) : (w : AuditWrite) → Decidable (ReadableCut n w)
  | .append bytes =>
      inferInstanceAs (Decidable (if bytes.head? = some 10 then n = 0 ∨ bytes.length ≤ n
        else n + 1 ≠ bytes.length))
  | .checkpoint _ => isTrue trivial

/-- The call keeps the identity of what it seals, takes no packet for a marker, and is not cut where
    the log cannot be read on. -/
structure Spares (disk : AuditDisk) (a : Label) : Prop where
  keeps : ∀ source, a.op = .sealSource source → KeepsIdentity disk source
  unmarked : ∀ packet, a.op = .ingest packet → packet.1.keys.contains recoveryMarkerKey = false
  cut : ∀ k n, a.crash = some (k, n) → ∀ w ∈ (a.op.call disk).1[k]?, ReadableCut n w

/-! ## What is left of some writes -/

section
variable {disk : AuditDisk} {file : LogFile packetFormat} {packets : List Packet} {checkpoint : Nat}

theorem Reads.intact (reads : Reads disk file packets checkpoint) (open_ : ∀ e, file.tail ≠ .unended e) :
    Intact disk packets :=
  ⟨file, checkpoint, reads, open_⟩

/-- The marker of a torn tail, cut. -/
theorem intact_marker (reads : Reads disk file packets checkpoint) (open_ : ∀ e, file.tail ≠ .unended e)
    {k n : Nat} (spared : ∀ w ∈ (markerWrites file)[k]?, ReadableCut n w) :
    Intact (DiskCall.cutWrites disk (markerWrites file) k n) packets := by
  have whole := (reads_repaired reads open_).intact (by simp)
  by_cases done : (markerWrites file).length ≤ k
  · rw [DiskCall.cutWrites_of_length_le _ done]
    exact whole
  · cases tail : file.tail with
    | clean => simp [markerWrites, tail] at done
    | unended e => exact absurd tail (open_ e)
    | torn raw =>
        have writes : markerWrites file = [.append file.recovery] := by simp [markerWrites, tail]
        have first : k = 0 := by
          rw [writes, List.length_singleton] at done
          omega
        subst first
        have begins : file.recovery.head? = some 10 := by simp [LogFile.recovery, tail]
        have spared := spared (.append file.recovery) (by rw [writes]; rfl)
        rw [ReadableCut, if_pos begins] at spared
        rw [writes] at whole ⊢
        rcases spared with rfl | long
        · have same : DiskCall.cutWrites disk [.append file.recovery] 0 0 = disk := by
            simp [DiskCall.cutWrites, Disk.cut]
          rw [same]
          exact reads.intact open_
        · have same : DiskCall.cutWrites disk [.append file.recovery] 0 n =
              DiskCall.written disk [.append file.recovery] := by
            simp only [DiskCall.cutWrites, List.getElem?_cons_zero, List.take_zero, Disk.cut,
              DiskCall.written_nil, List.take_of_length_le long]
            rfl
          rw [same]
          exact whole

/-- The writes that store a packet, cut: the packet is there, or its append was not completed. -/
theorem intact_store (reads : Reads disk file packets checkpoint) (clean : file.tail = .clean)
    {p : Packet} (next : p.seq = packets.length + 1) (fresh : p.id ∉ packets.map Packet.id) {line : Bytes}
    (coded : p.json.bytes = some line) {k n : Nat} (spared : k = 0 → n ≠ line.length) :
    Intact (DiskCall.cutWrites disk (storeWrites line (packets.length + 1)) k n) packets ∧
        k = 0 ∧ n ≤ line.length ∨
      Intact (DiskCall.cutWrites disk (storeWrites line (packets.length + 1)) k n) (packets ++ [p]) := by
  have open_ : ∀ e, file.tail ≠ .unended e := by simp [clean]
  have marker : markerWrites file = [] := by simp [markerWrites, clean]
  have stored := reads_stored reads open_ next fresh coded
  rw [marker, List.nil_append] at stored
  rcases k with _ | _ | k
  · obtain ⟨left, data, cases_⟩ := LogFile.exists_cut clean (Packet.sound_entry coded) n
    have cut : DiskCall.cutWrites disk (storeWrites line (packets.length + 1)) 0 n =
        ⟨left.data, disk.packetSeq⟩ := by
      rw [data, ← reads.log]
      rfl
    rw [cut]
    rcases cases_ with ⟨short, same, tail⟩ | ⟨exact_, -, -⟩ | ⟨long, same, tail⟩
    · left
      have short : n < line.length := short
      refine ⟨⟨left, checkpoint, ⟨rfl, ⟨same.trans reads.holds.values, reads.holds.chained⟩, reads.stored,
        reads.behind⟩, ?_⟩, rfl, Nat.le_of_lt short⟩
      rcases tail with tail | ⟨raw, tail⟩ <;> simp [tail]
    · exact absurd exact_ (spared rfl)
    · right
      refine ⟨left, checkpoint, ⟨rfl, ⟨?_, reads.holds.chained.snoc next fresh⟩, reads.stored, ?_⟩, by simp [tail]⟩
      · rw [same, reads.holds.values, List.map_append]
        rfl
      · have behind := reads.behind
        rw [List.length_append, List.length_singleton]
        omega
  · right
    refine ⟨_, checkpoint, ⟨stored.log, stored.holds, reads.stored, ?_⟩, by simp [LogFile.append]⟩
    have behind := reads.behind
    rw [List.length_append, List.length_singleton]
    omega
  · right
    rw [DiskCall.cutWrites_of_length_le _ (by simp [storeWrites])]
    exact stored.intact (by simp [LogFile.append])

/-! ## One step -/

/-- What an operation can write; a packet that `ingest` writes is the one it was given. -/
inductive Writes (file : LogFile packetFormat) (packets : List Packet) (op : Op) : List AuditWrite → Prop where
  | nothing : Writes file packets op []
  | checkpoint : Writes file packets op [.checkpoint (ofNat packets.length ++ [10])]
  | marked : Writes file packets op (markerWrites file)
  | stored (p : Packet) (next : p.seq = packets.length + 1) (fresh : p.id ∉ packets.map Packet.id)
      (given : ∀ packet, op = .ingest packet → p.json = packet.1) (line : Bytes)
      (coded : p.json.bytes = some line) :
      Writes file packets op (markerWrites file ++ storeWrites line (packets.length + 1))

theorem writes_of_call (reads : Reads disk file packets checkpoint) {a : Label} (spares : Spares disk a) :
    Writes file packets a.op (a.op.call disk).1 := by
  obtain ⟨op, crash⟩ := a
  cases op with
  | sealSource source =>
      have keeps := spares.keeps source rfl
      have outcome := sealSource_of_reads reads source
      have scanned := scanLog_of_holds reads.holds reads.log
      dsimp only [Op.call]
      generalize T0Audit.sealSource source.1 disk = result at outcome
      cases outcome with
      | refused raised unbuilt => exact .nothing
      | known candidate first p member same => exact .nothing
      | unbuilt candidate first fresh raised unbuilt => exact .marked
      | appended candidate packet first fresh built line coded =>
          have stable := keeps _ (by rw [scanned]) candidate first.made
          rw [first.candidate_id] at stable
          have id : built.stored.id = packetIdOf first.digest :=
            congrArg packetIdOf (built.digest_eq first (stable (lookup_indexed.mpr fresh)))
          rw [← built.json_stored] at coded
          exact .stored built.stored rfl (id ▸ fresh) (by simp) line coded
  | ingest packet =>
      have outcome := ingest_of_reads reads packet (spares.unmarked packet rfl)
      dsimp only [Op.call]
      generalize T0Audit.ingest packet.1 disk = result at outcome
      cases outcome with
      | refused raised => exact .nothing
      | known p member writes checkpointed =>
          rcases checkpointed with rfl | rfl
          · exact .nothing
          · exact .checkpoint
      | gap raised => exact .marked
      | appended p same fresh next line coded =>
          rw [← same] at coded
          refine .stored p next fresh ?_ line coded
          intro packet' same'
          cases same'
          exact same

/-- A step cuts the writes of its call at some place; without a crash, behind the last one. -/
theorem exists_cut_of_step (disk : AuditDisk) {a : Label} (spares : Spares disk a) :
    ∃ k n, step disk a = DiskCall.cutWrites disk (a.op.call disk).1 k n ∧
      (∀ w ∈ (a.op.call disk).1[k]?, ReadableCut n w) ∧
      ∀ w ∈ completed disk a, ∃ i, (a.op.call disk).1[i]? = some w ∧
        (i < k ∨ i = k ∧ AuditWrite.completeAt n w = true) := by
  cases crash : a.crash with
  | none =>
      refine ⟨(a.op.call disk).1.length, 0, ?_, ?_, ?_⟩
      · rw [step, crash, DiskCall.cutWrites_of_length_le _ (Nat.le_refl _)]
        rfl
      · intro w found
        rw [List.getElem?_eq_none (Nat.le_refl _)] at found
        cases found
      · intro w member
        rw [completed, crash] at member
        obtain ⟨i, inside, found⟩ := List.getElem_of_mem member
        exact ⟨i, by rw [List.getElem?_eq_getElem inside, found], Or.inl inside⟩
  | some cut =>
      obtain ⟨k, n⟩ := cut
      refine ⟨k, n, by rw [step, crash]; rfl, spares.cut k n crash, ?_⟩
      intro w member
      rw [completed, crash] at member
      rcases List.mem_append.mp member with h | h
      · obtain ⟨i, inside, found⟩ := List.getElem_of_mem h
        rw [List.getElem_take] at found
        rw [List.length_take] at inside
        exact ⟨i, by rw [List.getElem?_eq_getElem (by omega), found], Or.inl (by omega)⟩
      · obtain ⟨here, complete⟩ := List.mem_filter.mp h
        rw [Option.mem_toList] at here
        exact ⟨k, here, Or.inr ⟨rfl, complete⟩⟩

/-- The line of an object is not the write of a marker. -/
theorem not_marker {packet : Json.Document} (object : packet.1.isObject = true) {line : Bytes}
    (coded : packet.1.bytes = some line) (i : Nat) :
    (markerWrites file)[i]? ≠ some (.append (line ++ [10])) := by
  obtain ⟨tail, rfl⟩ := Json.head_bytes object coded
  intro found
  have member := List.mem_of_getElem? found
  unfold markerWrites at member
  split at member
  · rename_i raw torn
    have same := List.mem_singleton.mp member
    simp [LogFile.recovery, torn] at same
  · cases member

/-- Lines of one text are lines of one document. -/
theorem document_eq {packet : Json.Document} {line : Bytes} (coded : packet.1.bytes = some line) {p : Packet}
    (coded' : p.json.bytes = some line) : packet.1 = p.json := by
  have first := Json.parseLine_bytes coded
  rw [@Json.parseLine_bytes p.document line coded'] at first
  exact (congrArg Subtype.val (Option.some.inj first)).symm

/-- A spared step adds what `ingest` was given, if anything, and whatever it completed to append. -/
theorem step_of_intact {a : Label} (intact : Intact disk packets) (spares : Spares disk a) :
    ∃ more, Intact (step disk a) (packets ++ more) ∧
      (∀ p ∈ more, ∀ packet, a.op = .ingest packet → p.json = packet.1) ∧
      ∀ packet : Json.Document, packet.1.isObject = true → ∀ line, packet.1.bytes = some line →
        .append (line ++ [10]) ∈ completed disk a → packet.1 ∈ (packets ++ more).map Packet.json := by
  obtain ⟨file, checkpoint, reads, open_⟩ := intact
  have writes := writes_of_call reads spares
  obtain ⟨k, n, stepped, readable, complete⟩ := exists_cut_of_step disk spares
  rw [stepped]
  generalize (a.op.call disk).1 = writes_ at writes readable complete
  cases writes with
  | nothing =>
      refine ⟨[], by simpa [DiskCall.cutWrites] using reads.intact open_, by simp, ?_⟩
      intro packet object line coded member
      obtain ⟨i, found, -⟩ := complete _ member
      simp at found
  | checkpoint =>
      refine ⟨[], ?_, by simp, ?_⟩
      · rw [List.append_nil]
        cases k with
        | zero => exact reads.intact open_
        | succ k =>
            rw [DiskCall.cutWrites_of_length_le _ (by simp)]
            exact ⟨file, packets.length, ⟨reads.log, reads.holds, Or.inr rfl, Nat.le_refl _⟩, open_⟩
      · intro packet object line coded member
        obtain ⟨i, found, -⟩ := complete _ member
        cases i with
        | zero => cases found
        | succ i => cases found
  | marked =>
      refine ⟨[], by simpa using intact_marker reads open_ readable, by simp, ?_⟩
      intro packet object line coded member
      obtain ⟨i, found, -⟩ := complete _ member
      exact absurd found (not_marker object coded i)
  | stored p next fresh given line coded =>
      -- only the second write list has the line of an object
      have place {packet : Json.Document} (object : packet.1.isObject = true) {l : Bytes}
          (coded' : packet.1.bytes = some l) {i : Nat}
          (found : (markerWrites file ++ storeWrites line (packets.length + 1))[i]? =
            some (.append (l ++ [10]))) :
          i = (markerWrites file).length ∧ l = line := by
        by_cases front : i < (markerWrites file).length
        · rw [List.getElem?_append_left front] at found
          exact absurd found (not_marker object coded' i)
        · rw [List.getElem?_append_right (by omega)] at found
          generalize distance : i - (markerWrites file).length = d at found
          rcases d with _ | _ | d
          · have same := Option.some.inj found
            simp only [AuditWrite.append.injEq, List.append_cancel_right_eq] at same
            exact ⟨by omega, same.symm⟩
          · cases found
          · simp [storeWrites] at found
      by_cases front : k < (markerWrites file).length
      · rw [DiskCall.cutWrites_front _ _ front]
        refine ⟨[], ?_, by simp, ?_⟩
        · rw [List.append_nil]
          apply intact_marker reads open_
          intro w found
          exact readable w (by rw [List.getElem?_append_left front]; exact found)
        · intro packet object l coded' member
          obtain ⟨i, found, before⟩ := complete _ member
          have here := (place object coded' found).1
          omega
      · obtain ⟨j, rfl⟩ := Nat.exists_eq_add_of_le (not_lt.mp front)
        rw [DiskCall.cutWrites_back]
        have repaired := reads_repaired reads open_
        have spared : j = 0 → n ≠ line.length := by
          rintro rfl rfl
          obtain ⟨tail, rfl⟩ := Json.head_bytes p.object coded
          have cut := readable (.append (123 :: tail ++ [10])) (by
            rw [List.getElem?_append_right (Nat.le_add_right _ _), Nat.add_sub_cancel_left]
            rfl)
          simp [ReadableCut] at cut
        rcases intact_store repaired file.tail_repaired next fresh coded spared with ⟨here, rfl, short⟩ | here
        · refine ⟨[], by simpa using here, by simp, ?_⟩
          intro packet object l coded' member
          obtain ⟨i, found, before⟩ := complete _ member
          obtain ⟨at_, rfl⟩ := place object coded' found
          rcases before with before | ⟨-, whole⟩
          · omega
          · simp only [AuditWrite.completeAt, List.length_append, List.length_singleton,
              decide_eq_true_eq] at whole
            omega
        · refine ⟨[p], here, by simpa using given, ?_⟩
          intro packet object l coded' member
          obtain ⟨i, found, -⟩ := complete _ member
          obtain ⟨-, rfl⟩ := place object coded' found
          rw [document_eq coded' coded]
          simp

end

/-! ## Runs -/

theorem run_of_intact {disk : AuditDisk} {packets : List Packet} (intact : Intact disk packets)
    {labels : List Label} (allowed : Allowed step Spares disk labels) :
    ∃ more, Intact (run step disk labels) (packets ++ more) := by
  induction labels generalizing disk packets with
  | nil => exact ⟨[], by simpa using intact⟩
  | cons a labels ih =>
      obtain ⟨first, between, -, -⟩ := step_of_intact intact allowed.1
      obtain ⟨rest, last⟩ := ih between allowed.2
      exact ⟨first ++ rest, by simpa using last⟩

/-- What crashes leave of a log: it reads, no id occurs twice; the packets of every earlier moment
    are still there, in order, and those of every completed append with them; and whatever builds
    at the next number is sealed. -/
structure CrashSafe (labels : List Label) : Prop where
  reads : ∃ packets, (readPackets (run step emptyDisk labels)).2 = .ok packets ∧
    (packets.map fun packet => packet.get (txt "packet_id")).Nodup
  grows : ∀ first rest, labels = first ++ rest → ∃ old more,
    (readPackets (run step emptyDisk first)).2 = .ok old ∧
      (readPackets (run step emptyDisk labels)).2 = .ok (old ++ more)
  completed : ∀ first a rest, labels = first ++ a :: rest →
    ∀ packet : Json.Document, packet.1.isObject = true → ∀ line, packet.1.bytes = some line →
      .append (line ++ [10]) ∈ T0Audit.completed (run step emptyDisk first) a →
        ∃ packets, (readPackets (run step emptyDisk labels)).2 = .ok packets ∧ packet.1 ∈ packets
  seals : ∀ packets, (readPackets (run step emptyDisk labels)).2 = .ok packets →
    ∀ source : Json.Document, ∀ candidate, buildSealedPacket source.1 1 = .ok candidate →
      ∀ packet, buildSealedPacket source.1 (packets.length + 1) = .ok packet →
        ∃ stored, (sealSource source.1 (run step emptyDisk labels)).2 = .ok stored

/-- The log survives every run whose steps are spared. -/
theorem crashSafe_of_spares {labels : List Label} (allowed : Allowed step Spares emptyDisk labels) :
    CrashSafe labels := by
  obtain ⟨packets, intact⟩ := run_of_intact intact_empty allowed
  rw [List.nil_append] at intact
  have read := congrArg Prod.snd intact.readPackets_eq
  constructor
  · exact ⟨_, read, intact.nodup_ids⟩
  · intro first rest split
    rw [split, allowed_append] at allowed
    obtain ⟨old, before⟩ := run_of_intact intact_empty allowed.1
    obtain ⟨more, after⟩ := run_of_intact before allowed.2
    refine ⟨_, more.map Packet.json, congrArg Prod.snd before.readPackets_eq, ?_⟩
    rw [split, run_append, after.readPackets_eq, List.map_append]
  · intro first a rest split packet object line coded member
    rw [split, allowed_append] at allowed
    obtain ⟨old, before⟩ := run_of_intact intact_empty allowed.1
    obtain ⟨more, between, -, kept⟩ := step_of_intact before allowed.2.1
    obtain ⟨last, after⟩ := run_of_intact between allowed.2.2
    refine ⟨([] ++ old ++ more ++ last).map Packet.json, ?_, ?_⟩
    · rw [split, run_append]
      exact congrArg Prod.snd after.readPackets_eq
    · rw [List.map_append]
      exact List.mem_append_left _ (kept packet object line coded member)
  · intro packets' read' source candidate looked packet made
    rw [read] at read'
    cases read'
    obtain ⟨file, checkpoint, reads, -⟩ := intact
    have outcome := sealSource_of_reads reads source
    rw [List.length_map] at made
    generalize sealSource source.1 (run step emptyDisk labels) = result at outcome
    cases outcome with
    | refused raised unbuilt => exact absurd looked (unbuilt _)
    | known candidate first p member same => exact ⟨_, rfl⟩
    | unbuilt candidate first fresh raised unbuilt => exact absurd made (unbuilt _)
    | appended candidate packet first fresh built line coded => exact ⟨_, rfl⟩

/-! ## One run that loses the log, and one that keeps it -/

/-- A crash leaves the packet without its newline, and the next packet is appended to its line. -/
def joinedRun : List Label := [⟨.sealSource (smallSource 1), some (0, 182)⟩, ⟨.sealSource (smallSource 2), none⟩]

theorem not_crashSafe_joinedRun : ¬CrashSafe joinedRun := by
  intro safe
  have raises : (readPackets (run step emptyDisk joinedRun)).2.isOk = false := by decide +kernel
  obtain ⟨packets, read, -⟩ := safe.reads
  rw [read] at raises
  cases raises

theorem spares_small {disk : AuditDisk} {n : Nat} {crash : Option (Nat × Nat)}
    (readable : ∀ k m, crash = some (k, m) → ∀ w ∈ (sealSource (smallSource n).1 disk).1[k]?,
      ReadableCut m w) :
    Spares disk ⟨.sealSource (smallSource n), crash⟩ where
  keeps := by
    intro source same
    cases same
    exact keepsIdentity_small disk n
  unmarked := by
    intro packet same
    cases same
  cut := readable

theorem crashSafe_small : CrashSafe [⟨.sealSource (smallSource 1), some (0, 5)⟩,
    ⟨.sealSource (smallSource 2), some (1, 7)⟩, ⟨.sealSource (smallSource 1), none⟩] := by
  apply crashSafe_of_spares
  refine ⟨spares_small ?_, spares_small ?_, spares_small ?_, trivial⟩
  · intro k m crash
    cases crash
    decide +kernel
  · intro k m crash
    cases crash
    decide +kernel
  · intro k m crash
    cases crash

end Senex.T0Audit
