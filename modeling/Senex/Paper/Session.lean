import Senex.Paper.Payloads

/-! # Sessions

One engine at a time over one journal: commands whose file operations may fail,
and recoveries from the journal as it is.  A session remembers the events behind
the engine's state and the commands that committed.
-/

namespace Senex.Paper

open Text

variable {D : Type} [Decimal D]

structure Session (D : Type) [Decimal D] where
  world : World D
  /-- The events behind the state of the engine, in order. -/
  log : List Record
  /-- The commands that have committed, each with its record. -/
  history : List (Command D × Record)

inductive Session.Move (D : Type) [Decimal D] where
  | command (command : Command D) (io : IoScript)
  /-- The engine is given up, and another recovered from the journal. -/
  | recover (checkpoint : Bytes) (source config : PyArg) (riskLimits : RiskLimits D)

def Session.fresh (initialState : PaperState D) (riskLimits : RiskLimits D) : Session D :=
  ⟨.fresh initialState riskLimits, [], []⟩

def Session.step (s : Session D) : Session.Move D → Session D
  | .command command io =>
      let result := s.world.execute command io
      let records := committed (s.world.engine.core.plan command) result.1
      ⟨result.2, s.log ++ records, s.history ++ records.map fun r => (command, r)⟩
  | .recover checkpoint source config riskLimits =>
      match recoverRead checkpoint s.world.disk source config riskLimits with
      | .error _ => s
      | .ok reading =>
          match reading.build s.world.disk.length with
          | .error _ => s
          | .ok engine => ⟨⟨engine, s.world.disk⟩, reading.records, s.history⟩

abbrev Session.run (s : Session D) (moves : List (Session.Move D)) : Session D :=
  Senex.run Session.step s moves

/-! ## What a move can do -/

/-- A move as the later invariants see it. -/
inductive Session.Moved (s : Session D) : Session D → Prop
  /-- The core is as it was, but for its blocked reason.  The file may have grown behind it. -/
  | kept (reason : Option BlockReason) (size : Nat) (disk : Bytes) :
      Moved s ⟨⟨⟨{ s.world.engine.core with blockedReason := reason }, size⟩, disk⟩, s.log, s.history⟩
  | committed (command : Command D) (record : Record) (candidate : Candidate D) (size : Nat)
      (disk : Bytes) (planned : s.world.engine.core.plan command = .ok (.append record candidate)) :
      Moved s ⟨⟨⟨s.world.engine.core.advance record candidate, size⟩, disk⟩, s.log ++ [record],
        s.history ++ [(command, record)]⟩
  | recovered (reading : Recovery D) (engine : Engine D)
      (start : ∃ cash source config, PaperState.initial cash source config = .ok reading.starting)
      (journal : readJournal s.world.disk = .ok reading.records)
      (replayed : (Core.fresh reading.starting reading.riskLimits).replay reading.records =
        .ok engine.core) :
      Moved s ⟨⟨engine, s.world.disk⟩, reading.records, s.history⟩

theorem Session.step_command (s : Session D) (command : Command D) (io : IoScript) :
    (∃ reason size disk, s.step (.command command io) =
      ⟨⟨⟨{ s.world.engine.core with blockedReason := reason }, size⟩, disk⟩, s.log, s.history⟩) ∨
    ∃ record candidate size disk,
      s.world.engine.core.plan command = .ok (.append record candidate) ∧
      s.step (.command command io) = ⟨⟨⟨s.world.engine.core.advance record candidate, size⟩, disk⟩,
        s.log ++ [record], s.history ++ [(command, record)]⟩ := by
  have effect := s.world.execute_effect command io
  unfold step
  dsimp only
  generalize s.world.execute command io = result at effect
  cases effect with
  | kept outcome nothing =>
      simp only [nothing, List.append_nil, List.map_nil]
      exact Or.inl ⟨_, _, _, rfl⟩
  | blocked raised reason =>
      simp only [committed_error, List.append_nil, List.map_nil]
      exact Or.inl ⟨some reason, _, _, rfl⟩
  | torn raised reason =>
      simp only [committed_error, List.append_nil, List.map_nil]
      exact Or.inl ⟨some reason, _, _, rfl⟩
  | unacknowledged raised reason =>
      simp only [committed_error, List.append_nil, List.map_nil]
      exact Or.inl ⟨some reason, _, _, rfl⟩
  | committed record candidate data planned =>
      simp only [planned, committed_append, List.map_cons, List.map_nil]
      exact Or.inr ⟨record, candidate, _, _, rfl, rfl⟩

theorem Session.step_moved (s : Session D) (move : Session.Move D) : s.Moved (s.step move) := by
  cases move with
  | command command io =>
      rcases s.step_command command io with
        ⟨reason, size, disk, same⟩ | ⟨record, candidate, size, disk, planned, same⟩
      · rw [same]
        exact .kept reason size disk
      · rw [same]
        exact .committed command record candidate size disk planned
  | recover checkpoint source config riskLimits =>
      unfold step
      dsimp only
      cases read : recoverRead checkpoint s.world.disk source config riskLimits with
      | error raised => exact .kept _ _ _
      | ok reading =>
          dsimp only
          cases built : reading.build s.world.disk.length with
          | error raised => exact .kept _ _ _
          | ok engine =>
              obtain ⟨journal, -, start⟩ := recoverRead_eq_ok read
              exact .recovered reading engine start journal (Recovery.build_eq_ok built).1

/-! ## The file of a session -/

/-- The file holds whole records and a torn tail.  If its records form a chain, they are
    the log and whatever was written without being acknowledged. -/
structure Session.Filed (s : Session D) (rs : List Record) (tail : Bytes) : Prop where
  written : ∃ front, journalBytes rs = .ok front ∧ s.world.disk = front ++ tail
  torn : 10 ∉ tail
  current : s.world.disk.length = s.world.engine.journalSize → tail = []
  spelled : ∀ r ∈ rs, r.Spelled
  ahead : journalFormat.Chain genesisAnchor rs → ∃ extra, rs = s.log ++ extra ∧
    ∀ r ∈ extra, r.journalSeq = s.world.engine.core.journalSeq + 1

theorem Session.filed_fresh (initialState : PaperState D) (riskLimits : RiskLimits D) :
    (Session.fresh initialState riskLimits).Filed [] [] where
  written := ⟨[], rfl, rfl⟩
  torn := by simp
  current := fun _ => rfl
  spelled := by simp
  ahead := fun _ => ⟨[], rfl, by simp⟩

/-- A readable file holds the records that are read, and no torn tail. -/
theorem Session.Filed.read {s : Session D} {rs read : List Record} {tail : Bytes}
    (filed : s.Filed rs tail) (journal : readJournal s.world.disk = .ok read) :
    tail = [] ∧ read = rs ∧ journalFormat.Chain genesisAnchor rs := by
  obtain ⟨front, written, shape⟩ := filed.written
  have whole : tail = [] := by
    by_contra some_tail
    have nonempty : s.world.disk ≠ [] := by simp [shape, some_tail]
    have unfinished : Bytes.endsWithNewline s.world.disk = false := by
      have last : s.world.disk.getLast? = tail.getLast? := by
        rw [shape, List.getLast?_append_of_ne_nil _ some_tail]
      unfold Bytes.endsWithNewline
      rw [last, beq_eq_false_iff_ne]
      intro newline
      exact filed.torn (List.mem_of_getLast? newline)
    exact readJournal_torn nonempty unfinished read journal
  subst whole
  rw [List.append_nil] at shape
  rw [← shape] at written
  exact ⟨rfl, (readJournal_journalBytes written).mp journal⟩

/-- A record that the file takes without the engine's knowing. -/
theorem Session.Filed.unacknowledged {s : Session D} {rs : List Record} {tail : Bytes}
    (filed : s.Filed rs tail) {command : Command D} {record : Record} {candidate : Candidate D}
    {data : Bytes} (planned : s.world.engine.core.plan command = .ok (.append record candidate))
    (coded : record.data = .ok data) (current : s.world.disk.length = s.world.engine.journalSize)
    (reason : BlockReason) (size : Nat) :
    Session.Filed ⟨⟨⟨s.world.engine.core.block reason, size⟩, s.world.disk ++ data⟩, s.log, s.history⟩
      (rs ++ [record]) [] where
  written := by
    obtain ⟨front, written, shape⟩ := filed.written
    rw [filed.current current, List.append_nil] at shape
    rw [← shape] at written
    exact ⟨_, journalBytes_concat written coded, by simp⟩
  torn := by simp
  current := fun _ => rfl
  spelled := by
    intro r hr
    rcases List.mem_append.mp hr with old | new
    · exact filed.spelled r old
    · rw [List.mem_singleton.mp new]
      exact Core.plan_spelled planned
  ahead := by
    intro chain
    obtain ⟨extra, shape, ahead⟩ := filed.ahead chain.prefix
    refine ⟨extra ++ [record], by simp [shape], ?_⟩
    intro r hr
    rcases List.mem_append.mp hr with old | new
    · exact ahead r old
    · rw [List.mem_singleton.mp new]
      exact (Core.plan_append planned).1.seq

/-- A committed record, behind records that were never acknowledged, breaks the chain. -/
theorem Session.Filed.committed {s : Session D} {rs : List Record} {tail : Bytes}
    (filed : s.Filed rs tail) {command : Command D} {record : Record} {candidate : Candidate D}
    {data : Bytes} (planned : s.world.engine.core.plan command = .ok (.append record candidate))
    (coded : record.data = .ok data) (current : s.world.disk.length = s.world.engine.journalSize)
    (size : Nat) (history : List (Command D × Record)) :
    Session.Filed ⟨⟨⟨s.world.engine.core.advance record candidate, size⟩, s.world.disk ++ data⟩,
      s.log ++ [record], history⟩ (rs ++ [record]) [] := by
  have beside := filed.unacknowledged planned coded current .writerConflict size
  refine ⟨beside.written, beside.torn, beside.current, beside.spelled, ?_⟩
  intro chain
  obtain ⟨extra, shape, ahead⟩ := filed.ahead chain.prefix
  have seq := (Core.plan_append planned).1.seq
  cases extra with
  | nil => exact ⟨[], by simp [shape], by simp⟩
  | cons r extra =>
      -- `r` and the new record claim one place
      have first := ahead r (by simp)
      rw [shape] at chain
      have place := (show journalFormat.Chain genesisAnchor (s.log ++ r :: (extra ++ [record])) by
        simpa using chain).seq_eq
      have last := (show journalFormat.Chain genesisAnchor ((s.log ++ r :: extra) ++ record :: []) by
        simpa using chain).seq_eq
      simp only [journalFormat, genesisAnchor, List.length_append, List.length_cons] at place last
      omega

theorem Session.Filed.step {s : Session D} {rs : List Record} {tail : Bytes}
    (filed : s.Filed rs tail) (move : Session.Move D) : ∃ rs' tail', (s.step move).Filed rs' tail' := by
  cases move with
  | command command io =>
      have effect := s.world.execute_effect command io
      unfold Session.step
      dsimp only
      generalize s.world.execute command io = result at effect
      cases effect with
      | kept outcome nothing =>
          simp only [nothing, List.append_nil, List.map_nil]
          exact ⟨rs, tail, filed⟩
      | blocked raised reason =>
          simp only [committed_error, List.append_nil, List.map_nil]
          exact ⟨rs, tail, filed.written, filed.torn, filed.current, filed.spelled, filed.ahead⟩
      | torn raised reason _ _ written filled part current =>
          simp only [committed_error, List.append_nil, List.map_nil]
          obtain ⟨front, bytes, shape⟩ := filed.written
          rw [filed.current current, List.append_nil] at shape
          rw [← shape] at bytes
          refine ⟨rs, written, ⟨s.world.disk, bytes, rfl⟩, part, ?_, filed.spelled, filed.ahead⟩
          intro level
          have level : (s.world.disk ++ written).length = s.world.engine.journalSize := level
          rw [List.length_append, current] at level
          exact List.length_eq_zero_iff.mp (by omega)
      | unacknowledged raised reason _ _ record candidate data size planned coded current =>
          simp only [committed_error, List.append_nil, List.map_nil]
          exact ⟨_, _, filed.unacknowledged planned coded current reason size⟩
      | committed record candidate data planned coded current =>
          simp only [planned, committed_append, List.map_cons, List.map_nil]
          exact ⟨_, _, filed.committed planned coded current _ _⟩
  | recover checkpoint source config riskLimits =>
      unfold Session.step
      dsimp only
      cases read : recoverRead checkpoint s.world.disk source config riskLimits with
      | error raised => exact ⟨rs, tail, filed⟩
      | ok reading =>
          dsimp only
          cases built : reading.build s.world.disk.length with
          | error raised => exact ⟨rs, tail, filed⟩
          | ok engine =>
              obtain ⟨journal, -⟩ := recoverRead_eq_ok read
              obtain ⟨rfl, same, -⟩ := filed.read journal
              exact ⟨rs, [], filed.written, by simp, fun _ => rfl, filed.spelled,
                fun _ => ⟨[], by simp [same], by simp⟩⟩

theorem Session.filed_run (initialState : PaperState D) (riskLimits : RiskLimits D)
    (moves : List (Session.Move D)) :
    ∃ rs tail, ((Session.fresh initialState riskLimits).run moves).Filed rs tail := by
  have kept : ∀ (s : Session D) move, (∃ rs tail, s.Filed rs tail) →
      ∃ rs tail, (s.step move).Filed rs tail := by
    rintro s move ⟨rs, tail, filed⟩
    exact filed.step move
  exact run_invariant_of_step kept ⟨[], [], Session.filed_fresh _ _⟩ moves

end Senex.Paper
