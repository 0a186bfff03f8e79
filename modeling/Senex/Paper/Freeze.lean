import Senex.Paper.Replay

/-! # The durability freeze

Once a journal fault has blocked an engine, nothing should reach the journal any
more.  What can still reach it is a resolution that finds the file at the size
the engine expects: `World.freezes_iff` says that a run keeps its journal frozen
and replayable exactly when it makes no such append.
-/

namespace Senex.Paper

open Text

variable {D : Type} [Decimal D]

/-- A command, and how the file operations of its append go. -/
abbrev Attempt (D : Type) [Decimal D] := Command D × IoScript

def World.attempt (w : World D) (a : Attempt D) : World D := (w.execute a.1 a.2).2

/-- The engine is blocked by a durability failure or a writer conflict. -/
def Core.faulted (c : Core D) : Bool := c.blockedReason.any BlockReason.journalFault

/-- The journal, less an incomplete final record, is read and replayed without error. -/
def Durable (start : Core D) (disk : Bytes) : Prop :=
  ∃ rs core, readJournal (Bytes.wholeLines disk) = .ok rs ∧ start.replay rs = .ok core

/-- The freeze of a run: its journal is durable at every point, and no event is
    appended behind a journal fault. -/
structure World.Freezes (start : Core D) (w : World D) (attempts : List (Attempt D)) : Prop where
  durable : ∀ first rest, attempts = first ++ rest → Durable start (run World.attempt w first).disk
  frozen : ∀ first middle rest, attempts = first ++ middle ++ rest →
    (run World.attempt w first).engine.core.faulted = true →
    Bytes.wholeLines (run World.attempt w (first ++ middle)).disk =
      Bytes.wholeLines (run World.attempt w first).disk

/-- The append of a resolution that reaches the journal behind a journal fault. -/
def World.Unfreezes (w : World D) (a : Attempt D) : Prop :=
  w.engine.core.faulted = true ∧ w.disk.length = w.engine.journalSize ∧
    ∃ record candidate data, w.engine.core.plan a.1 = .ok (.append record candidate) ∧
      record.data = .ok data ∧ a.2.Takes data.length

/-! ## One attempt -/

theorem World.execute_disk {w : World D} {command : Command D} {io : IoScript} {record : Record}
    {candidate : Candidate D} {data : Bytes}
    (planned : w.engine.core.plan command = .ok (.append record candidate))
    (coded : record.data = .ok data) :
    (w.execute command io).2.disk =
      (appendRecord w.engine.journalSize w.engine.core.blockedReason w.disk data io).disk := by
  simp only [execute, planned, coded, Engine.settle]
  cases (appendRecord w.engine.journalSize w.engine.core.blockedReason w.disk data io).outcome with
  | error raised => rfl
  | ok _ => rfl

theorem World.execute_whole {w : World D} {command : Command D} {io : IoScript} {record : Record}
    {candidate : Candidate D} {data : Bytes}
    (planned : w.engine.core.plan command = .ok (.append record candidate))
    (coded : record.data = .ok data) :
    (w.execute command io).2.disk = w.disk ++ data ↔
      w.disk.length = w.engine.journalSize ∧ io.Takes data.length := by
  rw [execute_disk planned coded]
  exact appendRecord_whole (List.ne_nil_of_length_pos (Record.length_data coded))

/-- What an attempt behind a journal fault can leave, if it does not unfreeze the journal. -/
theorem World.attempt_faulted {w : World D} {a : Attempt D} (fault : w.engine.core.faulted = true)
    (kept : ¬ w.Unfreezes a) :
    ∃ written, (w.attempt a).disk = w.disk ++ written ∧ 10 ∉ written ∧
      (written ≠ [] → w.disk.length = w.engine.journalSize) ∧
      (w.attempt a).engine.journalSize = w.engine.journalSize ∧
      (w.attempt a).engine.core.faulted = true := by
  have effect := w.execute_effect a.1 a.2
  have whole := @World.execute_whole D _ w a.1 a.2
  -- a full record on disk is what `Unfreezes` names
  have partly : ∀ record candidate data,
      w.engine.core.plan a.1 = .ok (.append record candidate) → record.data = .ok data →
        (w.execute a.1 a.2).2.disk ≠ w.disk ++ data := by
    intro record candidate data planned coded full
    obtain ⟨current, takes⟩ := (whole planned coded).mp full
    exact kept ⟨fault, current, record, candidate, data, planned, coded, takes⟩
  unfold attempt
  generalize w.execute a.1 a.2 = result at effect partly
  cases effect with
  | kept => exact ⟨[], by simp, by simp, by simp, rfl, fault⟩
  | blocked _ _ reasonFault => exact ⟨[], by simp, by simp, by simp, rfl, reasonFault⟩
  | torn _ _ reasonFault _ written _ part current =>
      exact ⟨written, rfl, part, fun _ => current, rfl, reasonFault⟩
  | unacknowledged _ _ _ _ record candidate data size planned coded =>
      exact absurd rfl (partly _ _ _ planned coded)
  | committed record candidate data planned coded => exact absurd rfl (partly _ _ _ planned coded)

/-! ## The invariant -/

/-- The file is a chain that replays, and a torn tail behind it.  An engine without a
    journal fault is the replay of that chain, and a torn tail shows in the size. -/
structure World.Sound (start : Core D) (w : World D) (rs : List Record) (tail : Bytes) : Prop where
  chain : journalFormat.Chain genesisAnchor rs
  written : ∃ front, journalBytes rs = .ok front ∧ w.disk = front ++ tail
  replayed : ∃ core, start.replay rs = .ok core
  torn : 10 ∉ tail
  current : w.disk.length = w.engine.journalSize → tail = []
  live : w.engine.core.faulted = false → w.Journaled start rs

theorem World.Journaled.sound {start : Core D} {w : World D} {rs : List Record}
    (journaled : w.Journaled start rs) : w.Sound start rs [] where
  chain := journaled.chain
  written := ⟨w.disk, journaled.written, by simp⟩
  replayed := ⟨_, journaled.replayed⟩
  torn := by simp
  current := fun _ => rfl
  live := fun _ => journaled

theorem World.Sound.wholeLines {start : Core D} {w : World D} {rs : List Record} {tail : Bytes}
    (sound : w.Sound start rs tail) : journalBytes rs = .ok (Bytes.wholeLines w.disk) := by
  obtain ⟨front, written, shape⟩ := sound.written
  rw [shape, Bytes.wholeLines_append sound.torn, journalBytes_whole written]
  exact written

theorem World.Sound.durable {start : Core D} {w : World D} {rs : List Record} {tail : Bytes}
    (sound : w.Sound start rs tail) : Durable start w.disk := by
  obtain ⟨core, replayed⟩ := sound.replayed
  have read := (readJournal_journalBytes sound.wholeLines).mpr ⟨rfl, sound.chain⟩
  exact ⟨rs, core, read, replayed⟩

/-- An attempt behind a journal fault leaves the chain and at most tears the tail. -/
theorem World.Sound.attempt_faulted {start : Core D} {w : World D} {rs : List Record} {tail : Bytes}
    {a : Attempt D} (sound : w.Sound start rs tail) (fault : w.engine.core.faulted = true)
    (kept : ¬ w.Unfreezes a) :
    (w.attempt a).engine.core.faulted = true ∧ ∃ tail', (w.attempt a).Sound start rs tail' := by
  obtain ⟨written, grows, torn, current, size, still⟩ := World.attempt_faulted fault kept
  obtain ⟨front, bytes, shape⟩ := sound.written
  refine ⟨still, tail ++ written, ?_⟩
  exact {
    chain := sound.chain
    written := ⟨front, bytes, by rw [grows, shape, List.append_assoc]⟩
    replayed := sound.replayed
    torn := by simp [sound.torn, torn]
    current := by
      intro same
      rw [grows, size, List.length_append] at same
      by_cases none : written = []
      · subst none
        simpa using sound.current (by simpa using same)
      · -- bytes only land on a file of the expected size, and then it is longer
        have before := current none
        exact absurd (List.length_eq_zero_iff.mp (by omega)) none
    live := by simp [still] }

/-- An attempt of an engine that its journal has built. -/
theorem World.Journaled.attempt {state : PaperState D} {limits : RiskLimits D} {w : World D}
    {rs : List Record} (journaled : w.Journaled (.fresh state limits) rs) (a : Attempt D) :
    ∃ rs' tail, (w.attempt a).Sound (.fresh state limits) rs' tail := by
  have effect := w.execute_effect a.1 a.2
  unfold World.attempt
  generalize w.execute a.1 a.2 = result at effect
  cases effect with
  | kept => exact ⟨rs, [], journaled.sound⟩
  | blocked _ reason reasonFault why =>
      exact ⟨rs, [], {
        chain := journaled.chain
        written := ⟨w.disk, journaled.written, by simp⟩
        replayed := ⟨_, journaled.replayed⟩
        torn := by simp
        current := fun _ => rfl
        live := fun unblocked => absurd (show reason.journalFault = false from unblocked)
          (by simp [reasonFault]) }⟩
  | torn _ reason reasonFault _ written filled part current =>
      exact ⟨rs, written, {
        chain := journaled.chain
        written := ⟨w.disk, journaled.written, rfl⟩
        replayed := ⟨_, journaled.replayed⟩
        torn := part
        current := by
          intro level
          have level : (w.disk ++ written).length = w.engine.journalSize := level
          rw [List.length_append, current] at level
          exact List.length_eq_zero_iff.mp (by omega)
        live := fun unblocked => absurd (show reason.journalFault = false from unblocked)
          (by simp [reasonFault]) }⟩
  | unacknowledged _ reason reasonFault _ record candidate data size planned coded =>
      -- the record is on disk, but the engine has not advanced
      have next := journaled.commit (Core.plan_append planned).1 coded
      exact ⟨rs ++ [record], [], {
        chain := next.chain
        written := ⟨_, next.written, by simp⟩
        replayed := ⟨_, next.replayed⟩
        torn := by simp
        current := fun _ => rfl
        live := fun unblocked => absurd (show reason.journalFault = false from unblocked)
          (by simp [reasonFault]) }⟩
  | committed record candidate data planned coded =>
      exact ⟨rs ++ [record], [], (journaled.commit (Core.plan_append planned).1 coded).sound⟩

theorem World.Sound.attempt {state : PaperState D} {limits : RiskLimits D} {w : World D}
    {rs : List Record} {tail : Bytes} (sound : w.Sound (.fresh state limits) rs tail)
    (a : Attempt D) (kept : ¬ w.Unfreezes a) :
    ∃ rs' tail', (w.attempt a).Sound (.fresh state limits) rs' tail' := by
  cases fault : w.engine.core.faulted with
  | false => exact (sound.live fault).attempt a
  | true => exact ⟨rs, (sound.attempt_faulted fault kept).2⟩

/-! ## Runs -/

/-- A run of a fresh engine freezes its journal at a fault exactly when none of its
    attempts unfreezes it. -/
theorem World.freezes_iff (state : PaperState D) (limits : RiskLimits D)
    (attempts : List (Attempt D)) :
    World.Freezes (.fresh state limits) (.fresh state limits) attempts ↔
      Allowed World.attempt (fun w a => ¬ w.Unfreezes a) (.fresh state limits) attempts := by
  constructor
  · intro freezes
    refine allowed_iff_split.mpr fun first a rest split unfreezes => ?_
    obtain ⟨fault, current, record, candidate, data, planned, coded, takes⟩ := unfreezes
    have split' : attempts = first ++ [a] ++ rest := by simp [split]
    have frozen := freezes.frozen first [a] rest split' fault
    have grown := (World.execute_whole planned coded).mpr ⟨current, takes⟩
    obtain ⟨line, -, rfl⟩ := Record.data_eq_ok.mp coded
    -- the attempt adds a line, and `wholeLines` never gives more than the file
    have lines : Bytes.wholeLines (run World.attempt (.fresh state limits) (first ++ [a])).disk =
        (run World.attempt (.fresh state limits) first).disk ++ (line ++ [10]) := by
      rw [run_concat, World.attempt, grown, ← List.append_assoc]
      exact Bytes.wholeLines_newline _
    have shorter := (Bytes.wholeLines_prefix
      (run World.attempt (.fresh state limits) first).disk).length_le
    rw [← frozen, lines, List.length_append, List.length_append, List.length_singleton] at shorter
    omega
  · intro allowed
    have start := (World.journaled_fresh state limits).sound
    have reached : ∀ first rest, attempts = first ++ rest →
        ∃ rs tail, (run World.attempt (.fresh state limits) first).Sound (.fresh state limits) rs
          tail := by
      rintro first rest rfl
      have sub := ((allowed_append _ first rest).mp allowed).1
      have kept : ∀ (w : World D) a, (∃ rs tail, w.Sound (.fresh state limits) rs tail) →
          ¬ w.Unfreezes a → ∃ rs tail, (w.attempt a).Sound (.fresh state limits) rs tail := by
        rintro w a ⟨rs, tail, sound⟩ fine
        exact sound.attempt a fine
      exact run_invariant kept ⟨[], [], start⟩ sub
    refine ⟨?_, ?_⟩
    · intro first rest split
      obtain ⟨rs, tail, sound⟩ := reached first rest split
      exact sound.durable
    · rintro first middle rest rfl fault
      obtain ⟨rs, tail, sound⟩ := reached first (middle ++ rest) (by simp)
      have sub := ((allowed_append _ _ _).mp ((allowed_append _ _ _).mp allowed).1).2
      have kept : ∀ (w : World D) a,
          (w.engine.core.faulted = true ∧ ∃ tail, w.Sound (.fresh state limits) rs tail) →
          ¬ w.Unfreezes a →
          (w.attempt a).engine.core.faulted = true ∧
            ∃ tail, (w.attempt a).Sound (.fresh state limits) rs tail := by
        rintro w a ⟨blocked, tail, here⟩ fine
        exact here.attempt_faulted blocked fine
      obtain ⟨-, tail', after⟩ := run_invariant kept ⟨fault, tail, sound⟩ sub
      rw [run_append]
      exact Except.ok.inj (after.wholeLines.symm.trans sound.wholeLines)

/-- The journal cannot be opened, and not a byte is written. -/
def cannotOpen : IoScript := { IoScript.clean with openJournal := some (txt "Permission denied") }

def sampleResolve : Command ℚ :=
  .resolveDivergence (.str (txt "E2")) (.str (txt "2026-01-01T00:01:00Z")) (.str (txt "approval"))
    (.str (txt "retry"))

/-- A fault before the first byte leaves the size as it was; a resolution then appends. -/
theorem World.not_freezes_cannotOpen :
    ¬ World.Freezes (.fresh sampleState sampleLimits) (.fresh sampleState sampleLimits)
      [(sampleRegister, cannotOpen), (sampleResolve, .clean)] := by
  intro freezes
  have fault : (run World.attempt (.fresh sampleState sampleLimits)
      [(sampleRegister, cannotOpen)]).engine.core.faulted = true := by
    decide +kernel
  have grows : Bytes.wholeLines (run World.attempt (.fresh sampleState sampleLimits)
        ([(sampleRegister, cannotOpen)] ++ [(sampleResolve, .clean)])).disk ≠
      Bytes.wholeLines (run World.attempt (.fresh sampleState sampleLimits)
        [(sampleRegister, cannotOpen)]).disk := by
    decide +kernel
  exact grows (freezes.frozen [_] [_] [] rfl fault)

end Senex.Paper
