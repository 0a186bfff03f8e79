import Senex.Paper.Freeze
import Senex.Paper.Recovery

/-! # Several engines at one journal

A commit is one step under the writer lock.  Opening an engine is two steps: the
journal is read, and later the engine is constructed, which is when the size that
it will expect is recorded.  As long as nobody commits between the two, the
journal is one chain of everything that any engine has committed.
-/

namespace Senex.Paper

open Text

variable {D : Type} [Decimal D]

/-- An engine about to be constructed, by `__init__` over an empty journal or by `recover`. -/
inductive Opening (D : Type) [Decimal D] where
  | fresh (initialState : PaperState D) (riskLimits : RiskLimits D)
  | recovery (reading : Recovery D)

/-- The construction, which finds a file of this size. -/
def Opening.construct (fileSize : Nat) : Opening D → Py (Engine D)
  | .fresh initialState riskLimits => .ok ⟨Core.fresh initialState riskLimits, fileSize⟩
  | .recovery reading => reading.build fileSize

/-- An opening, and the size of the file when it was read. -/
structure Pending (D : Type) [Decimal D] where
  opening : Opening D
  size : Nat

/-- The engines at a journal; `commits` are their commits in order. -/
structure Writers (D : Type) [Decimal D] where
  disk : Bytes
  pending : List (Pending D)
  engines : List (Engine D)
  commits : List Record

/-- An empty journal, and nobody at it. -/
def Writers.start : Writers D := ⟨[], [], [], []⟩

inductive Move (D : Type) [Decimal D] where
  /-- `__init__` finds the journal empty. -/
  | check (initialState : PaperState D) (riskLimits : RiskLimits D)
  /-- `recover` reads the journal. -/
  | read (checkpoint : Bytes) (source config : PyArg) (riskLimits : RiskLimits D)
  /-- The pending opening at this place constructs its engine. -/
  | construct (place : Nat)
  /-- The engine at this place runs a command. -/
  | command (place : Nat) (command : Command D)

def Writers.step (w : Writers D) : Move D → Writers D
  | .check initialState riskLimits =>
      if w.disk.length = 0 then
        { w with pending := w.pending ++ [⟨.fresh initialState riskLimits, w.disk.length⟩] }
      else w
  | .read checkpoint source config riskLimits =>
      match recoverRead checkpoint w.disk source config riskLimits with
      | .error _ => w
      | .ok reading => { w with pending := w.pending ++ [⟨.recovery reading, w.disk.length⟩] }
  | .construct place =>
      match w.pending[place]? with
      | none => w
      | some p =>
          match p.opening.construct w.disk.length with
          | .error _ => { w with pending := w.pending.eraseIdx place }
          | .ok engine =>
              { w with pending := w.pending.eraseIdx place, engines := w.engines ++ [engine] }
  | .command place command =>
      match w.engines[place]? with
      | none => w
      | some engine =>
          let result := World.execute ⟨engine, w.disk⟩ command .clean
          { w with
            disk := result.2.disk
            engines := w.engines.set place result.2.engine
            commits := w.commits ++ committed (engine.core.plan command) result.1 }

/-- A construction comes before any commit behind its reading. -/
def Writers.Current (w : Writers D) : Move D → Prop
  | .construct place => ∀ p ∈ w.pending[place]?, w.disk.length = p.size
  | _ => True

/-- The journal is one chain of all commits, and no two of them have one predecessor. -/
structure Writers.OneChain (w : Writers D) : Prop where
  read : readJournal w.disk = .ok w.commits
  chain : journalFormat.Chain genesisAnchor w.commits
  apart : ∀ r ∈ w.commits, ∀ s ∈ w.commits, r.journalSeq = s.journalSeq → r = s

/-! ## The invariant -/

/-- The engine's head is the end of the first `size` bytes of the journal. -/
def Core.Stands (c : Core D) (rs : List Record) (size : Nat) : Prop :=
  ∃ front back bytes, rs = front ++ back ∧ journalBytes front = .ok bytes ∧ bytes.length = size ∧
    c.Anchored (journalFormat.after genesisAnchor front)

theorem Core.Stands.append {c : Core D} {rs : List Record} {size : Nat} (stands : c.Stands rs size)
    (more : List Record) : c.Stands (rs ++ more) size := by
  obtain ⟨front, back, bytes, rfl, written, length, anchored⟩ := stands
  exact ⟨front, back ++ more, bytes, by simp, written, length, anchored⟩

theorem Core.Anchored.stands {c : Core D} {rs : List Record} {disk : Bytes}
    (anchored : c.Anchored (journalFormat.after genesisAnchor rs))
    (written : journalBytes rs = .ok disk) : c.Stands rs disk.length :=
  ⟨rs, [], disk, by simp, written, rfl, anchored⟩

/-- An engine that expects the whole file stands at the end of the chain. -/
theorem Core.Stands.anchored {c : Core D} {rs : List Record} {disk : Bytes}
    (stands : c.Stands rs disk.length) (written : journalBytes rs = .ok disk) :
    c.Anchored (journalFormat.after genesisAnchor rs) := by
  obtain ⟨front, back, bytes, rfl, first, length, anchored⟩ := stands
  obtain ⟨front', back', first', second, rfl⟩ := journalBytes_append.mp written
  cases first.symm.trans first'
  have nothing : back' = [] := by
    rw [List.length_append] at length
    exact List.length_eq_zero_iff.mp (by omega)
  rw [(journalBytes_eq_nil second).mp nothing, List.append_nil]
  exact anchored

/-- Whatever engine the opening constructs expects the size it finds, and stands where the
    file ended when it was read. -/
def Pending.Stands (p : Pending D) (rs : List Record) : Prop :=
  ∀ fileSize engine, p.opening.construct fileSize = .ok engine →
    engine.journalSize = fileSize ∧ engine.core.Stands rs p.size

structure Writers.Chained (w : Writers D) : Prop where
  written : journalBytes w.commits = .ok w.disk
  chain : journalFormat.Chain genesisAnchor w.commits
  pending : ∀ p ∈ w.pending, p.Stands w.commits
  engines : ∀ e ∈ w.engines, e.core.Stands w.commits e.journalSize

theorem Writers.Chained.oneChain {w : Writers D} (chained : w.Chained) : w.OneChain where
  read := (readJournal_journalBytes chained.written).mpr ⟨rfl, chained.chain⟩
  chain := chained.chain
  apart := fun _ hr _ hs same => chained.chain.eq_of_seq hr hs same

theorem Writers.chained_start : (Writers.start : Writers D).Chained where
  written := rfl
  chain := trivial
  pending := by simp [Writers.start]
  engines := by simp [Writers.start]

/-! ## One step -/

theorem Writers.Chained.open {w : Writers D} (chained : w.Chained) {p : Pending D}
    (stands : p.Stands w.commits) : Writers.Chained { w with pending := w.pending ++ [p] } where
  written := chained.written
  chain := chained.chain
  pending := by
    intro q hq
    rcases List.mem_append.mp hq with old | new
    · exact chained.pending q old
    · rw [List.mem_singleton.mp new]
      exact stands
  engines := chained.engines

theorem Writers.Chained.check {w : Writers D} (chained : w.Chained) (initialState : PaperState D)
    (riskLimits : RiskLimits D) : (w.step (.check initialState riskLimits)).Chained := by
  unfold Writers.step
  dsimp only
  split
  case isFalse => exact chained
  case isTrue empty =>
    apply chained.open
    intro fileSize engine built
    cases built
    refine ⟨rfl, ?_⟩
    have none : w.commits = [] :=
      (journalBytes_eq_nil chained.written).mp (List.length_eq_zero_iff.mp empty)
    rw [none]
    exact ⟨[], [], [], rfl, rfl, empty.symm, Core.anchored_fresh _ _⟩

theorem Writers.Chained.read {w : Writers D} (chained : w.Chained) (checkpoint : Bytes)
    (source config : PyArg) (riskLimits : RiskLimits D) :
    (w.step (.read checkpoint source config riskLimits)).Chained := by
  unfold Writers.step
  dsimp only
  split
  case h_1 => exact chained
  case h_2 reading reads =>
    apply chained.open
    intro fileSize engine built
    obtain ⟨journal, -⟩ := recoverRead_eq_ok reads
    obtain ⟨replayed, size⟩ := Recovery.build_eq_ok built
    have records := ((readJournal_journalBytes chained.written).mp journal).1
    rw [records] at replayed
    refine ⟨size, Core.Anchored.stands ?_ chained.written⟩
    exact (Core.anchored_fresh _ _).replay replayed

theorem Writers.Chained.construct {w : Writers D} (chained : w.Chained) {place : Nat}
    (current : w.Current (.construct place)) : (w.step (.construct place)).Chained := by
  have rest : ∀ q ∈ w.pending.eraseIdx place, q.Stands w.commits :=
    fun q hq => chained.pending q (List.mem_of_mem_eraseIdx hq)
  unfold Writers.step
  dsimp only
  cases found : w.pending[place]? with
  | none => exact chained
  | some p =>
      dsimp only
      have level : w.disk.length = p.size := current p found
      cases built : p.opening.construct w.disk.length with
      | error raised => exact ⟨chained.written, chained.chain, rest, chained.engines⟩
      | ok engine =>
          refine ⟨chained.written, chained.chain, rest, ?_⟩
          intro e he
          rcases List.mem_append.mp he with old | new
          · exact chained.engines e old
          · rw [List.mem_singleton.mp new]
            obtain ⟨size, stands⟩ := chained.pending p (List.mem_of_getElem? found) _ _ built
            rw [size, level]
            exact stands

theorem Writers.Chained.command {w : Writers D} (chained : w.Chained) (place : Nat)
    (command : Command D) : (w.step (.command place command)).Chained := by
  unfold Writers.step
  dsimp only
  cases found : w.engines[place]? with
  | none => exact chained
  | some engine =>
      dsimp only
      have stands := chained.engines engine (List.mem_of_getElem? found)
      have blocked : ∀ reason, Writers.Chained { w with
          engines := w.engines.set place ⟨engine.core.block reason, engine.journalSize⟩ } := by
        intro reason
        refine ⟨chained.written, chained.chain, chained.pending, ?_⟩
        intro e he
        rcases List.mem_or_eq_of_mem_set he with old | rfl
        · exact chained.engines e old
        · obtain ⟨front, back, bytes, split, written, length, anchored⟩ := stands
          exact ⟨front, back, bytes, split, written, length, anchored.seq, anchored.head, anchored.used⟩
      have effect := World.execute_effect ⟨engine, w.disk⟩ command .clean
      generalize World.execute ⟨engine, w.disk⟩ command .clean = result at effect
      cases effect with
      | kept outcome nothing =>
          dsimp only at nothing ⊢
          rw [nothing, List.append_nil]
          refine ⟨chained.written, chained.chain, chained.pending, ?_⟩
          intro e he
          rcases List.mem_or_eq_of_mem_set he with old | rfl
          · exact chained.engines e old
          · exact stands
      | blocked raised reason =>
          dsimp only
          rw [committed_error, List.append_nil]
          exact blocked reason
      | torn _ _ _ faulty => exact absurd faulty (by decide)
      | unacknowledged _ _ _ faulty => exact absurd faulty (by decide)
      | committed record candidate data planned coded current =>
          dsimp only at planned current ⊢
          rw [planned, committed_append]
          have appends := (Core.plan_append planned).1
          rw [← current] at stands
          -- the size check puts the engine at the end of the chain
          have anchored := stands.anchored chained.written
          have written := journalBytes_concat chained.written coded
          have advanced := anchored.advance record candidate
          rw [← journalFormat.after_nil (journalFormat.advance _ record), ← journalFormat.after_cons,
            ← journalFormat.after_append] at advanced
          refine ⟨written, journalFormat.chain_concat chained.chain (appends.extends anchored), ?_, ?_⟩
          · intro p hp fileSize e built
            obtain ⟨size, there⟩ := chained.pending p hp fileSize e built
            exact ⟨size, there.append [record]⟩
          · intro e he
            rcases List.mem_or_eq_of_mem_set he with old | rfl
            · exact (chained.engines e old).append [record]
            · have here := advanced.stands written
              rw [List.length_append, current] at here
              exact here

/-! ## Runs -/

/-- One engine is constructed, and registers an order. -/
def oneEngine : List (Move ℚ) :=
  [.check sampleState sampleLimits, .construct 0, .command 0 sampleRegister]

def sampleCheckpoint : Bytes :=
  Py.value (Core.fresh sampleState sampleLimits).saveCheckpoint (by decide +kernel)

/-- The first engine registers an order between the two steps of a `recover`. -/
def forkMoves : List (Move ℚ) :=
  [.check sampleState sampleLimits, .construct 0,
   .read sampleCheckpoint (.str sampleSha) (.str sampleSha) sampleLimits,
   .command 0 sampleRegister, .construct 0,
   .command 1 (.registerOrder (.str (txt "E2")) (.str (txt "2026-01-01T00:01:00Z"))
     (.str (txt "O2")) (.str (txt "C2")) (.str (txt "sell")) (.str (txt "1")))]

/-- What the `recover` reads before anyone has committed. -/
def forkReading : Recovery ℚ :=
  ⟨(Core.fresh sampleState sampleLimits).statePayload, 0, [], sampleState, sampleLimits⟩

theorem recoverRead_sample :
    recoverRead sampleCheckpoint [] (.str sampleSha) (.str sampleSha) sampleLimits = .ok forkReading := by
  have saved : (Core.fresh sampleState sampleLimits).saveCheckpoint = .ok sampleCheckpoint := Py.eq_ok_value _
  obtain ⟨amount, fields⟩ := PaperState.initial_eq_ok sampleState_initial
  have source : lower (strip sampleSha) = sampleState.sourceSha256 := by rw [fields]
  have config : lower (strip sampleSha) = sampleState.configSha256 := by rw [fields]
  have read := readCheckpoint_saveCheckpoint saved source config
  have starting := PaperState.initial_again sampleState_initial
  have records : readJournal [] = .ok [] := rfl
  simp only [recoverRead, Core.fresh] at read ⊢
  simp only [read, records, starting, Py.ok_bind, Py.pure_eq_ok]
  rfl

/-- The first engine is there and the second is about to be constructed. -/
def forkOpened : Writers ℚ :=
  ⟨[], [⟨.recovery forkReading, 0⟩], [⟨Core.fresh sampleState sampleLimits, 0⟩], []⟩

theorem Writers.step_read {w : Writers D} {checkpoint : Bytes} {source config : PyArg} {riskLimits : RiskLimits D}
    {reading : Recovery D} (reads : recoverRead checkpoint w.disk source config riskLimits = .ok reading) :
    w.step (.read checkpoint source config riskLimits) =
      { w with pending := w.pending ++ [⟨.recovery reading, w.disk.length⟩] } := by
  simp only [Writers.step, reads]

theorem run_forkMoves : run Writers.step .start forkMoves = run Writers.step forkOpened (forkMoves.drop 3) := by
  have checked : Writers.step .start (.check sampleState sampleLimits) =
      ⟨[], [⟨.fresh sampleState sampleLimits, 0⟩], [], []⟩ := rfl
  have constructed : Writers.step ⟨[], [⟨.fresh sampleState sampleLimits, 0⟩], [], []⟩ (.construct 0) =
      ⟨[], [], [⟨Core.fresh sampleState sampleLimits, 0⟩], []⟩ := rfl
  have read : Writers.step ⟨[], [], [⟨Core.fresh sampleState sampleLimits, 0⟩], []⟩
      (.read sampleCheckpoint (.str sampleSha) (.str sampleSha) sampleLimits) = forkOpened :=
    Writers.step_read recoverRead_sample
  have later : run Writers.step .start forkMoves =
      run Writers.step (Writers.step (Writers.step (Writers.step .start (.check sampleState sampleLimits))
        (.construct 0)) (.read sampleCheckpoint (.str sampleSha) (.str sampleSha) sampleLimits))
        (forkMoves.drop 3) := by
    rw [forkMoves, run_cons, run_cons, run_cons]
    rfl
  rw [later, checked, constructed, read]

end Senex.Paper
