import Senex.Paper.Plans

/-! # One command, and what it leaves when it raises

`World.execute_step` lists what a command can do to an engine and its file.  A
command that raises leaves the engine as it was but for the blocked reason.
-/

namespace Senex.Paper

variable {D : Type} [Decimal D]

/-- The engine behind a failed append. -/
def Engine.failed (e : Engine D) (appended : Appended) : Engine D :=
  ⟨{ e.core with blockedReason := appended.blockedReason }, appended.journalSize⟩

/-- What a command can do. -/
inductive World.Step (w : World D) (command : Command D) (io : IoScript) :
    Py (Reply D) × World D → Prop
  /-- It raises before it touches the file. -/
  | raised (exception : Raised) : Step w command io (.error exception, w)
  /-- It replies without an append. -/
  | replied (reply : Reply D) (planned : w.engine.core.plan command = .ok (.reply reply)) :
      Step w command io (.ok reply, w)
  | committed (record : Record) (candidate : Candidate D) (data : Bytes)
      (planned : w.engine.core.plan command = .ok (.append record candidate))
      (coded : record.data = .ok data) (current : w.disk.length = w.engine.journalSize) :
      Step w command io (.ok candidate.result.reply,
        ⟨⟨w.engine.core.advance record candidate, w.engine.journalSize + data.length⟩, w.disk ++ data⟩)
  /-- Its append fails. -/
  | failed (record : Record) (candidate : Candidate D) (data : Bytes) (appended : Appended)
      (raised : Raised) (planned : w.engine.core.plan command = .ok (.append record candidate))
      (coded : record.data = .ok data)
      (ending : AppendEnd w.engine.journalSize w.engine.core.blockedReason w.disk data io appended)
      (outcome : appended.outcome = .error raised) :
      Step w command io (.error raised, ⟨w.engine.failed appended, appended.disk⟩)

theorem World.execute_step (w : World D) (command : Command D) (io : IoScript) :
    w.Step command io (w.execute command io) := by
  unfold execute
  cases planned : w.engine.core.plan command with
  | error raised => exact .raised raised
  | ok plan =>
      cases plan with
      | reply reply => exact .replied reply planned
      | append record candidate =>
          dsimp only
          cases coded : record.data with
          | error raised => exact .raised raised
          | ok data =>
              have ending := appendRecord_end w.engine.journalSize w.engine.core.blockedReason w.disk
                data io
              dsimp only
              generalize appendRecord w.engine.journalSize w.engine.core.blockedReason w.disk data io =
                appended at ending
              unfold Engine.settle
              cases outcome : appended.outcome with
              | error raised =>
                  exact .failed record candidate data appended raised planned coded ending outcome
              | ok u =>
                  cases ending with
                  | appended current => exact .committed record candidate data planned coded current
                  | _ => cases outcome

/-! ## What a raising command leaves -/

/-- The command reaches its append, and a file operation of the append fails. -/
def World.IoFailure (w : World D) (command : Command D) (io : IoScript) : Prop :=
  io.faulty = true ∧ ∃ record candidate data,
    w.engine.core.plan command = .ok (.append record candidate) ∧ record.data = .ok data

/-- The command reaches its append, and the file is not the one the engine expects. -/
def World.WriterConflict (w : World D) (command : Command D) : Prop :=
  w.disk.length ≠ w.engine.journalSize ∧ ∃ record candidate data,
    w.engine.core.plan command = .ok (.append record candidate) ∧ record.data = .ok data

/-- A command that raises changes nothing in memory but the blocked reason, and that only
    on an I/O failure or a writer conflict; without an I/O failure the file is unchanged. -/
theorem World.execute_raises {w after : World D} {command : Command D} {io : IoScript}
    {raised : Raised} (failed : w.execute command io = (.error raised, after)) :
    after.engine.core = { w.engine.core with blockedReason := after.engine.core.blockedReason } ∧
      (after.engine.core.blockedReason ≠ w.engine.core.blockedReason →
        w.IoFailure command io ∨ w.WriterConflict command) ∧
      (¬ w.IoFailure command io → after.disk = w.disk) := by
  have step := w.execute_step command io
  rw [failed] at step
  cases step with
  | raised => exact ⟨rfl, fun changed => absurd rfl changed, fun _ => rfl⟩
  | failed record candidate data appended _ planned coded ending outcome =>
      have reached : ∃ record candidate data,
          w.engine.core.plan command = .ok (.append record candidate) ∧ record.data = .ok data :=
        ⟨record, candidate, data, planned, coded⟩
      refine ⟨rfl, ?_, ?_⟩
      · intro changed
        cases ending with
        | appended current => cases outcome
        | refused _ faulty => exact Or.inl ⟨faulty, reached⟩
        | conflict _ stale => exact Or.inr ⟨stale, reached⟩
        | failed _ reason written size fault faulty => exact Or.inl ⟨faulty, reached⟩
      · intro noFailure
        cases ending with
        | appended current => cases outcome
        | refused _ faulty => exact absurd ⟨faulty, reached⟩ noFailure
        | conflict _ stale => rfl
        | failed _ reason written size fault faulty => exact absurd ⟨faulty, reached⟩ noFailure

/-! A small account over exact rationals, for concrete runs. -/

def Py.value {α : Type} (call : Py α) (returns : call.toOption.isSome = true) : α :=
  call.toOption.get returns

theorem Py.eq_ok_value {α : Type} {call : Py α} (returns : call.toOption.isSome = true) :
    call = .ok (Py.value call returns) := by
  cases call with
  | error e => simp [Except.toOption] at returns
  | ok a => rfl

def sampleSha : Text := List.replicate 64 97

def sampleState : PaperState ℚ :=
  Py.value (PaperState.initial (.str (txt "1000")) sampleSha sampleSha) (by decide +kernel)

theorem sampleState_initial :
    PaperState.initial (.str (txt "1000")) sampleSha sampleSha = .ok sampleState :=
  Py.eq_ok_value _

def sampleLimits : RiskLimits ℚ :=
  Py.value (RiskLimits.construct (.str (txt "10")) (.str (txt "5"))) (by decide +kernel)

abbrev sampleWorld : World ℚ := .fresh sampleState sampleLimits

/-- Registers a buy of two units. -/
def sampleRegister : Command ℚ :=
  .registerOrder (.str (txt "E1")) (.str (txt "2026-01-01T00:00:00Z")) (.str (txt "O1"))
    (.str (txt "C1")) (.str (txt "buy")) (.str (txt "2"))

def sampleCancel : Command ℚ :=
  .cancelOrder (.str (txt "E2")) (.str (txt "2026-01-01T00:01:00Z")) (.str (txt "O1"))
    (.str (txt "operator"))

/-- The disk is full after ten bytes of the record. -/
def diskFull : IoScript := { IoScript.clean with writes := [.wrote 10, .failed (txt "No space left")] }

theorem World.execute_raises_diskFull :
    ∃ raised after, sampleWorld.execute sampleRegister diskFull = (.error raised, after) ∧
      (after.engine.core =
          { sampleWorld.engine.core with blockedReason := after.engine.core.blockedReason } ∧
        (after.engine.core.blockedReason ≠ sampleWorld.engine.core.blockedReason →
          sampleWorld.IoFailure sampleRegister diskFull ∨ sampleWorld.WriterConflict sampleRegister) ∧
        (¬ sampleWorld.IoFailure sampleRegister diskFull → after.disk = sampleWorld.disk)) := by
  have fails : (sampleWorld.execute sampleRegister diskFull).1.toOption.isNone = true := by
    decide +kernel
  cases result : sampleWorld.execute sampleRegister diskFull with
  | mk outcome after =>
      cases outcome with
      | ok reply => simp [result, Except.toOption] at fails
      | error raised => exact ⟨raised, after, rfl, World.execute_raises result⟩

end Senex.Paper
