import Senex.Paper.Atomicity

/-! # The effect of a command on the journal

`World.execute_effect` is what later proofs use of `execute`: a command leaves the
journal alone, commits one record, or fails behind part or all of a record.
-/

namespace Senex.Paper

variable {D : Type} [Decimal D]

/-- The record that a command has committed. -/
def committed (plan : Py (Plan D)) (outcome : Py (Reply D)) : List Record :=
  match plan, outcome with
  | .ok (.append record _), .ok _ => [record]
  | _, _ => []

@[simp] theorem committed_error (plan : Py (Plan D)) (raised : Raised) :
    committed plan (.error raised) = [] := by
  unfold committed
  split <;> simp_all

@[simp] theorem committed_reply (reply : Reply D) (outcome : Py (Reply D)) :
    committed (.ok (.reply reply)) outcome = [] := rfl

@[simp] theorem committed_append (record : Record) (candidate : Candidate D) (reply : Reply D) :
    committed (.ok (.append record candidate)) (.ok reply) = [record] := rfl

/-- The engine with a blocked reason put in. -/
def Core.block (c : Core D) (reason : BlockReason) : Core D := { c with blockedReason := some reason }

/-- What a command can do to the engine and the file. -/
inductive World.Effect (w : World D) (command : Command D) (io : IoScript) :
    Py (Reply D) × World D → Prop
  | kept (outcome : Py (Reply D)) (nothing : committed (w.engine.core.plan command) outcome = []) :
      Effect w command io (outcome, w)
  /-- A fault or a conflict before the first byte. -/
  | blocked (raised : Raised) (reason : BlockReason) (fault : reason.journalFault = true)
      (why : io.faulty = true ∨ w.disk.length ≠ w.engine.journalSize) :
      Effect w command io
        (.error raised, ⟨⟨w.engine.core.block reason, w.engine.journalSize⟩, w.disk⟩)
  /-- A fault behind a part of the record that holds no line break. -/
  | torn (raised : Raised) (reason : BlockReason) (fault : reason.journalFault = true)
      (faulty : io.faulty = true) (written : Bytes) (some_bytes : written ≠ []) (part : 10 ∉ written)
      (current : w.disk.length = w.engine.journalSize) :
      Effect w command io
        (.error raised, ⟨⟨w.engine.core.block reason, w.engine.journalSize⟩, w.disk ++ written⟩)
  /-- A fault behind the whole record. -/
  | unacknowledged (raised : Raised) (reason : BlockReason) (fault : reason.journalFault = true)
      (faulty : io.faulty = true) (record : Record) (candidate : Candidate D) (data : Bytes)
      (size : Nat) (planned : w.engine.core.plan command = .ok (.append record candidate))
      (coded : record.data = .ok data) (current : w.disk.length = w.engine.journalSize) :
      Effect w command io (.error raised, ⟨⟨w.engine.core.block reason, size⟩, w.disk ++ data⟩)
  | committed (record : Record) (candidate : Candidate D) (data : Bytes)
      (planned : w.engine.core.plan command = .ok (.append record candidate))
      (coded : record.data = .ok data) (current : w.disk.length = w.engine.journalSize) :
      Effect w command io (.ok candidate.result.reply,
        ⟨⟨w.engine.core.advance record candidate, w.engine.journalSize + data.length⟩, w.disk ++ data⟩)

/-- A part of a record is the record, or holds no line break. -/
theorem Record.prefix_data {r : Record} {data written : Bytes} (coded : r.data = .ok data)
    (part : written <+: data) : written = data ∨ written ≠ data ∧ 10 ∉ written := by
  obtain ⟨line, hline, rfl⟩ := Record.data_eq_ok.mp coded
  rcases List.prefix_concat_iff.mp part with whole | inside
  · exact Or.inl whole
  · have torn : 10 ∉ written := fun member => (Record.line_plain hline 10 (inside.subset member)).1 rfl
    refine Or.inr ⟨?_, torn⟩
    rintro rfl
    simp at torn

theorem World.execute_effect (w : World D) (command : Command D) (io : IoScript) :
    w.Effect command io (w.execute command io) := by
  have step := w.execute_step command io
  generalize w.execute command io = result at step
  cases step with
  | raised exception => exact .kept _ (committed_error _ _)
  | replied reply planned => exact .kept _ (by rw [planned]; rfl)
  | committed record candidate data planned coded current =>
      exact .committed record candidate data planned coded current
  | failed record candidate data appended raised planned coded ending outcome =>
      cases ending with
      | appended current => cases outcome
      | refused raised' faulty =>
          cases outcome
          exact .kept _ (committed_error _ _)
      | conflict raised' stale => exact .blocked _ .writerConflict rfl (Or.inr stale)
      | failed raised' reason written size fault faulty inside current sizes =>
          rcases Record.prefix_data coded inside with rfl | ⟨apart, part⟩
          · have filled := List.ne_nil_of_length_pos (Record.length_data coded)
            exact .unacknowledged _ reason fault faulty record candidate written size planned coded
              (current filled)
          · have same : size = w.engine.journalSize := by
              rcases sizes with same | ⟨-, whole, -⟩
              · exact same
              · exact absurd whole apart
            subst same
            by_cases none : written = []
            · subst none
              have effect := @World.Effect.blocked D _ w command io raised reason fault (Or.inl faulty)
              simpa [Engine.failed, Core.block] using effect
            · exact .torn _ reason fault faulty written none part (current none)

end Senex.Paper
