import Senex.Paper.Engine

/-! # Appending to the file

`_append_record` with every file operation free to fail, and a command of the
engine run against the journal on disk.
-/

namespace Senex.Paper

/-- One `os.write`: how many bytes it takes, or its `OSError`. -/
inductive WriteOutcome where
  | wrote (count : Nat)
  | failed (detail : Text)

/-- How the file operations of one append go; a text is the `OSError` of that operation. -/
structure IoScript where
  openLock : Option Text
  seekLock : Option Text
  lock : Option Text
  stat : Option Text
  openJournal : Option Text
  writes : List WriteOutcome
  fsync : Option Text
  close : Option Text
  seekUnlock : Option Text
  unlock : Option Text
  closeLock : Option Text

/-- Every file operation succeeds. -/
def IoScript.clean : IoScript := ⟨none, none, none, none, none, [], none, none, none, none, none⟩

def WriteOutcome.fails : WriteOutcome → Bool
  | .wrote count => count == 0
  | .failed _ => true

/-- Some file operation fails. -/
def IoScript.faulty (io : IoScript) : Bool :=
  io.openLock.isSome || io.seekLock.isSome || io.lock.isSome || io.stat.isSome ||
    io.openJournal.isSome || io.writes.any WriteOutcome.fails || io.fsync.isSome ||
    io.close.isSome || io.seekUnlock.isSome || io.unlock.isSome || io.closeLock.isSome

/-- Entering the writer lock. -/
inductive LockOutcome where
  | held
  /-- A `ContractError` of `_writer_lock` itself. -/
  | refused (message : Text)
  /-- An `OSError` that leaves `_writer_lock`. -/
  | broken (detail : Text)

def IoScript.acquire (io : IoScript) : LockOutcome :=
  match io.openLock with
  | some detail => .refused (txt "cannot open journal writer lock: " ++ detail)
  | none =>
      match io.seekLock, io.lock, io.closeLock with
      | some _, _, some detail => .broken detail
      | some detail, _, none => .broken detail
      | none, some _, some detail => .broken detail
      | none, some _, none => .refused (txt "journal already has an active writer")
      | none, none, _ => .held

/-- The `OSError` of leaving the writer lock; the one of the final close comes last. -/
def IoScript.release (io : IoScript) : Option Text :=
  io.closeLock.or (io.seekUnlock.or io.unlock)

/-- The write loop: the bytes that reach the file, and the `OSError` that ends it. -/
def writeAll : List WriteOutcome → Bytes → Bytes × Option Text
  | _, [] => ([], none)
  | [], data => (data, none)
  | .failed detail :: _, _ => ([], some detail)
  | .wrote count :: writes, data =>
      if count = 0 then ([], some (txt "short write while appending journal record"))
      else
        let rest := writeAll writes (data.drop count)
        (data.take count ++ rest.1, rest.2)

/-- Open, write and fsync. -/
def writeJournal (data : Bytes) (io : IoScript) : Bytes × Option Text :=
  match io.openJournal with
  | some detail => ([], some detail)
  | none =>
      match writeAll io.writes data with
      | (written, some detail) => (written, some detail)
      | (written, none) => (written, io.fsync)

/-- What an append leaves behind. -/
structure Appended where
  disk : Bytes
  journalSize : Nat
  blockedReason : Option BlockReason
  outcome : Py Unit

def durabilityError (detail : Text) : Py Unit :=
  raise .contractError
    (txt "journal durability failure; in-memory state was not advanced: " ++ detail)

/-- The part of `_append_record` that runs under the lock. -/
def lockedAppend (journalSize : Nat) (blockedReason : Option BlockReason) (disk data : Bytes)
    (io : IoScript) : Appended :=
  match io.stat with
  | some detail => ⟨disk, journalSize, some (.durability detail), raise .contractError
      (txt "journal durability failure; state was not advanced: " ++ detail)⟩
  | none =>
      if disk.length ≠ journalSize then
        ⟨disk, journalSize, some .writerConflict, raise .contractError
          (txt "journal writer conflict/stale head; reload via recover() before continuing")⟩
      else
        match writeJournal data io with
        | (written, some detail) =>
            ⟨disk ++ written, journalSize, some (.durability detail), durabilityError detail⟩
        | (written, none) =>
            match io.close, blockedReason with
            | some detail, none =>
                ⟨disk ++ written, journalSize, some (.durabilityOnClose detail), durabilityError detail⟩
            -- an engine that is blocked already passes over a failing close
            | _, _ => ⟨disk ++ written, journalSize + data.length, blockedReason, .ok ()⟩

/-- `_append_record` of encoded data. -/
def appendRecord (journalSize : Nat) (blockedReason : Option BlockReason) (disk data : Bytes)
    (io : IoScript) : Appended :=
  match io.acquire with
  | .refused message => ⟨disk, journalSize, blockedReason, raise .contractError message⟩
  | .broken detail => ⟨disk, journalSize, some (.durability detail), durabilityError detail⟩
  | .held =>
      let appended := lockedAppend journalSize blockedReason disk data io
      match io.release with
      | none => appended
      | some detail =>
          { appended with
            blockedReason := some (.durability detail)
            outcome := durabilityError detail }

variable {D : Type} [Decimal D]

/-- An engine: its memory, and the journal size it expects. -/
structure Engine (D : Type) [Decimal D] where
  core : Core D
  journalSize : Nat

/-- An engine and the journal on disk. -/
structure World (D : Type) [Decimal D] where
  engine : Engine D
  disk : Bytes

/-- A new engine over an empty journal. -/
def World.fresh (initialState : PaperState D) (riskLimits : RiskLimits D) : World D :=
  ⟨⟨Core.fresh initialState riskLimits, 0⟩, []⟩

/-- `_record` from the append on: a failed append leaves its blocked reason, a
    successful one the candidate. -/
def Engine.settle (e : Engine D) (record : Record) (candidate : Candidate D) (appended : Appended) :
    Py (Reply D) × World D :=
  match appended.outcome with
  | .error raised =>
      (.error raised, ⟨⟨{ e.core with blockedReason := appended.blockedReason }, appended.journalSize⟩,
        appended.disk⟩)
  | .ok () =>
      (.ok candidate.result.reply, ⟨⟨e.core.advance record candidate, appended.journalSize⟩,
        appended.disk⟩)

/-- A command against the journal on disk. -/
def World.execute (w : World D) (command : Command D) (io : IoScript) : Py (Reply D) × World D :=
  match w.engine.core.plan command with
  | .error raised => (.error raised, w)
  | .ok (.reply reply) => (.ok reply, w)
  | .ok (.append record candidate) =>
      match record.data with
      | .error raised => (.error raised, w)
      | .ok data =>
          w.engine.settle record candidate
            (appendRecord w.engine.journalSize w.engine.core.blockedReason w.disk data io)

/-! ## What an append can do -/

theorem writeAll_spec (writes : List WriteOutcome) (data : Bytes) :
    (writeAll writes data).1 <+: data ∧
      ((writeAll writes data).2 = none → (writeAll writes data).1 = data) ∧
      (writes.any WriteOutcome.fails = false → (writeAll writes data).2 = none) := by
  induction writes, data using writeAll.induct with
  | case1 writes => simp [writeAll]
  | case2 data filled => simp [writeAll]
  | case3 data detail writes filled => simp [writeAll, WriteOutcome.fails]
  | case4 writes data filled => simp [writeAll, WriteOutcome.fails]
  | case5 count writes data filled some_count ih =>
      obtain ⟨pre, whole, clean⟩ := ih
      simp only [writeAll, some_count, if_false]
      refine ⟨?_, ?_, ?_⟩
      · have := List.prefix_append_right_inj (data.take count) |>.mpr pre
        rwa [List.take_append_drop] at this
      · intro done
        rw [whole done, List.take_append_drop]
      · intro fine
        simp only [List.any_cons, Bool.or_eq_false_iff] at fine
        exact clean fine.2

theorem writeJournal_spec (data : Bytes) (io : IoScript) :
    (writeJournal data io).1 <+: data ∧
      ((writeJournal data io).2 = none → (writeJournal data io).1 = data) ∧
      (io.faulty = false → (writeJournal data io).2 = none) := by
  obtain ⟨pre, whole, clean⟩ := writeAll_spec io.writes data
  unfold writeJournal
  cases opened : io.openJournal with
  | some detail => simp [IoScript.faulty, opened]
  | none =>
      cases result : writeAll io.writes data with
      | mk written failure =>
          rw [result] at pre whole clean
          cases failure with
          | some detail =>
              refine ⟨pre, by simp, fun fine => ?_⟩
              simp only [IoScript.faulty, Bool.or_eq_false_iff] at fine
              exact absurd (clean (by tauto)) (by simp)
          | none =>
              refine ⟨pre, fun _ => whole rfl, fun fine => ?_⟩
              simp only [IoScript.faulty, Bool.or_eq_false_iff, Option.isSome_eq_false_iff,
                Option.isNone_iff_eq_none] at fine
              tauto

theorem IoScript.not_faulty {io : IoScript} (fine : io.faulty = false) :
    io.acquire = .held ∧ io.release = none ∧ io.stat = none ∧ io.close = none := by
  simp only [IoScript.faulty, Bool.or_eq_false_iff, Option.isSome_eq_false_iff,
    Option.isNone_iff_eq_none] at fine
  simp [IoScript.acquire, IoScript.release, fine]

/-- The four ways an append can end. -/
inductive AppendEnd (journalSize : Nat) (blockedReason : Option BlockReason) (disk data : Bytes)
    (io : IoScript) : Appended → Prop
  | appended (current : disk.length = journalSize) :
      AppendEnd journalSize blockedReason disk data io
        ⟨disk ++ data, journalSize + data.length, blockedReason, .ok ()⟩
  /-- The writer lock was refused. -/
  | refused (raised : Raised) (faulty : io.faulty = true) :
      AppendEnd journalSize blockedReason disk data io ⟨disk, journalSize, blockedReason, .error raised⟩
  | conflict (raised : Raised) (stale : disk.length ≠ journalSize) :
      AppendEnd journalSize blockedReason disk data io
        ⟨disk, journalSize, some .writerConflict, .error raised⟩
  /-- A file operation failed after `written` was on disk.  Only a failing release of
      the lock comes after the expected size has moved on. -/
  | failed (raised : Raised) (reason : BlockReason) (written : Bytes) (size : Nat)
      (fault : reason.journalFault = true) (faulty : io.faulty = true) (part : written <+: data)
      (current : written ≠ [] → disk.length = journalSize)
      (sizes : size = journalSize ∨ size = journalSize + data.length ∧ written = data ∧
        disk.length = journalSize) :
      AppendEnd journalSize blockedReason disk data io ⟨disk ++ written, size, some reason, .error raised⟩

theorem AppendEnd.untouched {journalSize : Nat} {blockedReason : Option BlockReason}
    {disk data : Bytes} {io : IoScript} (raised : Raised) {reason : BlockReason}
    (fault : reason.journalFault = true) (faulty : io.faulty = true) :
    AppendEnd journalSize blockedReason disk data io
      ⟨disk, journalSize, some reason, .error raised⟩ := by
  have ending := @AppendEnd.failed journalSize blockedReason disk data io raised reason []
    journalSize fault faulty List.nil_prefix (by simp) (Or.inl rfl)
  rwa [List.append_nil] at ending

private theorem lockedAppend_end (journalSize : Nat) (blockedReason : Option BlockReason)
    (disk data : Bytes) (io : IoScript) :
    AppendEnd journalSize blockedReason disk data io
      (lockedAppend journalSize blockedReason disk data io) := by
  obtain ⟨part, whole, clean⟩ := writeJournal_spec data io
  have faulty : (writeJournal data io).2 ≠ none → io.faulty = true := by
    intro failure
    by_contra fine
    exact failure (clean (by simpa using fine))
  unfold lockedAppend
  cases stat : io.stat with
  | some detail =>
      exact .untouched _ rfl (by simp [IoScript.faulty, stat])
  | none =>
      by_cases current : disk.length = journalSize
      · simp only [current, ne_eq, not_true_eq_false, if_false]
        cases result : writeJournal data io with
        | mk written failure =>
            rw [result] at part whole faulty
            cases failure with
            | some detail =>
                exact .failed _ _ written journalSize rfl (faulty (by simp)) part
                  (fun _ => current) (Or.inl rfl)
            | none =>
                have full : written = data := whole rfl
                subst full
                cases close : io.close with
                | none => exact .appended current
                | some detail =>
                    cases blockedReason with
                    | none =>
                        exact .failed _ _ written journalSize rfl (by simp [IoScript.faulty, close])
                          (List.prefix_refl _) (fun _ => current) (Or.inl rfl)
                    | some reason => exact .appended current
      · simp only [ne_eq, current, not_false_eq_true, if_true]
        exact .conflict _ current

theorem appendRecord_end (journalSize : Nat) (blockedReason : Option BlockReason)
    (disk data : Bytes) (io : IoScript) :
    AppendEnd journalSize blockedReason disk data io
      (appendRecord journalSize blockedReason disk data io) := by
  have faulty : io.acquire ≠ .held ∨ io.release ≠ none → io.faulty = true := by
    intro failure
    by_contra fine
    have := IoScript.not_faulty (Bool.not_eq_true _ ▸ fine)
    simp [this.1, this.2.1] at failure
  unfold appendRecord
  cases acquired : io.acquire with
  | refused message => exact .refused _ (faulty (by simp [acquired]))
  | broken detail => exact .untouched _ rfl (faulty (by simp [acquired]))
  | held =>
      have inner := lockedAppend_end journalSize blockedReason disk data io
      cases released : io.release with
      | none => exact inner
      | some detail =>
          -- the failing release replaces whatever the body came to
          have broken := faulty (by simp [released])
          simp only
          generalize lockedAppend journalSize blockedReason disk data io = body at inner
          cases inner with
          | appended current =>
              exact .failed _ _ data _ rfl broken (List.prefix_refl _) (fun _ => current)
                (Or.inr ⟨rfl, rfl, current⟩)
          | refused raised => exact .untouched _ rfl broken
          | conflict raised stale => exact .untouched _ rfl broken
          | failed raised reason written size fault _ part current sizes =>
              exact .failed _ _ written size rfl broken part current sizes

/-- Whether the system calls take all of `n` bytes. -/
def takesAll : List WriteOutcome → Nat → Bool
  | _, 0 => true
  | [], _ => true
  | .failed _ :: _, _ => false
  | .wrote count :: writes, n => count != 0 && takesAll writes (n - count)

/-- The file operations go well up to the last byte of a record of `n` bytes. -/
def IoScript.Takes (io : IoScript) (n : Nat) : Prop :=
  io.acquire = .held ∧ io.stat = none ∧ io.openJournal = none ∧ takesAll io.writes n = true

theorem writeAll_whole (writes : List WriteOutcome) (data : Bytes) :
    (writeAll writes data).1 = data ↔ takesAll writes data.length = true := by
  induction writes, data using writeAll.induct with
  | case1 writes => simp [writeAll, takesAll]
  | case2 data filled =>
      obtain ⟨b, rest, rfl⟩ := List.exists_cons_of_ne_nil filled
      simp [writeAll, takesAll]
  | case3 data detail writes filled =>
      obtain ⟨b, rest, rfl⟩ := List.exists_cons_of_ne_nil filled
      simp [writeAll, takesAll]
  | case4 writes data filled =>
      obtain ⟨b, rest, rfl⟩ := List.exists_cons_of_ne_nil filled
      simp [writeAll, takesAll]
  | case5 count writes data filled some_count ih =>
      obtain ⟨b, rest, rfl⟩ := List.exists_cons_of_ne_nil filled
      have taken : takesAll (.wrote count :: writes) (b :: rest).length =
          takesAll writes ((b :: rest).drop count).length := by
        simp [takesAll, some_count]
      simp only [writeAll, some_count, if_false, taken, ← ih]
      constructor
      · intro whole
        have split := whole.trans (List.take_append_drop count (b :: rest)).symm
        exact List.append_cancel_left split
      · intro whole
        rw [whole, List.take_append_drop]

/-- A record is on disk in full exactly when the operations up to its last byte went well;
    what fails after that takes nothing back. -/
theorem appendRecord_whole {journalSize : Nat} {blockedReason : Option BlockReason}
    {disk data : Bytes} {io : IoScript} (filled : data ≠ []) :
    (appendRecord journalSize blockedReason disk data io).disk = disk ++ data ↔
      disk.length = journalSize ∧ io.Takes data.length := by
  have locked : (lockedAppend journalSize blockedReason disk data io).disk = disk ++ data ↔
      disk.length = journalSize ∧ io.stat = none ∧ io.openJournal = none ∧
        takesAll io.writes data.length = true := by
    rw [← writeAll_whole]
    unfold lockedAppend writeJournal
    cases io.stat with
    | some detail => simp [filled]
    | none =>
        by_cases current : disk.length = journalSize
        · cases io.openJournal with
          | some detail => simp [current, filled]
          | none =>
              cases result : writeAll io.writes data with
              | mk written failure =>
                  cases failure with
                  | some detail => simp [current]
                  | none => cases io.fsync <;> cases io.close <;> cases blockedReason <;> simp [current]
        · simp [current, filled]
  unfold appendRecord IoScript.Takes
  cases io.acquire with
  | refused message => simp [filled]
  | broken detail => simp [filled]
  | held =>
      -- leaving the lock touches no byte of the journal
      cases io.release with
      | none => simpa only [true_and] using locked
      | some detail => simpa only [true_and] using locked

/-- An append whose file operations succeed returns exactly when the size is the expected one. -/
theorem appendRecord_clean {journalSize : Nat} {disk data : Bytes} (blockedReason : Option BlockReason)
    (current : disk.length = journalSize) :
    appendRecord journalSize blockedReason disk data .clean =
      ⟨disk ++ data, journalSize + data.length, blockedReason, .ok ()⟩ := by
  have ending := appendRecord_end journalSize blockedReason disk data .clean
  generalize appendRecord journalSize blockedReason disk data .clean = appended at ending
  cases ending with
  | appended => rfl
  | refused raised faulty => exact absurd faulty (by decide)
  | conflict raised stale => exact absurd current stale
  | failed raised reason written size fault faulty => exact absurd faulty (by decide)

end Senex.Paper
