import Senex.Paper.Replay

/-! # Recovering the live engine

A checkpoint written anywhere in a run, and the journal at its end, give the
live engine back: the read checkpoint is the written one, the read records are
the committed ones, and their replay is the live engine.  The exception is a
checkpoint from before the first event over a journal that has events.
-/

namespace Senex.Paper

open Text

variable {D : Type} [Decimal D]

/-! ## Reading a checkpoint back -/

theorem OrderFields.wellFormed_toPayload (o : OrderFields D) : o.toPayload.WellFormed :=
  Json.wellFormed_ofMembers (by simp)

theorem wellFormed_arr_map {α : Type} {f : α → Json} (items : List α)
    (each : ∀ a, (f a).WellFormed) : (Json.arr (items.map f)).WellFormed :=
  (Json.wellFormedItems_iff _).mpr fun j hj => by
    obtain ⟨a, -, rfl⟩ := List.mem_map.mp hj
    exact each a

@[simp] theorem wellFormed_optionalText (t : Option Text) : (optionalText t).WellFormed := by
  cases t <;> trivial

theorem PaperState.wellFormed_toPayload (s : PaperState D) : s.toPayload.WellFormed := by
  have orders := wellFormed_arr_map s.orders fun o => o.wellFormed_toPayload
  have fingerprints := wellFormed_arr_map s.processedFillFingerprints (f := fingerprintPayload)
    fun f => Json.wellFormed_ofMembers (by simp)
  exact Json.wellFormed_ofMembers (by simp [orders, fingerprints, wellFormed_texts])

theorem Core.wellFormed_statePayload (c : Core D) : c.statePayload.WellFormed := by
  have statuses := wellFormed_arr_map c.terminalStatuses (f := statusPayload)
    fun s => Json.wellFormed_ofMembers (by simp)
  have limits : c.riskLimits.toPayload.WellFormed := Json.wellFormed_ofMembers (by simp)
  exact Json.wellFormed_ofMembers
    (by simp [statuses, limits, wellFormed_texts, PaperState.wellFormed_toPayload])

theorem Core.wellFormed_envelope (c : Core D) (sha : Text) : (envelope c.statePayload sha).WellFormed :=
  Json.wellFormed_ofMembers (by simp [c.wellFormed_statePayload])

theorem Core.keys_statePayload (c : Core D) : c.statePayload.keys = engineKeys := by
  simp only [statePayload, Json.keys_ofMembers, List.map_cons, List.map_nil]
  decide +kernel

section
variable (c : Core D)

theorem Core.field_state : field c.statePayload (txt "state") = c.state.toPayload := by
  simp [statePayload, field_ofMembers, Json.lookup]

theorem Core.field_seq : field c.statePayload (txt "journal_seq") = .ofNat c.journalSeq := by
  simp [statePayload, field_ofMembers, Json.lookup]

theorem Core.field_head : field c.statePayload (txt "journal_head") = .str c.journalHead := by
  simp [statePayload, field_ofMembers, Json.lookup]

theorem Core.field_limits : field c.statePayload (txt "risk_limits") = c.riskLimits.toPayload := by
  simp [statePayload, field_ofMembers, Json.lookup]

end

/-- Engines with one checkpoint text have one checkpoint payload. -/
theorem Core.statePayload_inj {c d : Core D}
    (same : canonicalJson c.statePayload = canonicalJson d.statePayload) :
    c.statePayload = d.statePayload :=
  Json.render_injective Json.reads_pyQuote c.wellFormed_statePayload d.wellFormed_statePayload same

/-- What `save_checkpoint` wrote, the checks of `recover` accept under the same hashes and limits. -/
theorem readCheckpoint_saveCheckpoint {c : Core D} {checkpoint : Bytes} {source config : Text}
    (saved : c.saveCheckpoint = .ok checkpoint)
    (sourceHash : lower (strip source) = c.state.sourceSha256)
    (configHash : lower (strip config) = c.state.configSha256) :
    readCheckpoint checkpoint (.str source) (.str config) c.riskLimits =
      .ok (c.statePayload, c.journalSeq, c.state, c.state.sourceSha256, c.state.configSha256) := by
  simp only [Core.saveCheckpoint, Py.bind_eq_ok] at saved
  obtain ⟨-, -, sha, hsha, coded⟩ := saved
  have coded : Utf8.encode (canonicalJson (envelope c.statePayload sha) ++ [10]) = some checkpoint := by
    unfold encodeUtf8 at coded
    split at coded
    · cases coded
      assumption
    · simp at coded
  have parsed : (Utf8.decode checkpoint).bind (Json.parse true) = some (envelope c.statePayload sha) := by
    rw [Utf8.decode_encode coded, Option.bind_some]
    exact Json.parse_render Json.reads_pyQuote (c.wellFormed_envelope sha) rfl
  have keys : (envelope c.statePayload sha).keys =
      [txt "engine_state", txt "schema_version", txt "state_sha256"] := by
    simp only [envelope, Json.keys_ofMembers, List.map_cons, List.map_nil]
    decide +kernel
  have version : field (envelope c.statePayload sha) (txt "schema_version") = .ofNat schemaVersion := by
    simp [envelope, field_ofMembers, Json.lookup]
  have payload : field (envelope c.statePayload sha) (txt "engine_state") = c.statePayload := by
    simp [envelope, field_ofMembers, Json.lookup]
  have checksum : field (envelope c.statePayload sha) (txt "state_sha256") = .str sha := by
    simp [envelope, field_ofMembers, Json.lookup]
  have named {t h : Text} (name : Text) (hash : lower (strip t) = h) (hex : Sha256.isHex64 h = true) :
      nonempty (.str t) name = .ok (strip t) := by
    rw [nonempty_str]
    refine ⟨fun blank => ?_, rfl⟩
    rw [blank] at hash
    subst hash
    exact absurd hex (by decide)
  simp only [readCheckpoint, parsed, orRaise_some, Py.ok_bind, keys, bne_self_eq_false, guardNot_false,
    version, payload, c.keys_statePayload, hsha, checksum, c.field_state,
    PaperState.fromPayload_toPayload, rewrap_ok, named (txt "expected_source_sha256") sourceHash c.state.valid.source,
    named (txt "expected_config_sha256") configHash c.state.valid.config, sourceHash, configHash,
    c.field_limits, c.field_seq, Json.asNat?_ofNat, Py.pure_eq_ok]

/-! ## Replaying past the checkpoint -/

theorem Core.checkPayload_self (c : Core D) (message : Text) :
    c.checkPayload c.statePayload message = .ok () := by
  simp [checkPayload]

/-- Beyond the checkpoint the loop only replays. -/
theorem Core.replayChecked_beyond {checkpoint : Json} {seq : Nat} (c : Core D) (idx : Nat)
    (rs : List Record) (beyond : seq ≤ idx) : replayChecked checkpoint seq c idx rs = c.replay rs := by
  induction rs generalizing c idx with
  | nil => rfl
  | cons r rs ih =>
      have notHere : (idx + 1 == seq) = false := by
        simp only [beq_eq_false_iff_ne]
        omega
      simp only [replayChecked, replay, notHere, onlyWhen_false, Py.ok_bind]
      exact congrArg _ (funext fun next => ih next (idx + 1) (by omega))

/-- The loop over a journal whose prefix leads to the checkpointed engine. -/
theorem Core.replayChecked_prefix {seq : Nat} (c mid : Core D) (idx : Nat) (xs ys : List Record)
    (nonempty : xs ≠ []) (reaches : c.replay xs = .ok mid) (position : idx + xs.length = seq) :
    replayChecked mid.statePayload seq c idx (xs ++ ys) = mid.replay ys := by
  induction xs generalizing c idx with
  | nil => exact absurd rfl nonempty
  | cons x xs ih =>
      simp only [replay, Py.bind_eq_ok] at reaches
      obtain ⟨next, first, rest⟩ := reaches
      rw [List.length_cons] at position
      simp only [List.cons_append, replayChecked, first, Py.ok_bind]
      cases xs with
      | nil =>
          cases rest
          have here : (idx + 1 == seq) = true := by
            simp only [List.length_nil] at position
            simpa using by omega
          simp only [here, onlyWhen_true, checkPayload_self, Py.ok_bind, List.nil_append]
          exact replayChecked_beyond mid (idx + 1) ys (by simp at position; omega)
      | cons y zs =>
          have notYet : (idx + 1 == seq) = false := by
            simp only [List.length_cons] at position
            simpa using by omega
          simp only [notYet, onlyWhen_false, Py.ok_bind]
          exact ih next (idx + 1) (by simp) rest (by omega)

/-- The anchor hash that `recover` expects is the head behind the checkpointed records. -/
theorem expectedHead_append (xs ys : List Record) :
    expectedHead (xs ++ ys) xs.length = (journalFormat.after genesisAnchor xs).head := by
  rcases List.eq_nil_or_concat xs with rfl | ⟨front, last, rfl⟩
  · rfl
  · have position : (front.concat last ++ ys)[(front.concat last).length - 1]? = some last := by
      simp
    simp only [expectedHead, position]
    simp [ChainFormat.advance, journalFormat]

/-! ## Runs -/

/-- A run of commands whose file operations all succeed. -/
def World.runCommands (w : World D) (commands : List (Command D)) : World D :=
  run (fun w command => (w.execute command .clean).2) w commands

/-- A command with working files leaves the engine alone or commits one record. -/
theorem World.Journaled.execute_clean {state : PaperState D} {limits : RiskLimits D} {w : World D}
    {rs : List Record} (journaled : w.Journaled (.fresh state limits) rs) (command : Command D) :
    ∃ more, World.Journaled (.fresh state limits) (w.execute command .clean).2 (rs ++ more) := by
  have effect := w.execute_effect command .clean
  generalize w.execute command .clean = result at effect
  cases effect with
  | kept => exact ⟨[], by simpa using journaled⟩
  | blocked _ _ _ why =>
      rcases why with faulty | stale
      · exact absurd faulty (by decide)
      · exact absurd journaled.size.symm stale
  | torn _ _ _ faulty => exact absurd faulty (by decide)
  | unacknowledged _ _ _ faulty => exact absurd faulty (by decide)
  | committed record candidate data planned coded current =>
      exact ⟨[record], journaled.commit (Core.plan_append planned).1 coded⟩

theorem World.Journaled.runCommands {state : PaperState D} {limits : RiskLimits D} {w : World D}
    {rs : List Record} (journaled : w.Journaled (.fresh state limits) rs)
    (commands : List (Command D)) :
    ∃ more, World.Journaled (.fresh state limits) (w.runCommands commands) (rs ++ more) := by
  have kept : ∀ (v : World D) command,
      (∃ more, World.Journaled (.fresh state limits) v (rs ++ more)) →
      ∃ more, World.Journaled (.fresh state limits) (v.execute command .clean).2
        (rs ++ more) := by
    rintro v command ⟨more, here⟩
    obtain ⟨next, there⟩ := here.execute_clean command
    exact ⟨more ++ next, by simpa using there⟩
  exact run_invariant_of_step kept ⟨[], by simpa using journaled⟩ commands

/-! ## The genesis state -/

/-- The genesis fields of a run determine its initial state. -/
theorem PaperState.initial_again {cash : PyArg} {source config : Text} {start : PaperState D}
    (initialised : initial cash source config = .ok start) :
    initial (objectArg start.startingCash) start.sourceSha256 start.configSha256 = .ok start := by
  obtain ⟨amount, fields⟩ := initial_eq_ok initialised
  have passes : ∀ (d : D) name bound, bound.admits d = true → dec (objectArg d) name bound = .ok d :=
    fun d name bound admitted => dec_objectArg.mpr ⟨rfl, admitted⟩
  have whole := start.construct_args passes
  rw [initial, passes _ _ _ start.valid.startingCash, Py.ok_bind, ← whole]
  congr 1
  rw [fields]
  rfl

/-! ## Recovery -/

/-- `recover` over the journal of a run, from a checkpoint of the run, comes down to the replay
    of the committed records with the checks against the checkpoint. -/
theorem recover_journaled {start : PaperState D} {limits : RiskLimits D} {cash : PyArg}
    {source config : Text} (initialised : PaperState.initial cash source config = .ok start)
    {saved live : World D} {earlier later : List Record} {checkpoint : Bytes}
    (before : saved.Journaled (.fresh start limits) earlier)
    (after : live.Journaled (.fresh start limits) (earlier ++ later))
    (saving : saved.engine.core.saveCheckpoint = .ok checkpoint) :
    recover checkpoint live.disk (.str source) (.str config) limits =
      Recovery.build ⟨saved.engine.core.statePayload, earlier.length, earlier ++ later, start, limits⟩
        live.disk.length := by
  obtain ⟨genesis, sameLimits⟩ := Core.replay_genesis before.replayed
  simp only [Core.fresh, PaperState.genesis, Prod.mk.injEq] at genesis sameLimits
  obtain ⟨sameSource, sameConfig, sameCash⟩ := genesis
  obtain ⟨amount, fields⟩ := PaperState.initial_eq_ok initialised
  have seq : saved.engine.core.journalSeq = earlier.length := by
    have := before.anchored.seq
    rw [before.chain.seq_after] at this
    simpa [genesisAnchor] using this
  have head : saved.engine.core.journalHead = expectedHead (earlier ++ later) earlier.length := by
    rw [expectedHead_append]
    exact before.anchored.head
  have read := @readCheckpoint_saveCheckpoint D _ _ _ source config saving
    (by rw [sameSource, fields]) (by rw [sameConfig, fields])
  rw [sameLimits] at read
  have records := (readJournal_journalBytes after.written).mpr ⟨rfl, after.chain⟩
  have within : decide ((earlier ++ later).length < saved.engine.core.journalSeq) = false := by
    simp [seq]
  have starting : PaperState.initial (objectArg saved.engine.core.state.startingCash)
      saved.engine.core.state.sourceSha256 saved.engine.core.state.configSha256 = .ok start := by
    rw [sameCash, sameSource, sameConfig]
    exact PaperState.initial_again initialised
  simp only [recover, recoverRead, read, Py.ok_bind, records, within, guardNot_false, Core.field_head,
    starting, Py.pure_eq_ok]
  rw [seq, head, bne_self_eq_false, guardNot_false]
  rfl

/-- The engine's checkpoint at sequence 0 is that of the fresh engine. -/
theorem World.Journaled.genesis {start : PaperState D} {limits : RiskLimits D} {w : World D}
    (journaled : w.Journaled (.fresh start limits) []) : w.engine.core = .fresh start limits :=
  (Except.ok.inj journaled.replayed).symm

/-- From a checkpoint with events behind it, recovery gives the live engine. -/
theorem recover_later {start : PaperState D} {limits : RiskLimits D} {saved live : World D}
    {earlier later : List Record} (before : saved.Journaled (.fresh start limits) earlier)
    (after : live.Journaled (.fresh start limits) (earlier ++ later)) (events : earlier ≠ []) :
    Recovery.build ⟨saved.engine.core.statePayload, earlier.length, earlier ++ later, start, limits⟩
      live.disk.length = .ok live.engine := by
  obtain ⟨mid, first, rest⟩ := Core.replay_append.mp after.replayed
  obtain rfl : mid = saved.engine.core := Except.ok.inj (first.symm.trans before.replayed)
  have later_ : (earlier.length == 0) = false := by simpa using events
  have loop := Core.replayChecked_prefix _ _ 0 earlier later events first (Nat.zero_add _)
  simp only [Recovery.build, later_, onlyWhen_false, Py.ok_bind, loop, rest, ← after.size,
    Py.pure_eq_ok]

/-- From a genesis checkpoint, recovery gives the live engine exactly when there are no events. -/
theorem recover_genesis {start : PaperState D} {limits : RiskLimits D} {live : World D}
    {later : List Record} (after : live.Journaled (.fresh start limits) later) (engine : Engine D) :
    Recovery.build ⟨(Core.fresh start limits).statePayload, 0, later, start, limits⟩
      live.disk.length = .ok engine ↔ engine = live.engine ∧ later = [] := by
  have zero : ((0 : Nat) == 0) = true := rfl
  simp only [Recovery.build, zero, onlyWhen_true, Core.checkPayload_self, Py.ok_bind,
    Core.replayChecked_beyond _ 0 later (Nat.le_refl 0), after.replayed, Py.bind_eq_ok,
    Py.pure_eq_ok, Except.ok.injEq, ← after.size]
  constructor
  · rintro ⟨_, check, rfl⟩
    refine ⟨rfl, ?_⟩
    simp only [Core.checkPayload, guardNot_eq_ok, bne_eq_false_iff_eq] at check
    have payloads := Core.statePayload_inj check
    have seqs := congrArg (fun p => (field p (txt "journal_seq")).asNat?) payloads
    simp only [Core.field_seq, Json.asNat?_ofNat, Option.some.injEq] at seqs
    have position := after.anchored.seq
    rw [after.chain.seq_after, seqs] at position
    exact List.length_eq_zero_iff.mp (by simpa [genesisAnchor, Core.fresh] using position.symm)
  · rintro ⟨rfl, rfl⟩
    exact ⟨(), by rw [after.genesis, Core.checkPayload_self], rfl⟩

/-- Recovery of a run from one of its checkpoints, by the records of the run. -/
theorem recover_run {start : PaperState D} {limits : RiskLimits D} {cash : PyArg}
    {source config : Text} (initialised : PaperState.initial cash source config = .ok start)
    {saved live : World D} {earlier later : List Record} {checkpoint : Bytes}
    (before : saved.Journaled (.fresh start limits) earlier)
    (after : live.Journaled (.fresh start limits) (earlier ++ later))
    (saving : saved.engine.core.saveCheckpoint = .ok checkpoint) (engine : Engine D) :
    recover checkpoint live.disk (.str source) (.str config) limits = .ok engine ↔
      engine = live.engine ∧ (earlier ≠ [] ∨ later = []) := by
  rw [recover_journaled initialised before after saving]
  rcases List.eq_nil_or_concat earlier with rfl | ⟨front, last, rfl⟩
  · rw [before.genesis]
    simpa using recover_genesis after engine
  · have events : front.concat last ≠ [] := by simp
    rw [recover_later before after events, Except.ok.injEq]
    exact ⟨fun same => ⟨same.symm, Or.inl events⟩, fun same => same.1.symm⟩

/-- For every run and every checkpoint of it, recovery over the final journal succeeds with the
    live engine exactly when the checkpoint has an event behind it or the journal is empty. -/
theorem recover_live_iff {start : PaperState D} {limits : RiskLimits D} {cash : PyArg}
    {source config : Text} (initialised : PaperState.initial cash source config = .ok start)
    (before later : List (Command D)) {checkpoint : Bytes}
    (saving : ((World.fresh start limits).runCommands before).engine.core.saveCheckpoint =
      .ok checkpoint) :
    (∃ recovered, recover checkpoint ((World.fresh start limits).runCommands (before ++ later)).disk
        (.str source) (.str config) limits = .ok recovered ∧
      recovered.core = ((World.fresh start limits).runCommands (before ++ later)).engine.core) ↔
    ((World.fresh start limits).runCommands before).engine.core.journalSeq ≠ 0 ∨
      ((World.fresh start limits).runCommands (before ++ later)).disk = [] := by
  obtain ⟨earlier, saved⟩ := (World.journaled_fresh start limits).runCommands before
  obtain ⟨more, live⟩ := saved.runCommands later
  have whole : ((World.fresh start limits).runCommands before).runCommands later =
      (World.fresh start limits).runCommands (before ++ later) := (run_append _ _ _).symm
  rw [whole] at live
  simp only [List.nil_append] at saved live
  have seq : ((World.fresh start limits).runCommands before).engine.core.journalSeq =
      earlier.length := by
    have := saved.anchored.seq
    rw [saved.chain.seq_after] at this
    simpa [genesisAnchor] using this
  have outcome := recover_run initialised saved live saving
  rw [seq, journalBytes_eq_nil live.written]
  constructor
  · rintro ⟨recovered, done, -⟩
    rcases ((outcome recovered).mp done).2 with events | none_later
    · exact Or.inl (by simpa using events)
    · by_cases events : earlier = []
      · exact Or.inr (by simp [events, none_later])
      · exact Or.inl (by simpa using events)
  · intro condition
    refine ⟨_, (outcome _).mpr ⟨rfl, ?_⟩, rfl⟩
    rcases condition with events | none
    · exact Or.inl (by simpa using events)
    · exact Or.inr (List.append_eq_nil_iff.mp none).2

/-- The sample run from a checkpoint behind its first event. -/
theorem recover_live_iff_sample :
    ∃ checkpoint,
      ((World.fresh sampleState sampleLimits).runCommands [sampleRegister]).engine.core.saveCheckpoint =
        .ok checkpoint ∧
      ((∃ recovered, recover checkpoint ((World.fresh sampleState sampleLimits).runCommands
            ([sampleRegister] ++ [sampleCancel])).disk
          (.str sampleSha) (.str sampleSha) sampleLimits = .ok recovered ∧
        recovered.core = ((World.fresh sampleState sampleLimits).runCommands
          ([sampleRegister] ++ [sampleCancel])).engine.core) ↔
      ((World.fresh sampleState sampleLimits).runCommands [sampleRegister]).engine.core.journalSeq ≠ 0 ∨
        ((World.fresh sampleState sampleLimits).runCommands
          ([sampleRegister] ++ [sampleCancel])).disk = []) := by
  have saves : ((World.fresh sampleState sampleLimits).runCommands
      [sampleRegister]).engine.core.saveCheckpoint.toOption.isSome = true := by
    decide +kernel
  have saving := Py.eq_ok_value saves
  have recovers := @recover_live_iff ℚ _ sampleState sampleLimits _ sampleSha sampleSha
    sampleState_initial [sampleRegister] [sampleCancel] _ saving
  exact ⟨_, saving, recovers⟩

/-- The checkpoint of a fresh engine cannot be recovered from once an order is registered. -/
theorem recover_fresh_checkpoint_fails :
    ∃ checkpoint, (World.fresh sampleState sampleLimits).engine.core.saveCheckpoint = .ok checkpoint ∧
      ¬ ∃ recovered, recover checkpoint
        ((World.fresh sampleState sampleLimits).runCommands [sampleRegister]).disk
        (.str sampleSha) (.str sampleSha) sampleLimits = .ok recovered := by
  have saves : (World.fresh sampleState sampleLimits).engine.core.saveCheckpoint.toOption.isSome =
      true := by
    decide +kernel
  have grows : ((World.fresh sampleState sampleLimits).runCommands [sampleRegister]).disk.length ≠ 0 := by
    decide +kernel
  have saving := Py.eq_ok_value saves
  have saved := World.journaled_fresh sampleState sampleLimits
  obtain ⟨more, live⟩ := saved.runCommands [sampleRegister]
  refine ⟨_, saving, ?_⟩
  rintro ⟨recovered, done⟩
  have outcome := @recover_run ℚ _ sampleState sampleLimits _ sampleSha sampleSha sampleState_initial
    _ _ [] more _ saved live saving recovered
  rcases (outcome.mp done).2 with events | none
  · exact events rfl
  · exact grows (List.length_eq_zero_iff.mpr ((journalBytes_eq_nil live.written).mpr none))

end Senex.Paper
