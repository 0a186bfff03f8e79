import Mathlib.Data.List.Destutter
import Senex.Authority.Snapshot

/-! # Generations follow the content

`step_cases` says what a step may do to the snapshots and their generations.  `generations_exact` is
what holds of every run: the generation of a symbol counts the changes of the hash among the captures
that succeeded, and a failed refresh changes nothing that is served.
-/

namespace Senex

theorem length_destutter'_concat {α : Type} [DecidableEq α] (b : α) (items : List α) (a : α) :
    ((items ++ [a]).destutter' (· ≠ ·) b).length =
      (items.destutter' (· ≠ ·) b).length + if (b :: items).getLast? = some a then 0 else 1 := by
  induction items generalizing b with
  | nil =>
      by_cases same : b = a
      · simp [same]
      · simp [same]
  | cons c items ih =>
      rw [List.cons_append, List.destutter'_cons, List.destutter'_cons, List.getLast?_cons_cons]
      split
      · rw [List.length_cons, List.length_cons, ih c]
        omega
      · rename_i same
        obtain rfl : b = c := not_not.mp same
        exact ih b

/-- One more item counts as a change just if it differs from the last one. -/
theorem length_destutter_concat {α : Type} [DecidableEq α] (items : List α) (a : α) :
    ((items ++ [a]).destutter (· ≠ ·)).length =
      (items.destutter (· ≠ ·)).length + if items.getLast? = some a then 0 else 1 := by
  cases items with
  | nil => simp
  | cons b items => exact length_destutter'_concat b items a

namespace Authority

open Text

namespace AuthoritySnapshotStore

/-! ## What is served -/

variable (store : AuthoritySnapshotStore)

/-- The canonical hash of the served snapshot. -/
def hashOf (symbol : Text) : Option Text := (store.cache.get? symbol).map AuthoritySnapshot.canonicalSha256

def generationOf (symbol : Text) : Nat := (store.generation.get? symbol).getD 0

/-- What a holder of a lock has found is still served, and a snapshot has the generation that is counted. -/
structure Steady : Prop where
  held : ∀ symbol cached, store.locked.get? symbol = some cached → cached = store.cache.get? symbol
  numbered : ∀ symbol, store.generationOf symbol = (store.cache.get? symbol).elim 0 AuthoritySnapshot.generation

/-- The same snapshots and generations. -/
def Same (other : AuthoritySnapshotStore) : Prop := other.cache = store.cache ∧ other.generation = store.generation

variable {store}

theorem Same.hashOf {other : AuthoritySnapshotStore} (same : store.Same other) (symbol : Text) :
    other.hashOf symbol = store.hashOf symbol := by
  rw [AuthoritySnapshotStore.hashOf, same.1, AuthoritySnapshotStore.hashOf]

theorem Same.generationOf {other : AuthoritySnapshotStore} (same : store.Same other) (symbol : Text) :
    other.generationOf symbol = store.generationOf symbol := by
  rw [AuthoritySnapshotStore.generationOf, same.2, AuthoritySnapshotStore.generationOf]

theorem steady_start (ttlS : Double) : (start ttlS).Steady where
  held _ _ found := by cases found
  numbered _ := rfl

/-! ## Steps -/

/-- The canonical hashes that a step captures for a symbol. -/
def captures (calls : Calls) (symbol : Text) (store : AuthoritySnapshotStore) : Label → List Text
  | .finish raw input _ =>
      if normalizeSymbol calls raw = symbol ∧ (store.locked.get? symbol).isSome then
        match captureComplete calls symbol input with
        | .ok captured => [captured.canonicalSha256]
        | .error _ => []
      else []
  | _ => []

/-- A refresh that does not come to its end. -/
def Label.Fails (calls : Calls) : Label → Prop
  | .enter .. => False
  | .finish raw input _ => ∃ error, captureComplete calls (normalizeSymbol calls raw) input = .error error
  | .cancel _ => True

theorem enter_same (symbol : Text) (force : Bool) (clock : Clock) : store.Same (store.enter symbol force clock) := by
  unfold enter
  split
  · exact ⟨rfl, rfl⟩
  · split
    · exact ⟨rfl, rfl⟩
    · exact ⟨rfl, rfl⟩

/-- What follows a capture: what was served, or the next generation of the symbol. -/
theorem conclude_cases (symbol : Text) (cached : Option AuthoritySnapshot)
    (outcome : Except Exc CapturedAuthority) (clock : Clock) :
    (store.Same (store.conclude symbol cached outcome clock).1 ∧
      ∀ captured, outcome = .ok captured →
        cached.map AuthoritySnapshot.canonicalSha256 = some captured.canonicalSha256) ∨
    ∃ captured, outcome = .ok captured ∧
      cached.map AuthoritySnapshot.canonicalSha256 ≠ some captured.canonicalSha256 ∧
      (store.conclude symbol cached outcome clock).1.cache = store.cache.set symbol (store.publish symbol captured) ∧
      (store.conclude symbol cached outcome clock).1.generation =
        store.generation.set symbol (store.generationOf symbol + 1) := by
  cases outcome with
  | error exc => exact .inl ⟨⟨rfl, rfl⟩, fun captured same => by cases same⟩
  | ok captured =>
      cases cached with
      | none => exact .inr ⟨captured, rfl, by simp, rfl, rfl⟩
      | some snapshot =>
          by_cases same : snapshot.canonicalSha256 = captured.canonicalSha256
          · left
            have shape : (store.conclude symbol (some snapshot) (.ok captured) clock).1 =
                { store with recent := store.recent.set symbol captured.recentPredictions }.markSuccess symbol
                  clock := by
              simp only [conclude, if_pos same]
            rw [shape]
            refine ⟨⟨rfl, rfl⟩, fun other found => ?_⟩
            cases found
            exact congrArg some same
          · right
            have shape : (store.conclude symbol (some snapshot) (.ok captured) clock).1 =
                ({ store with recent := store.recent.set symbol captured.recentPredictions }.replace symbol captured
                  clock).1 := by
              simp only [conclude, if_neg same]
            rw [shape]
            exact ⟨captured, rfl, by simpa using same, rfl, rfl⟩

theorem conclude_locked (symbol : Text) (cached : Option AuthoritySnapshot)
    (outcome : Except Exc CapturedAuthority) (clock : Clock) :
    (store.conclude symbol cached outcome clock).1.locked = store.locked := by
  cases outcome with
  | error exc => rfl
  | ok captured =>
      cases cached with
      | none => rfl
      | some snapshot =>
          simp only [conclude]
          split
          · rfl
          · rfl

/-- Whoever holds a lock has held it, or has just found what is served. -/
theorem locked_step (calls : Calls) (label : Label) {symbol : Text} {cached : Option AuthoritySnapshot}
    (held : (step calls store label).locked.get? symbol = some cached) :
    store.locked.get? symbol = some cached ∨ cached = store.cache.get? symbol := by
  have released (target : Text) (found : (store.locked.erase target).get? symbol = some cached) :
      store.locked.get? symbol = some cached := by
    by_cases same : symbol = target
    · rw [same, Dict.get?_erase_self] at found
      cases found
    · rwa [Dict.get?_erase_of_ne same] at found
  cases label with
  | cancel raw => exact .inl (released _ held)
  | finish raw input clock =>
      left
      simp only [step, finish] at held
      split at held
      · exact held
      · simp only [release, conclude_locked] at held
        exact released _ held
  | enter raw force clock =>
      simp only [step, enter] at held
      split_ifs at held
      · exact .inl held
      · exact .inl held
      · exact .inl held
      · by_cases same : symbol = normalizeSymbol calls raw
        · subst same
          simp only [Dict.get?_set_self, Option.some.injEq] at held
          exact .inr held.symm
        · simp only [Dict.get?_set_of_ne same] at held
          exact .inl held

/-- A step serves what was served and captures nothing new, or serves a new generation of one symbol. -/
theorem step_cases (calls : Calls) (steady : store.Steady) (label : Label) :
    (store.Same (step calls store label) ∧
      ∀ symbol, ∀ hash ∈ captures calls symbol store label, store.hashOf symbol = some hash) ∨
    ∃ target captured, ¬ label.Fails calls ∧
      (∀ symbol, captures calls symbol store label = if symbol = target then [captured.canonicalSha256] else []) ∧
      store.hashOf target ≠ some captured.canonicalSha256 ∧
      (step calls store label).cache = store.cache.set target (store.publish target captured) ∧
      (step calls store label).generation = store.generation.set target (store.generationOf target + 1) ∧
      (step calls store label).locked.get? target = none := by
  cases label with
  | enter symbol force clock =>
      left
      simp only [step, captures, List.not_mem_nil, false_implies, implies_true, and_true]
      split
      · exact ⟨rfl, rfl⟩
      · exact enter_same ..
  | cancel symbol =>
      left
      simp only [captures, List.not_mem_nil, false_implies, implies_true, and_true]
      exact ⟨rfl, rfl⟩
  | finish raw input clock =>
      cases found : store.locked.get? (normalizeSymbol calls raw) with
      | none =>
          left
          have stays : step calls store (.finish raw input clock) = store := by
            simp only [step, finish, found]
          rw [stays]
          refine ⟨⟨rfl, rfl⟩, fun symbol hash member => ?_⟩
          simp only [captures] at member
          split at member
          · rename_i holds
            rw [← holds.1, found] at holds
            cases holds.2
          · cases member
      | some cached =>
          obtain rfl := steady.held _ _ found
          generalize target_eq : normalizeSymbol calls raw = target at *
          have shape : step calls store (.finish raw input clock) =
              (store.conclude target (store.cache.get? target) (captureComplete calls target input) clock).1.release
                target := by
            simp only [step, finish, target_eq, found]
          have captured_iff (symbol : Text) : captures calls symbol store (.finish raw input clock) =
              if symbol = target then
                (match captureComplete calls target input with
                  | .ok captured => [captured.canonicalSha256]
                  | .error _ => [])
              else [] := by
            simp only [captures, target_eq]
            by_cases same : symbol = target
            · subst same
              simp only [found, Option.isSome_some, and_self, if_true]
            · simp only [same, Ne.symm same, false_and, if_false]
          rw [shape]
          rcases @conclude_cases store target (store.cache.get? target) (captureComplete calls target input) clock with
            ⟨same, alike⟩ | ⟨captured, ok, other, cache, generation⟩
          · left
            refine ⟨same, fun symbol hash member => ?_⟩
            rw [captured_iff] at member
            split at member
            · rename_i here
              subst here
              split at member
              · rename_i captured ok
                obtain rfl := List.mem_singleton.mp member
                exact alike captured ok
              · cases member
            · cases member
          · right
            refine ⟨target, captured, ?_, ?_, other, cache, generation, Dict.get?_erase_self⟩
            · rintro ⟨error, failed⟩
              rw [target_eq, ok] at failed
              cases failed
            · intro symbol
              rw [captured_iff, ok]

theorem Steady.step (calls : Calls) (steady : store.Steady) (label : Label) : (step calls store label).Steady := by
  rcases step_cases calls steady label with
    ⟨same, -⟩ | ⟨target, captured, -, -, -, cache, generation, free⟩
  · constructor
    · intro symbol cached found
      rw [same.1]
      rcases locked_step calls label found with before | now
      · exact steady.held symbol cached before
      · exact now
    · intro symbol
      rw [same.generationOf, same.1]
      exact steady.numbered symbol
  · constructor
    · intro symbol cached found
      by_cases here : symbol = target
      · subst here
        rw [free] at found
        cases found
      · rw [cache, Dict.get?_set_of_ne here]
        rcases locked_step calls label found with before | now
        · exact steady.held symbol cached before
        · exact now
    · intro symbol
      rw [generationOf, generation, cache]
      by_cases here : symbol = target
      · subst here
        rw [Dict.get?_set_self, Dict.get?_set_self]
        rfl
      · rw [Dict.get?_set_of_ne here, Dict.get?_set_of_ne here]
        exact steady.numbered symbol

/-! ## Runs -/

/-- The canonical hashes that a run captures for a symbol, in order. -/
def history (calls : Calls) (ttlS : Double) (symbol : Text) (labels : List Label) : List Text :=
  emitted (step calls) (captures calls symbol) (start ttlS) labels

/-- The hash of the last capture is served, and its generation counts the changes. -/
structure Follows (store : AuthoritySnapshotStore) (symbol : Text) (hashes : List Text) : Prop where
  served : store.hashOf symbol = hashes.getLast?
  counted : store.generationOf symbol = (hashes.destutter (· ≠ ·)).length
  numbered : ∀ snapshot ∈ store.cache.get? symbol, snapshot.generation = store.generationOf symbol

/-- What a step does to a symbol. -/
structure Advances (calls : Calls) (store : AuthoritySnapshotStore) (label : Label) (symbol : Text) : Prop where
  mono : store.generationOf symbol ≤ (step calls store label).generationOf symbol
  increases : store.generationOf symbol < (step calls store label).generationOf symbol ↔
    (step calls store label).hashOf symbol ≠ store.hashOf symbol
  failed : label.Fails calls → store.Same (step calls store label)

theorem Steady.advances (calls : Calls) (steady : store.Steady) (label : Label) (symbol : Text) :
    store.Advances calls label symbol := by
  rcases step_cases calls steady label with
    ⟨same, -⟩ | ⟨target, captured, succeeds, -, other, cache, generation, -⟩
  · refine ⟨(same.generationOf symbol).ge, ?_, fun _ => same⟩
    rw [same.generationOf, same.hashOf]
    simp
  · by_cases here : symbol = target
    · subst here
      have count : (AuthoritySnapshotStore.step calls store label).generationOf symbol =
          store.generationOf symbol + 1 := by
        rw [generationOf, generation, Dict.get?_set_self]
        rfl
      have hash : (AuthoritySnapshotStore.step calls store label).hashOf symbol =
          some captured.canonicalSha256 := by
        rw [hashOf, cache, Dict.get?_set_self]
        rfl
      refine ⟨by omega, ?_, fun fails => absurd fails succeeds⟩
      rw [count, hash]
      exact iff_of_true (Nat.lt_succ_self _) (Ne.symm other)
    · have count : (AuthoritySnapshotStore.step calls store label).generationOf symbol =
          store.generationOf symbol := by
        rw [generationOf, generation, Dict.get?_set_of_ne here]
        rfl
      have hash : (AuthoritySnapshotStore.step calls store label).hashOf symbol = store.hashOf symbol := by
        rw [hashOf, cache, Dict.get?_set_of_ne here]
        rfl
      refine ⟨count.ge, ?_, fun fails => absurd fails succeeds⟩
      rw [count, hash]
      simp

theorem captures_cases (calls : Calls) (symbol : Text) (store : AuthoritySnapshotStore) (label : Label) :
    captures calls symbol store label = [] ∨ ∃ hash, captures calls symbol store label = [hash] := by
  cases label with
  | enter => exact .inl rfl
  | cancel => exact .inl rfl
  | finish raw input clock =>
      simp only [captures]
      split
      · split
        · exact .inr ⟨_, rfl⟩
        · exact .inl rfl
      · exact .inl rfl

theorem Steady.generation_eq (steady : store.Steady) {symbol : Text} {snapshot : AuthoritySnapshot}
    (served : store.cache.get? symbol = some snapshot) : snapshot.generation = store.generationOf symbol := by
  rw [steady.numbered, served]
  rfl

theorem Steady.follows (calls : Calls) (steady : store.Steady) (label : Label) {symbol : Text} {hashes : List Text}
    (follows : store.Follows symbol hashes) :
    (AuthoritySnapshotStore.step calls store label).Follows symbol (hashes ++ captures calls symbol store label) := by
  have numbered (snapshot : AuthoritySnapshot) :
      (AuthoritySnapshotStore.step calls store label).cache.get? symbol = some snapshot →
        snapshot.generation = (AuthoritySnapshotStore.step calls store label).generationOf symbol :=
    (steady.step calls label).generation_eq
  rcases step_cases calls steady label with
    ⟨same, alike⟩ | ⟨target, captured, -, captures_eq, other, cache, generation, -⟩
  · rcases captures_cases calls symbol store label with nothing | ⟨hash, one⟩
    · rw [nothing, List.append_nil]
      exact ⟨(same.hashOf symbol).trans follows.served, (same.generationOf symbol).trans follows.counted,
        numbered⟩
    · have last := alike symbol hash (by simp [one])
      rw [one]
      refine ⟨?_, ?_, numbered⟩
      · rw [same.hashOf, last, List.getLast?_concat]
      · rw [same.generationOf, follows.counted, length_destutter_concat, ← follows.served, if_pos last,
          Nat.add_zero]
  · rw [captures_eq symbol]
    by_cases here : symbol = target
    · subst here
      rw [if_pos rfl]
      refine ⟨?_, ?_, numbered⟩
      · rw [hashOf, cache, Dict.get?_set_self, List.getLast?_concat]
        rfl
      · rw [generationOf, generation, Dict.get?_set_self, Option.getD_some, follows.counted, length_destutter_concat,
          ← follows.served, if_neg other]
    · rw [if_neg here, List.append_nil]
      refine ⟨?_, ?_, numbered⟩
      · rw [hashOf, cache, Dict.get?_set_of_ne here]
        exact follows.served
      · rw [generationOf, generation, Dict.get?_set_of_ne here]
        exact follows.counted

theorem steady_run (calls : Calls) (ttlS : Double) (labels : List Label) :
    (run (AuthoritySnapshotStore.step calls) (start ttlS) labels).Steady :=
  run_invariant_of_step (fun _ label steady => steady.step calls label) (steady_start ttlS) labels

theorem follows_run (calls : Calls) (ttlS : Double) (labels : List Label) (symbol : Text) :
    (run (AuthoritySnapshotStore.step calls) (start ttlS) labels).Follows symbol
      (history calls ttlS symbol labels) := by
  induction labels using List.reverseRecOn with
  | nil => exact ⟨rfl, rfl, fun snapshot served => by cases served⟩
  | append_singleton labels label ih =>
      rw [run_concat, history, emitted_concat]
      exact (steady_run calls ttlS labels).follows calls label ih

/-- A refresh that fails gives its caller the snapshot that is served, where there is one. -/
theorem Steady.answer (calls : Calls) (steady : store.Steady) {raw : Text} {input : CaptureInput} {clock : Clock}
    (fails : (Label.finish raw input clock).Fails calls) {answer : Except Exc AuthoritySnapshot}
    (answered : (store.finish calls (normalizeSymbol calls raw) input clock).2 = some answer)
    {snapshot : AuthoritySnapshot} (served : store.cache.get? (normalizeSymbol calls raw) = some snapshot) :
    answer = .ok snapshot := by
  obtain ⟨error, failed⟩ := fails
  simp only [finish] at answered
  split at answered
  · cases answered
  · rename_i cached found
    obtain rfl := steady.held _ _ found
    rw [failed, served] at answered
    exact (Option.some.inj answered).symm

/-- In every run of calls, whatever fails or is cancelled: the generation of a symbol counts the changes of the
    hash among its captures, rises just with a change of the hash that is served, and stays with all that is
    served when a refresh fails; who has asked for it gets what is served. -/
theorem generations_exact (calls : Calls) (ttlS : Double) (labels : List Label) (symbol : Text) :
    (run (AuthoritySnapshotStore.step calls) (start ttlS) labels).Follows symbol (history calls ttlS symbol labels) ∧
      (∀ label, (run (AuthoritySnapshotStore.step calls) (start ttlS) labels).Advances calls label symbol) ∧
      ∀ raw input clock, (Label.finish raw input clock).Fails calls →
        ∀ answer ∈ ((run (AuthoritySnapshotStore.step calls) (start ttlS) labels).finish calls
          (normalizeSymbol calls raw) input clock).2,
        ∀ snapshot ∈ (run (AuthoritySnapshotStore.step calls) (start ttlS) labels).cache.get?
          (normalizeSymbol calls raw), answer = .ok snapshot := by
  have steady := steady_run calls ttlS labels
  refine ⟨follows_run calls ttlS labels symbol, fun label => steady.advances calls label symbol, ?_⟩
  intro raw input clock fails answer answered snapshot served
  exact steady.answer calls fails answered served

end AuthoritySnapshotStore

/-! ## What the hash leaves out -/

theorem captureAnswers_clock (calls : Calls) (symbol : Text) (input : CaptureInput) (clock : Clock)
    (historyResult countResult : PyValue) :
    captureAnswers calls symbol { input with clock := clock } historyResult countResult =
      (captureAnswers calls symbol input historyResult countResult).map fun captured =>
        { captured with capturedAt := clock.utcnow, capturedMonotonic := clock.monotonic } := by
  unfold captureAnswers
  split
  · rename_i items exactTotal
    simp only [bind, Except.bind]
    cases canonicalRows calls items with
    | error e => rfl
    | ok rows =>
        simp only
        cases calls.buildAuthoritativeScore rows symbol with
        | error e => rfl
        | ok members =>
            simp only
            split
            · rfl
            · split
              · rfl
              · split
                · rfl
                · rfl
  · rfl
  · rfl

/-- The time of a capture goes into the snapshot, but not into its hash. -/
theorem captureComplete_clock (calls : Calls) (symbol : Text) (input : CaptureInput) (clock : Clock) :
    captureComplete calls symbol { input with clock := clock } =
      (captureComplete calls symbol input).map fun captured =>
        { captured with capturedAt := clock.utcnow, capturedMonotonic := clock.monotonic } := by
  obtain ⟨now, history, count, provenance, builder⟩ := input
  cases history with
  | error e => cases count <;> rfl
  | ok historyResult =>
      cases count with
      | error e => rfl
      | ok countResult => exact captureAnswers_clock calls symbol ⟨now, _, _, provenance, builder⟩ clock _ _

end Authority

end Senex
