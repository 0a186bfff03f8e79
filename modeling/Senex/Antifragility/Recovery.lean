import Senex.Antifragility.CircuitBreaker
import Senex.Foundation.Nearest
import Mathlib

/-! # Recovery of the circuit breaker

A trial call is counted when it is allowed and is not given back when it is recorded, so a half-open
breaker lets `half_open_max_calls` calls through in all.  Where it needs more successes than that to
close, it rejects every request from then on.
-/

namespace Senex.Antifragility

open CircuitState

namespace Traffic

variable (config : BreakerConfig)

/-- What calls can lead to from a new breaker. -/
def Reachable (w : Traffic) : Prop :=
  ∃ start steps, Allowed (step config) Pending (initial start) steps ∧ w = run (step config) (initial start) steps

/-- Every request from here on is rejected, whatever comes. -/
def Stuck (w : Traffic) : Prop :=
  ∀ rest, Allowed (step config) Pending w rest → (run (step config) w rest).admits config = false

/-- The timeout of the open breaker has passed. -/
def TimedOut (w : Traffic) : Prop :=
  w.breaker.state = opened ∧ ∃ t, w.breaker.openedAt = some t ∧ CircuitBreaker.elapsed config w.now t = true

/-- The calls from number `first` on succeed. -/
def Succeeds (first : Nat) : BreakerStep → Prop
  | .record call success => first ≤ call → success = true
  | .allowRequest | .advance _ => True

/-- No earlier call is recorded as a failure in the half-open phase. -/
def Timely (first : Nat) (w : Traffic) : BreakerStep → Prop
  | .record call success => w.breaker.state = halfOpen → call < first → success = true
  | .allowRequest | .advance _ => True

/-- A step behind the timeout, from the state `first` is the next call of. -/
def Trial (first : Nat) (w : Traffic) (a : BreakerStep) : Prop :=
  w.Pending a ∧ Succeeds first a ∧ w.Timely first a

/-- How many of the calls from number `first` on a run records. -/
def recorded (first : Nat) (steps : List BreakerStep) : Nat :=
  steps.countP fun
    | .record call _ => decide (first ≤ call)
    | _ => false

/-- The breaker is closed at some point of the run. -/
def Closes (w : Traffic) (steps : List BreakerStep) : Prop :=
  ∃ first rest, steps = first ++ rest ∧ (run (step config) w first).breaker.state = closed

/-- What the breaker is for. -/
structure Correct : Prop where
  /-- The closed breaker trips at the failure that is `failure_threshold`-th in a row, and only then. -/
  trips : ∀ w a, Reachable config w → w.Pending a → w.breaker.state = closed →
    ((step config w a).breaker.state ≠ closed ↔
      (∃ call, a = .record call false) ∧ (w.streak : Int) + 1 = config.failureThreshold)
  /-- Behind a trip no request is allowed before the timeout. -/
  holds : ∀ w a rest, Reachable config w → w.Pending a → w.breaker.state ≠ opened →
    (step config w a).breaker.state = opened → Allowed (step config) Pending (step config w a) rest →
      CircuitBreaker.elapsed config (run (step config) (step config w a) rest).now w.now = false →
        (run (step config) (step config w a) rest).admits config = false
  /-- Behind the timeout the breaker closes with `success_threshold` calls, -/
  closes : ∀ w rest, Reachable config w → w.TimedOut config →
    Allowed (step config) (Trial w.nextCall) w rest →
      config.successThreshold ≤ recorded w.nextCall rest → Closes config w rest
  /-- until then lets a call through whenever none is pending, -/
  admits : ∀ w rest, Reachable config w → w.TimedOut config →
    Allowed (step config) (Trial w.nextCall) w rest → Closes config w rest ∨
      ((run (step config) w rest).pending = [] → (run (step config) w rest).admits config = true)
  /-- and is never stuck. -/
  recovers : ∀ w rest, Reachable config w → w.TimedOut config →
    Allowed (step config) (Trial w.nextCall) w rest → ¬ (run (step config) w rest).Stuck config

/-- No time is enough for the timeout, as for an infinite one. -/
def NeverElapses : Prop := ∀ now openedTs, CircuitBreaker.elapsed config now openedTs = false

variable {config}

/-! ## What a request does -/

theorem totalSeconds_mono {a b : Int} (le : a ≤ b) :
    (CircuitBreaker.totalSeconds a).value ≤ (CircuitBreaker.totalSeconds b).value := by
  apply Double.value_round_mono
  have capped : min a 86399999999999999999 ≤ min b 86399999999999999999 := min_le_min_right _ le
  have cast : ((min a 86399999999999999999 : Int) : ℚ) ≤ (min b 86399999999999999999 : Int) := by exact_mod_cast capped
  linarith

/-- What has elapsed, has elapsed later. -/
theorem elapsed_mono {now openedTs later tripped : Int}
    (passed : CircuitBreaker.elapsed config now openedTs = true) (le : now - openedTs ≤ later - tripped) :
    CircuitBreaker.elapsed config later tripped = true := by
  have value := totalSeconds_mono le
  simp only [CircuitBreaker.elapsed, Double.le, Bool.and_eq_true, Bool.not_eq_true',
    decide_eq_true_eq] at passed ⊢
  exact ⟨⟨passed.1.1, Double.isNan_round _⟩, passed.2.trans value⟩

section
variable {w : Traffic}

/-- A closed breaker lets the request through. -/
theorem allow_closed (state : w.breaker.state = closed) :
    w.breaker.allowRequest config w.now = (true, w.breaker) := by
  simp [CircuitBreaker.allowRequest, CircuitBreaker.maybeTransitionToHalfOpen, state]

theorem allow_early {t : Int} (state : w.breaker.state = opened) (openedAt : w.breaker.openedAt = some t)
    (early : CircuitBreaker.elapsed config w.now t = false) : w.breaker.allowRequest config w.now =
      (false, { w.breaker with totalRejections := w.breaker.totalRejections + 1 }) := by
  simp [CircuitBreaker.allowRequest, CircuitBreaker.maybeTransitionToHalfOpen, state, openedAt, early]

/-- The first request behind the timeout makes the breaker half-open. -/
theorem allow_late (late : w.TimedOut config) :
    w.admits config = decide (0 < config.halfOpenMaxCalls) ∧
    (w.breaker.allowRequest config w.now).2.state = halfOpen ∧
    (w.breaker.allowRequest config w.now).2.consecutiveSuccesses = 0 ∧
    (w.breaker.allowRequest config w.now).2.halfOpenCalls = if w.admits config then 1 else 0 := by
  obtain ⟨state, t, openedAt, passed⟩ := late
  by_cases positive : 0 < config.halfOpenMaxCalls <;>
    simp [admits, CircuitBreaker.allowRequest, CircuitBreaker.maybeTransitionToHalfOpen, state, openedAt, passed,
      positive]

theorem allow_halfOpen (state : w.breaker.state = halfOpen) :
    w.admits config = decide (w.breaker.halfOpenCalls < config.halfOpenMaxCalls) ∧
    (w.breaker.allowRequest config w.now).2.state = halfOpen ∧
    (w.breaker.allowRequest config w.now).2.consecutiveSuccesses = w.breaker.consecutiveSuccesses ∧
    (w.breaker.allowRequest config w.now).2.halfOpenCalls =
      w.breaker.halfOpenCalls + if w.admits config then 1 else 0 := by
  by_cases room : w.breaker.halfOpenCalls < config.halfOpenMaxCalls <;>
    simp [admits, CircuitBreaker.allowRequest, CircuitBreaker.maybeTransitionToHalfOpen, state, room]

end

/-! ## What a record does -/

section
variable {b : CircuitBreaker} {now : Int}

theorem recordFailure_trips (tripped : b.state = halfOpen ∨
      b.state = closed ∧ config.failureThreshold ≤ b.consecutiveFailures + 1) :
    (b.recordFailure config now).state = opened ∧ (b.recordFailure config now).openedAt = some now := by
  rcases tripped with state | ⟨state, full⟩
  · simp [CircuitBreaker.recordFailure, CircuitBreaker.tripOpen, state]
  · simp [CircuitBreaker.recordFailure, CircuitBreaker.tripOpen, state, full]

theorem recordFailure_short (state : b.state = closed) (short : ¬ config.failureThreshold ≤ b.consecutiveFailures + 1) :
    (b.recordFailure config now).state = closed ∧
      (b.recordFailure config now).consecutiveFailures = b.consecutiveFailures + 1 := by
  simp [CircuitBreaker.recordFailure, state, short]

theorem recordSuccess_closed (closes : b.state = closed ∨
      b.state = halfOpen ∧ config.successThreshold ≤ b.consecutiveSuccesses + 1) :
    (b.recordSuccess config now).state = closed ∧ (b.recordSuccess config now).consecutiveFailures = 0 := by
  rcases closes with state | ⟨state, enough⟩
  · simp [CircuitBreaker.recordSuccess, state]
  · simp [CircuitBreaker.recordSuccess, state, enough]

theorem recordSuccess_trial (state : b.state = halfOpen)
    (more : ¬ config.successThreshold ≤ b.consecutiveSuccesses + 1) :
    (b.recordSuccess config now).state = halfOpen ∧
      (b.recordSuccess config now).consecutiveSuccesses = b.consecutiveSuccesses + 1 ∧
      (b.recordSuccess config now).halfOpenCalls = b.halfOpenCalls := by
  simp [CircuitBreaker.recordSuccess, state, more]

/-- An open breaker only counts what is recorded. -/
theorem record_opened (state : b.state = opened) (success : Bool) :
    (if success then b.recordSuccess config now else b.recordFailure config now).state = opened ∧
      (if success then b.recordSuccess config now else b.recordFailure config now).openedAt = b.openedAt := by
  cases success <;> simp [CircuitBreaker.recordSuccess, CircuitBreaker.recordFailure, state]

end

/-! ## The invariant -/

/-- What holds of the breaker whatever its calls lead to. -/
structure Sound (config : BreakerConfig) (w : Traffic) : Prop where
  streak : w.breaker.state = closed →
    w.breaker.consecutiveFailures = w.streak ∧ (w.streak : Int) < config.failureThreshold
  openedAt : w.breaker.state = opened → ∃ t, w.breaker.openedAt = some t ∧ t ≤ w.now
  trials : w.breaker.state = halfOpen →
    w.breaker.halfOpenCalls ≤ w.breaker.consecutiveSuccesses + w.pending.length
  unfinished : w.breaker.state = halfOpen → w.breaker.consecutiveSuccesses < config.successThreshold
  numbered : ∀ call ∈ w.pending, call < w.nextCall

section
variable {w : Traffic} (numbered : ∀ call ∈ w.pending, call < w.nextCall)
include numbered

theorem Sound.of_closed (state : w.breaker.state = closed) (failures : w.breaker.consecutiveFailures = w.streak)
    (below : (w.streak : Int) < config.failureThreshold) : Sound config w := by
  constructor <;> simp_all

theorem Sound.of_opened {t : Int} (state : w.breaker.state = opened) (openedAt : w.breaker.openedAt = some t)
    (before : t ≤ w.now) : Sound config w := by
  constructor <;> simp_all

theorem Sound.of_halfOpen (state : w.breaker.state = halfOpen)
    (trials : w.breaker.halfOpenCalls ≤ w.breaker.consecutiveSuccesses + w.pending.length)
    (unfinished : w.breaker.consecutiveSuccesses < config.successThreshold) : Sound config w := by
  constructor <;> simp_all

end

theorem sound_initial (now : Int) : Sound config (initial now) :=
  .of_closed (fun _ member => nomatch member) rfl rfl config.failurePositive

theorem streak_cons (w : Traffic) (b : CircuitBreaker) (pending : List Nat) (r : CircuitState × Bool) :
    streak { w with breaker := b, pending := pending, records := r :: w.records } =
      if r = (closed, false) then w.streak + 1 else 0 := by
  by_cases failure : r = (closed, false) <;> simp [streak, failure]

theorem numbered_allowRequest {w : Traffic} (numbered : ∀ call ∈ w.pending, call < w.nextCall) :
    ∀ call ∈ (step config w .allowRequest).pending, call < (step config w .allowRequest).nextCall := by
  intro call member
  by_cases admitted : w.admits config = true
  · simp only [step, admitted, if_true, List.mem_cons] at member ⊢
    rcases member with rfl | earlier
    · exact Nat.lt_succ_self _
    · exact (numbered call earlier).trans (Nat.lt_succ_self _)
  · simp only [step, admitted, if_false, Bool.false_eq_true] at member ⊢
    exact numbered call member

theorem step_closed {w : Traffic} (state : w.breaker.state = closed) : step config w .allowRequest =
    { w with pending := w.nextCall :: w.pending, nextCall := w.nextCall + 1 } := by
  simp only [step, admits, allow_closed state, if_true]

theorem step_early {w : Traffic} {t : Int} (state : w.breaker.state = opened) (openedAt : w.breaker.openedAt = some t)
    (early : CircuitBreaker.elapsed config w.now t = false) : step config w .allowRequest =
      { w with breaker := { w.breaker with totalRejections := w.breaker.totalRejections + 1 } } := by
  simp only [step, admits, allow_early state openedAt early, Bool.false_eq_true, if_false]

/-- A trial that is let through is pending. -/
theorem length_pending_allowRequest (w : Traffic) : ((step config w .allowRequest).pending.length : Int) =
    w.pending.length + if w.admits config then 1 else 0 := by
  by_cases admitted : w.admits config = true <;> simp [step, admitted]

theorem breaker_allowRequest (w : Traffic) :
    (step config w .allowRequest).breaker = (w.breaker.allowRequest config w.now).2 := by
  by_cases admitted : w.admits config = true <;> simp [step, admitted]

theorem sound_allowRequest {w : Traffic} (sound : Sound config w) : Sound config (step config w .allowRequest) := by
  have numbered := @numbered_allowRequest config w sound.numbered
  cases state : w.breaker.state with
  | closed =>
      rw [step_closed state] at numbered ⊢
      exact .of_closed numbered state (sound.streak state).1 (sound.streak state).2
  | opened =>
      obtain ⟨t, openedAt, before⟩ := sound.openedAt state
      cases passed : CircuitBreaker.elapsed config w.now t with
      | false =>
          rw [step_early state openedAt passed] at numbered ⊢
          exact .of_opened numbered state openedAt before
      | true =>
          obtain ⟨_, after, successes, calls⟩ := allow_late ⟨state, t, openedAt, passed⟩
          rw [← breaker_allowRequest] at after successes calls
          apply Sound.of_halfOpen numbered after
          · rw [successes, calls, length_pending_allowRequest]
            split <;> omega
          · rw [successes]
            exact config.successPositive
  | halfOpen =>
      obtain ⟨_, after, successes, calls⟩ := @allow_halfOpen config w state
      rw [← breaker_allowRequest] at after successes calls
      apply Sound.of_halfOpen numbered after
      · have trials := sound.trials state
        rw [successes, calls, length_pending_allowRequest]
        split <;> omega
      · rw [successes]
        exact sound.unfinished state

theorem length_erase {w : Traffic} {call : Nat} (pending : call ∈ w.pending) :
    (w.pending.length : Int) = (w.pending.erase call).length + 1 := by
  have shorter := List.length_erase_of_mem pending
  have some_left := List.length_pos_of_mem pending
  omega

theorem sound_record {w : Traffic} {call : Nat} (sound : Sound config w) (pending : call ∈ w.pending)
    (success : Bool) : Sound config (step config w (.record call success)) := by
  have numbered : ∀ c ∈ w.pending.erase call, c < w.nextCall :=
    fun c member => sound.numbered c (List.mem_of_mem_erase member)
  cases state : w.breaker.state with
  | closed =>
      obtain ⟨failures, below⟩ := sound.streak state
      cases success with
      | true =>
          have after := @recordSuccess_closed config _ w.now (.inl state)
          have none_left : streak (step config w (.record call true)) = 0 := by simp [step, state, streak]
          apply Sound.of_closed numbered after.1
          · rw [none_left]
            exact after.2
          · rw [none_left]
            exact config.failurePositive
      | false =>
          by_cases full : config.failureThreshold ≤ w.breaker.consecutiveFailures + 1
          · have after := @recordFailure_trips config _ w.now (.inr ⟨state, full⟩)
            exact .of_opened numbered after.1 after.2 le_rfl
          · have after := @recordFailure_short config _ w.now state full
            have longer : streak (step config w (.record call false)) = w.streak + 1 := by
              simp [step, state, streak]
            apply Sound.of_closed numbered after.1
            · rw [longer, Nat.cast_add, ← failures]
              exact after.2
            · rw [longer]
              omega
  | opened =>
      obtain ⟨t, openedAt, before⟩ := sound.openedAt state
      have after := @record_opened config _ w.now state success
      exact .of_opened numbered after.1 (after.2.trans openedAt) before
  | halfOpen =>
      cases success with
      | true =>
          by_cases enough : config.successThreshold ≤ w.breaker.consecutiveSuccesses + 1
          · have after := @recordSuccess_closed config _ w.now (.inr ⟨state, enough⟩)
            have none_left : streak (step config w (.record call true)) = 0 := by simp [step, state, streak]
            apply Sound.of_closed numbered after.1
            · rw [none_left]
              exact after.2
            · rw [none_left]
              exact config.failurePositive
          · obtain ⟨after, successes, calls⟩ := @recordSuccess_trial config _ w.now state enough
            have trials := sound.trials state
            have one := length_erase pending
            apply Sound.of_halfOpen numbered after
            · simp only [step, if_true, calls, successes]
              omega
            · simp only [step, if_true, successes]
              omega
      | false =>
          have after := @recordFailure_trips config _ w.now (.inl state)
          exact .of_opened numbered after.1 after.2 le_rfl

theorem sound_step (w : Traffic) (a : BreakerStep) (sound : Sound config w) (pending : w.Pending a) :
    Sound config (step config w a) := by
  cases a with
  | allowRequest => exact sound_allowRequest sound
  | record call success => exact sound_record sound pending success
  | advance microseconds =>
      refine ⟨sound.streak, ?_, sound.trials, sound.unfinished, sound.numbered⟩
      intro state
      obtain ⟨t, openedAt, before⟩ := sound.openedAt state
      exact ⟨t, openedAt, before.trans (by simp [step])⟩

theorem sound_of_reachable {w : Traffic} (reachable : Reachable config w) : Sound config w := by
  obtain ⟨start, steps, allowed, rfl⟩ := reachable
  exact run_invariant sound_step (sound_initial start) allowed

/-! ## Tripping -/

theorem trips {w : Traffic} {a : BreakerStep} (sound : Sound config w) (state : w.breaker.state = closed) :
    (step config w a).breaker.state ≠ closed ↔
      (∃ call, a = .record call false) ∧ (w.streak : Int) + 1 = config.failureThreshold := by
  obtain ⟨failures, below⟩ := sound.streak state
  cases a with
  | allowRequest => simp [step_closed state, state]
  | advance microseconds => simp [step, state]
  | record call success =>
      cases success with
      | true => simp [step, (recordSuccess_closed (.inl state)).1]
      | false =>
          by_cases full : config.failureThreshold ≤ w.breaker.consecutiveFailures + 1
          · have exactly : (w.streak : Int) + 1 = config.failureThreshold := by omega
            simp [step, (recordFailure_trips (.inr ⟨state, full⟩)).1, exactly]
          · have short : (w.streak : Int) + 1 ≠ config.failureThreshold := by omega
            simp [step, (recordFailure_short state full).1, short]

/-! ## Holding -/

/-- Open since an instant. -/
def OpenSince (t : Int) (w : Traffic) : Prop :=
  w.breaker.state = opened ∧ w.breaker.openedAt = some t ∧ t ≤ w.now

/-- The step that opens the breaker notes the instant. -/
theorem openSince_of_trip {w : Traffic} {a : BreakerStep} (before : w.breaker.state ≠ opened)
    (after : (step config w a).breaker.state = opened) : OpenSince w.now (step config w a) := by
  cases a with
  | advance microseconds => exact absurd after before
  | allowRequest =>
      cases state : w.breaker.state with
      | closed =>
          rw [step_closed state] at after
          exact absurd after before
      | opened => exact absurd state before
      | halfOpen =>
          obtain ⟨_, still, _⟩ := @allow_halfOpen config w state
          rw [breaker_allowRequest, still] at after
          exact nomatch after
  | record call success =>
      cases success with
      | true =>
          cases state : w.breaker.state with
          | opened => exact absurd state before
          | closed =>
              have closes := (@recordSuccess_closed config _ w.now (.inl state)).1
              exact nomatch closes.symm.trans after
          | halfOpen =>
              by_cases enough : config.successThreshold ≤ w.breaker.consecutiveSuccesses + 1
              · have closes := (@recordSuccess_closed config _ w.now (.inr ⟨state, enough⟩)).1
                exact nomatch closes.symm.trans after
              · have trial := (@recordSuccess_trial config _ w.now state enough).1
                exact nomatch trial.symm.trans after
      | false =>
          have tripped : w.breaker.state = halfOpen ∨
              w.breaker.state = closed ∧ config.failureThreshold ≤ w.breaker.consecutiveFailures + 1 := by
            cases state : w.breaker.state with
            | opened => exact absurd state before
            | halfOpen => exact .inl rfl
            | closed =>
                by_cases full : config.failureThreshold ≤ w.breaker.consecutiveFailures + 1
                · exact .inr ⟨rfl, full⟩
                · have short := (@recordFailure_short config _ w.now state full).1
                  exact nomatch short.symm.trans after
          exact ⟨after, (recordFailure_trips tripped).2, le_rfl⟩

/-- Until the timeout no step opens the breaker up. -/
theorem openSince_step {t : Int} {w : Traffic} (a : BreakerStep) (since : OpenSince t w)
    (early : CircuitBreaker.elapsed config w.now t = false) : OpenSince t (step config w a) := by
  obtain ⟨state, openedAt, before⟩ := since
  cases a with
  | allowRequest =>
      rw [step_early state openedAt early]
      exact ⟨state, openedAt, before⟩
  | record call success =>
      have after := @record_opened config _ w.now state success
      exact ⟨after.1, after.2.trans openedAt, before⟩
  | advance microseconds => exact ⟨state, openedAt, before.trans (by simp [step])⟩

theorem now_le_step (w : Traffic) (a : BreakerStep) : w.now ≤ (step config w a).now := by
  cases a with
  | allowRequest => by_cases admitted : w.admits config = true <;> simp [step, admitted]
  | record call success => exact le_rfl
  | advance microseconds => simp [step]

theorem now_le_run (w : Traffic) (steps : List BreakerStep) : w.now ≤ (run (step config) w steps).now := by
  induction steps generalizing w with
  | nil => exact le_rfl
  | cons a steps ih => exact (now_le_step w a).trans (ih _)

theorem openSince_run {t : Int} {w : Traffic} {steps : List BreakerStep} (since : OpenSince t w)
    (early : CircuitBreaker.elapsed config (run (step config) w steps).now t = false) :
    OpenSince t (run (step config) w steps) := by
  induction steps generalizing w with
  | nil => exact since
  | cons a steps ih =>
      refine ih (openSince_step a since ?_) early
      by_contra passed
      have later := elapsed_mono (by simpa using passed)
        (Int.sub_le_sub_right (@now_le_run config w (a :: steps)) t)
      exact nomatch later.symm.trans early

theorem holds {w : Traffic} {a : BreakerStep} {rest : List BreakerStep} (before : w.breaker.state ≠ opened)
    (after : (step config w a).breaker.state = opened)
    (early : CircuitBreaker.elapsed config (run (step config) (step config w a) rest).now w.now = false) :
    (run (step config) (step config w a) rest).admits config = false := by
  obtain ⟨state, openedAt, _⟩ := openSince_run (openSince_of_trip before after) early
  rw [admits, allow_early state openedAt early]

/-! ## Closing -/

/-- Behind the timeout, with `k` of the calls from number `first` on recorded. -/
def OnTrial (config : BreakerConfig) (first : Nat) (k : Int) (w : Traffic) : Prop :=
  (w.TimedOut config ∧ k = 0 ∧ w.nextCall = first) ∨
    (w.breaker.state = halfOpen ∧ k ≤ w.breaker.consecutiveSuccesses)

theorem closes_nil {w : Traffic} (state : w.breaker.state = closed) (steps : List BreakerStep) :
    Closes config w steps := ⟨[], steps, rfl, state⟩

theorem closes_cons {w : Traffic} {a : BreakerStep} {steps : List BreakerStep}
    (closes : Closes config (step config w a) steps) : Closes config w (a :: steps) := by
  obtain ⟨first, rest, rfl, state⟩ := closes
  exact ⟨a :: first, rest, rfl, state⟩

theorem timedOut_advance {w : Traffic} (late : w.TimedOut config) (microseconds : Nat) :
    (step config w (.advance microseconds)).TimedOut config := by
  obtain ⟨state, t, openedAt, passed⟩ := late
  exact ⟨state, t, openedAt, elapsed_mono passed (by simp [step])⟩

theorem onTrial_step {first : Nat} {k : Int} {w : Traffic} {a : BreakerStep} (sound : Sound config w)
    (trial : OnTrial config first k w) (ok : Trial first w a) : (step config w a).breaker.state = closed ∨
      OnTrial config first (k + recorded first [a]) (step config w a) := by
  obtain ⟨pending, succeeds, timely⟩ := ok
  rcases trial with ⟨late, none_yet, same⟩ | ⟨state, counted⟩
  · cases a with
    | allowRequest =>
        obtain ⟨_, after, successes, _⟩ := allow_late late
        rw [← breaker_allowRequest] at after successes
        exact .inr (.inr ⟨after, by simp [none_yet, recorded, successes]⟩)
    | advance microseconds =>
        exact .inr (.inl ⟨timedOut_advance late microseconds, by simp [none_yet, recorded], same⟩)
    | record call success =>
        have earlier : ¬ first ≤ call := by
          have bound := sound.numbered call pending
          omega
        obtain ⟨state, t, openedAt, passed⟩ := late
        have after := @record_opened config _ w.now state success
        exact .inr (.inl ⟨⟨after.1, t, after.2.trans openedAt, passed⟩, by simp [none_yet, recorded, earlier], same⟩)
  · cases a with
    | allowRequest =>
        obtain ⟨_, after, successes, _⟩ := @allow_halfOpen config w state
        rw [← breaker_allowRequest] at after successes
        exact .inr (.inr ⟨after, by simpa [recorded, successes] using counted⟩)
    | advance microseconds => exact .inr (.inr ⟨state, by simpa [recorded, step] using counted⟩)
    | record call success =>
        have succeeded : success = true := by
          rcases Nat.lt_or_ge call first with earlier | later
          · exact timely state earlier
          · exact succeeds later
        subst succeeded
        by_cases enough : config.successThreshold ≤ w.breaker.consecutiveSuccesses + 1
        · exact .inl (@recordSuccess_closed config _ w.now (.inr ⟨state, enough⟩)).1
        · obtain ⟨after, successes, _⟩ := @recordSuccess_trial config _ w.now state enough
          refine .inr (.inr ⟨after, ?_⟩)
          have one : (recorded first [.record call true] : Int) ≤ 1 := by
            exact_mod_cast List.countP_le_length
          simp only [step, if_true, successes]
          omega

theorem recorded_cons (first : Nat) (a : BreakerStep) (steps : List BreakerStep) :
    recorded first (a :: steps) = recorded first [a] + recorded first steps := by
  rw [recorded, recorded, recorded, ← List.countP_append, List.singleton_append]

/-- A run behind the timeout closes the breaker or is still on trial. -/
theorem onTrial_run {first : Nat} {k : Int} {w : Traffic} {steps : List BreakerStep} (sound : Sound config w)
    (trial : OnTrial config first k w) (ok : Allowed (step config) (Trial first) w steps) :
    Closes config w steps ∨ OnTrial config first (k + recorded first steps) (run (step config) w steps) := by
  induction steps generalizing w k with
  | nil => exact .inr (by simpa [recorded] using trial)
  | cons a steps ih =>
      rcases onTrial_step sound trial ok.1 with state | next
      · exact .inl (closes_cons (closes_nil state steps))
      · have rest := ih (sound_step w a sound ok.1.1) next ok.2
        rw [recorded_cons, Nat.cast_add, ← add_assoc]
        exact rest.imp_left closes_cons

theorem onTrial_of_timedOut {w : Traffic} (late : w.TimedOut config) : OnTrial config w.nextCall 0 w :=
  .inl ⟨late, rfl, rfl⟩

/-- With fewer successes on record than it needs, the breaker is still on trial. -/
theorem recorded_lt {first : Nat} {k : Int} {w : Traffic} (sound : Sound config w) (trial : OnTrial config first k w) :
    k < config.successThreshold := by
  rcases trial with ⟨_, rfl, _⟩ | ⟨state, counted⟩
  · exact config.successPositive
  · exact counted.trans_lt (sound.unfinished state)

/-! ## Recovering -/

theorem pending_of_trial {first : Nat} {w : Traffic} {steps : List BreakerStep}
    (ok : Allowed (step config) (Trial first) w steps) : Allowed (step config) Pending w steps := by
  induction steps generalizing w with
  | nil => trivial
  | cons a steps ih => exact ⟨ok.1.1, ih ok.2⟩

theorem sound_run {w : Traffic} {steps : List BreakerStep} (sound : Sound config w)
    (ok : Allowed (step config) Pending w steps) : Sound config (run (step config) w steps) :=
  run_invariant sound_step sound ok

section
variable (enough : config.successThreshold ≤ config.halfOpenMaxCalls)
include enough

/-- Where no call is pending, a trial call is let through. -/
theorem admits_of_onTrial {first : Nat} {k : Int} {w : Traffic} (sound : Sound config w)
    (trial : OnTrial config first k w) (idle : w.pending = []) : w.admits config = true := by
  have positive := config.successPositive
  rcases trial with ⟨late, _, _⟩ | ⟨state, _⟩
  · rw [(allow_late late).1]
    exact decide_eq_true (by omega)
  · have trials := sound.trials state
    have unfinished := sound.unfinished state
    rw [idle] at trials
    rw [(allow_halfOpen state).1]
    exact decide_eq_true (by simp at trials; omega)

/-- An open breaker lets a request through once the timeout has passed. -/
theorem not_stuck_opened {w : Traffic} {now openedTs : Int} (sound : Sound config w)
    (passed : CircuitBreaker.elapsed config now openedTs = true) (state : w.breaker.state = opened) :
    ¬ w.Stuck config := by
  intro stuck
  obtain ⟨t, openedAt, before⟩ := sound.openedAt state
  have late : (step config w (.advance (now - openedTs).toNat)).TimedOut config := by
    refine ⟨state, t, openedAt, elapsed_mono passed ?_⟩
    simp only [step]
    omega
  have rejected := stuck [.advance (now - openedTs).toNat] ⟨trivial, trivial⟩
  rw [run_cons, run_nil, (allow_late late).1, decide_eq_false_iff_not] at rejected
  have positive := config.successPositive
  omega

theorem not_stuck {w : Traffic} {now openedTs : Int} (sound : Sound config w)
    (passed : CircuitBreaker.elapsed config now openedTs = true) : ¬ w.Stuck config := by
  cases state : w.breaker.state with
  | opened => exact not_stuck_opened enough sound passed state
  | closed =>
      intro stuck
      have rejected := stuck [] trivial
      rw [run_nil, admits, allow_closed state] at rejected
      exact nomatch rejected
  | halfOpen =>
      intro stuck
      have full : ¬ w.breaker.halfOpenCalls < config.halfOpenMaxCalls := by
        have rejected := stuck [] trivial
        rwa [run_nil, (allow_halfOpen state).1, decide_eq_false_iff_not] at rejected
      have trials := sound.trials state
      have unfinished := sound.unfinished state
      -- A trial call is still pending, and its failure opens the breaker again.
      obtain ⟨call, member⟩ : ∃ call, call ∈ w.pending := by
        apply List.exists_mem_of_length_pos
        omega
      have failed := sound_record sound member false
      have opens := (@recordFailure_trips config _ w.now (.inl state)).1
      refine not_stuck_opened enough failed passed opens ?_
      exact fun rest ok => stuck (.record call false :: rest) ⟨member, ok⟩

end

/-! ## A breaker that does not recover -/

/-- All trial calls are used up and recorded, and there are too few for the breaker to close. -/
def UsedUp (config : BreakerConfig) (w : Traffic) : Prop :=
  w.breaker.state = halfOpen ∧ config.halfOpenMaxCalls ≤ w.breaker.halfOpenCalls ∧ w.pending = []

theorem usedUp_step (w : Traffic) (a : BreakerStep) (usedUp : UsedUp config w) (pending : w.Pending a) :
    UsedUp config (step config w a) := by
  obtain ⟨state, full, idle⟩ := usedUp
  cases a with
  | advance microseconds => exact ⟨state, full, idle⟩
  | record call success =>
      rw [Pending, idle] at pending
      exact nomatch pending
  | allowRequest =>
      obtain ⟨admitted, after, _, calls⟩ := @allow_halfOpen config w state
      have rejected : w.admits config = false := by rw [admitted, decide_eq_false_iff_not]; omega
      rw [← breaker_allowRequest] at after calls
      refine ⟨after, ?_, by simpa [step, rejected] using idle⟩
      rw [calls, rejected]
      simpa using full

theorem stuck_of_usedUp {w : Traffic} (usedUp : UsedUp config w) : w.Stuck config := by
  intro rest ok
  obtain ⟨state, full, _⟩ := run_invariant usedUp_step usedUp ok
  rw [(allow_halfOpen state).1, decide_eq_false_iff_not]
  omega

/-- A call from its request to its record, with no other in between. -/
def call (w : Traffic) (success : Bool) : List BreakerStep := [.allowRequest, .record w.nextCall success]

section
variable {w : Traffic} (admitted : w.admits config = true) (success : Bool)
include admitted

theorem allowed_call : Allowed (step config) Pending w (w.call success) :=
  ⟨trivial, by simp [Pending, step, admitted], trivial⟩

theorem run_call (idle : w.pending = []) : run (step config) w (w.call success) =
    { w with
      breaker := if success then (w.breaker.allowRequest config w.now).2.recordSuccess config w.now
        else (w.breaker.allowRequest config w.now).2.recordFailure config w.now
      nextCall := w.nextCall + 1
      records := ((w.breaker.allowRequest config w.now).2.state, success) :: w.records } := by
  simp [call, step, admitted, idle]

end

/-- Calls that fail one after the other trip the closed breaker. -/
theorem exists_trip (left : Nat) {w : Traffic} (state : w.breaker.state = closed) (idle : w.pending = [])
    (short : config.failureThreshold = w.breaker.consecutiveFailures + left + 1) :
    ∃ steps, Allowed (step config) Pending w steps ∧ OpenSince w.now (run (step config) w steps) ∧
      (run (step config) w steps).pending = [] := by
  have allows := @allow_closed config w state
  have admitted : w.admits config = true := by rw [admits, allows]
  have allowed := allowed_call admitted false
  have run_eq := run_call admitted false idle
  rw [allows, if_neg Bool.false_ne_true] at run_eq
  induction left generalizing w with
  | zero =>
      have trips := @recordFailure_trips config _ w.now (.inr ⟨state, by omega⟩)
      refine ⟨w.call false, allowed, ?_⟩
      rw [run_eq]
      exact ⟨⟨trips.1, trips.2, le_rfl⟩, idle⟩
  | succ left ih =>
      obtain ⟨still, one_more⟩ := @recordFailure_short config _ w.now state (by omega)
      have next := @ih (run (step config) w (w.call false))
      rw [run_eq] at next
      have allows' := @allow_closed config { w with
        breaker := w.breaker.recordFailure config w.now
        nextCall := w.nextCall + 1
        records := (w.breaker.state, false) :: w.records } still
      have admitted' := congrArg Prod.fst allows'
      have run_eq' := run_call admitted' false idle
      rw [allows', if_neg Bool.false_ne_true] at run_eq'
      obtain ⟨steps, rest, since, idle'⟩ := next still idle (by rw [one_more]; omega) allows' admitted'
        (allowed_call admitted' false) run_eq'
      refine ⟨w.call false ++ steps, (allowed_append ..).mpr ⟨allowed, ?_⟩, ?_⟩
      · rwa [run_eq]
      · rw [run_append, run_eq]
        exact ⟨since, idle'⟩

section
variable (few : config.halfOpenMaxCalls < config.successThreshold) (first : Nat)
include few

/-- A trial call that succeeds is behind a successful record, and the breaker stays half-open. -/
theorem trial_call {w : Traffic} (admitted : w.admits config = true) (idle : w.pending = [])
    (after : (w.breaker.allowRequest config w.now).2.state = halfOpen)
    (calls : (w.breaker.allowRequest config w.now).2.halfOpenCalls =
      (w.breaker.allowRequest config w.now).2.consecutiveSuccesses + 1)
    (room : (w.breaker.allowRequest config w.now).2.halfOpenCalls ≤ config.halfOpenMaxCalls) :
    Allowed (step config) (Trial first) w (w.call true) ∧
      (run (step config) w (w.call true)).breaker.state = halfOpen ∧
      (run (step config) w (w.call true)).breaker.consecutiveSuccesses =
        (w.breaker.allowRequest config w.now).2.halfOpenCalls ∧
      (run (step config) w (w.call true)).breaker.halfOpenCalls =
        (w.breaker.allowRequest config w.now).2.halfOpenCalls ∧
      (run (step config) w (w.call true)).pending = [] := by
  have allowed := allowed_call admitted true
  obtain ⟨state, successes, same⟩ := @recordSuccess_trial config _ w.now after (by omega)
  rw [run_call admitted true idle]
  refine ⟨⟨⟨allowed.1, trivial, trivial⟩, ⟨allowed.2.1, fun _ => rfl, fun _ _ => rfl⟩, trivial⟩, state, ?_, same, idle⟩
  rw [calls]
  exact successes

/-- Successful calls one after the other use up the half-open breaker. -/
theorem exists_usedUp (left : Nat) {w : Traffic} (state : w.breaker.state = halfOpen) (idle : w.pending = [])
    (counted : w.breaker.consecutiveSuccesses = w.breaker.halfOpenCalls)
    (short : config.halfOpenMaxCalls = w.breaker.halfOpenCalls + left) :
    ∃ steps, Allowed (step config) (Trial first) w steps ∧ UsedUp config (run (step config) w steps) := by
  induction left generalizing w with
  | zero => exact ⟨[], trivial, state, by simp [short], idle⟩
  | succ left ih =>
      obtain ⟨admits_iff, after, successes, calls⟩ := @allow_halfOpen config w state
      have admitted : w.admits config = true := by
        rw [admits_iff]
        exact decide_eq_true (by omega)
      rw [admitted, if_pos rfl] at calls
      obtain ⟨allowed, state', successes', calls', idle'⟩ :=
        trial_call few first admitted idle after (by omega) (by omega)
      obtain ⟨steps, rest, usedUp⟩ := ih state' idle' (successes'.trans calls'.symm) (by omega)
      exact ⟨w.call true ++ steps, (allowed_append ..).mpr ⟨allowed, rest⟩, by rwa [run_append]⟩

theorem exists_usedUp_of_timedOut {w : Traffic} (late : w.TimedOut config) (idle : w.pending = []) :
    ∃ steps, Allowed (step config) (Trial first) w steps ∧ UsedUp config (run (step config) w steps) := by
  obtain ⟨admits_iff, after, successes, calls⟩ := allow_late late
  by_cases positive : 0 < config.halfOpenMaxCalls
  · have admitted : w.admits config = true := admits_iff.trans (decide_eq_true positive)
    rw [admitted, if_pos rfl] at calls
    obtain ⟨allowed, state', successes', calls', idle'⟩ :=
      trial_call few first admitted idle after (by omega) (by omega)
    obtain ⟨steps, rest, usedUp⟩ := exists_usedUp few first (config.halfOpenMaxCalls - 1).toNat state' idle'
      (successes'.trans calls'.symm) (by omega)
    exact ⟨w.call true ++ steps, (allowed_append ..).mpr ⟨allowed, rest⟩, by rwa [run_append]⟩
  · have rejected : w.admits config = false := admits_iff.trans (decide_eq_false positive)
    rw [rejected, if_neg Bool.false_ne_true] at calls
    rw [← breaker_allowRequest] at after calls
    refine ⟨[.allowRequest], ⟨⟨trivial, trivial, trivial⟩, trivial⟩, after, ?_, ?_⟩
    · rw [run_cons, run_nil, calls]
      exact not_lt.mp positive
    · simpa [step, rejected] using idle

end

/-- A breaker that trips at once and waits for the timeout. -/
theorem exists_timedOut {now openedTs : Int} (passed : CircuitBreaker.elapsed config now openedTs = true) :
    ∃ w, Reachable config w ∧ w.TimedOut config ∧ w.pending = [] := by
  have left : config.failureThreshold = 0 + ((config.failureThreshold - 1).toNat : Int) + 1 := by
    have positive := config.failurePositive
    omega
  obtain ⟨steps, allowed, ⟨state, openedAt, _⟩, idle⟩ := @exists_trip config _ (initial 0) rfl rfl left
  have waits : Allowed (step config) Pending (run (step config) (initial 0) steps)
      [.advance (now - openedTs).toNat] := ⟨trivial, trivial⟩
  refine ⟨run (step config) (initial 0) (steps ++ [.advance (now - openedTs).toNat]),
    ⟨0, _, (allowed_append ..).mpr ⟨allowed, waits⟩, rfl⟩, ?_, ?_⟩
  · rw [run_append]
    have waited := @now_le_run config (initial 0) steps
    refine ⟨state, 0, openedAt, elapsed_mono passed ?_⟩
    simp only [run_cons, run_nil, step, initial] at waited ⊢
    omega
  · rw [run_append]
    exact idle

/-- The breaker is correct exactly where it allows as many trial calls as it needs successes, or never gets to
    the trial. -/
theorem correct_iff : Correct config ↔
    config.successThreshold ≤ config.halfOpenMaxCalls ∨ NeverElapses config := by
  constructor
  · intro correct
    by_contra neither
    obtain ⟨few, elapses⟩ := not_or.mp neither
    obtain ⟨now, openedTs, passed⟩ : ∃ now openedTs, CircuitBreaker.elapsed config now openedTs = true := by
      simpa [NeverElapses] using elapses
    obtain ⟨w, reachable, late, idle⟩ := exists_timedOut passed
    obtain ⟨steps, allowed, usedUp⟩ := exists_usedUp_of_timedOut (not_le.mp few) w.nextCall late idle
    exact correct.recovers w steps reachable late allowed (stuck_of_usedUp usedUp)
  · intro condition
    refine ⟨fun w a reachable _ => trips (sound_of_reachable reachable), fun w a rest _ _ before after _ => holds before after,
      ?_, ?_, ?_⟩
    · intro w rest reachable late allowed enough
      refine (onTrial_run (sound_of_reachable reachable) (onTrial_of_timedOut late) allowed).resolve_right ?_
      intro trial
      have few := recorded_lt (sound_run (sound_of_reachable reachable) (pending_of_trial allowed)) trial
      omega
    · intro w rest reachable late allowed
      have sound := sound_of_reachable reachable
      refine (onTrial_run sound (onTrial_of_timedOut late) allowed).imp_right fun trial idle => ?_
      obtain ⟨_, t, _, passed⟩ := late
      have enough := condition.resolve_right fun never => nomatch (never _ _).symm.trans passed
      exact admits_of_onTrial enough (sound_run sound (pending_of_trial allowed)) trial idle
    · intro w rest reachable late allowed
      obtain ⟨_, t, _, passed⟩ := late
      have enough := condition.resolve_right fun never => nomatch (never _ _).symm.trans passed
      exact not_stuck enough (sound_run (sound_of_reachable reachable) (pending_of_trial allowed)) passed

/-- The defaults: five failures, thirty seconds, two successes, one trial call. -/
def defaults : BreakerConfig where
  failureThreshold := 5
  recoveryTimeoutS := .round 30
  successThreshold := 2
  halfOpenMaxCalls := 1
  failurePositive := by decide
  successPositive := by decide

/-- Five calls that fail, and half a minute. -/
private def outage : List BreakerStep :=
  (List.range 5).flatMap (fun i => [.allowRequest, .record i false]) ++ [.advance 30000000]

private theorem outage_pending : Allowed (step defaults) Pending (initial 0) outage := by
  decide

private theorem outage_timedOut : (run (step defaults) (initial 0) outage).TimedOut defaults :=
  ⟨by decide +kernel, 0, by decide +kernel, by decide +kernel⟩

private theorem usedUp_of_one :
    UsedUp defaults (run (step defaults) (run (step defaults) (initial 0) outage) [.allowRequest, .record 5 true]) :=
  ⟨by decide +kernel, by decide +kernel, by decide +kernel⟩

/-- With the defaults the one trial call succeeds, and nothing is let through any more. -/
theorem not_correct_defaults : ¬ Correct defaults := by
  intro correct
  have reachable : Reachable defaults (run (step defaults) (initial 0) outage) := ⟨0, outage, outage_pending, rfl⟩
  refine correct.recovers _ [.allowRequest, .record 5 true] reachable outage_timedOut ?_ (stuck_of_usedUp usedUp_of_one)
  exact ⟨⟨trivial, trivial, trivial⟩, ⟨by decide +kernel, fun _ => rfl, fun _ _ => rfl⟩, trivial⟩

end Traffic

end Senex.Antifragility
