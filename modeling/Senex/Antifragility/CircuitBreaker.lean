import Senex.Foundation.Double
import Senex.Foundation.Transition
import Mathlib

/-! # The circuit breaker

Closed until `failure_threshold` failures in a row, open for `recovery_timeout_s`, then half-open with
`half_open_max_calls` trial calls until `success_threshold` successes close it.  Instants are in
microseconds, the resolution of the texts that the breaker keeps them in, on a clock without an end.
-/

namespace Senex.Antifragility

inductive CircuitState where
  | closed
  | opened
  | halfOpen
deriving DecidableEq, Repr

structure BreakerConfig where
  failureThreshold : Int
  recoveryTimeoutS : Double
  successThreshold : Int
  halfOpenMaxCalls : Int
  failurePositive : 0 < failureThreshold
  successPositive : 0 < successThreshold

structure CircuitBreaker where
  state : CircuitState
  consecutiveFailures : Int
  consecutiveSuccesses : Int
  failureCount : Int
  successCount : Int
  totalRejections : Int
  lastFailureTs : Option Int
  lastSuccessTs : Option Int
  openedAt : Option Int
  halfOpenCalls : Int
deriving Repr

namespace CircuitBreaker

def initial : CircuitBreaker where
  state := .closed
  consecutiveFailures := 0
  consecutiveSuccesses := 0
  failureCount := 0
  successCount := 0
  totalRejections := 0
  lastFailureTs := none
  lastSuccessTs := none
  openedAt := none
  halfOpenCalls := 0

/-- `total_seconds()` of a duration, which is at most 999999999 days and a microsecond short of another. -/
def totalSeconds (microseconds : Int) : Double :=
  .round ((min microseconds 86399999999999999999 : Int) / 1000000)

def elapsed (config : BreakerConfig) (now openedTs : Int) : Bool :=
  config.recoveryTimeoutS.le (totalSeconds (now - openedTs))

variable (config : BreakerConfig) (now : Int) (b : CircuitBreaker)

def maybeTransitionToHalfOpen : CircuitBreaker :=
  match b.state, b.openedAt with
  | .opened, some openedTs =>
      if elapsed config now openedTs then
        { b with state := .halfOpen, halfOpenCalls := 0, consecutiveSuccesses := 0 }
      else b
  | _, _ => b

def allowRequest : Bool × CircuitBreaker :=
  let b := b.maybeTransitionToHalfOpen config now
  match b.state with
  | .closed => (true, b)
  | .opened => (false, { b with totalRejections := b.totalRejections + 1 })
  | .halfOpen =>
      if b.halfOpenCalls < config.halfOpenMaxCalls then
        (true, { b with halfOpenCalls := b.halfOpenCalls + 1 })
      else (false, { b with totalRejections := b.totalRejections + 1 })

def tripOpen : CircuitBreaker :=
  { b with state := .opened, openedAt := some now, consecutiveSuccesses := 0, halfOpenCalls := 0 }

def recordSuccess : CircuitBreaker :=
  let b := { b with successCount := b.successCount + 1, lastSuccessTs := some now }
  match b.state with
  | .halfOpen =>
      let b := { b with consecutiveSuccesses := b.consecutiveSuccesses + 1 }
      if config.successThreshold ≤ b.consecutiveSuccesses then
        { b with state := .closed, consecutiveFailures := 0, openedAt := none }
      else b
  | .closed => { b with consecutiveFailures := 0 }
  | .opened => b

def recordFailure : CircuitBreaker :=
  let b := { b with
    failureCount := b.failureCount + 1, consecutiveFailures := b.consecutiveFailures + 1,
    lastFailureTs := some now }
  match b.state with
  | .halfOpen => b.tripOpen now
  | .closed => if config.failureThreshold ≤ b.consecutiveFailures then b.tripOpen now else b
  | .opened => b

end CircuitBreaker

/-- A breaker and the calls that go through it.  Each call that is allowed gets a number, and is pending
    until it is recorded; `records` has the state in which each record was made and whether it was a
    success, the last one first. -/
structure Traffic where
  breaker : CircuitBreaker
  now : Int
  pending : List Nat
  nextCall : Nat
  records : List (CircuitState × Bool)
deriving Repr

inductive BreakerStep where
  | allowRequest
  | record (call : Nat) (success : Bool)
  | advance (microseconds : Nat)
deriving DecidableEq, Repr

namespace Traffic

def initial (now : Int) : Traffic where
  breaker := .initial
  now := now
  pending := []
  nextCall := 0
  records := []

variable (config : BreakerConfig)

/-- Whether the breaker would let the next request through. -/
def admits (w : Traffic) : Bool := (w.breaker.allowRequest config w.now).1

def step (w : Traffic) : BreakerStep → Traffic
  | .allowRequest =>
      let b := (w.breaker.allowRequest config w.now).2
      if w.admits config then
        { w with breaker := b, pending := w.nextCall :: w.pending, nextCall := w.nextCall + 1 }
      else { w with breaker := b }
  | .record call success =>
      { w with
        breaker := if success then w.breaker.recordSuccess config w.now else w.breaker.recordFailure config w.now
        pending := w.pending.erase call
        records := (w.breaker.state, success) :: w.records }
  | .advance microseconds => { w with now := w.now + microseconds }

/-- Only a call that is pending is recorded. -/
def Pending (w : Traffic) : BreakerStep → Prop
  | .record call _ => call ∈ w.pending
  | .allowRequest | .advance _ => True

instance (w : Traffic) : (a : BreakerStep) → Decidable (w.Pending a)
  | .record call _ => inferInstanceAs (Decidable (call ∈ w.pending))
  | .allowRequest | .advance _ => .isTrue trivial

/-- The failures in a row that the closed breaker has recorded last. -/
def streak (w : Traffic) : Nat := (w.records.takeWhile fun r => decide (r = (.closed, false))).length

end Traffic

end Senex.Antifragility
