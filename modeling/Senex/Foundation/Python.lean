import Senex.Foundation.Datetime

/-! # Python values and exceptions

What the modelled Python functions receive and raise.  A call is an `Except`
whose error is the exception's class with its message.
-/

namespace Senex

/-- The exception classes that the modelled code raises, catches or lets through. -/
inductive PyError where
  /-- `ContractError` of the paper execution contract. -/
  | contractError
  /-- `ContractError` of the replay contracts. -/
  | replayContractError
  | resilienceError
  /-- `ReplayError` -/
  | replayError
  | predictionPersistenceError
  | packetSequenceError
  | packetSizeError
  | outcomeContaminationError
  /-- `PaperControlStateError` -/
  | paperControlStateError
  | unicodeEncodeError
  | overflowError
  /-- A trapped signal of the `decimal` context. -/
  | decimalSignal
  /-- A bare `ValueError`. -/
  | valueError
  | typeError
  | keyError
  | attributeError
  | zeroDivisionError
  /-- A bare `RuntimeError`. -/
  | runtimeError
  | challengerContractError
  | exportContractError
  | resolutionEvidenceError
  | resolutionContractError
  | artifactContractError
  deriving Repr, DecidableEq

/-- Whether `except ValueError` catches the class. -/
def PyError.isValueError : PyError → Bool
  | .contractError | .replayContractError | .replayError | .resilienceError | .packetSizeError
  | .outcomeContaminationError | .unicodeEncodeError | .valueError | .resolutionEvidenceError
  | .resolutionContractError => true
  | _ => false

structure Raised where
  error : PyError
  message : Text
  deriving Repr, DecidableEq

/-- A Python call: a value or an exception. -/
abbrev Py := Except Raised

def raise {α : Type} (error : PyError) (message : Text) : Py α := .error ⟨error, message⟩

/-- `if failed: raise error(message)`. -/
def guardNot (failed : Bool) (error : PyError) (message : Text) : Py Unit :=
  if failed then raise error message else .ok ()

@[simp] theorem guardNot_eq_ok {failed : Bool} {error : PyError} {message : Text} {u : Unit} :
    guardNot failed error message = .ok u ↔ failed = false := by
  cases failed <;> simp [guardNot, raise]

@[simp] theorem guardNot_false (error : PyError) (message : Text) :
    guardNot false error message = .ok () := rfl

@[simp] theorem guardNot_true (error : PyError) (message : Text) :
    guardNot true error message = raise error message := rfl

/-- `if condition: call()`. -/
def onlyWhen (condition : Bool) (call : Py Unit) : Py Unit := if condition then call else .ok ()

@[simp] theorem onlyWhen_eq_ok {condition : Bool} {call : Py Unit} {u : Unit} :
    onlyWhen condition call = .ok u ↔ (condition = true → call = .ok u) := by
  cases condition <;> simp [onlyWhen]

@[simp] theorem onlyWhen_false (call : Py Unit) : onlyWhen false call = .ok () := rfl

@[simp] theorem onlyWhen_true (call : Py Unit) : onlyWhen true call = call := rfl

/-- The value there is, or the exception for its absence. -/
def orRaise {α : Type} (value : Option α) (error : PyError) (message : Text) : Py α :=
  match value with
  | some a => .ok a
  | none => raise error message

@[simp] theorem orRaise_some {α : Type} (a : α) (error : PyError) (message : Text) :
    orRaise (some a) error message = .ok a := rfl

@[simp] theorem orRaise_eq_ok {α : Type} {value : Option α} {error : PyError} {message : Text} {a : α} :
    orRaise value error message = .ok a ↔ value = some a := by
  cases value <;> simp [orRaise, raise]

/-- The value of a successful sequence of two calls. -/
theorem Py.bind_eq_ok {α β : Type} {x : Py α} {f : α → Py β} {b : β} :
    x >>= f = .ok b ↔ ∃ a, x = .ok a ∧ f a = .ok b := by
  cases x with
  | error e => simp [bind, Except.bind]
  | ok a => simp [bind, Except.bind]

theorem Py.map_eq_ok {α β : Type} {x : Py α} {f : α → β} {b : β} :
    x.map f = .ok b ↔ ∃ a, x = .ok a ∧ f a = b := by
  cases x <;> simp [Except.map]

@[simp] theorem Py.ok_bind {α β : Type} (a : α) (f : α → Py β) : (Except.ok a >>= f) = f a := rfl

@[simp] theorem Py.error_bind {α β : Type} (e : Raised) (f : α → Py β) :
    ((Except.error e : Py α) >>= f) = Except.error e := rfl

@[simp] theorem Py.raise_bind {α β : Type} (error : PyError) (message : Text) (f : α → Py β) :
    ((raise error message : Py α) >>= f) = raise error message := rfl

@[simp] theorem Py.raise_ne_ok {α : Type} {error : PyError} {message : Text} {a : α} :
    (raise error message : Py α) = .ok a ↔ False := by
  simp [raise]

@[simp] theorem Py.pure_eq_ok {α : Type} (a : α) : (pure a : Py α) = .ok a := rfl

/-- `except caught as exc: raise error(text(exc))`. -/
def rewrap {α : Type} (caught : PyError → Bool) (error : PyError) (text : Text → Text)
    (call : Py α) : Py α :=
  match call with
  | .ok a => .ok a
  | .error e => if caught e.error then raise error (text e.message) else .error e

@[simp] theorem rewrap_eq_ok {α : Type} {caught : PyError → Bool} {error : PyError}
    {text : Text → Text} {call : Py α} {a : α} :
    rewrap caught error text call = .ok a ↔ call = .ok a := by
  cases call with
  | ok b => simp [rewrap]
  | error e =>
      simp only [rewrap, reduceCtorEq, iff_false]
      split <;> simp [raise]

@[simp] theorem rewrap_ok {α : Type} (caught : PyError → Bool) (error : PyError)
    (text : Text → Text) (a : α) : rewrap caught error text (.ok a) = .ok a := rfl

/-- `str(datetime)`. -/
def Datetime.str (d : Datetime) : Text :=
  let seconds (n : Nat) : Text :=
    Text.padded 2 (n / 3600000000) ++ 58 :: Text.padded 2 (n / 60000000 % 60) ++
      (if n % 60000000 = 0 then [] else 58 :: Text.padded 2 (n / 1000000 % 60)) ++
      (if n % 1000000 = 0 then [] else 46 :: Text.padded 6 (n % 1000000))
  let zone := match d.offset with
    | none => []
    | some o => (if o < 0 then 45 else 43) :: seconds o.natAbs
  let c := d.civil
  isoDate c ++ 32 :: Text.padded 2 c.hour ++ 58 :: Text.padded 2 c.minute ++
    58 :: Text.padded 2 c.second ++
    (if c.microsecond = 0 then [] else 46 :: Text.padded 6 c.microsecond) ++ zone

/-- An argument of a call, as far as the callee looks at it. -/
inductive PyArg where
  | str (t : Text)
  | bool (b : Bool)
  | datetime (d : Datetime)
  /-- Any other object, by its `str()`. -/
  | other (text : Text)

/-- `str(value)`. -/
def PyArg.text : PyArg → Text
  | .str t => t
  | .bool b => if b then txt "True" else txt "False"
  | .datetime d => d.str
  | .other text => text

end Senex
