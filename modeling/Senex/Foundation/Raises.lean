import Senex.Foundation.Python

/-! # What a call may raise

`RaisesOnly allowed call` bounds the exceptions of a call.  A sequence raises what its parts raise, so
the bound of a function is read off its statements.
-/

namespace Senex.Py

/-- Every exception of the call is one of these. -/
def RaisesOnly {α : Type} (allowed : Raised → Prop) (call : Py α) : Prop :=
  ∀ raised, call = .error raised → allowed raised

section
variable {α β : Type} {allowed : Raised → Prop}

theorem raisesOnly_ok (a : α) : RaisesOnly allowed (.ok a) := by
  intro raised failed
  cases failed

theorem raisesOnly_raise {error : PyError} {message : Text} (known : allowed ⟨error, message⟩) :
    RaisesOnly allowed (raise error message : Py α) := by
  intro raised failed
  cases failed
  exact known

theorem RaisesOnly.bind {call : Py α} {next : α → Py β} (first : RaisesOnly allowed call)
    (then_ : ∀ a, call = .ok a → RaisesOnly allowed (next a)) : RaisesOnly allowed (call >>= next) := by
  cases call with
  | error raised =>
      intro raised' failed
      cases failed
      exact first raised rfl
  | ok a => exact then_ a rfl

theorem RaisesOnly.map {call : Py α} (first : RaisesOnly allowed call) (f : α → β) :
    RaisesOnly allowed (call.map f) := by
  cases call with
  | error raised =>
      intro raised' failed
      cases failed
      exact first raised rfl
  | ok a => exact raisesOnly_ok (f a)

theorem raisesOnly_orRaise {value : Option α} {error : PyError} {message : Text}
    (known : value = none → allowed ⟨error, message⟩) : RaisesOnly allowed (orRaise value error message) := by
  cases value with
  | none => exact raisesOnly_raise (known rfl)
  | some a => exact raisesOnly_ok a

theorem raisesOnly_guardNot {failed : Bool} {error : PyError} {message : Text}
    (known : failed = true → allowed ⟨error, message⟩) : RaisesOnly allowed (guardNot failed error message) := by
  cases failed with
  | false => exact raisesOnly_ok ()
  | true => exact raisesOnly_raise (known rfl)

end

end Senex.Py
