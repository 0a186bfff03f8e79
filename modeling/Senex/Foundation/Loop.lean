import Mathlib.Logic.Relation

/-! # Loops that may not end

A loop body goes on with a new state or returns.  Fuel bounds how often it is run, so a loop
that does not end returns at no fuel.
-/

namespace Senex.Loop

variable {S R : Type}

/-- The loop, with fuel for that many runs of its body. -/
def iterate (body : S → S ⊕ R) : Nat → S → Option R
  | 0, _ => none
  | fuel + 1, s =>
      match body s with
      | .inl next => iterate body fuel next
      | .inr result => some result

/-- The loop ends, with this result. -/
def Returns (body : S → S ⊕ R) (s : S) (result : R) : Prop := ∃ fuel, iterate body fuel s = some result

variable {body : S → S ⊕ R} {s next : S} {result : R}

theorem returns_of_inr (done : body s = .inr result) : Returns body s result :=
  ⟨1, by simp [iterate, done]⟩

theorem returns_iff_of_inl (onward : body s = .inl next) : Returns body s result ↔ Returns body next result := by
  constructor
  · intro ⟨fuel, ran⟩
    cases fuel with
    | zero => simp [iterate] at ran
    | succ fuel => exact ⟨fuel, by simpa [iterate, onward] using ran⟩
  · intro ⟨fuel, ran⟩
    exact ⟨fuel + 1, by simpa [iterate, onward] using ran⟩

/-- One turn of the loop. -/
def Turn (body : S → S ⊕ R) (s next : S) : Prop := body s = .inl next

/-- A loop returns what its body returns in a state that the turns reach. -/
theorem returns_iff : Returns body s result ↔
    ∃ last, Relation.ReflTransGen (Turn body) s last ∧ body last = .inr result := by
  constructor
  · intro ⟨fuel, ran⟩
    induction fuel generalizing s with
    | zero => simp [iterate] at ran
    | succ fuel ih =>
        cases step : body s with
        | inr found =>
            obtain rfl : found = result := by simpa [iterate, step] using ran
            exact ⟨s, .refl, step⟩
        | inl next =>
            obtain ⟨last, reached, done⟩ := ih (s := next) (by simpa [iterate, step] using ran)
            exact ⟨last, .head step reached, done⟩
  · intro ⟨last, reached, done⟩
    induction reached using Relation.ReflTransGen.head_induction_on with
    | refl => exact returns_of_inr done
    | head turn _ ih => exact (returns_iff_of_inl turn).mpr ih

/-- A loop has at most one result. -/
theorem Returns.unique {other : R} (first : Returns body s result) (second : Returns body s other) :
    result = other := by
  obtain ⟨last, reached, done⟩ := returns_iff.mp first
  induction reached using Relation.ReflTransGen.head_induction_on with
  | refl =>
      obtain ⟨fuel, ran⟩ := second
      cases fuel with
      | zero => simp [iterate] at ran
      | succ fuel => simpa [iterate, done] using ran
  | head turn _ ih => exact ih ((returns_iff_of_inl turn).mp first) ((returns_iff_of_inl turn).mp second)

/-- What holds at the start and over every turn holds wherever the turns lead. -/
theorem keeps {inv : S → Prop} (step : ∀ s next, inv s → body s = .inl next → inv next) {last : S}
    (reached : Relation.ReflTransGen (Turn body) s last) (start : inv s) : inv last := by
  induction reached with
  | refl => exact start
  | tail _ turn ih => exact step _ _ ih turn

/-- A loop whose turns lower a rank ends, in a state that has a rank. -/
theorem exists_returns {rank : S → Nat → Prop}
    (lower : ∀ s n next, rank s n → body s = .inl next → ∃ m < n, rank next m) {n : Nat} (start : rank s n) :
    ∃ result last m, Returns body s result ∧ rank last m ∧ body last = .inr result := by
  induction n using Nat.strongRecOn generalizing s with
  | ind n ih =>
      cases step : body s with
      | inr result => exact ⟨result, s, n, returns_of_inr step, start, step⟩
      | inl next =>
          obtain ⟨m, less, ranked⟩ := lower s n next start step
          obtain ⟨result, last, l, returned, kept, done⟩ := ih m less ranked
          exact ⟨result, last, l, (returns_iff_of_inl step).mpr returned, kept, done⟩

end Senex.Loop
