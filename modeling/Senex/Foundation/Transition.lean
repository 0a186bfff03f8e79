import Mathlib.Data.List.Basic

/-! # Runs of a step function

A system takes labelled steps; a run is the list of its labels.  `Allowed` says
that every step of a run meets a condition on the label and the state before
it.  An invariant that allowed steps keep holds at the end of every allowed run,
and so in every state on the way.
-/

namespace Senex

/-- The state after a run. -/
def run {S A : Type} (step : S → A → S) (s : S) (labels : List A) : S := labels.foldl step s

/-- Every step of the run meets `ok` in the state before it. -/
def Allowed {S A : Type} (step : S → A → S) (ok : S → A → Prop) : S → List A → Prop
  | _, [] => True
  | s, a :: labels => ok s a ∧ Allowed step ok (step s a) labels

instance decidableAllowed {S A : Type} (step : S → A → S) (ok : S → A → Prop) [∀ s a, Decidable (ok s a)] :
    (s : S) → (labels : List A) → Decidable (Allowed step ok s labels)
  | _, [] => .isTrue trivial
  | s, a :: labels =>
      have := decidableAllowed step ok (step s a) labels
      inferInstanceAs (Decidable (ok s a ∧ Allowed step ok (step s a) labels))

/-- What the steps of a run emit, in order. -/
def emitted {S A B : Type} (step : S → A → S) (emit : S → A → List B) : S → List A → List B
  | _, [] => []
  | s, a :: labels => emit s a ++ emitted step emit (step s a) labels

theorem emitted_concat {S A B : Type} {step : S → A → S} {emit : S → A → List B} (s : S)
    (labels : List A) (a : A) : emitted step emit s (labels ++ [a]) =
      emitted step emit s labels ++ emit (run step s labels) a := by
  induction labels generalizing s with
  | nil => simp [emitted, run]
  | cons b labels ih => simp [emitted, ih, run]

section
variable {S A : Type} {step : S → A → S} {ok : S → A → Prop} {inv : S → Prop}

@[simp] theorem run_nil (s : S) : run step s [] = s := rfl

@[simp] theorem run_cons (s : S) (a : A) (labels : List A) :
    run step s (a :: labels) = run step (step s a) labels := rfl

@[simp] theorem run_append (s : S) (first second : List A) :
    run step s (first ++ second) = run step (run step s first) second :=
  List.foldl_append

theorem run_concat (s : S) (labels : List A) (a : A) :
    run step s (labels ++ [a]) = step (run step s labels) a := by
  simp

theorem allowed_append (s : S) (first second : List A) :
    Allowed step ok s (first ++ second) ↔
      Allowed step ok s first ∧ Allowed step ok (run step s first) second := by
  induction first generalizing s with
  | nil => simp [Allowed]
  | cons a first ih => simp [Allowed, ih, and_assoc]

theorem allowed_of_forall (every : ∀ s a, ok s a) (s : S) (labels : List A) :
    Allowed step ok s labels := by
  induction labels generalizing s with
  | nil => trivial
  | cons a labels ih => exact ⟨every s a, ih _⟩

/-- Every step of a run is one behind some prefix of it. -/
theorem allowed_iff_split {s : S} {labels : List A} :
    Allowed step ok s labels ↔
      ∀ first a rest, labels = first ++ a :: rest → ok (run step s first) a := by
  constructor
  · rintro allowed first a rest rfl
    exact ((allowed_append s first (a :: rest)).mp allowed).2.1
  · intro every
    induction labels generalizing s with
    | nil => trivial
    | cons a labels ih =>
        refine ⟨every [] a labels rfl, ih ?_⟩
        intro first b rest split
        exact every (a :: first) b rest (by rw [split, List.cons_append])

/-- What allowed steps keep, an allowed run keeps. -/
theorem run_invariant (kept : ∀ s a, inv s → ok s a → inv (step s a)) {s : S} (start : inv s)
    {labels : List A} (allowed : Allowed step ok s labels) : inv (run step s labels) := by
  induction labels generalizing s with
  | nil => exact start
  | cons a labels ih => exact ih (kept s a start allowed.1) allowed.2

/-- Where allowed steps under an invariant emit nothing, an allowed run emits nothing. -/
theorem emitted_eq_nil {B : Type} {emit : S → A → List B} (kept : ∀ s a, inv s → ok s a → inv (step s a))
    (silent : ∀ s a, inv s → ok s a → emit s a = []) {s : S} (start : inv s) {labels : List A}
    (allowed : Allowed step ok s labels) : emitted step emit s labels = [] := by
  induction labels generalizing s with
  | nil => rfl
  | cons a labels ih =>
      rw [emitted, silent s a start allowed.1, List.nil_append]
      exact ih (kept s a start allowed.1) allowed.2

/-- Two systems that stay related and emit the same at each allowed label emit the same over a run. -/
theorem emitted_eq_of_related {T B : Type} {emit : S → A → List B} {step' : T → A → T} {emit' : T → A → List B}
    {rel : S → T → Prop} {fine : A → Prop}
    (kept : ∀ s t a, rel s t → fine a → rel (step s a) (step' t a) ∧ emit s a = emit' t a) {s : S} {t : T}
    (start : rel s t) {labels : List A} (all_fine : ∀ a ∈ labels, fine a) :
    emitted step emit s labels = emitted step' emit' t labels := by
  induction labels generalizing s t with
  | nil => rfl
  | cons a labels ih =>
      obtain ⟨still, same⟩ := kept s t a start (all_fine a (.head _))
      rw [emitted, emitted, same, ih still fun b inside => all_fine b (.tail _ inside)]

/-- The case where no condition is put on the steps. -/
theorem run_invariant_of_step (kept : ∀ s a, inv s → inv (step s a)) {s : S} (start : inv s)
    (labels : List A) : inv (run step s labels) :=
  @run_invariant _ _ _ (fun _ _ => True) _ (fun s a h _ => kept s a h) _ start _
    (allowed_of_forall (fun _ _ => trivial) s labels)

end

end Senex
