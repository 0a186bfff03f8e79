import Mathlib.Data.List.Sublists
import Mathlib.Order.Basic

/-! # Greedy selection

From a list in order, take the first element, and then always the next one that keeps the gap to
the last one taken.  What is taken keeps the gap pairwise, no sublist that does is longer, and a longer
list only adds to what is taken.
-/

namespace Senex.Greedy

variable {α β : Type}

/-- What is taken of a list behind `last`; `follows a b` says that `b` keeps the gap to `a`. -/
def select (follows : α → α → Bool) : Option α → List α → List α
  | _, [] => []
  | last, a :: l => if last.all (follows · a) then a :: select follows (some a) l else select follows last l

theorem select_cons (follows : α → α → Bool) (last : Option α) (a : α) (l : List α) :
    select follows last (a :: l) =
      if last.all (follows · a) then a :: select follows (some a) l else select follows last l := rfl

/-- A gap in an order: it is kept by what is behind, and from everything in front. -/
structure Gap (before : α → α → Prop) (follows : α → α → Bool) : Prop where
  ahead : ∀ {a b}, follows a b = true → before a b
  wider : ∀ {a b c}, before a b → follows b c = true → follows a c = true

variable {before : α → α → Prop} {follows : α → α → Bool}

theorem select_sublist (last : Option α) (l : List α) : (select follows last l).Sublist l := by
  induction l generalizing last with
  | nil => exact List.Sublist.slnil
  | cons a l ih =>
      rw [select_cons]
      split
      · exact (ih _).cons_cons a
      · exact (ih _).cons a

theorem mem_of_mem_select {last : Option α} {l : List α} {a : α} (taken : a ∈ select follows last l) : a ∈ l :=
  (select_sublist last l).subset taken

/-- What is taken depends on what decides the gap only. -/
theorem map_select (f : α → β) {follows' : β → β → Bool} (same : ∀ a b, follows' (f a) (f b) = follows a b)
    (last : Option α) (l : List α) :
    (select follows last l).map f = select follows' (last.map f) (l.map f) := by
  induction l generalizing last with
  | nil => rfl
  | cons a l ih =>
      have test : (last.map f).all (follows' · (f a)) = last.all (follows · a) := by
        cases last <;> simp [same]
      rw [List.map_cons, select_cons, select_cons, test]
      split
      · rw [List.map_cons, ih, Option.map_some]
      · exact ih last

/-- The longer list only adds to what is taken. -/
theorem select_append (last : Option α) (l l' : List α) :
    select follows last l <+: select follows last (l ++ l') := by
  induction l generalizing last with
  | nil => exact List.nil_prefix
  | cons a l ih =>
      rw [List.cons_append, select_cons, select_cons]
      split
      · exact (List.prefix_cons_inj a).mpr (ih _)
      · exact ih last

section
variable (gap : Gap before follows)
include gap

/-- Everything that is taken keeps the gap to what was taken last. -/
theorem follows_of_mem_select {last a : α} {l : List α} (taken : a ∈ select follows (some last) l) :
    follows last a = true := by
  induction l generalizing last with
  | nil => exact nomatch taken
  | cons b l ih =>
      by_cases first : follows last b = true
      · rw [select_cons, Option.all_some, if_pos first] at taken
        rcases List.mem_cons.mp taken with rfl | rest
        · exact first
        · exact gap.wider (gap.ahead first) (ih rest)
      · rw [select_cons, Option.all_some, if_neg first] at taken
        exact ih taken

theorem pairwise_select (last : Option α) (l : List α) :
    (select follows last l).Pairwise fun a b => follows a b = true := by
  induction l generalizing last with
  | nil => exact List.Pairwise.nil
  | cons a l ih =>
      rw [select_cons]
      split
      · exact List.pairwise_cons.mpr ⟨fun b taken => follows_of_mem_select gap taken, ih _⟩
      · exact ih last

/-- Nothing that keeps the gap, also to what was taken last, is longer than what is taken: where the
    other selection begins later, its first element makes room for the one taken here. -/
theorem length_le_select {last : Option α} {s l : List α} (sublist : s.Sublist l) (ordered : l.Pairwise before)
    (behind : ∀ b ∈ last, ∀ a ∈ s, follows b a = true) (spaced : s.Pairwise fun a b => follows a b = true) :
    s.length ≤ (select follows last l).length := by
  induction l generalizing last s with
  | nil =>
      rw [List.sublist_nil.mp sublist]
      exact Nat.zero_le _
  | cons a l ih =>
      obtain ⟨first, ordered⟩ := List.pairwise_cons.mp ordered
      rw [select_cons]
      rcases List.sublist_cons_iff.mp sublist with without | ⟨rest, rfl, _⟩
      · split
        · cases s with
          | nil => exact Nat.zero_le _
          | cons x s =>
              obtain ⟨after, spaced⟩ := List.pairwise_cons.mp spaced
              have ahead : before a x := first x (without.subset List.mem_cons_self)
              have later : ∀ b ∈ some a, ∀ y ∈ s, follows b y = true := by
                intro b same y member
                rw [← Option.some.inj same]
                exact gap.wider ahead (after y member)
              exact Nat.succ_le_succ (ih (List.sublist_of_cons_sublist without) ordered later spaced)
        · exact ih without ordered behind spaced
      · obtain ⟨after, spaced⟩ := List.pairwise_cons.mp spaced
        have taken : last.all (follows · a) = true := by
          cases last with
          | none => rfl
          | some b => exact behind b rfl a List.mem_cons_self
        rw [if_pos taken]
        have later : ∀ b ∈ some a, ∀ y ∈ rest, follows b y = true := by
          intro b same y member
          rw [← Option.some.inj same]
          exact after y member
        exact Nat.succ_le_succ (ih (List.cons_sublist_cons.mp sublist) ordered later spaced)

end

end Senex.Greedy
