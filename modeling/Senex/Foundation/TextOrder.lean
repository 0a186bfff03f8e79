import Mathlib.Data.List.Lex
import Senex.Foundation.Datetime

/-! # The order of texts

Texts are compared unit by unit.  Digits of one width stand in the order of their numbers, and the
`isoformat()` of UTC times in the order of the times, with or without a fraction of a second.
-/

namespace Senex.Text

theorem append_lt_of_length {u v : Text} (lt : u < v) (same : u.length = v.length) (x y : Text) :
    u ++ x < v ++ y := by
  induction lt with
  | nil => simp at same
  | cons _ ih => exact List.Lex.cons (ih (by simpa using same))
  | rel less => exact List.Lex.rel less

/-- Digits of one width are ordered as their numbers are. -/
theorem padded_lt {width a b : Nat} (less : a < b) (fits : b < 10 ^ width) : padded width a < padded width b := by
  induction width generalizing a b with
  | zero => simp at fits; omega
  | succ width ih =>
      rw [padded, padded]
      have fits' : b / 10 < 10 ^ width := by
        rw [Nat.pow_succ] at fits
        omega
      rcases Nat.lt_or_ge (a / 10) (b / 10) with higher | notHigher
      · exact append_lt_of_length (ih higher fits') (by simp) _ _
      · have same : a / 10 = b / 10 := by omega
        rw [same]
        apply List.append_left_lt
        exact List.Lex.rel (by omega)

/-- A field of digits decides, and where it is the same the rest does. -/
theorem padded_append_lt {width a b : Nat} (fits : b < 10 ^ width) {x y : Text} (decided : a < b ∨ a = b ∧ x < y) :
    padded width a ++ x < padded width b ++ y := by
  rcases decided with less | ⟨rfl, rest⟩
  · exact append_lt_of_length (padded_lt less fits) (by simp) x y
  · exact List.append_left_lt rest

end Senex.Text

namespace Senex.Datetime

open Text

/-- What follows the seconds of an `isoformat()`. -/
def isoTail (microsecond : Nat) : Text :=
  if microsecond = 0 then txt "+00:00" else 46 :: (padded 6 microsecond ++ txt "+00:00")

theorem isoformat_eq (c : Civil) : isoformat c =
    padded 4 c.year ++ 45 :: (padded 2 c.month ++ 45 :: (padded 2 c.day ++ 84 :: (padded 2 c.hour ++
      58 :: (padded 2 c.minute ++ 58 :: (padded 2 c.second ++ isoTail c.microsecond))))) := by
  unfold isoformat isoTail
  split <;> simp [isoDate, isoClock]

theorem isoTail_lt {a b : Nat} (less : a < b) (fits : b < 1000000) : isoTail a < isoTail b := by
  have positive : b ≠ 0 := by omega
  rw [isoTail, isoTail, if_neg positive]
  split
  · exact List.Lex.rel (by decide)
  · exact List.Lex.cons (append_lt_of_length (padded_lt less fits) (by simp) _ _)

/-- The earlier of two times has the lower field, the first that differs. -/
theorem fields_of_orderKey_lt {a b : Civil} (less : orderKey a < orderKey b) :
    a.year < b.year ∨ a.year = b.year ∧ (a.month < b.month ∨ a.month = b.month ∧ (a.day < b.day ∨ a.day = b.day ∧
      (a.hour < b.hour ∨ a.hour = b.hour ∧ (a.minute < b.minute ∨ a.minute = b.minute ∧
        (a.second < b.second ∨ a.second = b.second ∧ a.microsecond < b.microsecond))))) := by
  have short (y m : Nat) : daysInMonth y m < 32 := by
    unfold daysInMonth
    split_ifs <;> omega
  obtain ⟨-, -, -, month, -, day, hour, minute, second, micro⟩ := a.valid
  obtain ⟨-, -, -, month', -, day', hour', minute', second', micro'⟩ := b.valid
  have limit := short a.year a.month
  have limit' := short b.year b.month
  unfold orderKey dayKey at less
  omega

/-- An earlier time has the smaller text. -/
theorem isoformat_lt {a b : Civil} (less : orderKey a < orderKey b) : isoformat a < isoformat b := by
  have short : daysInMonth b.year b.month < 32 := by
    unfold daysInMonth
    split_ifs <;> omega
  obtain ⟨-, year, -, month, -, day, hour, minute, second, micro⟩ := b.valid
  rw [isoformat_eq, isoformat_eq]
  refine padded_append_lt (by omega) ((fields_of_orderKey_lt less).imp_right (And.imp_right fun rest => .cons ?_))
  refine padded_append_lt (by omega) (rest.imp_right (And.imp_right fun rest => .cons ?_))
  refine padded_append_lt (by omega) (rest.imp_right (And.imp_right fun rest => .cons ?_))
  refine padded_append_lt (by omega) (rest.imp_right (And.imp_right fun rest => .cons ?_))
  refine padded_append_lt (by omega) (rest.imp_right (And.imp_right fun rest => .cons ?_))
  exact padded_append_lt (by omega) (rest.imp_right (And.imp_right fun rest => isoTail_lt rest micro))

theorem eq_of_orderKey {a b : Civil} (same : orderKey a = orderKey b) : a = b := by
  have short (y m : Nat) : daysInMonth y m < 32 := by
    unfold daysInMonth
    split_ifs <;> omega
  have fields : (a.year = b.year ∧ a.month = b.month ∧ a.day = b.day) ∧
      a.hour = b.hour ∧ a.minute = b.minute ∧ a.second = b.second ∧ a.microsecond = b.microsecond := by
    obtain ⟨-, -, -, month, -, day, hour, minute, second, micro⟩ := a.valid
    obtain ⟨-, -, -, month', -, day', hour', minute', second', micro'⟩ := b.valid
    have limit := short a.year a.month
    have limit' := short b.year b.month
    unfold orderKey dayKey at same
    omega
  obtain ⟨⟨year, month, day⟩, hour, minute, second, micro⟩ := fields
  cases a
  cases b
  simp_all

/-- The texts of UTC times stand in the order of the times. -/
theorem isoformat_lt_iff {a b : Civil} : isoformat a < isoformat b ↔ orderKey a < orderKey b := by
  constructor
  · intro less
    rcases lt_trichotomy (orderKey a) (orderKey b) with before | same | after
    · exact before
    · rw [eq_of_orderKey same] at less
      exact absurd less (lt_irrefl _)
    · exact absurd (isoformat_lt after) less.asymm
  · exact isoformat_lt

end Senex.Datetime
