import Senex.Foundation.Calendar

/-! # The next midnight

Day numbers stand in the order of dates, so the midnight behind a datetime is the first one behind it:
whatever lies between the two has the same next midnight.
-/

namespace Senex.Datetime

/-- The day number of a date, which its datetimes share. -/
def ordinal (c : Civil) : Nat := ymd2ord c.year c.month c.day

private theorem daysInMonth_le (year month : Nat) : daysInMonth year month ≤ 31 := by
  unfold daysInMonth
  split_ifs <;> omega

/-- Day numbers follow the order of dates. -/
theorem ordinal_lt {a b : Civil} (earlier : dayKey a < dayKey b) : ordinal a < ordinal b := by
  obtain ⟨-, -, -, month, -, day, -⟩ := a.valid
  obtain ⟨-, -, -, month', -, day', -⟩ := b.valid
  have short := daysInMonth_le a.year a.month
  have short' := daysInMonth_le b.year b.month
  apply ymd2ord_lt
  unfold dayKey at earlier
  omega

theorem ordinal_le {a b : Civil} (le : dayKey a ≤ dayKey b) : ordinal a ≤ ordinal b := by
  rcases Nat.lt_or_eq_of_le le with earlier | same
  · exact (ordinal_lt earlier).le
  · obtain ⟨-, -, -, month, -, day, -⟩ := a.valid
    obtain ⟨-, -, -, month', -, day', -⟩ := b.valid
    have short := daysInMonth_le a.year a.month
    have short' := daysInMonth_le b.year b.month
    unfold dayKey at same
    have equal : a.year = b.year ∧ a.month = b.month ∧ a.day = b.day := by omega
    unfold ordinal
    rw [equal.1, equal.2.1, equal.2.2]

/-- The midnight at the end of a day; nothing is the `ValueError` at the end of the calendar. -/
def nextMidnight (c : Civil) : Option Civil := civil? (ord2ymd (ordinal c + 1)) 0 0 0 0

section
variable {c m : Civil} (next : nextMidnight c = some m)
include next

theorem ordinal_nextMidnight : ordinal m = ordinal c + 1 := by
  obtain ⟨year, month, day, date, -, -, number⟩ := ymd2ord_ord2ymd (n := ordinal c + 1) (by omega)
  unfold nextMidnight civil? at next
  split at next
  · cases next
    show ymd2ord (ord2ymd (ordinal c + 1)).1 (ord2ymd (ordinal c + 1)).2.1 (ord2ymd (ordinal c + 1)).2.2 = _
    rw [date]
    exact number
  · cases next

theorem midnight_nextMidnight : orderKey m = dayKey m * 86400000000 := by
  have clock : m.hour = 0 ∧ m.minute = 0 ∧ m.second = 0 ∧ m.microsecond = 0 := by
    unfold nextMidnight civil? at next
    split at next
    · cases next
      exact ⟨rfl, rfl, rfl, rfl⟩
    · cases next
  obtain ⟨hour, minute, second, microsecond⟩ := clock
  rw [orderKey, hour, minute, second, microsecond]
  omega

theorem lt_nextMidnight : orderKey c < orderKey m := by
  have days : dayKey c < dayKey m := by
    by_contra late
    have := ordinal_le (not_lt.mp late)
    have := ordinal_nextMidnight next
    omega
  rw [midnight_nextMidnight next]
  rw [dayKey_eq c] at days
  omega

/-- Until the next midnight it is the next midnight. -/
theorem nextMidnight_eq {t : Civil} (from_ : orderKey c ≤ orderKey t) (before : orderKey t < orderKey m) :
    nextMidnight t = some m := by
  have start := ordinal_le (dayKey_le from_)
  have stop : ordinal t < ordinal m := by
    apply ordinal_lt
    rw [midnight_nextMidnight next] at before
    rw [dayKey_eq t]
    omega
  have same : ordinal t = ordinal c := by
    have := ordinal_nextMidnight next
    omega
  rw [nextMidnight, same]
  exact next

end

end Senex.Datetime
