import Senex.Foundation.Timeline

/-! # Dates and day numbers

The date of a day number has that number, and a later date a higher one.
-/

namespace Senex.Datetime

/-! ## The date of a day -/

/-- The month of a day, and its first day. -/
private theorem month_of_day : ∀ leap : Bool, ∀ n < 365,
    let before := fun month => [0, 0, 31, 59, 90, 120, 151, 181, 212, 243, 273, 304, 334].getD month 0 +
      (if 2 < month ∧ leap then 1 else 0)
    let days := fun month => if month = 2 then (if leap then 29 else 28)
      else if month = 4 ∨ month = 6 ∨ month = 9 ∨ month = 11 then 30 else 31
    let month := if before ((n + 50) / 32) ≤ n then (n + 50) / 32 else (n + 50) / 32 - 1
    1 ≤ month ∧ month ≤ 12 ∧ before month ≤ n ∧ n < before month + days month := by
  decide +kernel

/-- The days before a year, from its place in the cycles of 400, 100 and 4 years. -/
private theorem daysBeforeYear_cycles {a b c d : Nat} (centuries : b < 4) (fours : c < 25) (years : d < 4) :
    daysBeforeYear (a * 400 + 1 + b * 100 + c * 4 + d) = a * 146097 + b * 36524 + c * 1461 + d * 365 := by
  have four : (a * 400 + b * 100 + c * 4 + d) / 4 = a * 100 + b * 25 + c := by omega
  have hundred : (a * 400 + b * 100 + c * 4 + d) / 100 = a * 4 + b := by omega
  have fourHundred : (a * 400 + b * 100 + c * 4 + d) / 400 = a := by omega
  have pred : a * 400 + 1 + b * 100 + c * 4 + d - 1 = a * 400 + b * 100 + c * 4 + d := by omega
  rw [daysBeforeYear, pred, four, hundred, fourHundred]
  omega

private theorem isLeap_cycles {a b c d : Nat} (centuries : b < 4) (fours : c < 25) (years : d < 4) :
    isLeap (a * 400 + 1 + b * 100 + c * 4 + d) = true ↔ d = 3 ∧ (c ≠ 24 ∨ b = 3) := by
  simp only [isLeap, Bool.and_eq_true, Bool.or_eq_true, beq_iff_eq, bne_iff_ne]
  omega

/-- The last day of a leap year. -/
private theorem ymd2ord_last {a b c : Nat} (centuries : b < 4) (fours : c < 25) (leap : c ≠ 24 ∨ b = 3) :
    IsDate (a * 400 + 1 + b * 100 + c * 4 + 3) 12 31 ∧
      ymd2ord (a * 400 + 1 + b * 100 + c * 4 + 3) 12 31 = a * 146097 + b * 36524 + c * 1461 + 1461 := by
  have long := (@isLeap_cycles a b c 3 centuries fours (by omega)).mpr ⟨rfl, leap⟩
  have start := @daysBeforeYear_cycles a b c 3 centuries fours (by omega)
  have months (year : Nat) (leap : isLeap year = true) : daysBeforeMonth year 12 = 335 := by
    rw [daysBeforeMonth, leap]
    rfl
  refine ⟨⟨by omega, le_rfl, by omega, by simp [daysInMonth]⟩, ?_⟩
  rw [ymd2ord, start, months _ long]

/-- A day within a year of 365. -/
private theorem ymd2ord_within {year u : Nat} (within : u < 365) :
    let month := if daysBeforeMonth year ((u + 50) / 32) ≤ u then (u + 50) / 32 else (u + 50) / 32 - 1
    IsDate year month (u - daysBeforeMonth year month + 1) ∧
      ymd2ord year month (u - daysBeforeMonth year month + 1) = daysBeforeYear year + u + 1 := by
  intro month
  obtain ⟨first, twelfth, begun, ends⟩ := month_of_day (isLeap year) u within
  change 1 ≤ month at first
  change month ≤ 12 at twelfth
  change daysBeforeMonth year month ≤ u at begun
  change u < daysBeforeMonth year month + daysInMonth year month at ends
  refine ⟨⟨first, twelfth, by omega, by omega⟩, ?_⟩
  unfold ymd2ord
  omega

/-- The date of a day number is one, and has that number. -/
theorem ymd2ord_ord2ymd {n : Nat} (positive : 1 ≤ n) : ∃ year month day, ord2ymd n = (year, month, day) ∧
    1 ≤ year ∧ IsDate year month day ∧ ymd2ord year month day = n := by
  obtain ⟨a, r, cut, below⟩ : ∃ a r, n - 1 = a * 146097 + r ∧ r < 146097 :=
    ⟨(n - 1) / 146097, (n - 1) % 146097, by omega, by omega⟩
  obtain ⟨b, s, cut', below'⟩ : ∃ b s, r = b * 36524 + s ∧ s < 36524 :=
    ⟨r / 36524, r % 36524, by omega, by omega⟩
  obtain ⟨c, t, cut₂, below₂⟩ : ∃ c t, s = c * 1461 + t ∧ t < 1461 :=
    ⟨s / 1461, s % 1461, by omega, by omega⟩
  obtain ⟨d, u, cut₃, below₃⟩ : ∃ d u, t = d * 365 + u ∧ u < 365 :=
    ⟨t / 365, t % 365, by omega, by omega⟩
  have value : ord2ymd n = if d = 4 ∨ b = 4 then (a * 400 + 1 + b * 100 + c * 4 + d - 1, 12, 31)
      else if daysBeforeMonth (a * 400 + 1 + b * 100 + c * 4 + d) ((u + 50) / 32) ≤ u then
        (a * 400 + 1 + b * 100 + c * 4 + d, (u + 50) / 32,
          u - daysBeforeMonth (a * 400 + 1 + b * 100 + c * 4 + d) ((u + 50) / 32) + 1)
      else (a * 400 + 1 + b * 100 + c * 4 + d, (u + 50) / 32 - 1,
        u - daysBeforeMonth (a * 400 + 1 + b * 100 + c * 4 + d) ((u + 50) / 32 - 1) + 1) := by
    obtain ⟨h1, h2⟩ : (n - 1) / 146097 = a ∧ (n - 1) % 146097 = r := by omega
    obtain ⟨h3, h4⟩ : r / 36524 = b ∧ r % 36524 = s := by omega
    obtain ⟨h5, h6⟩ : s / 1461 = c ∧ s % 1461 = t := by omega
    obtain ⟨h7, h8⟩ : t / 365 = d ∧ t % 365 = u := by omega
    simp only [ord2ymd, h1, h2, h3, h4, h5, h6, h7, h8]
  by_cases last : d = 4 ∨ b = 4
  · rw [if_pos last] at value
    by_cases cycle : b = 4
    · have year : a * 400 + 1 + b * 100 + c * 4 + d - 1 = a * 400 + 1 + 3 * 100 + 24 * 4 + 3 := by omega
      obtain ⟨date, number⟩ := @ymd2ord_last a 3 24 (by omega) (by omega) (.inr rfl)
      rw [year] at value
      exact ⟨_, _, _, value, by omega, date, by omega⟩
    · have year : a * 400 + 1 + b * 100 + c * 4 + d - 1 = a * 400 + 1 + b * 100 + c * 4 + 3 := by omega
      obtain ⟨date, number⟩ := @ymd2ord_last a b c (by omega) (by omega) (by omega)
      rw [year] at value
      exact ⟨_, _, _, value, by omega, date, by omega⟩
  · rw [if_neg last] at value
    have start := @daysBeforeYear_cycles a b c d (by omega) (by omega) (by omega)
    have least : 1 ≤ a * 400 + 1 + b * 100 + c * 4 + d := by omega
    obtain ⟨year, same⟩ : ∃ year, a * 400 + 1 + b * 100 + c * 4 + d = year := ⟨_, rfl⟩
    rw [same] at value start least
    obtain ⟨date, number⟩ := @ymd2ord_within year u below₃
    split_ifs at value date number
    · exact ⟨_, _, _, value, least, date, by omega⟩
    · exact ⟨_, _, _, value, least, date, by omega⟩

end Senex.Datetime
