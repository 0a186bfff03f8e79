import Senex.Foundation.Sign
import Senex.Foundation.Stamp
import Senex.Foundation.TextOrder

/-! # UTC times on one line

A later time has more microseconds, and its `timestamp()` is no smaller.  Between two microseconds
the float may not move.
-/

namespace Senex.Datetime

/-! ## Days -/

theorem daysBeforeMonth_le (year : Nat) {m m' : Nat} (least : 1 ≤ m) (less : m < m') (most : m' ≤ 12) :
    daysBeforeMonth year m + daysInMonth year m ≤ daysBeforeMonth year m' := by
  have table : ∀ leap : Bool, ∀ m' < 13, ∀ m < m', 1 ≤ m →
      [0, 0, 31, 59, 90, 120, 151, 181, 212, 243, 273, 304, 334].getD m 0 + (if 2 < m ∧ leap then 1 else 0) +
          (if m = 2 then (if leap then 29 else 28) else if m = 4 ∨ m = 6 ∨ m = 9 ∨ m = 11 then 30 else 31) ≤
        [0, 0, 31, 59, 90, 120, 151, 181, 212, 243, 273, 304, 334].getD m' 0 +
          (if 2 < m' ∧ leap then 1 else 0) := by decide
  exact table (isLeap year) m' (by omega) m less least

theorem daysBeforeMonth_last (year : Nat) {m : Nat} (least : 1 ≤ m) (most : m ≤ 12) :
    daysBeforeMonth year m + daysInMonth year m ≤ 365 + if isLeap year then 1 else 0 := by
  have table : ∀ leap : Bool, ∀ m < 13, 1 ≤ m →
      [0, 0, 31, 59, 90, 120, 151, 181, 212, 243, 273, 304, 334].getD m 0 + (if 2 < m ∧ leap then 1 else 0) +
          (if m = 2 then (if leap then 29 else 28) else if m = 4 ∨ m = 6 ∨ m = 9 ∨ m = 11 then 30 else 31) ≤
        365 + if leap then 1 else 0 := by decide
  exact table (isLeap year) m (by omega) least

theorem daysBeforeYear_succ {year : Nat} (least : 1 ≤ year) :
    daysBeforeYear (year + 1) = daysBeforeYear year + (365 + if isLeap year then 1 else 0) := by
  have leap : isLeap year = true ↔ year % 4 = 0 ∧ (year % 100 ≠ 0 ∨ year % 400 = 0) := by
    simp [isLeap]
  obtain ⟨y, rfl⟩ : ∃ y, year = y + 1 := ⟨year - 1, by omega⟩
  have step (n : Nat) : (y + 1) / n = y / n + if (y + 1) % n = 0 then 1 else 0 := by
    simp only [Nat.succ_div, Nat.dvd_iff_mod_eq_zero]
  have fours : y / 100 ≤ y / 4 := Nat.div_le_div_left (by decide) (by decide)
  have hundred : (y + 1) % 100 = 0 → (y + 1) % 4 = 0 := by omega
  have fourHundred : (y + 1) % 400 = 0 → (y + 1) % 100 = 0 := by omega
  simp only [daysBeforeYear, leap, Nat.add_sub_cancel]
  rw [step 4, step 100, step 400]
  generalize y / 4 = q, y / 100 = r, y / 400 = s at *
  split_ifs <;> omega

theorem daysBeforeYear_le {year year' : Nat} (least : 1 ≤ year) (less : year < year') :
    daysBeforeYear year + (365 + if isLeap year then 1 else 0) ≤ daysBeforeYear year' := by
  induction year', less using Nat.le_induction with
  | base => exact (daysBeforeYear_succ least).ge
  | succ later above ih =>
      rw [daysBeforeYear_succ (by omega : 1 ≤ later)]
      omega

/-- A month of the year and a day of the month. -/
def IsDate (year month day : Nat) : Prop :=
  1 ≤ month ∧ month ≤ 12 ∧ 1 ≤ day ∧ day ≤ daysInMonth year month

instance (year month day : Nat) : Decidable (IsDate year month day) := inferInstanceAs (Decidable (_ ∧ _))

/-- An earlier date has the lower number. -/
theorem ymd2ord_lt_of_isDate {year month day year' month' day' : Nat} (least : 1 ≤ year)
    (date : IsDate year month day) (date' : IsDate year' month' day')
    (less : year < year' ∨ year = year' ∧ (month < month' ∨ month = month' ∧ day < day')) :
    ymd2ord year month day < ymd2ord year' month' day' := by
  obtain ⟨first, twelfth, -, last⟩ := date
  obtain ⟨-, twelfth', firstDay, -⟩ := date'
  unfold ymd2ord
  rcases less with less | ⟨same, less | ⟨same', less⟩⟩
  · have ends := daysBeforeMonth_last year first twelfth
    have starts := daysBeforeYear_le least less
    omega
  · rw [← same]
    have months := daysBeforeMonth_le year first less twelfth'
    omega
  · rw [← same, ← same']
    omega

theorem isDate_of_civil (c : Civil) : IsDate c.year c.month c.day :=
  ⟨c.valid.2.2.1, c.valid.2.2.2.1, c.valid.2.2.2.2.1, c.valid.2.2.2.2.2.1⟩

theorem ymd2ord_lt {a b : Civil} (less : a.year < b.year ∨ a.year = b.year ∧ (a.month < b.month ∨
    a.month = b.month ∧ a.day < b.day)) :
    ymd2ord a.year a.month a.day < ymd2ord b.year b.month b.day :=
  ymd2ord_lt_of_isDate a.valid.1 (isDate_of_civil a) (isDate_of_civil b) less

theorem toMicros_lt_of {a b : Civil} (less : orderKey a < orderKey b) : toMicros a < toMicros b := by
  obtain ⟨-, -, -, -, day, -, hour, minute, second, micro⟩ := a.valid
  obtain ⟨-, -, -, -, day', -, hour', minute', second', micro'⟩ := b.valid
  have some : 1 ≤ ymd2ord a.year a.month a.day := by unfold ymd2ord; omega
  unfold toMicros
  rcases fields_of_orderKey_lt less with h | ⟨e, h | ⟨e', h | ⟨e'', h⟩⟩⟩
  · have := ymd2ord_lt (.inl h)
    omega
  · have := ymd2ord_lt (.inr ⟨e, .inl h⟩)
    omega
  · have := ymd2ord_lt (.inr ⟨e, .inr ⟨e', h⟩⟩)
    omega
  · rw [e, e', e'']
    omega

theorem toMicros_lt_iff {a b : Civil} : toMicros a < toMicros b ↔ orderKey a < orderKey b := by
  constructor
  · intro less
    by_contra notLess
    rcases (not_lt.mp notLess).lt_or_eq with more | same
    · exact absurd (toMicros_lt_of more) less.asymm
    · rw [eq_of_orderKey same] at less
      exact absurd less (lt_irrefl _)
  · exact toMicros_lt_of

/-! ## Floats -/

theorem timestamp_mono {a b : Civil} (le : toMicros a ≤ toMicros b) :
    (timestamp a).value ≤ (timestamp b).value := by
  apply Double.value_round_mono
  apply div_le_div_of_nonneg_right _ (by norm_num)
  have micros : (toMicros a : Int) - 719162 * 86400000000 ≤ toMicros b - 719162 * 86400000000 := by omega
  exact_mod_cast micros

end Senex.Datetime

namespace Senex.Double

theorem sub_eq_round {a b : Double} (left : a.isFinite = true) (right : b.isFinite = true) :
    (sub a b).value = (round (a.value - b.value)).value := by
  have opposite : (neg b).isFinite = true := (isFinite_neg b).trans right
  have sum := (add_eq_round left opposite).1
  have value : (neg b).value = -b.value := value_neg b
  rw [value, ← sub_eq_add_neg] at sum
  exact sum

theorem isNan_sub {a b : Double} (left : a.isFinite = true) (right : b.isFinite = true) :
    (sub a b).isNan = false :=
  isNan_add left ((isFinite_neg b).trans right)

/-- What is taken from more leaves no less. -/
theorem sub_mono {a b e : Double} (left : a.isFinite = true) (right : b.isFinite = true) (taken : e.isFinite = true)
    (le : a.value ≤ b.value) : (sub a e).value ≤ (sub b e).value := by
  rw [sub_eq_round left taken, sub_eq_round right taken]
  exact value_round_mono (by linarith)

theorem sub_le {a e : Double} (finite : a.isFinite = true) (taken : e.isFinite = true) (nonneg : 0 ≤ e.value) :
    (sub a e).value ≤ a.value := by
  rw [sub_eq_round finite taken, ← value_round_value finite]
  exact value_round_mono (by rw [value_round_value finite]; linarith)

end Senex.Double
