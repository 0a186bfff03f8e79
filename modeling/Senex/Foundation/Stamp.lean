import Senex.Foundation.Nearest
import Senex.Foundation.PyValue

/-! # Stamps of UTC times

`isoformat().replace("+00:00", "Z")` is how the research tools write a time, and
`fromisoformat(text.replace("Z", "+00:00"))` how they read one.
-/

namespace Senex

open Text

/-- `text.replace("+00:00", "Z")` -/
def Text.joinZone : Text → Text
  | [] => []
  | 43 :: 48 :: 48 :: 58 :: 48 :: 48 :: rest => 90 :: joinZone rest
  | c :: rest => c :: joinZone rest

namespace Datetime

/-- `timestamp()` of a UTC time: the seconds since the start of 1970, rounded once. -/
def timestamp (c : Civil) : Double :=
  Double.round ((((toMicros c : Int) - 719162 * 86400000000 : Int) : ℚ) / 1000000)

private theorem toMicros_lt (c : Civil) : toMicros c < 400000000000000000 := by
  obtain ⟨-, year, -, month, -, day, hour, minute, second, micro⟩ := c.valid
  have before : daysBeforeYear c.year ≤ 366 * c.year := by
    simp only [daysBeforeYear]
    omega
  have months : daysBeforeMonth c.year c.month ≤ 335 := by
    have table : ∀ m < 13, [0, 0, 31, 59, 90, 120, 151, 181, 212, 243, 273, 304, 334].getD m 0 ≤ 334 := by decide
    have entry := table c.month (by omega)
    simp only [daysBeforeMonth]
    split <;> omega
  have days : daysInMonth c.year c.month ≤ 31 := by
    simp only [daysInMonth]
    split_ifs <;> omega
  simp only [toMicros, ymd2ord]
  omega

theorem isFinite_timestamp (c : Civil) : (timestamp c).isFinite = true := by
  have bound := toMicros_lt c
  apply Double.isFinite_round (show 1000000000000 < 2 ^ 53 by decide)
  have seconds : |((toMicros c : Int) - 719162 * 86400000000 : Int)| ≤ 1000000 * 1000000000000 := by
    rw [abs_le]
    omega
  rw [abs_div, abs_of_pos (by norm_num : (0 : ℚ) < 1000000), div_le_iff₀ (by norm_num)]
  exact_mod_cast (seconds.trans (by norm_num))

/-- The text of a UTC time, with `Z` for its offset. -/
def stamp (c : Civil) : Text := joinZone (isoformat c)

private theorem joinZone_cons {c : Nat} (other : c ≠ 43) (rest : Text) :
    joinZone (c :: rest) = c :: joinZone rest := by
  rw [joinZone.eq_def]
  split <;> simp_all

private theorem joinZone_append {front : Text} (absent : 43 ∉ front) :
    joinZone (front ++ txt "+00:00") = front ++ [90] := by
  induction front with
  | nil => rfl
  | cons c front ih =>
      simp only [List.mem_cons, not_or] at absent
      rw [List.cons_append, joinZone_cons (Ne.symm absent.1), ih absent.2, List.cons_append]

private theorem not_padded {c : Nat} (other : isDigit c = false) {width n : Nat} : c ∉ padded width n := by
  intro inside
  rw [isDigit_of_mem_padded inside] at other
  cases other

/-- What stands in front of the offset. -/
private theorem isoformat_front (c : Civil) : ∃ front, isoformat c = front ++ txt "+00:00" ∧ 43 ∉ front ∧
    90 ∉ front ∧ ∃ d rest, front = d :: rest ∧ isDigit d = true := by
  have plus {width n : Nat} : 43 ∉ padded width n := not_padded (by decide)
  have zulu {width n : Nat} : 90 ∉ padded width n := not_padded (by decide)
  have first : ∃ d rest, isoDate c = d :: rest ∧ isDigit d = true := by
    have length := length_padded 4 c.year
    cases shape : padded 4 c.year with
    | nil => simp [shape] at length
    | cons d rest =>
        exact ⟨d, _, by rw [isoDate, shape]; rfl, @isDigit_of_mem_padded 4 c.year d (by simp [shape])⟩
  obtain ⟨d, rest, shape, digit⟩ := first
  unfold isoformat
  split
  · refine ⟨isoDate c ++ 84 :: (padded 2 c.hour ++ 58 :: padded 2 c.minute ++ 58 :: padded 2 c.second),
      by simp, by simp [isoDate, plus], by simp [isoDate, zulu], d, _, by rw [shape]; rfl, digit⟩
  · refine ⟨isoDate c ++ 84 :: isoClock c, by simp, by simp [isoDate, isoClock, plus],
      by simp [isoDate, isoClock, zulu], d, _, by rw [shape]; rfl, digit⟩

/-- A stamp is spelled out to the text it was made of. -/
theorem spellZone_stamp (c : Civil) : spellZone (stamp c) = isoformat c := by
  obtain ⟨front, shape, plus, zulu, -⟩ := isoformat_front c
  have plain : front.flatMap (fun c => if c = 90 then txt "+00:00" else [c]) = front := spellZone_eq_self zulu
  rw [stamp, shape, joinZone_append plus, spellZone, List.flatMap_append, plain]
  rfl

theorem strip_stamp (c : Civil) : strip (stamp c) = stamp c := by
  obtain ⟨front, shape, plus, -, d, rest, rfl, digit⟩ := isoformat_front c
  have space := RationalDecimal.isDigit_not_space digit
  rw [stamp, shape, joinZone_append plus]
  apply stripBy_eq_self
  · simpa using space
  · rw [List.getLast?_append]
    simp [isPySpace]

theorem stamp_ne_nil (c : Civil) : stamp c ≠ [] := by
  obtain ⟨front, shape, plus, -⟩ := isoformat_front c
  rw [stamp, shape, joinZone_append plus]
  simp

/-- A stamp is read back as its time. -/
theorem fromIsoformat_stamp (c : Civil) : fromIsoformat (spellZone (stamp c)) = some ⟨c, some 0⟩ := by
  rw [spellZone_stamp, fromIsoformat_isoformat]

@[simp] theorem toUtc_zero (c : Civil) : toUtc c 0 = some c := if_pos rfl

end Datetime

end Senex
