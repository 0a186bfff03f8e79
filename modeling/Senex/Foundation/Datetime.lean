import Senex.Foundation.Text

/-! # Aware datetimes

`datetime.fromisoformat`, `astimezone(timezone.utc)` and `isoformat` of the
Python 3.11 standard library, with one offset in microseconds for a `tzinfo`.
`fromIsoformat_canonical` reads the canonical UTC text back.
-/

namespace Senex

open Text

namespace Datetime

/-! ## Calendar -/

def isLeap (year : Nat) : Bool :=
  year % 4 == 0 && (year % 100 != 0 || year % 400 == 0)

def daysInMonth (year month : Nat) : Nat :=
  if month = 2 then (if isLeap year then 29 else 28)
  else if month = 4 ∨ month = 6 ∨ month = 9 ∨ month = 11 then 30
  else 31

def daysBeforeYear (year : Nat) : Nat :=
  let y := year - 1
  y * 365 + y / 4 - y / 100 + y / 400

def daysBeforeMonth (year month : Nat) : Nat :=
  [0, 0, 31, 59, 90, 120, 151, 181, 212, 243, 273, 304, 334].getD month 0 +
    (if 2 < month ∧ isLeap year then 1 else 0)

/-- The day number of a date; 1 January of year 1 is day 1. -/
def ymd2ord (year month day : Nat) : Nat :=
  daysBeforeYear year + daysBeforeMonth year month + day

/-- The date of a day number. -/
def ord2ymd (ordinal : Nat) : Nat × Nat × Nat :=
  let n := ordinal - 1
  let n400 := n / 146097
  let n := n % 146097
  let n100 := n / 36524
  let n := n % 36524
  let n4 := n / 1461
  let n := n % 1461
  let n1 := n / 365
  let n := n % 365
  let year := n400 * 400 + 1 + n100 * 100 + n4 * 4 + n1
  if n1 = 4 ∨ n100 = 4 then (year - 1, 12, 31)
  else
    let month := (n + 50) / 32
    if daysBeforeMonth year month ≤ n then (year, month, n - daysBeforeMonth year month + 1)
    else (year, month - 1, n - daysBeforeMonth year (month - 1) + 1)

/-- The day number of the Monday that starts the first ISO week. -/
def isoweek1monday (year : Nat) : Nat :=
  let firstday := ymd2ord year 1 1
  let firstweekday := (firstday + 6) % 7
  if 3 < firstweekday then firstday - firstweekday + 7 else firstday - firstweekday

def isoweekToGregorian (year week day : Nat) : Option (Nat × Nat × Nat) :=
  let firstWeekday := ymd2ord year 1 1 % 7
  let longYear := firstWeekday == 4 || (firstWeekday == 3 && isLeap year)
  if year < 1 ∨ 9999 < year then none
  else if ¬ (0 < week ∧ week < 53) ∧ ¬ (week = 53 ∧ longYear) then none
  else if ¬ (0 < day ∧ day < 8) then none
  else some (ord2ymd (isoweek1monday year + (week - 1) * 7 + (day - 1)))

end Datetime

/-- The date and time of day of a datetime, within their ranges. -/
structure Civil where
  (year month day hour minute second microsecond : Nat)
  valid : 1 ≤ year ∧ year ≤ 9999 ∧ 1 ≤ month ∧ month ≤ 12 ∧
    1 ≤ day ∧ day ≤ Datetime.daysInMonth year month ∧
    hour < 24 ∧ minute < 60 ∧ second < 60 ∧ microsecond < 1000000

/-- A datetime; `offset` is `utcoffset()` in microseconds, absent when naive. -/
structure Datetime where
  civil : Civil
  offset : Option Int

namespace Datetime

/-- `datetime(...)` with its range checks. -/
def civil? (date : Nat × Nat × Nat) (hour minute second microsecond : Nat) : Option Civil :=
  if valid : 1 ≤ date.1 ∧ date.1 ≤ 9999 ∧ 1 ≤ date.2.1 ∧ date.2.1 ≤ 12 ∧
      1 ≤ date.2.2 ∧ date.2.2 ≤ daysInMonth date.1 date.2.1 ∧
      hour < 24 ∧ minute < 60 ∧ second < 60 ∧ microsecond < 1000000 then
    some ⟨date.1, date.2.1, date.2.2, hour, minute, second, microsecond, valid⟩
  else none

theorem civil?_self (c : Civil) :
    civil? (c.year, c.month, c.day) c.hour c.minute c.second c.microsecond = some c := by
  simp [civil?, c.valid]

/-! ## `fromisoformat` -/

/-- The number written by exactly `n` ASCII digits. -/
def number? (n : Nat) (t : Text) : Option Nat :=
  if t.length = n ∧ t.all isDigit then some (toNat t) else none

def charAt (t : Text) (i : Nat) : Nat := t.getD i 0

/-- Where the date ends and the separator stands. -/
def findSeparator (t : Text) : Option Nat :=
  if t.length = 7 then some 7
  else if charAt t 4 = 45 then
    if charAt t 5 = 87 then
      if 8 < t.length ∧ charAt t 8 = 45 then
        if t.length = 9 then none
        else if 10 < t.length ∧ isDigit (charAt t 10) then some 8
        else some 10
      else some 8
    else some 10
  else if charAt t 4 = 87 then
    let idx := 7 + ((t.drop 7).takeWhile isDigit).length
    if idx < 9 then some idx
    else if idx % 2 = 0 then some 7
    else some 8
  else some 8

def parseDate (t : Text) : Option (Nat × Nat × Nat) := do
  let year ← number? 4 (t.take 4)
  let hasSep := charAt t 4 == 45
  let body := t.drop (if hasSep then 5 else 4)
  if charAt body 0 = 87 then
    let week ← number? 2 ((body.drop 1).take 2)
    let rest := body.drop 3
    if rest = [] then isoweekToGregorian year week 1
    else if (charAt rest 0 == 45) != hasSep then none
    else
      let day ← number? 1 ((if hasSep then rest.drop 1 else rest).take 1)
      isoweekToGregorian year week day
  else
    let month ← number? 2 (body.take 2)
    let rest := body.drop 2
    if (charAt rest 0 == 45) != hasSep then none
    else
      let day ← number? 2 ((if hasSep then rest.drop 1 else rest).take 2)
      return (year, month, day)

/-- Up to six digits of a second's fraction, in microseconds; more digits are cut off. -/
def parseFraction (t : Text) : Option Nat :=
  if t.all isDigit ∧ t ≠ [] then
    some (toNat (t.take 6) * 10 ^ (6 - min t.length 6))
  else none

/-- `HH[:?MM[:?SS[{.,}fff[fff]]]]` as hour, minute, second and microsecond. -/
def parseClock (t : Text) : Option (Nat × Nat × Nat × Nat) := do
  let hour ← number? 2 (t.take 2)
  match t.drop 2 with
  | [] => return (hour, 0, 0, 0)
  | c :: rest =>
      let hasSep := c == 58
      let rest := if hasSep then rest else c :: rest
      let minute ← number? 2 (rest.take 2)
      match rest.drop 2 with
      | [] => return (hour, minute, 0, 0)
      | c :: rest =>
          if hasSep && c != 58 then none
          else
            let rest := if hasSep then rest else c :: rest
            let second ← number? 2 (rest.take 2)
            match rest.drop 2 with
            | [] => return (hour, minute, second, 0)
            | c :: rest =>
                if c = 46 ∨ c = 44 then
                  let microsecond ← parseFraction rest
                  return (hour, minute, second, microsecond)
                else none

/-- The index of the first `-`, else the first `+`, else the first `Z`. -/
def zonePosition (t : Text) : Option Nat :=
  (t.idxOf? 45).or ((t.idxOf? 43).or (t.idxOf? 90))

/-- The clock and the offset of a time text. -/
def parseTime (t : Text) : Option ((Nat × Nat × Nat × Nat) × Option Int) :=
  match zonePosition t with
  | none => (parseClock t).map fun clock => (clock, none)
  | some i => do
      let clock ← parseClock (t.take i)
      if charAt t i = 90 ∧ i + 1 = t.length then return (clock, some 0)
      else
        let zone := t.drop (i + 1)
        if zone.length = 0 ∨ zone.length = 1 ∨ zone.length = 3 then none
        else
          let (h, m, s, us) ← parseClock zone
          let offset : Int := (((h * 60 + m) * 60 + s) * 1000000 + us : Nat)
          if offset < 86400000000 then
            return (clock, some (if charAt t i = 45 then -offset else offset))
          else none

/-- `datetime.fromisoformat`; `none` is the `ValueError`. -/
def fromIsoformat (t : Text) : Option Datetime := do
  if t.length < 7 then none
  else
    let separator ← findSeparator t
    let date ← parseDate (t.take separator)
    let rest := t.drop (separator + 1)
    if rest = [] then
      return ⟨← civil? date 0 0 0 0, none⟩
    else
      let ((h, m, s, us), offset) ← parseTime rest
      return ⟨← civil? date h m s us, offset⟩

/-! ## UTC -/

/-- Microseconds since the start of year 1. -/
def toMicros (c : Civil) : Nat :=
  ((((ymd2ord c.year c.month c.day - 1) * 24 + c.hour) * 60 + c.minute) * 60 + c.second) * 1000000 +
    c.microsecond

def ofMicros (n : Nat) : Option Civil :=
  let seconds := n / 1000000
  civil? (ord2ymd (seconds / 86400 + 1)) (seconds / 3600 % 24) (seconds / 60 % 60) (seconds % 60)
    (n % 1000000)

/-- `astimezone(timezone.utc)`; `none` is the `OverflowError` at the ends of the calendar. -/
def toUtc (c : Civil) (offset : Int) : Option Civil :=
  if offset = 0 then some c
  else if (toMicros c : Int) - offset < 0 then none
  else ofMicros ((toMicros c : Int) - offset).toNat

def isoDate (c : Civil) : Text :=
  padded 4 c.year ++ 45 :: padded 2 c.month ++ 45 :: padded 2 c.day

/-- The date, in the order of dates. -/
def dayKey (c : Civil) : Nat := (c.year * 13 + c.month) * 32 + c.day

/-- The fields, in the order in which datetimes of one zone are compared. -/
def orderKey (c : Civil) : Nat :=
  dayKey c * 86400000000 + (((c.hour * 60 + c.minute) * 60 + c.second) * 1000000 + c.microsecond)

theorem dayKey_eq (c : Civil) : dayKey c = orderKey c / 86400000000 := by
  obtain ⟨-, -, -, -, -, -, hour, minute, second, microsecond⟩ := c.valid
  unfold orderKey
  omega

theorem dayKey_le {a b : Civil} (le : orderKey a ≤ orderKey b) : dayKey a ≤ dayKey b := by
  rw [dayKey_eq, dayKey_eq]
  exact Nat.div_le_div_right le

def isoClock (c : Civil) : Text :=
  padded 2 c.hour ++ 58 :: padded 2 c.minute ++ 58 :: padded 2 c.second ++
    46 :: padded 6 c.microsecond

/-- `isoformat(timespec="microseconds")` of a UTC datetime, with `Z` for `+00:00`. -/
def canonical (c : Civil) : Text := isoDate c ++ 84 :: (isoClock c ++ [90])

example : (fromIsoformat (txt "2026-W01-1T01:00+02:30")).bind
    (fun d => d.offset.bind fun o => (toUtc d.civil o).map canonical) =
      some (txt "2025-12-28T22:30:00.000000Z") := by
  decide

/-! ## The canonical text is read back -/

private theorem digit_ne {c d : Nat} (digit : isDigit c = true) (other : isDigit d = false) :
    c ≠ d := by
  rintro rfl
  simp [digit] at other

private theorem number?_padded {width n : Nat} (fits : n < 10 ^ width) :
    number? width (padded width n) = some n := by
  have digits : (padded width n).all isDigit = true :=
    List.all_eq_true.mpr fun _ hc => isDigit_of_mem_padded hc
  simp [number?, digits, toNat_padded width n fits]

private theorem padded_two (n : Nat) : ∃ a b, padded 2 n = [a, b] :=
  ⟨_, _, rfl⟩

private theorem parseDate_canonical (c : Civil) :
    parseDate (isoDate c) = some (c.year, c.month, c.day) := by
  obtain ⟨-, year, -, month, -, day, -⟩ := c.valid
  have day' : c.day < 10 ^ 2 := by
    have : daysInMonth c.year c.month ≤ 31 := by
      unfold daysInMonth
      split
      · split <;> omega
      · split <;> omega
    omega
  have y := @number?_padded 4 c.year (by omega)
  have m := @number?_padded 2 c.month (by omega)
  have d := number?_padded day'
  obtain ⟨m₁, m₂, hm⟩ := padded_two c.month
  obtain ⟨d₁, d₂, hd⟩ := padded_two c.day
  have notWeek : m₁ ≠ 87 :=
    digit_ne (@isDigit_of_mem_padded 2 c.month _ (by simp [hm])) (by decide)
  rw [hm] at m
  rw [hd] at d
  obtain ⟨y₁, y₂, y₃, y₄, hy⟩ : ∃ a b e f, padded 4 c.year = [a, b, e, f] := ⟨_, _, _, _, rfl⟩
  rw [hy] at y
  simp [isoDate, parseDate, charAt, hy, hm, hd, y, m, d, notWeek]

private theorem parseClock_canonical (c : Civil) :
    parseClock (isoClock c) = some (c.hour, c.minute, c.second, c.microsecond) := by
  obtain ⟨-, -, -, -, -, -, hour, minute, second, micro⟩ := c.valid
  have h := @number?_padded 2 c.hour (by omega)
  have m := @number?_padded 2 c.minute (by omega)
  have s := @number?_padded 2 c.second (by omega)
  have us : parseFraction (padded 6 c.microsecond) = some c.microsecond := by
    have digits : (padded 6 c.microsecond).all isDigit = true :=
      List.all_eq_true.mpr fun _ hc => isDigit_of_mem_padded hc
    have nonempty : padded 6 c.microsecond ≠ [] := by simp [padded]
    have whole : (padded 6 c.microsecond).take 6 = padded 6 c.microsecond :=
      List.take_of_length_le (by simp)
    simp only [parseFraction, digits, nonempty, ne_eq, not_false_eq_true, and_self, if_true, whole,
      length_padded, toNat_padded 6 c.microsecond (by omega)]
    simp
  obtain ⟨h₁, h₂, hh⟩ := padded_two c.hour
  obtain ⟨m₁, m₂, hm⟩ := padded_two c.minute
  obtain ⟨s₁, s₂, hs⟩ := padded_two c.second
  rw [hh] at h
  rw [hm] at m
  rw [hs] at s
  simp [isoClock, parseClock, hh, hm, hs, h, m, s, us]

private theorem idxOf?_digits {x : Nat} {clock rest : Text} (absent : x ∉ clock) :
    (clock ++ rest).idxOf? x = (rest.idxOf? x).map (clock.length + ·) := by
  induction clock with
  | nil => simp
  | cons c clock ih =>
      simp only [List.mem_cons, not_or] at absent
      have other : (c == x) = false := by simpa using Ne.symm absent.1
      rw [List.cons_append, List.idxOf?_cons, other, ih absent.2]
      cases rest.idxOf? x <;> simp [Nat.add_right_comm]

private theorem length_isoDate (c : Civil) : (isoDate c).length = 10 := by simp [isoDate]

/-- Two dates have one text just if they are the same. -/
theorem isoDate_eq_iff {a b : Civil} : isoDate a = isoDate b ↔ dayKey a = dayKey b := by
  have inside (c : Civil) : c.day < 32 := by
    obtain ⟨-, -, -, -, -, day, -⟩ := c.valid
    have month : daysInMonth c.year c.month ≤ 31 := by
      unfold daysInMonth
      split_ifs <;> omega
    omega
  have number (c : Civil) : toNat (padded 4 c.year) = c.year ∧ toNat (padded 2 c.month) = c.month ∧
      toNat (padded 2 c.day) = c.day := by
    have day := inside c
    obtain ⟨-, year, -, month, -⟩ := c.valid
    exact ⟨toNat_padded _ _ (by omega), toNat_padded _ _ (by omega), toNat_padded _ _ (by omega)⟩
  obtain ⟨yearA, monthA, dayA⟩ := number a
  obtain ⟨yearB, monthB, dayB⟩ := number b
  constructor
  · intro same
    obtain ⟨front, day⟩ := List.append_inj same (by simp)
    obtain ⟨year, month⟩ := List.append_inj front (by simp)
    rw [List.cons_inj_right] at month day
    rw [year] at yearA
    rw [month] at monthA
    rw [day] at dayA
    unfold dayKey
    omega
  · intro same
    have dayInA := inside a
    have dayInB := inside b
    obtain ⟨-, -, -, monthInA, -⟩ := a.valid
    obtain ⟨-, -, -, monthInB, -⟩ := b.valid
    unfold dayKey at same
    have year : a.year = b.year := by omega
    have month : a.month = b.month := by omega
    have day : a.day = b.day := by omega
    rw [isoDate, isoDate, year, month, day]

private theorem not_mem_padded {x : Nat} (notDigit : isDigit x = false) {width n : Nat} :
    x ∉ padded width n := by
  intro member
  simp [isDigit_of_mem_padded member] at notDigit

private theorem not_mem_isoClock {c : Civil} {x : Nat} (notDigit : isDigit x = false)
    (notColon : x ≠ 58) (notPoint : x ≠ 46) : x ∉ isoClock c := by
  intro member
  simp [isoClock, not_mem_padded notDigit, notColon, notPoint] at member

private theorem findSeparator_canonical (c : Civil) (rest : Text) :
    findSeparator (isoDate c ++ 84 :: rest) = some 10 := by
  obtain ⟨y₁, y₂, y₃, y₄, hy⟩ : ∃ a b e f, padded 4 c.year = [a, b, e, f] := ⟨_, _, _, _, rfl⟩
  obtain ⟨m₁, m₂, hm⟩ := padded_two c.month
  have notWeek : m₁ ≠ 87 :=
    digit_ne (@isDigit_of_mem_padded 2 c.month _ (by simp [hm])) (by decide)
  simp [findSeparator, isoDate, charAt, hy, hm, notWeek]

private theorem parseTime_utc {clock : Text} {parts : Nat × Nat × Nat × Nat}
    (read : parseClock clock = some parts) (noMinus : 45 ∉ clock) (noPlus : 43 ∉ clock) :
    parseTime (clock ++ txt "+00:00") = some (parts, some 0) := by
  have position : zonePosition (clock ++ txt "+00:00") = some clock.length := by
    rw [zonePosition, idxOf?_digits noMinus, idxOf?_digits noPlus]
    rfl
  have front : (clock ++ txt "+00:00").take clock.length = clock := List.take_left
  have back : (clock ++ txt "+00:00").drop (clock.length + 1) = txt "00:00" := by
    rw [List.drop_append, List.drop_of_length_le (by omega), Nat.add_sub_cancel_left]
    rfl
  have sign : charAt (clock ++ txt "+00:00") clock.length = 43 := by
    simp [charAt, txt]
  have zone : parseClock (txt "00:00") = some (0, 0, 0, 0) := by decide
  have width : (txt "00:00").length = 5 := rfl
  simp [parseTime, position, front, read, back, sign, zone, width]

private theorem fromIsoformat_utc (c : Civil) {clock : Text}
    (read : parseClock clock = some (c.hour, c.minute, c.second, c.microsecond))
    (noMinus : 45 ∉ clock) (noPlus : 43 ∉ clock) :
    fromIsoformat (isoDate c ++ 84 :: (clock ++ txt "+00:00")) = some ⟨c, some 0⟩ := by
  have front : (isoDate c ++ 84 :: (clock ++ txt "+00:00")).take 10 = isoDate c := by
    rw [← length_isoDate c, List.take_left]
  have back : (isoDate c ++ 84 :: (clock ++ txt "+00:00")).drop 11 = clock ++ txt "+00:00" := by
    rw [List.drop_append, length_isoDate, List.drop_of_length_le (by simp [length_isoDate])]
    rfl
  have long : ¬ (isoDate c ++ 84 :: (clock ++ txt "+00:00")).length < 7 := by
    rw [List.length_append, length_isoDate]
    omega
  have more : clock ++ txt "+00:00" ≠ [] := by simp [txt]
  simp only [fromIsoformat, long, if_false, findSeparator_canonical, Option.bind_eq_bind,
    Option.bind_some, front, back, more, parseDate_canonical, parseTime_utc read noMinus noPlus,
    civil?_self, Option.pure_def]

/-- The canonical text with `+00:00` for `Z` is read back as that UTC datetime. -/
theorem fromIsoformat_canonical (c : Civil) :
    fromIsoformat (isoDate c ++ 84 :: (isoClock c ++ txt "+00:00")) = some ⟨c, some 0⟩ :=
  fromIsoformat_utc c (parseClock_canonical c) (not_mem_isoClock (by decide) (by decide) (by decide))
    (not_mem_isoClock (by decide) (by decide) (by decide))

/-- `isoformat()` of a UTC datetime. -/
def isoformat (c : Civil) : Text :=
  if c.microsecond = 0 then
    isoDate c ++ 84 :: (padded 2 c.hour ++ 58 :: padded 2 c.minute ++ 58 :: padded 2 c.second ++
      txt "+00:00")
  else isoDate c ++ 84 :: (isoClock c ++ txt "+00:00")

private theorem parseClock_seconds (c : Civil) (whole : c.microsecond = 0) :
    parseClock (padded 2 c.hour ++ 58 :: padded 2 c.minute ++ 58 :: padded 2 c.second) =
      some (c.hour, c.minute, c.second, c.microsecond) := by
  obtain ⟨-, -, -, -, -, -, hour, minute, second, -⟩ := c.valid
  have h := @number?_padded 2 c.hour (by omega)
  have m := @number?_padded 2 c.minute (by omega)
  have s := @number?_padded 2 c.second (by omega)
  obtain ⟨h₁, h₂, hh⟩ := padded_two c.hour
  obtain ⟨m₁, m₂, hm⟩ := padded_two c.minute
  obtain ⟨s₁, s₂, hs⟩ := padded_two c.second
  rw [hh] at h
  rw [hm] at m
  rw [hs] at s
  simp [parseClock, hh, hm, hs, h, m, s, whole]

/-- A UTC datetime is read back from its `isoformat()`. -/
theorem fromIsoformat_isoformat (c : Civil) : fromIsoformat (isoformat c) = some ⟨c, some 0⟩ := by
  unfold isoformat
  split
  · rename_i whole
    apply fromIsoformat_utc c (parseClock_seconds c whole) <;>
      simp [not_mem_padded (show isDigit 45 = false by decide), not_mem_padded (show isDigit 43 = false by decide)]
  · exact fromIsoformat_canonical c

theorem not_mem_isoformat (c : Civil) : 90 ∉ isoformat c := by
  have digits : ∀ {width n}, 90 ∉ padded width n := not_mem_padded (by decide)
  unfold isoformat
  split <;> simp [isoDate, isoClock, digits, txt]

end Datetime

end Senex
