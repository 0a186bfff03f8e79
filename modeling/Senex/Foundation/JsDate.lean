import Senex.Foundation.Calendar

/-! # `Date` of JavaScript

A time value counts milliseconds from 1970, at most 8.64e15 of them either way.  Texts of the Date Time
String Format with seconds and a zone are read here, with any number of digits in the fraction; how an
engine reads other texts is a parameter.
-/

namespace Senex

namespace Text

/-! ## Runs of digits -/

theorem toNat_concat (t : Text) (c : Nat) : toNat (t ++ [c]) = 10 * toNat t + (c - 48) := by
  simp [toNat]

theorem toNat_lt {t : Text} (digits : ∀ c ∈ t, isDigit c = true) : toNat t < 10 ^ t.length := by
  induction t using List.reverseRecOn with
  | nil => simp [toNat]
  | append_singleton t c ih =>
      have unit : isDigit c = true := digits c (by simp)
      have lower := ih fun d hd => digits d (List.mem_append_left _ hd)
      simp only [isDigit, Bool.and_eq_true, decide_eq_true_eq] at unit
      rw [toNat_concat, List.length_append, List.length_singleton, Nat.pow_succ]
      omega

/-- Digits are read back as they stand. -/
theorem padded_toNat {t : Text} (digits : ∀ c ∈ t, isDigit c = true) : padded t.length (toNat t) = t := by
  induction t using List.reverseRecOn with
  | nil => rfl
  | append_singleton t c ih =>
      have unit : isDigit c = true := digits c (by simp)
      simp only [isDigit, Bool.and_eq_true, decide_eq_true_eq] at unit
      have higher : (10 * toNat t + (c - 48)) / 10 = toNat t := by omega
      have last : 48 + (10 * toNat t + (c - 48)) % 10 = c := by omega
      rw [List.length_append, List.length_singleton, toNat_concat, padded, higher, last,
        ih fun d hd => digits d (List.mem_append_left _ hd)]

@[simp] theorem isDigit_unit (n : Nat) : isDigit (48 + n % 10) = true := by
  simp only [isDigit, Bool.and_eq_true, decide_eq_true_eq]
  omega

/-- Whether a text is the shape with a digit for each `0`. -/
def fits (shape t : Text) : Bool :=
  shape.length == t.length && (shape.zip t).all fun p => if p.1 = 48 then isDigit p.2 else p.1 == p.2

/-- `text.padEnd(width, "0")` -/
def padEnd (width : Nat) (t : Text) : Text := t ++ List.replicate (width - t.length) 48

@[simp] theorem fits_nil {t : Text} : fits [] t = true ↔ t = [] := by
  cases t <;> simp [fits]

/-- A digit of the shape. -/
theorem fits_zero_cons {shape t : Text} :
    fits (48 :: shape) t = true ↔ ∃ c rest, t = c :: rest ∧ isDigit c = true ∧ fits shape rest = true := by
  cases t with
  | nil => simp [fits]
  | cons c rest =>
      simp only [fits, List.length_cons, List.zip_cons_cons, List.all_cons, if_true, Bool.and_eq_true, beq_iff_eq,
        Nat.add_right_cancel_iff, List.cons.injEq]
      constructor
      · rintro ⟨same, digit, rest'⟩
        exact ⟨c, rest, ⟨rfl, rfl⟩, digit, same, rest'⟩
      · rintro ⟨_, _, ⟨rfl, rfl⟩, digit, same, rest'⟩
        exact ⟨same, digit, rest'⟩

/-- Another character of the shape. -/
theorem fits_cons {p : Nat} {shape t : Text} (mark : p ≠ 48) :
    fits (p :: shape) t = true ↔ ∃ rest, t = p :: rest ∧ fits shape rest = true := by
  cases t with
  | nil => simp [fits]
  | cons c rest =>
      simp only [fits, List.length_cons, List.zip_cons_cons, List.all_cons, if_neg mark, Bool.and_eq_true, beq_iff_eq,
        Nat.add_right_cancel_iff, List.cons.injEq]
      constructor
      · rintro ⟨same, rfl, rest'⟩
        exact ⟨rest, ⟨rfl, rfl⟩, same, rest'⟩
      · rintro ⟨_, ⟨rfl, rfl⟩, same, rest'⟩
        exact ⟨same, rfl, rest'⟩

/-- A run of digits of the shape. -/
theorem fits_zeros_append {n : Nat} {shape t : Text} : fits (List.replicate n 48 ++ shape) t = true ↔
    ∃ run rest, t = run ++ rest ∧ run.length = n ∧ (∀ c ∈ run, isDigit c = true) ∧ fits shape rest = true := by
  induction n generalizing t with
  | zero =>
      constructor
      · intro matched
        exact ⟨[], t, rfl, rfl, by simp, matched⟩
      · rintro ⟨run, rest, rfl, length, -, matched⟩
        obtain rfl := List.eq_nil_of_length_eq_zero length
        exact matched
  | succ n ih =>
      rw [List.replicate_succ, List.cons_append, fits_zero_cons]
      constructor
      · rintro ⟨c, _, rfl, digit, matched⟩
        obtain ⟨run, rest, rfl, rfl, digits, matched⟩ := ih.mp matched
        exact ⟨c :: run, rest, rfl, rfl, by simpa [digit] using digits, matched⟩
      · rintro ⟨run, rest, rfl, length, digits, matched⟩
        cases run with
        | nil => simp at length
        | cons c run =>
            refine ⟨c, run ++ rest, rfl, digits c (by simp), ih.mpr ⟨run, rest, rfl, by simpa using length, ?_, matched⟩⟩
            intro d hd
            exact digits d (List.mem_cons_of_mem _ hd)

theorem fits_zeros {n : Nat} {t : Text} :
    fits (List.replicate n 48) t = true ↔ t.length = n ∧ ∀ c ∈ t, isDigit c = true := by
  have runs := @fits_zeros_append n [] t
  simpa using runs

end Text

namespace JsDate

open Text

/-! ## Days -/

/-- The day number of 1 January 1970, where a million years are put before year 1. -/
def epoch : Int := 365242500 + 719163

/-- The day of a date, from 1 January 1970. -/
def dayOfDate (year : Int) (month day : Nat) : Int :=
  Datetime.ymd2ord (year + 1000000).toNat month day - epoch

def dateOfDay (day : Int) : Int × Nat × Nat :=
  let (year, month, date) := Datetime.ord2ymd (day + epoch).toNat
  ((year : Int) - 1000000, month, date)

/-! ## Printing -/

/-- Four digits, or a sign and six. -/
def yearText (year : Int) : Text :=
  if 0 ≤ year ∧ year ≤ 9999 then padded 4 year.toNat
  else (if year < 0 then 45 else 43) :: padded 6 year.natAbs

/-- `new Date(t).toISOString()` -/
def toISOString (t : Int) : Text :=
  let (year, month, day) := dateOfDay (t / 86400000)
  let ms := (t % 86400000).toNat
  yearText year ++ 45 :: (padded 2 month ++ 45 :: (padded 2 day ++ 84 :: (padded 2 (ms / 3600000) ++
    58 :: (padded 2 (ms / 60000 % 60) ++ 58 :: (padded 2 (ms / 1000 % 60) ++
      46 :: (padded 3 (ms % 1000) ++ [90]))))))

/-! ## Reading -/

/-- The year, and what follows it.  There is no year `-000000`. -/
def readYear (t : Text) : Option (Int × Text) :=
  match t with
  | 43 :: rest => if fits (txt "000000") (rest.take 6) then some ((toNat (rest.take 6) : Int), rest.drop 6) else none
  | 45 :: rest =>
      if fits (txt "000000") (rest.take 6) ∧ toNat (rest.take 6) ≠ 0 then
        some (-(toNat (rest.take 6) : Int), rest.drop 6)
      else none
  | rest => if fits (txt "0000") (rest.take 4) then some ((toNat (rest.take 4) : Int), rest.drop 4) else none

/-- The digits after a point, and what follows them. -/
def readFraction (t : Text) : Option (Text × Text) :=
  match t with
  | 46 :: rest =>
      if rest.takeWhile isDigit = [] then none else some (rest.takeWhile isDigit, rest.dropWhile isDigit)
  | rest => some ([], rest)

/-- The minutes that a zone is ahead of UTC. -/
def readZone (t : Text) : Option Int :=
  match t with
  | [90] => some 0
  | sign :: clock =>
      let ahead : Int := toNat (clock.take 2) * 60 + toNat (clock.drop 3)
      if fits (txt "00:00") clock ∧ toNat (clock.take 2) < 24 ∧ toNat (clock.drop 3) < 60 then
        if sign = 43 then some ahead else if sign = 45 then some (-ahead) else none
      else none
  | [] => none

/-- The instant of a date, a time of day and a zone, in microseconds from 1970. -/
def instantOf (year : Int) (month day hour minute second micro : Nat) (offset : Int) : Int :=
  ((((dayOfDate year month day * 24 + hour) * 60 + minute) * 60 + second) - offset * 60) * 1000000 + micro

/-- The instant of a text in the Date Time String Format, in whole microseconds. -/
def readMicros (t : Text) : Option Int := do
  let (year, rest) ← readYear t
  let (fraction, zone) ← readFraction (rest.drop 15)
  let offset ← readZone zone
  let month := toNat ((rest.drop 1).take 2)
  let day := toNat ((rest.drop 4).take 2)
  let hour := toNat ((rest.drop 7).take 2)
  let minute := toNat ((rest.drop 10).take 2)
  let second := toNat ((rest.drop 13).take 2)
  if fits (txt "-00-00T00:00:00") (rest.take 15) ∧ Datetime.IsDate (year + 1000000).toNat month day ∧
      minute < 60 ∧ second < 60 ∧
      (hour < 24 ∨ hour = 24 ∧ minute = 0 ∧ second = 0 ∧ fraction.all (· = 48)) then
    some (instantOf year month day hour minute second (toNat (padEnd 6 (fraction.take 6))) offset)
  else none

/-- The range of a time value. -/
def InRange (t : Int) : Prop := -8640000000000000 ≤ t ∧ t ≤ 8640000000000000

instance (t : Int) : Decidable (InRange t) := inferInstanceAs (Decidable (_ ∧ _))

/-- `new Date(x).getTime()`, where `other` reads what is not in the format. -/
def getTime (other : Text → Option Int) (x : Text) : Option Int :=
  (match readMicros x with
    | some micros => some (micros / 1000)
    | none => other x).filter fun t => decide (InRange t)

/-- The instant of a text in microseconds; that of a text out of the format is what the engine reads. -/
def instant (other : Text → Option Int) (x : Text) : Option Int :=
  match readMicros x with
  | some micros => some micros
  | none => (other x).map (· * 1000)

/-! ## Moments -/

/-- A moment of UTC in the calendar, with years of at most six digits. -/
structure Moment where
  year : Int
  (month day hour minute second micro : Nat)
  valid : -999999 ≤ year ∧ year ≤ 999999 ∧ Datetime.IsDate (year + 1000000).toNat month day ∧
    hour < 24 ∧ minute < 60 ∧ second < 60 ∧ micro < 1000000

/-- Its instant in microseconds. -/
def Moment.micros (m : Moment) : Int := instantOf m.year m.month m.day m.hour m.minute m.second m.micro 0

/-- From the hyphen after the year to the seconds. -/
def Moment.clock (m : Moment) : Text :=
  45 :: (padded 2 m.month ++ 45 :: (padded 2 m.day ++ 84 :: (padded 2 m.hour ++ 58 :: (padded 2 m.minute ++
    58 :: padded 2 m.second))))

/-- The text up to the seconds. -/
def Moment.front (m : Moment) : Text := yearText m.year ++ m.clock

/-- The text with six digits after the point. -/
def Moment.text (m : Moment) : Text := m.front ++ 46 :: (padded 6 m.micro ++ [90])

theorem padded_two (n : Nat) : padded 2 n = [48 + n / 10 % 10, 48 + n % 10] := rfl

theorem Moment.day_lt (m : Moment) : m.day < 32 := by
  obtain ⟨-, -, ⟨-, -, -, last⟩, -⟩ := m.valid
  unfold Datetime.daysInMonth at last
  split_ifs at last <;> omega

theorem fits_padded (width n : Nat) : fits (List.replicate width 48) (padded width n) = true :=
  fits_zeros.mpr ⟨length_padded width n, fun _ hc => isDigit_of_mem_padded hc⟩

/-- Four digits start with no sign. -/
theorem readYear_digits {t : Text} (four : fits (txt "0000") (t.take 4) = true) :
    readYear t = some ((toNat (t.take 4) : Int), t.drop 4) := by
  have digit : ∀ c ∈ t.head?, isDigit c = true := by
    cases t with
    | nil => simp
    | cons c rest =>
        obtain ⟨d, after, same, digit, -⟩ := fits_zero_cons.mp four
        cases same
        simpa using digit
  unfold readYear
  split
  · exact absurd (digit 43 rfl) (by decide)
  · exact absurd (digit 45 rfl) (by decide)
  · rw [if_pos four]

theorem readYear_yearText {year : Int} (low : -999999 ≤ year) (high : year ≤ 999999) (rest : Text) :
    readYear (yearText year ++ rest) = some (year, rest) := by
  have six : fits (txt "000000") (padded 6 year.natAbs) = true := fits_padded 6 year.natAbs
  have value := toNat_padded 6 year.natAbs (by omega)
  have taken : (padded 6 year.natAbs ++ rest).take 6 = padded 6 year.natAbs := by simp
  have dropped : (padded 6 year.natAbs ++ rest).drop 6 = rest := by simp
  unfold yearText
  split_ifs with four below
  · have value := toNat_padded 4 year.toNat (by omega)
    have taken : (padded 4 year.toNat ++ rest).take 4 = padded 4 year.toNat := by simp
    have dropped : (padded 4 year.toNat ++ rest).drop 4 = rest := by simp
    rw [readYear_digits (by rw [taken]; exact fits_padded 4 _), taken, dropped, value]
    simp only [Option.some.injEq, Prod.mk.injEq, and_true]
    omega
  · simp only [List.cons_append, readYear, taken, dropped, value]
    rw [if_pos ⟨six, by omega⟩]
    simp only [Option.some.injEq, Prod.mk.injEq, and_true]
    omega
  · simp only [List.cons_append, readYear, taken, dropped, value]
    rw [if_pos six]
    simp only [Option.some.injEq, Prod.mk.injEq, and_true]
    omega

theorem readFraction_digits {digits rest : Text} (nonempty : digits ≠ []) (run : ∀ c ∈ digits, isDigit c = true)
    (ends : ∀ c ∈ rest.head?, isDigit c = false) : readFraction (46 :: (digits ++ rest)) = some (digits, rest) := by
  have taken : (digits ++ rest).takeWhile isDigit = digits := by
    rw [List.takeWhile_append_of_pos run]
    cases rest with
    | nil => simp
    | cons c rest => simp [ends c rfl]
  have dropped : (digits ++ rest).dropWhile isDigit = rest := by
    rw [List.dropWhile_append_of_pos run]
    cases rest with
    | nil => simp
    | cons c rest => simp [ends c rfl]
  simp only [readFraction, taken, dropped]
  rw [if_neg nonempty]

theorem digits_of_readFraction {t digits rest : Text} (cut : readFraction t = some (digits, rest)) :
    ∀ c ∈ digits, isDigit c = true := by
  unfold readFraction at cut
  split at cut
  · simp only [Option.ite_none_left_eq_some, Option.some.injEq, Prod.mk.injEq] at cut
    obtain ⟨-, rfl, -⟩ := cut
    exact fun c member => List.all_eq_true.mp List.all_takeWhile c member
  · simp only [Option.some.injEq, Prod.mk.injEq] at cut
    simp [← cut.1]

/-- The text of a moment is read back. -/
theorem readMicros_text (m : Moment) : readMicros m.text = some m.micros := by
  obtain ⟨low, high, date, hour, minute, second, micro⟩ := m.valid
  have day := m.day_lt
  have month : m.month ≤ 12 := date.2.1
  have year := readYear_yearText low high (m.clock ++ 46 :: (padded 6 m.micro ++ [90]))
  have fraction : readFraction (46 :: (padded 6 m.micro ++ [90])) = some (padded 6 m.micro, [90]) :=
    readFraction_digits (by simp [padded]) (fun _ hc => isDigit_of_mem_padded hc) (by simp [isDigit])
  have whole : padEnd 6 ((padded 6 m.micro).take 6) = padded 6 m.micro := by simp [padEnd]
  have shape : fits (txt "-00-00T00:00:00") m.clock = true := by
    simp [fits, Moment.clock, padded_two, txt]
  have split (rest : Text) : (m.clock ++ rest).take 15 = m.clock ∧ (m.clock ++ rest).drop 15 = rest := by
    simp [Moment.clock, padded_two]
  have parts (rest : Text) : ((m.clock ++ rest).drop 1).take 2 = padded 2 m.month ∧
      ((m.clock ++ rest).drop 4).take 2 = padded 2 m.day ∧ ((m.clock ++ rest).drop 7).take 2 = padded 2 m.hour ∧
      ((m.clock ++ rest).drop 10).take 2 = padded 2 m.minute ∧
      ((m.clock ++ rest).drop 13).take 2 = padded 2 m.second := by
    simp [Moment.clock, padded_two]
  obtain ⟨h1, h2, h3, h4, h5⟩ := parts (46 :: (padded 6 m.micro ++ [90]))
  obtain ⟨taken, dropped⟩ := split (46 :: (padded 6 m.micro ++ [90]))
  have zone : readZone [90] = some 0 := rfl
  unfold readMicros Moment.text Moment.front
  rw [List.append_assoc, year]
  simp only [Option.bind_eq_bind, Option.bind_some, dropped, fraction, zone, taken, h1, h2, h3, h4, h5, whole]
  rw [toNat_padded 2 m.month (by omega), toNat_padded 2 m.day (by omega), toNat_padded 2 m.hour (by omega),
    toNat_padded 2 m.minute (by omega), toNat_padded 2 m.second (by omega), toNat_padded 6 m.micro (by omega)]
  exact if_pos ⟨shape, date, minute, second, .inl hour⟩

/-! ## The order of moments -/

/-- The first field that differs is the lower one. -/
def Moment.Earlier (a b : Moment) : Prop :=
  a.year < b.year ∨ a.year = b.year ∧ (a.month < b.month ∨ a.month = b.month ∧ (a.day < b.day ∨ a.day = b.day ∧
    (a.hour < b.hour ∨ a.hour = b.hour ∧ (a.minute < b.minute ∨ a.minute = b.minute ∧
      (a.second < b.second ∨ a.second = b.second ∧ a.micro < b.micro)))))

theorem Moment.earlier_or (a b : Moment) : a.Earlier b ∨ a = b ∨ b.Earlier a := by
  unfold Earlier
  by_cases same : a.year = b.year ∧ a.month = b.month ∧ a.day = b.day ∧ a.hour = b.hour ∧ a.minute = b.minute ∧
      a.second = b.second ∧ a.micro = b.micro
  · right
    left
    cases a
    cases b
    simp_all
  · omega

theorem dayOfDate_lt {a b : Moment} (less : a.year < b.year ∨ a.year = b.year ∧ (a.month < b.month ∨
    a.month = b.month ∧ a.day < b.day)) :
    dayOfDate a.year a.month a.day < dayOfDate b.year b.month b.day := by
  obtain ⟨low, -, date, -⟩ := a.valid
  obtain ⟨low', -, date', -⟩ := b.valid
  have later := Datetime.ymd2ord_lt_of_isDate (by omega) date date' (by omega)
  unfold dayOfDate
  omega

theorem Moment.micros_lt {a b : Moment} (less : a.Earlier b) : a.micros < b.micros := by
  obtain ⟨-, -, -, hour, minute, second, micro⟩ := a.valid
  obtain ⟨-, -, -, hour', minute', second', micro'⟩ := b.valid
  unfold micros instantOf
  rcases less with h | ⟨e, h | ⟨e', h | ⟨e'', h⟩⟩⟩
  · have := dayOfDate_lt (.inl h)
    omega
  · have := dayOfDate_lt (.inr ⟨e, .inl h⟩)
    omega
  · have := dayOfDate_lt (.inr ⟨e, .inr ⟨e', h⟩⟩)
    omega
  · rw [e, e', e'']
    omega

/-- A year of four digits. -/
def Moment.Short (m : Moment) : Prop := 0 ≤ m.year ∧ m.year ≤ 9999

theorem Moment.text_lt {a b : Moment} (short : a.Short) (short' : b.Short) (less : a.Earlier b) : a.text < b.text := by
  obtain ⟨-, -, ⟨-, month, -⟩, hour, minute, second, micro⟩ := b.valid
  have day := b.day_lt
  unfold Short at short short'
  have plain (m : Moment) (short : 0 ≤ m.year ∧ m.year ≤ 9999) : m.text = padded 4 m.year.toNat ++
      45 :: (padded 2 m.month ++ 45 :: (padded 2 m.day ++ 84 :: (padded 2 m.hour ++ 58 :: (padded 2 m.minute ++
        58 :: (padded 2 m.second ++ 46 :: (padded 6 m.micro ++ [90])))))) := by
    simp [text, front, clock, yearText, short]
  rw [plain a short, plain b short']
  refine padded_append_lt (by omega) ((less.imp (by omega) (And.imp (by omega) fun rest => .cons ?_)))
  refine padded_append_lt (by omega) (rest.imp_right (And.imp_right fun rest => .cons ?_))
  refine padded_append_lt (by omega) (rest.imp_right (And.imp_right fun rest => .cons ?_))
  refine padded_append_lt (by omega) (rest.imp_right (And.imp_right fun rest => .cons ?_))
  refine padded_append_lt (by omega) (rest.imp_right (And.imp_right fun rest => .cons ?_))
  refine padded_append_lt (by omega) (rest.imp_right (And.imp_right fun rest => .cons ?_))
  exact append_lt_of_length (padded_lt rest micro) (by simp) _ _

/-- The texts of years of four digits stand in the order of the instants. -/
theorem Moment.text_lt_iff {a b : Moment} (short : a.Short) (short' : b.Short) :
    a.text < b.text ↔ a.micros < b.micros := by
  rcases a.earlier_or b with earlier | rfl | later
  · exact iff_of_true (text_lt short short' earlier) (micros_lt earlier)
  · exact iff_of_false (lt_irrefl _) (lt_irrefl _)
  · exact iff_of_false (text_lt short' short later).asymm (micros_lt later).asymm

theorem Moment.micros_inj {a b : Moment} : a.micros = b.micros ↔ a = b := by
  constructor
  · intro same
    rcases a.earlier_or b with earlier | equal | later
    · exact absurd same (micros_lt earlier).ne
    · exact equal
    · exact absurd same (micros_lt later).ne'
  · rintro rfl
    rfl

/-! ## The moment of a time value -/

theorem dayOfDate_dateOfDay {day : Int} (low : -100000000 ≤ day) (high : day ≤ 100000000) :
    ∃ year month date, dateOfDay day = (year, month, date) ∧ -999999 ≤ year ∧ year ≤ 999999 ∧
      Datetime.IsDate (year + 1000000).toNat month date ∧ dayOfDate year month date = day := by
  have value : epoch = 365961663 := rfl
  obtain ⟨year, month, date, same, least, isDate, number⟩ :=
    @Datetime.ymd2ord_ord2ymd (day + epoch).toNat (by omega)
  have months : Datetime.daysBeforeMonth year month + date ≤ 366 := by
    have ends := Datetime.daysBeforeMonth_last year isDate.1 isDate.2.1
    have last := isDate.2.2.2
    split_ifs at ends <;> omega
  have bounds : 1 ≤ year ∧ year < 1999999 ∧ 1 < year := by
    simp only [Datetime.ymd2ord, Datetime.daysBeforeYear] at number
    omega
  have shifted : ((year : Int) - 1000000 + 1000000).toNat = year := by omega
  refine ⟨(year : Int) - 1000000, month, date, by simp [dateOfDay, same], by omega, by omega, ?_, ?_⟩
  · rwa [shifted]
  · rw [dayOfDate, shifted, number]
    omega

/-- What `toISOString` prints is a moment with a whole number of milliseconds. -/
theorem exists_moment {t : Int} (range : InRange t) : ∃ (m : Moment) (ms : Nat), m.micros = t * 1000 ∧
    m.micro = ms * 1000 ∧ toISOString t = m.front ++ 46 :: (padded 3 ms ++ [90]) := by
  unfold InRange at range
  obtain ⟨year, month, date, same, low, high, isDate, number⟩ :=
    @dayOfDate_dateOfDay (t / 86400000) (by omega) (by omega)
  obtain ⟨ms, value, below⟩ : ∃ ms : Nat, (ms : Int) = t % 86400000 ∧ ms < 86400000 :=
    ⟨(t % 86400000).toNat, by omega, by omega⟩
  let m : Moment := ⟨year, month, date, ms / 3600000, ms / 60000 % 60, ms / 1000 % 60, ms % 1000 * 1000,
    low, high, isDate, by omega, by omega, by omega, by omega⟩
  refine ⟨m, ms % 1000, ?_, rfl, ?_⟩
  · show instantOf year month date (ms / 3600000) (ms / 60000 % 60) (ms / 1000 % 60) (ms % 1000 * 1000) 0 = _
    rw [instantOf, number]
    omega
  · have whole : (t % 86400000).toNat = ms := by omega
    simp [toISOString, same, whole, Moment.front, Moment.clock, m]

/-! ## Texts of UTC -/

/-- A date and a time of day to the second, as they are written. -/
theorem exists_fields {s : Text} (shape : fits (txt "0000-00-00T00:00:00") s = true) :
    ∃ year month day hour minute second : Text, s = year ++ 45 :: (month ++ 45 :: (day ++ 84 :: (hour ++
        58 :: (minute ++ 58 :: second)))) ∧ year.length = 4 ∧
      (∀ part ∈ [month, day, hour, minute, second], part.length = 2) ∧
      ∀ part ∈ [year, month, day, hour, minute, second], ∀ c ∈ part, isDigit c = true := by
  have literal : txt "0000-00-00T00:00:00" = List.replicate 4 48 ++ 45 :: (List.replicate 2 48 ++
      45 :: (List.replicate 2 48 ++ 84 :: (List.replicate 2 48 ++ 58 :: (List.replicate 2 48 ++
        58 :: List.replicate 2 48)))) := rfl
  rw [literal] at shape
  obtain ⟨year, _, rfl, four, digits, fromYear⟩ := fits_zeros_append.mp shape
  obtain ⟨_, rfl, afterYear⟩ := (fits_cons (by decide)).mp fromYear
  obtain ⟨month, _, rfl, two, digits₁, fromMonth⟩ := fits_zeros_append.mp afterYear
  obtain ⟨_, rfl, afterMonth⟩ := (fits_cons (by decide)).mp fromMonth
  obtain ⟨day, _, rfl, two₁, digits₂, fromDay⟩ := fits_zeros_append.mp afterMonth
  obtain ⟨_, rfl, afterDay⟩ := (fits_cons (by decide)).mp fromDay
  obtain ⟨hour, _, rfl, two₂, digits₃, fromHour⟩ := fits_zeros_append.mp afterDay
  obtain ⟨_, rfl, afterHour⟩ := (fits_cons (by decide)).mp fromHour
  obtain ⟨minute, _, rfl, two₃, digits₄, fromMinute⟩ := fits_zeros_append.mp afterHour
  obtain ⟨second, rfl, afterMinute⟩ := (fits_cons (by decide)).mp fromMinute
  obtain ⟨two₄, digits₅⟩ := fits_zeros.mp afterMinute
  refine ⟨year, month, day, hour, minute, second, rfl, four, ?_, ?_⟩
  · simp [two, two₁, two₂, two₃, two₄]
  · intro part member
    simp only [List.mem_cons, List.not_mem_nil, or_false] at member
    rcases member with rfl | rfl | rfl | rfl | rfl | rfl <;> assumption

/-- A text of UTC that is read, before the hour 24, is that of a moment. -/
theorem moment_of_readMicros {x fraction zone : Text} {micros : Int}
    (shape : fits (txt "0000-00-00T00:00:00") (x.take 19) = true)
    (cut : readFraction (x.drop 19) = some (fraction, zone)) (digits : ∀ c ∈ fraction, isDigit c = true)
    (utc : readZone zone = some 0) (read : readMicros x = some micros) (hour : (x.drop 11).take 2 ≠ txt "24") :
    ∃ m : Moment, m.Short ∧ m.front = x.take 19 ∧ padded 6 m.micro = padEnd 6 (fraction.take 6) ∧
      m.micros = micros := by
  obtain ⟨year, month, day, hour', minute, second, front, four, two, run⟩ := exists_fields shape
  simp only [List.mem_cons, List.not_mem_nil, or_false, forall_eq_or_imp, forall_eq] at two run
  obtain ⟨two, two₁, two₂, two₃, two₄⟩ := two
  obtain ⟨run, run₁, run₂, run₃, run₄, run₅⟩ := run
  obtain ⟨m, m', rfl⟩ := List.length_eq_two.mp two
  obtain ⟨d, d', rfl⟩ := List.length_eq_two.mp two₁
  obtain ⟨h, h', rfl⟩ := List.length_eq_two.mp two₂
  obtain ⟨n, n', rfl⟩ := List.length_eq_two.mp two₃
  obtain ⟨s, s', rfl⟩ := List.length_eq_two.mp two₄
  obtain ⟨tail, whole, cut⟩ : ∃ tail, x = year ++ 45 :: m :: m' :: 45 :: d :: d' :: 84 :: h :: h' :: 58 :: n :: n' ::
      58 :: s :: s' :: tail ∧ readFraction tail = some (fraction, zone) :=
    ⟨x.drop 19, by conv_lhs => rw [← List.take_append_drop 19 x, front]; simp, cut⟩
  have start : readYear x = some ((toNat year : Int), x.drop 4) := by
    have taken : x.take 4 = year := by rw [whole, List.take_left' four]
    rw [readYear_digits (by rw [taken]; exact fits_zeros.mpr ⟨four, run⟩), taken]
  have rest : x.drop 4 = 45 :: m :: m' :: 45 :: d :: d' :: 84 :: h :: h' :: 58 :: n :: n' :: 58 :: s :: s' :: tail := by
    rw [whole, List.drop_left' four]
  have slice : (x.drop 11).take 2 = [h, h'] := by
    have : x.drop 11 = (x.drop 4).drop 7 := by rw [List.drop_drop]
    rw [this, rest]
    rfl
  unfold readMicros at read
  rw [start] at read
  simp only [rest, Option.bind_eq_bind, Option.bind_some, List.drop_succ_cons, List.drop_zero, cut, utc,
    List.take_succ_cons, List.take_zero] at read
  split_ifs at read with legal
  have pair {c c' : Nat} (run : ∀ e ∈ [c, c'], isDigit e = true) : padded 2 (toNat [c, c']) = [c, c'] :=
    padded_toNat run
  obtain ⟨-, date, minutes, seconds, hours⟩ := legal
  have before : toNat [h, h'] < 24 := by
    rcases hours with less | ⟨last, -⟩
    · exact less
    · have back := pair run₃
      rw [last] at back
      exact absurd (slice.trans back.symm) hour
  have years : toNat year < 10000 := by simpa [four] using toNat_lt run
  have six : (padEnd 6 (fraction.take 6)).length = 6 := by
    simp only [padEnd, List.length_append, List.length_take, List.length_replicate]
    omega
  have run₆ : ∀ c ∈ padEnd 6 (fraction.take 6), isDigit c = true := by
    intro c member
    rcases List.mem_append.mp member with given | zero
    · exact digits c (List.mem_of_mem_take given)
    · rw [List.eq_of_mem_replicate zero]
      rfl
  have limit : toNat (padEnd 6 (fraction.take 6)) < 1000000 := by simpa [six] using toNat_lt run₆
  have back₆ := padded_toNat run₆
  rw [six] at back₆
  refine ⟨⟨toNat year, _, _, _, _, _, _, by omega, by omega, date, before, minutes, seconds, limit⟩,
    ⟨by simp, by simp; omega⟩, ?_, back₆, by simpa [Moment.micros] using read⟩
  have back := padded_toNat run
  rw [four] at back
  rw [front]
  simp only [Moment.front, Moment.clock, yearText, Int.toNat_natCast]
  rw [if_pos (by omega), back]
  rw [pair run₁, pair run₂, pair run₃, pair run₄, pair run₅]

end JsDate

end Senex
