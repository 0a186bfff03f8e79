import Senex.Foundation.JsDate
import Senex.Gateway.Row

/-! # Timestamps of the gateway

`utc6` is the form in which an instant is stored.  A text of UTC to the second keeps its fraction, cut to
six digits; every other text goes through `Date`, which counts milliseconds.  How `Date` reads a text out of
its format is the parameter `other`.
-/

namespace Senex.Gateway

open Text JsDate

/-- The groups of `/^(\d{4}-\d{2}-\d{2}T\d{2}:\d{2}:\d{2})(?:\.(\d{1,9}))?(Z|\+00:00)$/` before the zone. -/
def matchUtc (x : Text) : Option (Text × Text) :=
  match readFraction (x.drop 19) with
  | some (fraction, zone) =>
      if fits (txt "0000-00-00T00:00:00") (x.take 19) ∧ fraction.length ≤ 9 ∧
          (zone = txt "Z" ∨ zone = txt "+00:00") then
        some (x.take 19, fraction)
      else none
  | none => none

/-- `x.replace(/\.(\d{3})Z$/, ".$1000Z")` -/
def widenFraction (x : Text) : Text :=
  let tail := x.drop (x.length - 5)
  if fits (txt ".000Z") tail then x.take (x.length - 5) ++ tail.take 4 ++ txt "000Z" else x

def utc6 (other : Text → Option Int) (x : Text) : Except Text Text :=
  match matchUtc x with
  | some (seconds, fraction) => .ok (seconds ++ 46 :: (padEnd 6 (fraction.take 6) ++ txt "Z"))
  | none =>
      match getTime other x with
      | some t => .ok (widenFraction (toISOString t))
      | none => .error (txt "invalid timestamp")

example (other : Text → Option Int) :
    utc6 other (txt "2026-01-01T00:00:00.1234567+00:00") = .ok (txt "2026-01-01T00:00:00.123456Z") ∧
      utc6 other (txt "2026-01-01T02:00:00.1234567+02:00") = .ok (txt "2026-01-01T00:00:00.123000Z") := by
  constructor <;> rfl

/-! ## What is stored -/

/-- What stands before the fraction of a stored timestamp: a year of four digits, or a sign and six. -/
structure Front (t : Text) : Prop where
  head : ∃ c rest, t = c :: rest ∧ (isDigit c = true ∧ rest.length = 18 ∨ (c = 43 ∨ c = 45) ∧ rest.length = 21)
  last : ∀ c ∈ t.getLast?, isDigit c = true

/-- A stored timestamp, with the six digits of its fraction. -/
structure Stored (a front fraction : Text) : Prop where
  eq : a = front ++ 46 :: (fraction ++ txt "Z")
  front : Front front
  six : fraction.length = 6
  digits : ∀ c ∈ fraction, isDigit c = true

theorem padEnd_six {fraction : Text} (digits : ∀ c ∈ fraction, isDigit c = true) :
    (padEnd 6 (fraction.take 6)).length = 6 ∧ ∀ c ∈ padEnd 6 (fraction.take 6), isDigit c = true := by
  constructor
  · simp only [padEnd, List.length_append, List.length_take, List.length_replicate]
    omega
  · intro c member
    rcases List.mem_append.mp member with given | zero
    · exact digits c (List.mem_of_mem_take given)
    · rw [List.eq_of_mem_replicate zero]
      rfl

theorem padEnd_of_length {fraction : Text} (six : fraction.length = 6) : padEnd 6 (fraction.take 6) = fraction := by
  simp [padEnd, List.take_of_length_le six.le, six]

theorem front_of_fits {seconds : Text} (shape : fits (txt "0000-00-00T00:00:00") seconds = true) : Front seconds := by
  obtain ⟨year, month, day, hour, minute, second, rfl, four, two, run⟩ := exists_fields shape
  simp only [List.mem_cons, List.not_mem_nil, or_false, forall_eq_or_imp, forall_eq] at two run
  obtain ⟨two, two₁, two₂, two₃, two₄⟩ := two
  constructor
  · cases year with
    | nil => simp at four
    | cons c rest =>
        refine ⟨c, _, List.cons_append, .inl ⟨run.1 c (by simp), ?_⟩⟩
        simp only [List.length_cons] at four
        simp only [List.length_append, List.length_cons, two, two₁, two₂, two₃, two₄]
        omega
  · obtain ⟨n, n', rfl⟩ := List.length_eq_two.mp two₄
    simpa [List.getLast?_append, List.getLast?_cons] using run.2.2.2.2.2 n' (by simp)

/-- The text of a moment with whole milliseconds or a year of four digits is stored as it is. -/
theorem front_of_moment (m : Moment) : Front m.front := by
  have clock : m.clock.length = 15 := by simp [Moment.clock]
  have last : ∀ c ∈ m.front.getLast?, isDigit c = true := by
    simp [Moment.front, Moment.clock, padded_two, List.getLast?_append, List.getLast?_cons]
  refine ⟨?_, last⟩
  unfold Moment.front yearText
  split_ifs
  · exact ⟨_, _, rfl, .inl ⟨isDigit_unit _, by simp [clock]⟩⟩
  · exact ⟨_, _, rfl, .inr ⟨.inr rfl, by simp [clock]⟩⟩
  · exact ⟨_, _, rfl, .inr ⟨.inl rfl, by simp [clock]⟩⟩

theorem stored_of_moment (m : Moment) : Stored m.text m.front (padded 6 m.micro) where
  eq := rfl
  front := front_of_moment m
  six := length_padded 6 m.micro
  digits := fun _ hc => isDigit_of_mem_padded hc

theorem widenFraction_eq (front : Text) {ms : Nat} : widenFraction (front ++ 46 :: (padded 3 ms ++ [90])) =
    front ++ 46 :: (padded 6 (ms * 1000) ++ [90]) := by
  have length : (front ++ 46 :: (padded 3 ms ++ [90])).length - 5 = front.length := by simp
  have shape : fits (txt ".000Z") (46 :: (padded 3 ms ++ [90])) = true := by simp [fits, padded, txt]
  have zeros : padded 6 (ms * 1000) = padded 3 ms ++ txt "000" := by
    have thousand : ms * 1000 / 10 / 10 / 10 = ms := by omega
    have last : ms * 1000 % 10 = 0 ∧ ms * 1000 / 10 % 10 = 0 ∧ ms * 1000 / 10 / 10 % 10 = 0 := by omega
    show padded 3 (ms * 1000 / 10 / 10 / 10) ++ [48 + ms * 1000 / 10 / 10 % 10] ++ [48 + ms * 1000 / 10 % 10] ++
      [48 + ms * 1000 % 10] = _
    rw [thousand, last.1, last.2.1, last.2.2, List.append_assoc, List.append_assoc]
    rfl
  simp only [widenFraction, length, List.drop_left, List.take_left, shape, if_true]
  rw [zeros]
  simp [padded, txt]

theorem matchUtc_eq_some {x seconds fraction : Text} (matched : matchUtc x = some (seconds, fraction)) :
    ∃ zone, readFraction (x.drop 19) = some (fraction, zone) ∧ seconds = x.take 19 ∧
      fits (txt "0000-00-00T00:00:00") seconds = true ∧ (∀ c ∈ fraction, isDigit c = true) ∧
      readZone zone = some 0 := by
  unfold matchUtc at matched
  cases cut : readFraction (x.drop 19) with
  | none => simp [cut] at matched
  | some parts =>
      obtain ⟨digits, zone⟩ := parts
      simp only [cut, Option.ite_none_right_eq_some, Option.some.injEq, Prod.mk.injEq] at matched
      obtain ⟨⟨shape, -, utc⟩, rfl, rfl⟩ := matched
      refine ⟨zone, rfl, rfl, shape, ?_, ?_⟩
      · exact digits_of_readFraction cut
      · rcases utc with rfl | rfl <;> rfl

/-- What is stored is a text of UTC to the second with its fraction, or a moment that `Date` prints. -/
theorem utc6_cases {other : Text → Option Int} {x a : Text} (accepted : utc6 other x = .ok a) :
    (∃ seconds fraction, matchUtc x = some (seconds, fraction) ∧
      a = seconds ++ 46 :: (padEnd 6 (fraction.take 6) ++ txt "Z")) ∨
    matchUtc x = none ∧ ∃ (t : Int) (m : Moment), getTime other x = some t ∧ InRange t ∧ m.micros = t * 1000 ∧
      toISOString t = m.front ++ 46 :: (padded 3 (m.micro / 1000) ++ [90]) ∧ m.micro % 1000 = 0 ∧ a = m.text := by
  unfold utc6 at accepted
  cases matched : matchUtc x with
  | some parts =>
      obtain ⟨seconds, fraction⟩ := parts
      simp only [matched, Except.ok.injEq] at accepted
      exact .inl ⟨seconds, fraction, rfl, accepted.symm⟩
  | none =>
      right
      cases read : getTime other x with
      | none => simp [matched, read] at accepted
      | some t =>
          simp only [matched, read, Except.ok.injEq] at accepted
          have range : InRange t := by
            have kept := (Option.filter_eq_some_iff.mp read).2
            simpa using kept
          obtain ⟨m, ms, micros, micro, printed⟩ := exists_moment range
          have whole : m.micro / 1000 = ms := by omega
          refine ⟨rfl, t, m, rfl, range, micros, by rw [whole, printed], by omega, ?_⟩
          rw [← accepted, printed, widenFraction_eq, ← micro]
          rfl

/-! ## Normal forms -/

theorem matchUtc_stored {seconds fraction : Text} (shape : fits (txt "0000-00-00T00:00:00") seconds = true)
    (six : fraction.length = 6) (digits : ∀ c ∈ fraction, isDigit c = true) :
    matchUtc (seconds ++ 46 :: (fraction ++ txt "Z")) = some (seconds, fraction) := by
  have length : seconds.length = 19 := by
    simp only [fits, Bool.and_eq_true, beq_iff_eq] at shape
    exact shape.1.symm
  have cut : readFraction (46 :: (fraction ++ txt "Z")) = some (fraction, txt "Z") := by
    refine readFraction_digits ?_ digits (by simp [txt, isDigit])
    rintro rfl
    simp at six
  unfold matchUtc
  rw [List.drop_left' length, List.take_left' length, cut]
  exact if_pos ⟨shape, by omega, .inl rfl⟩

theorem matchUtc_moment {m : Moment} (short : m.Short) : matchUtc m.text = some (m.front, padded 6 m.micro) := by
  refine matchUtc_stored ?_ (length_padded 6 m.micro) fun _ hc => isDigit_of_mem_padded hc
  unfold Moment.Short at short
  simp [fits, txt, Moment.front, Moment.clock, yearText, short, padded]

/-- A year with a sign is not matched. -/
theorem matchUtc_signed {m : Moment} (long : ¬ m.Short) : matchUtc m.text = none := by
  have sign : ∃ c rest, m.text = c :: rest ∧ isDigit c = false := by
    unfold Moment.Short at long
    simp only [Moment.text, Moment.front, yearText, if_neg long]
    split_ifs
    · exact ⟨45, _, rfl, rfl⟩
    · exact ⟨43, _, rfl, rfl⟩
  obtain ⟨c, rest, text, sign⟩ := sign
  cases matched : matchUtc m.text with
  | none => rfl
  | some parts =>
      obtain ⟨-, -, same, shape, -⟩ := @matchUtc_eq_some _ parts.1 parts.2 matched
      rw [same, text] at shape
      obtain ⟨d, _, same, digit, -⟩ := fits_zero_cons.mp shape
      cases same
      simp [sign] at digit

/-- A timestamp that is stored is its own normal form. -/
theorem utc6_idem {other : Text → Option Int} {x a : Text} (accepted : utc6 other x = .ok a) :
    utc6 other a = .ok a := by
  rcases utc6_cases accepted with ⟨seconds, fraction, matched, rfl⟩ | ⟨-, t, m, -, range, micros, printed, ms, rfl⟩
  · obtain ⟨-, -, -, shape, digits, -⟩ := matchUtc_eq_some matched
    obtain ⟨six, digits'⟩ := padEnd_six digits
    simp only [utc6, matchUtc_stored shape six digits', padEnd_of_length six]
  · by_cases short : m.Short
    · simp only [utc6, matchUtc_moment short, padEnd_of_length (length_padded 6 m.micro)]
      rfl
    · have value : m.micros / 1000 = t := by omega
      have read : getTime other m.text = some t := by
        simp [getTime, readMicros_text, value, range]
      have whole : m.micro / 1000 * 1000 = m.micro := by omega
      simp only [utc6, matchUtc_signed short, read, printed, widenFraction_eq, whole]
      rfl

/-! ## The order of what is stored -/

/-- The instants of the years 0000 to 9999. -/
def FourDigits (micros : Int) : Prop :=
  dayOfDate 0 1 1 * 86400000000 ≤ micros ∧ micros < dayOfDate 10000 1 1 * 86400000000

/-- The instant as far as `utc6` keeps it: to the microsecond, or to the millisecond that `Date` counts. -/
def kept (x : Text) (micros : Int) : Int := if (matchUtc x).isSome then micros else micros / 1000 * 1000

/-- A text of UTC to the second names a date and a time of day below 24 hours. -/
def Named (x : Text) : Prop :=
  (matchUtc x).isSome = true → (readMicros x).isSome = true ∧ (x.drop 11).take 2 ≠ txt "24"

instance (micros : Int) : Decidable (FourDigits micros) := inferInstanceAs (Decidable (_ ∧ _))

instance (x : Text) : Decidable (Named x) := inferInstanceAs (Decidable (_ → _))

theorem short_of_fourDigits {m : Moment} (years : FourDigits m.micros) : m.Short := by
  have bounds : dayOfDate 0 1 1 * 86400000000 = -62167219200000000 ∧
      dayOfDate 10000 1 1 * 86400000000 = 253402300800000000 := by decide
  unfold FourDigits at years
  let first : Moment := ⟨0, 1, 1, 0, 0, 0, 0, by decide⟩
  let last : Moment := ⟨9999, 12, 31, 23, 59, 59, 999999, by decide⟩
  have starts : first.micros = -62167219200000000 := by decide
  have ends : last.micros = 253402300799999999 := by decide
  constructor
  · by_contra negative
    have earlier : m.Earlier first := .inl (not_le.mp negative)
    have less := Moment.micros_lt earlier
    omega
  · by_contra long
    have later : last.Earlier m := .inl (not_le.mp long)
    have less := Moment.micros_lt later
    omega

theorem fourDigits_kept (x : Text) {micros : Int} (years : FourDigits micros) : FourDigits (kept x micros) := by
  unfold FourDigits at years ⊢
  unfold kept
  split_ifs <;> omega

/-- The moment that is stored. -/
theorem moment_of_accepted {other : Text → Option Int} {x a : Text} {micros : Int} (accepted : utc6 other x = .ok a)
    (named : Named x) (read : instant other x = some micros) (years : FourDigits (kept x micros)) :
    ∃ m : Moment, m.Short ∧ a = m.text ∧ m.micros = kept x micros := by
  rcases utc6_cases accepted with ⟨seconds, fraction, matched, rfl⟩ | ⟨unmatched, t, m, value, -, same, -, -, rfl⟩
  · obtain ⟨known, hour⟩ := named (by rw [matched]; rfl)
    obtain ⟨zone, cut, front, shape, digits, utc⟩ := matchUtc_eq_some matched
    obtain ⟨micros', read'⟩ := Option.isSome_iff_exists.mp known
    obtain ⟨m, short, front', fraction', same⟩ :=
      moment_of_readMicros (front ▸ shape) cut digits utc read' hour
    refine ⟨m, short, ?_, ?_⟩
    · rw [Moment.text, front', ← front, fraction']
      rfl
    · simp only [instant, read', Option.some.injEq] at read
      simp [kept, matched, same, read]
  · have below : kept x micros = m.micros := by
      simp only [kept, unmatched, Option.isSome_none, Bool.false_eq_true, if_false]
      have inner := (Option.filter_eq_some_iff.mp value).1
      unfold instant at read
      cases formatted : readMicros x with
      | some micros' =>
          simp only [formatted, Option.some.injEq] at read inner
          omega
      | none =>
          simp only [formatted] at inner
          simp only [formatted, inner, Option.map_some, Option.some.injEq] at read
          omega
    rw [below] at years
    exact ⟨m, short_of_fourDigits years, rfl, below.symm⟩

/-- The stored texts stand in the order of the instants. -/
theorem utc6_lt_iff {other : Text → Option Int} {x y a b : Text} {i j : Int} (accepted : utc6 other x = .ok a)
    (accepted' : utc6 other y = .ok b) (named : Named x) (named' : Named y) (read : instant other x = some i)
    (read' : instant other y = some j) (years : FourDigits i) (years' : FourDigits j) :
    (a < b ↔ kept x i < kept y j) ∧ (a = b ↔ kept x i = kept y j) := by
  obtain ⟨m, short, rfl, same⟩ := moment_of_accepted accepted named read (fourDigits_kept x years)
  obtain ⟨m', short', rfl, same'⟩ := moment_of_accepted accepted' named' read' (fourDigits_kept y years')
  rw [← same, ← same']
  refine ⟨Moment.text_lt_iff short short', ?_, ?_⟩
  · intro equal
    have readings := (readMicros_text m).symm.trans ((congrArg _ equal).trans (readMicros_text m'))
    exact Option.some.inj readings
  · intro equal
    rw [Moment.micros_inj.mp equal]

/-! ## What the API shows -/

/-- The digits without the zeros that end them. -/
def trimZeros (fraction : Text) : Text := (fraction.reverse.dropWhile (· = 48)).reverse

/-- What `apiTs` puts after the seconds. -/
def apiTail (fraction : Text) : Text :=
  if trimZeros fraction = [] then txt "+00:00" else 46 :: (trimZeros fraction ++ txt "+00:00")

theorem trimZeros_cons (c : Nat) (fraction : Text) : trimZeros (c :: fraction) =
    if trimZeros fraction = [] then (if c = 48 then [] else [c]) else c :: trimZeros fraction := by
  unfold trimZeros
  rw [List.reverse_cons, List.dropWhile_append]
  by_cases zeros : fraction.reverse.dropWhile (· = 48) = []
  · by_cases zero : c = 48 <;> simp [zeros, zero]
  · simp [zeros]

theorem trimZeros_ne_nil {d d' : Text} (digits : ∀ c ∈ d, isDigit c = true) (same : d.length = d'.length)
    (less : d < d') : trimZeros d' ≠ [] := by
  induction less with
  | nil => simp at same
  | @cons c d d' less ih =>
      have rest := ih (fun e he => digits e (List.mem_cons_of_mem _ he)) (by simpa using same)
      simp [trimZeros_cons, rest]
  | @rel c d c' d' less =>
      have digit := digits c (by simp)
      have above : c' ≠ 48 := by
        simp only [isDigit, Bool.and_eq_true, decide_eq_true_eq] at digit
        omega
      rw [trimZeros_cons]
      split_ifs <;> simp

/-- Without the zeros that end them fractions stay in order, since the zone comes before any digit. -/
theorem trimZeros_lt {d d' : Text} (digits : ∀ c ∈ d, isDigit c = true) (same : d.length = d'.length)
    (less : d < d') : trimZeros d ++ txt "+00:00" < trimZeros d' ++ txt "+00:00" := by
  have zone (c : Nat) (rest : Text) (above : 43 < c) : txt "+00:00" < c :: rest := .rel above
  induction less with
  | nil => simp at same
  | @cons c d d' less ih =>
      have run : ∀ e ∈ d, isDigit e = true := fun e he => digits e (List.mem_cons_of_mem _ he)
      have length : d.length = d'.length := by simpa using same
      have digit := digits c (by simp)
      simp only [isDigit, Bool.and_eq_true, decide_eq_true_eq] at digit
      have smaller := ih run length
      have stays := trimZeros_ne_nil run length less
      rw [trimZeros_cons c d', if_neg stays, trimZeros_cons]
      split_ifs with zeros zero
      · exact zone c _ (by omega)
      · rw [zeros] at smaller
        exact .cons smaller
      · exact .cons smaller
  | @rel c d c' d' less =>
      have digit := digits c (by simp)
      simp only [isDigit, Bool.and_eq_true, decide_eq_true_eq] at digit
      have start : ∃ rest, trimZeros (c' :: d') ++ txt "+00:00" = c' :: rest := by
        rw [trimZeros_cons]
        split_ifs with zeros zero
        · omega
        · exact ⟨_, rfl⟩
        · exact ⟨_, rfl⟩
      obtain ⟨rest, start⟩ := start
      rw [start, trimZeros_cons]
      split_ifs
      · exact zone c' rest (by omega)
      · exact .rel less
      · exact .rel less

theorem apiTail_lt {d d' : Text} (digits : ∀ c ∈ d, isDigit c = true) (same : d.length = d'.length)
    (less : d < d') : apiTail d < apiTail d' := by
  have stays := trimZeros_ne_nil digits same less
  have smaller := trimZeros_lt digits same less
  unfold apiTail
  rw [if_neg stays]
  split_ifs
  · exact .rel (by decide)
  · exact .cons smaller

theorem trimFraction_eq {front fraction : Text} (digits : ∀ c ∈ fraction, isDigit c = true)
    (nonempty : fraction ≠ []) : trimFraction (front ++ 46 :: fraction) =
      if trimZeros fraction = [] then front ++ [32] else front ++ 46 :: trimZeros fraction := by
  have run : ((front ++ 46 :: fraction).reverse.takeWhile isDigit).reverse = fraction := by
    have whole : (front ++ 46 :: fraction).reverse = fraction.reverse ++ 46 :: front.reverse := by simp
    rw [whole, List.takeWhile_append_of_pos fun c member => digits c (List.mem_reverse.mp member)]
    simp [isDigit]
  have before : (front ++ 46 :: fraction).take ((front ++ 46 :: fraction).length - fraction.length) =
      front ++ [46] := by
    have whole : front ++ 46 :: fraction = (front ++ [46]) ++ fraction := by simp
    rw [whole, List.length_append, Nat.add_sub_cancel, List.take_left]
  simp only [trimFraction, run, before]
  rw [if_pos ⟨by simp, nonempty⟩]
  unfold trimZeros
  split_ifs <;> simp

theorem apiTs_stored {a front fraction : Text} (stored : Stored a front fraction) :
    apiTs a = front ++ apiTail fraction := by
  obtain ⟨rfl, ⟨head, last⟩, six, digits⟩ := stored
  have visible (c : Nat) (mark : isDigit c = true ∨ c = 43 ∨ c = 45) : isJsSpace c = false := by
    have table : ∀ c < 58, 43 ≤ c → isJsSpace c = false := by decide
    simp only [isDigit, Bool.and_eq_true, decide_eq_true_eq] at mark
    exact table c (by omega) (by omega)
  have first : front ≠ [] ∧ ∀ c ∈ front.head?, isJsSpace c = false := by
    obtain ⟨c, rest, rfl, kind⟩ := head
    simpa using visible c (by tauto)
  have nonempty : fraction ≠ [] := by
    rintro rfl
    simp at six
  have ends : (front ++ 46 :: (fraction ++ txt "Z")).getLast? = some 90 := by
    simp [txt, List.getLast?_append, List.getLast?_cons]
  have body : (front ++ 46 :: (fraction ++ txt "Z")).dropLast = front ++ 46 :: fraction := by
    have whole : front ++ 46 :: (fraction ++ txt "Z") = (front ++ 46 :: fraction) ++ [90] := by simp [txt]
    rw [whole, List.dropLast_concat]
  have point : (front ++ 46 :: fraction).contains 46 = true := by simp
  simp only [apiTs, ends, body, point, if_true]
  rw [trimFraction_eq digits nonempty]
  unfold apiTail
  split_ifs with zeros
  · rw [stripBy_concat (by decide) first.1 first.2 fun d hd => visible d (.inl (last d hd))]
  · have kept : ∀ d ∈ trimZeros fraction, isDigit d = true := fun d member =>
      digits d (List.mem_reverse.mp ((List.dropWhile_sublist _).subset (List.mem_reverse.mp member)))
    rw [stripBy_eq_self, List.append_assoc]
    · rfl
    · rw [List.head?_append_of_ne_nil _ first.1]
      exact first.2
    · intro d hd
      refine visible d (.inl (kept d (List.mem_of_getLast? ?_)))
      simpa [List.getLast?_append, List.getLast?_cons, List.getLast?_eq_some_getLast zeros] using hd

/-- The API keeps the order of what is stored. -/
theorem apiTs_lt {a b front front' fraction fraction' : Text} (stored : Stored a front fraction)
    (stored' : Stored b front' fraction') (less : a < b) : apiTs a < apiTs b := by
  rw [apiTs_stored stored, apiTs_stored stored']
  obtain ⟨rfl, ⟨⟨c, rest, rfl, head⟩, -⟩, six, digits⟩ := stored
  obtain ⟨rfl, ⟨⟨c', rest', rfl, head'⟩, -⟩, six', digits'⟩ := stored'
  simp only [isDigit, Bool.and_eq_true, decide_eq_true_eq] at head head'
  by_cases same : rest.length = rest'.length
  · have length : (c :: rest).length = (c' :: rest').length := by simp [same]
    rcases lt_trichotomy (c :: rest) (c' :: rest') with before | equal | after
    · exact append_lt_of_length before length _ _
    · rw [equal] at less ⊢
      have fractions : fraction < fraction' := by
        rcases lt_trichotomy fraction fraction' with lower | level | higher
        · exact lower
        · rw [level] at less
          exact absurd less (lt_irrefl _)
        · have reverse := append_lt_of_length higher (six'.trans six.symm) (txt "Z") (txt "Z")
          exact absurd less (List.append_left_lt (List.Lex.cons reverse)).asymm
      exact List.append_left_lt (apiTail_lt digits (six.trans six'.symm) fractions)
    · exact absurd less (append_lt_of_length after length.symm _ _).asymm
  · -- one year has a sign and the other none, so the first characters decide
    have apart : c ≠ c' := by omega
    have lower : c < c' := by
      rcases List.cons_lt_cons_iff.mp less with first | ⟨equal, -⟩
      · exact first
      · exact absurd equal apart
    exact .rel lower

theorem stored_of_accepted {other : Text → Option Int} {x a : Text} (accepted : utc6 other x = .ok a) :
    ∃ front fraction, Stored a front fraction := by
  rcases utc6_cases accepted with ⟨seconds, fraction, matched, rfl⟩ | ⟨-, -, m, -, -, -, -, -, rfl⟩
  · obtain ⟨-, -, -, shape, digits, -⟩ := matchUtc_eq_some matched
    obtain ⟨six, digits'⟩ := padEnd_six digits
    exact ⟨_, _, rfl, front_of_fits shape, six, digits'⟩
  · exact ⟨_, _, stored_of_moment m⟩

theorem apiTs_lt_iff {other : Text → Option Int} {x y a b : Text} (accepted : utc6 other x = .ok a)
    (accepted' : utc6 other y = .ok b) : apiTs a < apiTs b ↔ a < b := by
  obtain ⟨_, _, stored⟩ := stored_of_accepted accepted
  obtain ⟨_, _, stored'⟩ := stored_of_accepted accepted'
  rcases lt_trichotomy a b with less | rfl | more
  · exact iff_of_true (apiTs_lt stored stored' less) less
  · exact iff_of_false (lt_irrefl _) (lt_irrefl _)
  · exact iff_of_false (apiTs_lt stored' stored more).asymm more.asymm

theorem apiTs_inj {other : Text → Option Int} {x y a b : Text} (accepted : utc6 other x = .ok a)
    (accepted' : utc6 other y = .ok b) : apiTs a = apiTs b ↔ a = b := by
  have up := apiTs_lt_iff accepted accepted'
  have down := apiTs_lt_iff accepted' accepted
  constructor
  · intro same
    rw [same] at up down
    exact le_antisymm (not_lt.mp fun less => lt_irrefl _ (down.mpr less))
      (not_lt.mp fun less => lt_irrefl _ (up.mpr less))
  · rintro rfl
    rfl

end Senex.Gateway
