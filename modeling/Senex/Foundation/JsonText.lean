import Senex.Foundation.Json

/-! # Reading JSON text

A recursive-descent reader with fuel.  `parse_render` is the round trip: the
compact text of a well-formed document reads back as that document, for every
way of writing strings that the string scanner undoes.
-/

namespace Senex.Json

open Text

/-! ## Strings -/

def hexValue (c : Nat) : Option Nat :=
  if isDigit c then some (c - 48)
  else if 97 ≤ c ∧ c ≤ 102 then some (c - 87)
  else if 65 ≤ c ∧ c ≤ 70 then some (c - 55)
  else none

def hex4 (a b c d : Nat) : Option Nat := do
  return 4096 * (← hexValue a) + 256 * (← hexValue b) + 16 * (← hexValue c) + (← hexValue d)

def simpleEscape (e : Nat) : Option Nat :=
  if e = 34 then some 34
  else if e = 92 then some 92
  else if e = 47 then some 47
  else if e = 98 then some 8
  else if e = 102 then some 12
  else if e = 110 then some 10
  else if e = 114 then some 13
  else if e = 116 then some 9
  else none

/-- The units up to the closing quote, each with whether a `\u` escape wrote it. -/
def scanUnits : Text → Option (List (Nat × Bool) × Text)
  | [] => none
  | c :: rest =>
      if c = 34 then some ([], rest)
      else if c = 92 then
        match rest with
        | [] => none
        | e :: rest =>
            if e = 117 then
              match rest with
              | a :: b :: c :: d :: rest =>
                  match hex4 a b c d with
                  | none => none
                  | some unit => (scanUnits rest).map fun p => ((unit, true) :: p.1, p.2)
              | _ => none
            else
              match simpleEscape e with
              | none => none
              | some unit => (scanUnits rest).map fun p => ((unit, false) :: p.1, p.2)
      else if c < 32 then none
      else (scanUnits rest).map fun p => ((c, false) :: p.1, p.2)

theorem scanUnits_quote (rest : Text) : scanUnits (34 :: rest) = some ([], rest) := by
  rw [scanUnits.eq_def]
  rfl

theorem scanUnits_plain {c : Nat} (notQuote : c ≠ 34) (notEscape : c ≠ 92) (notControl : ¬ c < 32)
    (rest : Text) : scanUnits (c :: rest) = (scanUnits rest).map fun p => ((c, false) :: p.1, p.2) := by
  rw [scanUnits.eq_def]
  simp only [notQuote, notEscape, notControl, if_false]

theorem scanUnits_simple {e unit : Nat} (notHex : e ≠ 117) (escape : simpleEscape e = some unit)
    (rest : Text) :
    scanUnits (92 :: e :: rest) = (scanUnits rest).map fun p => ((unit, false) :: p.1, p.2) := by
  rw [scanUnits.eq_def]
  simp [notHex, escape]

theorem scanUnits_hex {a b c d unit : Nat} (escape : hex4 a b c d = some unit) (rest : Text) :
    scanUnits (92 :: 117 :: a :: b :: c :: d :: rest) =
      (scanUnits rest).map fun p => ((unit, true) :: p.1, p.2) := by
  rw [scanUnits.eq_def]
  simp [escape]

/-- Python reads an escaped surrogate pair as one code point. -/
def joinEscaped : List (Nat × Bool) → Text
  | [] => []
  | [(c, _)] => [c]
  | (c, e) :: (d, f) :: rest =>
      if e && f && isHighSurrogate c && isLowSurrogate d then
        (0x10000 + (c - 0xD800) * 0x400 + (d - 0xDC00)) :: joinEscaped rest
      else c :: joinEscaped ((d, f) :: rest)

/-- A string body up to its closing quote; `join` is Python's reading of surrogate pairs. -/
def scanString (join : Bool) (t : Text) : Option (Text × Text) :=
  (scanUnits t).map fun p => (if join then joinEscaped p.1 else p.1.map Prod.fst, p.2)

def hexDigit (n : Nat) : Nat := if n < 10 then 48 + n else 87 + n

def unicodeEscape (c : Nat) : Text :=
  [92, 117, hexDigit (c / 4096 % 16), hexDigit (c / 256 % 16), hexDigit (c / 16 % 16),
    hexDigit (c % 16)]

/-- The escapes both languages write: quote, backslash and control characters. -/
def escapeUnit (c : Nat) : Text :=
  if c = 34 then [92, 34]
  else if c = 92 then [92, 92]
  else if c = 8 then [92, 98]
  else if c = 9 then [92, 116]
  else if c = 10 then [92, 110]
  else if c = 12 then [92, 102]
  else if c = 13 then [92, 114]
  else if c < 32 then unicodeEscape c
  else [c]

/-- `json.dumps(s, ensure_ascii=False)` without its quotes. -/
def pyQuote (s : Text) : Text := s.flatMap escapeUnit

/-- `JSON.stringify(s)` without its quotes: a lone surrogate is escaped. -/
def jsQuote : Text → Text
  | [] => []
  | [c] => if isSurrogate c then unicodeEscape c else escapeUnit c
  | c :: d :: rest =>
      if isHighSurrogate c && isLowSurrogate d then c :: d :: jsQuote rest
      else (if isSurrogate c then unicodeEscape c else escapeUnit c) ++ jsQuote (d :: rest)

/-- The scanner undoes this way of writing strings. -/
def Reads (join : Bool) (quote : Text → Text) : Prop :=
  ∀ s rest, scanString join (quote s ++ 34 :: rest) = some (s, rest)

private theorem hexValue_hexDigit {n : Nat} (nibble : n < 16) : hexValue (hexDigit n) = some n := by
  unfold hexDigit
  split
  · have digit : isDigit (48 + n) = true := by simp [isDigit]; omega
    simp [hexValue, digit]
  · have notDigit : isDigit (87 + n) = false := by simp [isDigit]; omega
    have letter : 97 ≤ 87 + n ∧ 87 + n ≤ 102 := by omega
    simp [hexValue, notDigit, letter]

private theorem hex4_hexDigits {c : Nat} (unit : c < 65536) :
    hex4 (hexDigit (c / 4096 % 16)) (hexDigit (c / 256 % 16)) (hexDigit (c / 16 % 16))
      (hexDigit (c % 16)) = some c := by
  have nibble (n : Nat) : n % 16 < 16 := Nat.mod_lt _ (by omega)
  simp only [hex4, hexValue_hexDigit (nibble _), Option.bind_eq_bind, Option.bind_some,
    Option.pure_def, Option.some.injEq]
  omega

theorem scanUnits_unicodeEscape {c : Nat} (unit : c < 65536) (rest : Text) :
    scanUnits (unicodeEscape c ++ rest) =
      (scanUnits rest).map fun p => ((c, true) :: p.1, p.2) := by
  exact scanUnits_hex (hex4_hexDigits unit) rest

/-- Whether `escapeUnit` writes a `\u` escape. -/
def isControlEscape (c : Nat) : Bool :=
  decide (c < 32) && !(([8, 9, 10, 12, 13] : Text).contains c)

theorem scanUnits_escapeUnit (c : Nat) (rest : Text) :
    scanUnits (escapeUnit c ++ rest) =
      (scanUnits rest).map fun p => ((c, isControlEscape c) :: p.1, p.2) := by
  unfold escapeUnit
  split
  · subst_vars
    exact scanUnits_simple (by decide) rfl rest
  split
  · subst_vars
    exact scanUnits_simple (by decide) rfl rest
  split
  · subst_vars
    exact scanUnits_simple (by decide) rfl rest
  split
  · subst_vars
    exact scanUnits_simple (by decide) rfl rest
  split
  · subst_vars
    exact scanUnits_simple (by decide) rfl rest
  split
  · subst_vars
    exact scanUnits_simple (by decide) rfl rest
  split
  · subst_vars
    exact scanUnits_simple (by decide) rfl rest
  split
  · have flag : isControlEscape c = true := by simp [isControlEscape]; omega
    rw [scanUnits_unicodeEscape (by omega), flag]
  · rename_i notQuote notEscape _ _ _ _ _ notControl
    have flag : isControlEscape c = false := by simp [isControlEscape]; omega
    rw [flag]
    exact scanUnits_plain notQuote notEscape notControl rest

private theorem joinEscaped_of_no_high (units : List (Nat × Bool))
    (plain : ∀ u ∈ units, u.2 = true → isHighSurrogate u.1 = false) :
    joinEscaped units = units.map Prod.fst := by
  induction units using joinEscaped.induct with
  | case1 => rfl
  | case2 => rfl
  | case3 c e d f rest pair ih =>
      simp only [Bool.and_eq_true] at pair
      have := plain (c, e) (by simp) pair.1.1.1
      simp [this] at pair
  | case4 c e d f rest pair ih =>
      rw [joinEscaped, if_neg pair, ih fun u hu => plain u (List.mem_cons_of_mem _ hu)]
      rfl

private theorem scanUnits_pyQuote (s rest : Text) :
    scanUnits (pyQuote s ++ 34 :: rest) =
      some (s.map fun c => (c, isControlEscape c), rest) := by
  induction s with
  | nil => exact scanUnits_quote rest
  | cons c s ih =>
      have ih' : scanUnits (s.flatMap escapeUnit ++ 34 :: rest) = _ := ih
      rw [pyQuote, List.flatMap_cons, List.append_assoc, scanUnits_escapeUnit, ih']
      rfl

theorem reads_pyQuote : Reads true pyQuote := by
  intro s rest
  have plain : ∀ u ∈ s.map (fun c => (c, isControlEscape c)), u.2 = true →
      isHighSurrogate u.1 = false := by
    intro u hu control
    obtain ⟨c, -, rfl⟩ := List.mem_map.mp hu
    simp only [isControlEscape, Bool.and_eq_true, decide_eq_true_eq] at control
    simp [isHighSurrogate]
    omega
  simp only [scanString, scanUnits_pyQuote, Option.map_some, if_true,
    joinEscaped_of_no_high _ plain, List.map_map]
  congr 2
  exact List.map_id s

private theorem isSurrogate_lt {c : Nat} (surrogate : isSurrogate c = true) : c < 65536 := by
  simp [isSurrogate] at surrogate
  omega

private theorem scanUnits_jsUnit (c : Nat) (rest : Text) :
    ∃ escaped, scanUnits ((if isSurrogate c then unicodeEscape c else escapeUnit c) ++ rest) =
      (scanUnits rest).map fun p => ((c, escaped) :: p.1, p.2) := by
  split
  · rename_i surrogate
    exact ⟨true, scanUnits_unicodeEscape (isSurrogate_lt surrogate) rest⟩
  · exact ⟨_, scanUnits_escapeUnit c rest⟩

private theorem scanUnits_surrogate {c : Nat} (surrogate : isSurrogate c = true) (rest : Text) :
    scanUnits (c :: rest) = (scanUnits rest).map fun p => ((c, false) :: p.1, p.2) := by
  simp only [isSurrogate, Bool.and_eq_true, decide_eq_true_eq] at surrogate
  exact scanUnits_plain (by omega) (by omega) (by omega) rest

private theorem scanUnits_jsQuote (s rest : Text) :
    ∃ units, scanUnits (jsQuote s ++ 34 :: rest) = some (units, rest) ∧ units.map Prod.fst = s ∧
      joinEscaped units = s := by
  induction s using jsQuote.induct with
  | case1 => exact ⟨[], scanUnits_quote rest, rfl, rfl⟩
  | case2 c surrogate =>
      obtain ⟨escaped, here⟩ := scanUnits_jsUnit c (34 :: rest)
      exact ⟨[(c, escaped)], by rw [jsQuote, here, scanUnits_quote]; rfl, rfl, rfl⟩
  | case3 c surrogate =>
      obtain ⟨escaped, here⟩ := scanUnits_jsUnit c (34 :: rest)
      exact ⟨[(c, escaped)], by rw [jsQuote, here, scanUnits_quote]; rfl, rfl, rfl⟩
  | case4 c d s pair ih =>
      obtain ⟨units, there, back, joined⟩ := ih
      have surrogates : isSurrogate c = true ∧ isSurrogate d = true := by
        simp only [isHighSurrogate, isLowSurrogate, Bool.and_eq_true, decide_eq_true_eq] at pair
        simp only [isSurrogate, Bool.and_eq_true, decide_eq_true_eq]
        omega
      refine ⟨(c, false) :: (d, false) :: units, ?_, by simp [back], ?_⟩
      · rw [jsQuote, if_pos pair]
        simp only [List.cons_append]
        rw [scanUnits_surrogate surrogates.1, scanUnits_surrogate surrogates.2, there]
        rfl
      · cases units with
        | nil =>
            cases joined
            rfl
        | cons u units =>
            simp only [joinEscaped, Bool.false_and, Bool.false_eq_true, if_false]
            rw [joined]
  | case5 c d s pair ih =>
      obtain ⟨units, there, back, joined⟩ := ih
      obtain ⟨escaped, here⟩ := scanUnits_jsUnit c (jsQuote (d :: s) ++ 34 :: rest)
      refine ⟨(c, escaped) :: units, ?_, by simp [back], ?_⟩
      · rw [jsQuote, if_neg pair, List.append_assoc, here, there]
        rfl
      · cases units with
        | nil => cases back
        | cons u units =>
            have same : u.1 = d := by
              simp only [List.map_cons, List.cons.injEq] at back
              exact back.1
            have apart : ¬ (escaped && u.2 && isHighSurrogate c && isLowSurrogate u.1) = true := by
              rw [same]
              simp only [Bool.and_eq_true, not_and, Bool.not_eq_true] at pair ⊢
              exact fun high => pair high.2
            rw [joinEscaped, if_neg apart, joined]

theorem reads_jsQuote : Reads false jsQuote := by
  intro s rest
  obtain ⟨units, there, back, -⟩ := scanUnits_jsQuote s rest
  simp [scanString, there, back]

/-- No pair of surrogates is escaped, so there is none to be joined. -/
theorem reads_jsQuote_join : Reads true jsQuote := by
  intro s rest
  obtain ⟨units, there, -, joined⟩ := scanUnits_jsQuote s rest
  simp [scanString, there, joined]

/-! ## Numbers -/

def scanSign (signs : List Nat) : Text → Text × Text
  | c :: rest => if signs.contains c then ([c], rest) else ([], c :: rest)
  | [] => ([], [])

def scanInt : Text → Option (Text × Text)
  | c :: rest =>
      if c = 48 then some ([48], rest)
      else if isDigit c then some (c :: rest.takeWhile isDigit, rest.dropWhile isDigit)
      else none
  | [] => none

def scanFraction : Text → Text × Text
  | c :: rest =>
      if c = 46 ∧ rest.takeWhile isDigit ≠ [] then
        (46 :: rest.takeWhile isDigit, rest.dropWhile isDigit)
      else ([], c :: rest)
  | [] => ([], [])

def scanExponent : Text → Text × Text
  | c :: rest =>
      let (sign, digits) := scanSign [43, 45] rest
      if (c = 101 ∨ c = 69) ∧ digits.takeWhile isDigit ≠ [] then
        (c :: (sign ++ digits.takeWhile isDigit), digits.dropWhile isDigit)
      else ([], c :: rest)
  | [] => ([], [])

/-- The longest number at the head of a text, by the grammar of `IsNumber`. -/
def scanNumber (t : Text) : Option (Text × Text) :=
  let (sign, t₁) := scanSign [45] t
  (scanInt t₁).map fun (i, t₂) =>
    let (f, t₃) := scanFraction t₂
    let (x, t₄) := scanExponent t₃
    (sign ++ i ++ f ++ x, t₄)

/-- No continuation of a number starts here. -/
def Delimited (rest : Text) : Prop :=
  ∀ c ∈ rest.head?, isDigit c = false ∧ c ≠ 46 ∧ c ≠ 101 ∧ c ≠ 69

theorem delimited_nil : Delimited [] := by simp [Delimited]

theorem delimited_cons {c : Nat} {rest : Text}
    (other : isDigit c = false ∧ c ≠ 46 ∧ c ≠ 101 ∧ c ≠ 69) : Delimited (c :: rest) := by
  intro d hd
  cases hd
  exact other

private theorem span_digits {ds rest : Text} (digits : ∀ d ∈ ds, isDigit d = true)
    (stop : ∀ c ∈ rest.head?, isDigit c = false) :
    (ds ++ rest).takeWhile isDigit = ds ∧ (ds ++ rest).dropWhile isDigit = rest := by
  induction ds with
  | nil =>
      cases rest with
      | nil => simp
      | cons c rest => simp [stop c rfl]
  | cons d ds ih =>
      have := ih fun x hx => digits x (List.mem_cons_of_mem _ hx)
      simp [digits d (by simp), this]

private theorem scanExponent_append {x rest : Text} (exponent : IsExponent x)
    (stop : Delimited rest) : scanExponent (x ++ rest) = (x, rest) := by
  rcases exponent with rfl | ⟨e, sign, ds, rfl, he, hsign, nonempty, digits⟩
  · cases rest with
    | nil => rfl
    | cons c rest =>
        have := stop c rfl
        simp [scanExponent, this.2.2]
  · obtain ⟨d, ds, rfl⟩ := List.exists_cons_of_ne_nil nonempty
    have hd : isDigit d = true := digits d (by simp)
    have notSign : d ≠ 43 ∧ d ≠ 45 := by
      constructor <;> rintro rfl <;> simp [isDigit] at hd
    have spanned := span_digits digits fun c hc => (stop c hc).1
    have signed : scanSign [43, 45] (sign ++ (d :: ds ++ rest)) = (sign, d :: ds ++ rest) := by
      rcases hsign with rfl | rfl | rfl <;> simp [scanSign, notSign]
    rw [List.cons_append, List.append_assoc, scanExponent, signed]
    simp only [spanned.1, spanned.2, he, true_and]
    simp

private theorem scanFraction_append {f rest : Text} (fraction : IsFraction f)
    (stop : ∀ c ∈ rest.head?, isDigit c = false ∧ c ≠ 46) :
    scanFraction (f ++ rest) = (f, rest) := by
  rcases fraction with rfl | ⟨ds, rfl, nonempty, digits⟩
  · cases rest with
    | nil => rfl
    | cons c rest =>
        have := stop c rfl
        simp [scanFraction, this.2]
  · have spanned := span_digits digits fun c hc => (stop c hc).1
    rw [List.cons_append, scanFraction]
    simp [spanned.1, spanned.2, nonempty]

private theorem scanInt_append {i rest : Text} (int : IsInt i)
    (stop : ∀ c ∈ rest.head?, isDigit c = false) : scanInt (i ++ rest) = some (i, rest) := by
  rcases int with rfl | ⟨c, ds, rfl, digit, nonzero, digits⟩
  · simp [scanInt]
  · have spanned := span_digits digits stop
    simp [scanInt, nonzero, digit, spanned.1, spanned.2]

private theorem head_exponent {x rest : Text} (exponent : IsExponent x) (stop : Delimited rest) :
    ∀ c ∈ (x ++ rest).head?, isDigit c = false ∧ c ≠ 46 := by
  rcases exponent with rfl | ⟨e, sign, ds, rfl, he, -⟩
  · intro c hc
    exact ⟨(stop c hc).1, (stop c hc).2.1⟩
  · intro c hc
    cases hc
    rcases he with rfl | rfl <;> simp [isDigit]

private theorem head_fraction {f rest : Text} (fraction : IsFraction f)
    (stop : ∀ c ∈ rest.head?, isDigit c = false ∧ c ≠ 46) :
    ∀ c ∈ (f ++ rest).head?, isDigit c = false := by
  rcases fraction with rfl | ⟨ds, rfl, -⟩
  · exact fun c hc => (stop c hc).1
  · intro c hc
    cases hc
    rfl

/-- A whole number in front of a delimiter is scanned back. -/
theorem scanNumber_append {raw rest : Text} (number : IsNumber raw) (stop : Delimited rest) :
    scanNumber (raw ++ rest) = some (raw, rest) := by
  obtain ⟨sign, i, f, x, rfl, hsign, int, fraction, exponent⟩ := number
  have atExponent := head_exponent exponent stop
  have atFraction := head_fraction fraction atExponent
  have signed : scanSign [45] (sign ++ (i ++ (f ++ (x ++ rest)))) =
      (sign, i ++ (f ++ (x ++ rest))) := by
    rcases hsign with rfl | rfl
    · rcases int with rfl | ⟨c, ds, rfl, digit, -⟩
      · simp [scanSign]
      · have : c ≠ 45 := by rintro rfl; simp [isDigit] at digit
        simp [scanSign, this]
    · simp [scanSign]
  simp only [List.append_assoc, scanNumber, signed, scanInt_append int atFraction,
    scanFraction_append fraction atExponent, scanExponent_append exponent stop, Option.map_some]

private theorem isDigit_of_mem_takeWhile {ds : Text} : ∀ d ∈ ds.takeWhile isDigit, isDigit d = true :=
  fun _ hd => List.all_eq_true.mp List.all_takeWhile _ hd

theorem isNumber_scanNumber {t raw rest : Text} (scanned : scanNumber t = some (raw, rest)) :
    IsNumber raw ∧ t = raw ++ rest := by
  have sign (signs : List Nat) (t : Text) :
      (scanSign signs t).1 ++ (scanSign signs t).2 = t ∧
        ((scanSign signs t).1 = [] ∨ ∃ c ∈ signs, (scanSign signs t).1 = [c]) := by
    cases t with
    | nil => simp [scanSign]
    | cons c t =>
        simp only [scanSign]
        split
        · rename_i member
          exact ⟨rfl, Or.inr ⟨c, by simpa using member, rfl⟩⟩
        · simp
  have fraction (t : Text) :
      IsFraction (scanFraction t).1 ∧ (scanFraction t).1 ++ (scanFraction t).2 = t := by
    cases t with
    | nil => exact ⟨Or.inl rfl, rfl⟩
    | cons c t =>
        simp only [scanFraction]
        split
        · rename_i here
          refine ⟨Or.inr ⟨_, rfl, here.2, isDigit_of_mem_takeWhile⟩, ?_⟩
          simp [here.1, List.takeWhile_append_dropWhile]
        · exact ⟨Or.inl rfl, rfl⟩
  have exponent (t : Text) :
      IsExponent (scanExponent t).1 ∧ (scanExponent t).1 ++ (scanExponent t).2 = t := by
    cases t with
    | nil => exact ⟨Or.inl rfl, rfl⟩
    | cons c t =>
        obtain ⟨whole, signed⟩ := sign [43, 45] t
        simp only [scanExponent]
        split
        · rename_i here
          refine ⟨Or.inr ⟨c, _, _, rfl, here.1, ?_, here.2, isDigit_of_mem_takeWhile⟩, ?_⟩
          · rcases signed with h | ⟨d, hd, h⟩
            · exact Or.inl h
            · simp only [List.mem_cons, List.not_mem_nil, or_false] at hd
              rcases hd with rfl | rfl
              · exact Or.inr (Or.inl h)
              · exact Or.inr (Or.inr h)
          · simp only [List.cons_append, List.append_assoc, List.takeWhile_append_dropWhile, whole]
        · exact ⟨Or.inl rfl, rfl⟩
  obtain ⟨whole, signed⟩ := sign [45] t
  simp only [scanNumber, Option.map_eq_some_iff, Prod.exists, Prod.mk.injEq] at scanned
  obtain ⟨i, t₂, int, rfl, rfl⟩ := scanned
  obtain ⟨isFraction, fractionWhole⟩ := fraction t₂
  obtain ⟨isExponent, exponentWhole⟩ := exponent (scanFraction t₂).2
  have isInt : IsInt i ∧ (scanSign [45] t).2 = i ++ t₂ := by
    cases h : (scanSign [45] t).2 with
    | nil => simp [h, scanInt] at int
    | cons c u =>
        rw [h, scanInt] at int
        split at int
        · rename_i zero
          cases int
          exact ⟨Or.inl rfl, by simp [zero]⟩
        · split at int
          · rename_i nonzero digit
            cases int
            exact ⟨Or.inr ⟨c, _, rfl, digit, nonzero, isDigit_of_mem_takeWhile⟩,
              by simp [List.takeWhile_append_dropWhile]⟩
          · cases int
  refine ⟨⟨_, i, _, _, rfl, ?_, isInt.1, isFraction, isExponent⟩, ?_⟩
  · rcases signed with h | ⟨c, hc, h⟩
    · exact Or.inl h
    · simp only [List.mem_cons, List.not_mem_nil, or_false] at hc
      exact Or.inr (hc ▸ h)
  · simp only [List.append_assoc, exponentWhole, fractionWhole]
    rw [← isInt.2, whole]

/-! ## Documents -/

def isJsonSpace (c : Nat) : Bool := c == 32 || c == 9 || c == 10 || c == 13

def skipSpace (t : Text) : Text := t.dropWhile isJsonSpace

/-- The rest of the text behind the expected character. -/
def expect (c : Nat) (t : Text) : Option Text :=
  match skipSpace t with
  | [] => none
  | d :: rest => if d = c then some rest else none

def dropLiteral (literal t : Text) : Option Text :=
  if literal.isPrefixOf t then some (t.drop literal.length) else none

/-- `true`, `false`, `null` or a number. -/
def parseScalar (t : Text) : Option (Json × Text) :=
  match dropLiteral (txt "true") t, dropLiteral (txt "false") t, dropLiteral (txt "null") t with
  | some rest, _, _ => some (.bool true, rest)
  | none, some rest, _ => some (.bool false, rest)
  | none, none, some rest => some (.null, rest)
  | none, none, none => (scanNumber t).map fun p => (.num p.1, p.2)

mutual
def parseValue (join : Bool) : Nat → Text → Option (Json × Text)
  | 0, _ => none
  | fuel + 1, t =>
      match skipSpace t with
      | [] => none
      | c :: rest =>
          if c = 34 then (scanString join rest).map fun p => (.str p.1, p.2)
          else if c = 123 then
            match expect 125 rest with
            | some rest => some (.obj [], rest)
            | none => (parseMembers join fuel rest []).map fun p => (.obj p.1, p.2)
          else if c = 91 then
            match expect 93 rest with
            | some rest => some (.arr [], rest)
            | none => (parseItems join fuel rest).map fun p => (.arr p.1, p.2)
          else parseScalar (c :: rest)

def parseItems (join : Bool) : Nat → Text → Option (List Json × Text)
  | 0, _ => none
  | fuel + 1, t =>
      match parseValue join fuel t with
      | none => none
      | some (item, rest) =>
          match skipSpace rest with
          | [] => none
          | c :: rest =>
              if c = 93 then some ([item], rest)
              else if c = 44 then (parseItems join fuel rest).map fun p => (item :: p.1, p.2)
              else none

/-- The members up to the closing brace, put into `acc`: a later member wins. -/
def parseMembers (join : Bool) :
    Nat → Text → List (Text × Json) → Option (List (Text × Json) × Text)
  | 0, _, _ => none
  | fuel + 1, t, acc =>
      match (expect 34 t).bind (scanString join) with
      | none => none
      | some (key, rest) =>
          match (expect 58 rest).bind (parseValue join fuel) with
          | none => none
          | some (value, rest) =>
              match skipSpace rest with
              | [] => none
              | c :: rest =>
                  if c = 125 then some (insert key value acc, rest)
                  else if c = 44 then parseMembers join fuel rest (insert key value acc)
                  else none
end

/-- The document a whole text spells. -/
def parse (join : Bool) (t : Text) : Option Json :=
  match parseValue join (t.length + 1) t with
  | some (j, rest) => if skipSpace rest = [] then some j else none
  | none => none

theorem skipSpace_cons {c : Nat} (rest : Text) (solid : isJsonSpace c = false) :
    skipSpace (c :: rest) = c :: rest := by
  simp [skipSpace, solid]

theorem expect_cons {c : Nat} (rest : Text) (solid : isJsonSpace c = false) :
    expect c (c :: rest) = some rest := by
  simp [expect, skipSpace_cons rest solid]

theorem expect_ne {c d : Nat} (rest : Text) (solid : isJsonSpace d = false) (other : d ≠ c) :
    expect c (d :: rest) = none := by
  simp [expect, skipSpace_cons rest solid, other]

private theorem dropLiteral_ne {c d : Nat} (literal rest : Text) (other : c ≠ d) :
    dropLiteral (d :: literal) (c :: rest) = none := by
  simp [dropLiteral, List.isPrefixOf, Ne.symm other]

/-- The first character of a rendered value; it decides which branch reads it. -/
theorem render_head (quote : Text → Text) (j : Json) (wellFormed : WellFormed j) :
    ∃ c rest, render quote j = c :: rest ∧ isJsonSpace c = false ∧ c ≠ 93 ∧ c ≠ 125 := by
  cases j with
  | null => exact ⟨110, _, rfl, by decide⟩
  | bool b => cases b <;> exact ⟨_, _, rfl, by decide⟩
  | str s => exact ⟨34, _, by rw [render]; rfl, by decide⟩
  | arr items => exact ⟨91, _, by rw [render]; rfl, by decide⟩
  | obj members => exact ⟨123, _, by rw [render]; rfl, by decide⟩
  | num raw =>
      obtain ⟨sign, i, f, x, rfl, hsign, int, -⟩ := wellFormed
      have digit : ∀ c, isDigit c = true → isJsonSpace c = false ∧ c ≠ 93 ∧ c ≠ 125 := by
        intro c hc
        simp only [isDigit, Bool.and_eq_true, decide_eq_true_eq] at hc
        simp only [isJsonSpace, Bool.or_eq_false_iff, beq_eq_false_iff_ne]
        omega
      rcases hsign with rfl | rfl
      · rcases int with rfl | ⟨c, ds, rfl, hc, -⟩
        · exact ⟨48, _, by rw [render]; rfl, digit 48 (by decide)⟩
        · exact ⟨c, _, by rw [render]; rfl, digit c hc⟩
      · exact ⟨45, _, by rw [render]; rfl, by decide⟩

private theorem parseScalar_number {raw rest : Text} (number : IsNumber raw)
    (stop : Delimited rest) : parseScalar (raw ++ rest) = some (.num raw, rest) := by
  have scanned := scanNumber_append number stop
  obtain ⟨sign, i, f, x, rfl, hsign, int, -⟩ := number
  have head : ∃ c tail, sign ++ i ++ f ++ x ++ rest = c :: tail ∧ c ≠ 116 ∧ c ≠ 102 ∧ c ≠ 110 := by
    have digit : ∀ c, isDigit c = true → c ≠ 116 ∧ c ≠ 102 ∧ c ≠ 110 := by
      intro c hc
      simp only [isDigit, Bool.and_eq_true, decide_eq_true_eq] at hc
      omega
    rcases hsign with rfl | rfl
    · rcases int with rfl | ⟨c, ds, rfl, hc, -⟩
      · exact ⟨48, _, rfl, by decide⟩
      · exact ⟨c, _, rfl, digit c hc⟩
    · exact ⟨45, _, rfl, by decide⟩
  obtain ⟨c, tail, whole, notTrue, notFalse, notNull⟩ := head
  rw [whole] at scanned ⊢
  have t : dropLiteral (txt "true") (c :: tail) = none := dropLiteral_ne _ _ notTrue
  have f : dropLiteral (txt "false") (c :: tail) = none := dropLiteral_ne _ _ notFalse
  have n : dropLiteral (txt "null") (c :: tail) = none := dropLiteral_ne _ _ notNull
  simp only [parseScalar, t, f, n, scanned, Option.map_some]

mutual
theorem parseValue_render {join : Bool} {quote : Text → Text} (reads : Reads join quote)
    (j : Json) (wellFormed : WellFormed j) (fuel : Nat) (rest : Text)
    (enough : (render quote j).length < fuel) (stop : Delimited rest) :
    parseValue join fuel (render quote j ++ rest) = some (j, rest) := by
  obtain ⟨fuel, rfl⟩ : ∃ n, fuel = n + 1 := ⟨fuel - 1, by omega⟩
  cases j with
  | null => rfl
  | bool b => cases b <;> rfl
  | num raw =>
      have scanned := parseScalar_number wellFormed stop
      obtain ⟨c, tail, whole, solid, -, -⟩ := render_head quote (.num raw) wellFormed
      have raws : raw = c :: tail := by rw [← whole, render]
      have cases : c ≠ 34 ∧ c ≠ 123 ∧ c ≠ 91 := by
        refine ⟨?_, ?_, ?_⟩ <;> rintro rfl <;>
          simp [raws, parseScalar, dropLiteral, txt, List.isPrefixOf, scanNumber, scanSign, scanInt,
            isDigit] at scanned
      rw [render, parseValue, raws, List.cons_append, skipSpace_cons _ solid]
      simp only [cases, if_false]
      rw [← List.cons_append, ← raws, scanned]
  | str s =>
      have body := reads s rest
      rw [render, parseValue]
      simp only [List.cons_append, List.append_assoc, List.nil_append]
      rw [skipSpace_cons _ (by decide)]
      simp only [if_true, body, Option.map_some]
  | arr items =>
      rw [render] at enough
      rw [render, parseValue]
      simp only [List.cons_append, List.append_assoc, List.nil_append]
      rw [skipSpace_cons _ (by decide)]
      simp only [show (91 : Nat) ≠ 34 from by decide, show (91 : Nat) ≠ 123 from by decide,
        if_false, if_true]
      cases items with
      | nil =>
          rw [renderItems, List.nil_append, expect_cons _ (by decide)]
      | cons item items =>
          obtain ⟨c, tail, whole, solid, notClose, -⟩ :=
            render_head quote item wellFormed.1
          have opened : ∃ more, renderItems quote (item :: items) ++ 93 :: rest = c :: more := by
            cases items with
            | nil => exact ⟨_, by rw [renderItems, whole]; rfl⟩
            | cons next items => exact ⟨_, by rw [renderItems, whole]; rfl⟩
          obtain ⟨more, opened⟩ := opened
          have inner := parseItems_render reads item items wellFormed fuel rest
            (by simp only [List.length_append, List.length_cons, List.length_nil] at enough ⊢; omega)
          rw [opened] at inner ⊢
          rw [expect_ne _ solid notClose]
          simp only [inner, Option.map_some]
  | obj members =>
      rw [render] at enough
      rw [render, parseValue]
      simp only [List.cons_append, List.append_assoc, List.nil_append]
      rw [skipSpace_cons _ (by decide)]
      simp only [show (123 : Nat) ≠ 34 from by decide, if_false, if_true]
      rcases members with _ | ⟨⟨key, value⟩, members⟩
      · rw [renderMembers, List.nil_append, expect_cons _ (by decide)]
      · have opened : ∃ more,
            renderMembers quote ((key, value) :: members) ++ 125 :: rest = 34 :: more := by
          cases members with
          | nil => exact ⟨_, by rw [renderMembers]; rfl⟩
          | cons next members => exact ⟨_, by rw [renderMembers]; rfl⟩
        obtain ⟨more, opened⟩ := opened
        have inner := parseMembers_render reads key value members wellFormed.2 fuel rest []
          (by simp only [List.length_append, List.length_cons, List.length_nil] at enough ⊢; omega)
        rw [opened] at inner ⊢
        rw [expect_ne _ (by decide) (by decide)]
        have whole := foldl_insert_sorted [] ((key, value) :: members) (by simpa using wellFormed.1)
        simp only [inner, Option.map_some, whole, List.nil_append]
termination_by fuel
decreasing_by all_goals omega

private theorem parseItems_render {join : Bool} {quote : Text → Text} (reads : Reads join quote)
    (item : Json) (items : List Json) (wellFormed : WellFormedItems (item :: items)) (fuel : Nat)
    (rest : Text) (enough : (renderItems quote (item :: items)).length + 1 < fuel) :
    parseItems join fuel (renderItems quote (item :: items) ++ 93 :: rest) =
      some (item :: items, rest) := by
  obtain ⟨fuel, rfl⟩ : ∃ n, fuel = n + 1 := by
    obtain ⟨c, tail, whole, -⟩ := render_head quote item wellFormed.1
    refine ⟨fuel - 1, ?_⟩
    cases items <;> simp only [renderItems, whole, List.length_append, List.length_cons] at enough <;>
      omega
  cases items with
  | nil =>
      simp only [renderItems] at enough ⊢
      have here := parseValue_render reads item wellFormed.1 fuel (93 :: rest) (by omega)
        (delimited_cons (by decide))
      rw [parseItems, here]
      simp only [skipSpace_cons rest (show isJsonSpace 93 = false by decide), if_true]
  | cons next items =>
      simp only [renderItems, List.length_append, List.length_cons] at enough ⊢
      have here := parseValue_render reads item wellFormed.1 fuel
        (44 :: (renderItems quote (next :: items) ++ 93 :: rest)) (by omega)
        (delimited_cons (by decide))
      have inner := parseItems_render reads next items wellFormed.2 fuel rest (by omega)
      rw [List.append_assoc, List.cons_append, parseItems, here]
      simp only [skipSpace_cons _ (show isJsonSpace 44 = false by decide), inner, Option.map_some,
        show (44 : Nat) ≠ 93 from by decide, if_true, if_false]
termination_by fuel
decreasing_by all_goals omega

private theorem parseMembers_render {join : Bool} {quote : Text → Text}
    (reads : Reads join quote) (key : Text) (value : Json) (members : List (Text × Json))
    (wellFormed : WellFormedMembers ((key, value) :: members)) (fuel : Nat) (rest : Text)
    (acc : List (Text × Json))
    (enough : (renderMembers quote ((key, value) :: members)).length + 1 < fuel) :
    parseMembers join fuel (renderMembers quote ((key, value) :: members) ++ 125 :: rest) acc =
      some (((key, value) :: members).foldl (fun acc m => insert m.1 m.2 acc) acc, rest) := by
  obtain ⟨fuel, rfl⟩ : ∃ n, fuel = n + 1 := by
    refine ⟨fuel - 1, ?_⟩
    cases members <;>
      simp only [renderMembers, List.length_append, List.length_cons, List.cons_append] at enough <;>
      omega
  have opening (more : Text) : (expect 34 (34 :: (quote key ++ 34 :: 58 :: more))).bind
      (scanString join) = some (key, 58 :: more) := by
    rw [expect_cons _ (by decide), Option.bind_some, reads]
  rcases members with _ | ⟨⟨nextKey, nextValue⟩, members⟩
  · simp only [renderMembers, List.cons_append, List.append_assoc, List.length_append,
      List.length_cons] at enough ⊢
    have here := parseValue_render reads value wellFormed.1 fuel (125 :: rest) (by omega)
      (delimited_cons (by decide))
    rw [parseMembers, opening]
    simp only [expect_cons _ (show isJsonSpace 58 = false by decide), Option.bind_some, here,
      skipSpace_cons rest (show isJsonSpace 125 = false by decide), if_true]
    rfl
  · simp only [renderMembers, List.cons_append, List.append_assoc, List.length_append,
      List.length_cons] at enough ⊢
    have here := parseValue_render reads value wellFormed.1 fuel
      (44 :: (renderMembers quote ((nextKey, nextValue) :: members) ++ 125 :: rest)) (by omega)
      (delimited_cons (by decide))
    have inner := parseMembers_render reads nextKey nextValue members wellFormed.2 fuel rest
      (insert key value acc) (by omega)
    rw [parseMembers, opening]
    simp only [expect_cons _ (show isJsonSpace 58 = false by decide), Option.bind_some, here,
      skipSpace_cons _ (show isJsonSpace 44 = false by decide), inner,
      show (44 : Nat) ≠ 125 from by decide, if_true, if_false]
    rfl
termination_by fuel
decreasing_by all_goals omega
end

/-! ## What is read is well formed -/

private theorem wellFormed_parseScalar {t rest : Text} {j : Json}
    (read : parseScalar t = some (j, rest)) : WellFormed j := by
  unfold parseScalar at read
  split at read
  · cases read; trivial
  · cases read; trivial
  · cases read; trivial
  · obtain ⟨⟨raw, rest⟩, scanned, same⟩ := Option.map_eq_some_iff.mp read
    cases same
    exact (isNumber_scanNumber scanned).1

/-- One level of the reader, over what the next lower fuel reads. -/
private theorem wellFormed_step (join : Bool) (fuel : Nat) :
    (∀ t j rest, parseValue join fuel t = some (j, rest) → WellFormed j) ∧
    (∀ t items rest, parseItems join fuel t = some (items, rest) → WellFormedItems items) ∧
    (∀ t acc members rest, parseMembers join fuel t acc = some (members, rest) →
      Sorted acc ∧ WellFormedMembers acc → Sorted members ∧ WellFormedMembers members) := by
  induction fuel with
  | zero => simp [parseValue, parseItems, parseMembers]
  | succ fuel ih =>
      obtain ⟨values, items, members⟩ := ih
      refine ⟨?_, ?_, ?_⟩
      · intro t j rest read
        rw [parseValue] at read
        split at read
        · cases read
        · split at read
          · obtain ⟨p, -, same⟩ := Option.map_eq_some_iff.mp read
            cases same
            trivial
          split at read
          · split at read
            · cases read
              exact ⟨List.Pairwise.nil, trivial⟩
            · obtain ⟨p, inner, same⟩ := Option.map_eq_some_iff.mp read
              cases same
              exact members _ _ _ _ inner ⟨List.Pairwise.nil, trivial⟩
          split at read
          · split at read
            · cases read
              trivial
            · obtain ⟨p, inner, same⟩ := Option.map_eq_some_iff.mp read
              cases same
              exact items _ _ _ inner
          · exact wellFormed_parseScalar read
      · intro t all rest read
        rw [parseItems] at read
        split at read
        · cases read
        · rename_i item rest' first
          split at read
          · cases read
          · split at read
            · cases read
              exact ⟨values _ _ _ first, trivial⟩
            · split at read
              · obtain ⟨p, inner, same⟩ := Option.map_eq_some_iff.mp read
                cases same
                exact ⟨values _ _ _ first, items _ _ _ inner⟩
              · cases read
      · intro t acc all rest read start
        rw [parseMembers] at read
        split at read
        · cases read
        · split at read
          · cases read
          · rename_i key _ _ _ value _ first
            obtain ⟨_, -, first⟩ := Option.bind_eq_some_iff.mp first
            have grown : Sorted (insert key value acc) ∧ WellFormedMembers (insert key value acc) := by
              refine ⟨sorted_insert key value start.1, (wellFormedMembers_iff _).mpr ?_⟩
              intro m hm
              rcases mem_insert hm with rfl | hm
              · exact values _ _ _ first
              · exact (wellFormedMembers_iff _).mp start.2 m hm
            split at read
            · cases read
            · split at read
              · cases read
                exact grown
              · split at read
                · exact members _ _ _ _ read grown
                · cases read

theorem wellFormed_parse {join : Bool} {t : Text} {j : Json} (read : parse join t = some j) :
    WellFormed j := by
  unfold parse at read
  split at read
  · rename_i rest whole
    split at read
    · cases read
      exact (wellFormed_step join _).1 _ _ _ whole
    · cases read
  · cases read

/-- The document a text spells, with its well-formedness. -/
def parseDocument (join : Bool) (t : Text) : Option Document :=
  match h : parse join t with
  | some j => some ⟨j, wellFormed_parse h⟩
  | none => none

theorem parseDocument_eq_some {join : Bool} {t : Text} {d : Document} :
    parseDocument join t = some d ↔ parse join t = some d.1 := by
  unfold parseDocument
  split
  · rename_i j h
    simp [h, Subtype.ext_iff]
  · rename_i h
    simp [h]

/-! ## No line breaks -/

private theorem solid_isNumber {raw : Text} (number : IsNumber raw) : ∀ c ∈ raw, 32 ≤ c := by
  have digit : ∀ c, isDigit c = true → 32 ≤ c := by
    intro c hc
    simp only [isDigit, Bool.and_eq_true, decide_eq_true_eq] at hc
    omega
  obtain ⟨sign, i, f, x, rfl, hsign, int, fraction, exponent⟩ := number
  intro c hc
  simp only [List.mem_append] at hc
  rcases hc with ((hc | hc) | hc) | hc
  · rcases hsign with rfl | rfl <;> simp_all
  · rcases int with rfl | ⟨d, ds, rfl, head, -, digits⟩
    · simp_all
    · rcases List.mem_cons.mp hc with rfl | hc
      · exact digit _ head
      · exact digit _ (digits _ hc)
  · rcases fraction with rfl | ⟨ds, rfl, -, digits⟩
    · simp at hc
    · rcases List.mem_cons.mp hc with rfl | hc
      · decide
      · exact digit _ (digits _ hc)
  · rcases exponent with rfl | ⟨e, sgn, ds, rfl, he, hsgn, -, digits⟩
    · simp at hc
    · rcases List.mem_cons.mp hc with rfl | hc
      · omega
      · rcases List.mem_append.mp hc with hc | hc
        · rcases hsgn with rfl | rfl | rfl <;> simp_all
        · exact digit _ (digits _ hc)

theorem solid_unicodeEscape (c : Nat) : ∀ d ∈ unicodeEscape c, 32 ≤ d := by
  have hex : ∀ n, 32 ≤ hexDigit n := by
    intro n
    unfold hexDigit
    split <;> omega
  simp [unicodeEscape, hex]

theorem solid_escapeUnit (c : Nat) : ∀ d ∈ escapeUnit c, 32 ≤ d := by
  have control := solid_unicodeEscape c
  unfold escapeUnit
  repeat' split
  all_goals try simp
  · exact control
  · omega

theorem solid_pyQuote (s : Text) : ∀ c ∈ pyQuote s, 32 ≤ c := by
  intro c hc
  obtain ⟨d, -, hd⟩ := List.mem_flatMap.mp hc
  exact solid_escapeUnit d c hd

mutual
/-- The compact text of a document has no control characters when its strings have none. -/
theorem solid_render {quote : Text → Text} (quoted : ∀ s, ∀ c ∈ quote s, 32 ≤ c) (j : Json)
    (wellFormed : WellFormed j) : ∀ c ∈ render quote j, 32 ≤ c := by
  cases j with
  | null => simp [render, txt]
  | bool b => cases b <;> simp [render, txt]
  | num raw =>
      rw [render]
      exact solid_isNumber wellFormed
  | str s =>
      intro c hc
      simp only [render, List.cons_append, List.mem_cons, List.mem_append, List.not_mem_nil,
        or_false] at hc
      rcases hc with rfl | hc | rfl
      · decide
      · exact quoted s c hc
      · decide
  | arr items =>
      intro c hc
      have inner := solid_renderItems quoted items wellFormed
      simp only [render, List.cons_append, List.mem_cons, List.mem_append, List.not_mem_nil,
        or_false] at hc
      rcases hc with rfl | hc | rfl
      · decide
      · exact inner c hc
      · decide
  | obj members =>
      intro c hc
      have inner := solid_renderMembers quoted members wellFormed.2
      simp only [render, List.cons_append, List.mem_cons, List.mem_append, List.not_mem_nil,
        or_false] at hc
      rcases hc with rfl | hc | rfl
      · decide
      · exact inner c hc
      · decide

theorem solid_renderItems {quote : Text → Text} (quoted : ∀ s, ∀ c ∈ quote s, 32 ≤ c)
    (items : List Json) (wellFormed : WellFormedItems items) :
    ∀ c ∈ renderItems quote items, 32 ≤ c := by
  match items, wellFormed with
  | [], _ => simp [renderItems]
  | [item], wellFormed =>
      rw [renderItems]
      exact solid_render quoted item wellFormed.1
  | item :: next :: items, wellFormed =>
      intro c hc
      have here := solid_render quoted item wellFormed.1
      have there := solid_renderItems quoted (next :: items) wellFormed.2
      simp only [renderItems, List.mem_append, List.mem_cons] at hc
      rcases hc with hc | rfl | hc
      · exact here c hc
      · decide
      · exact there c hc

theorem solid_renderMembers {quote : Text → Text} (quoted : ∀ s, ∀ c ∈ quote s, 32 ≤ c)
    (members : List (Text × Json)) (wellFormed : WellFormedMembers members) :
    ∀ c ∈ renderMembers quote members, 32 ≤ c := by
  match members, wellFormed with
  | [], _ => simp [renderMembers]
  | [(key, value)], wellFormed =>
      intro c hc
      have here := solid_render quoted value wellFormed.1
      simp only [renderMembers, List.cons_append, List.mem_cons, List.mem_append] at hc
      rcases hc with rfl | hc | rfl | rfl | hc
      · decide
      · exact quoted key c hc
      · decide
      · decide
      · exact here c hc
  | (key, value) :: next :: members, wellFormed =>
      intro c hc
      have here := solid_render quoted value wellFormed.1
      have there := solid_renderMembers quoted (next :: members) wellFormed.2
      simp only [renderMembers, List.cons_append, List.mem_cons, List.mem_append] at hc
      rcases hc with rfl | hc | rfl | rfl | hc | rfl | hc
      · decide
      · exact quoted key c hc
      · decide
      · decide
      · exact here c hc
      · decide
      · exact there c hc
end

/-! ## Whole documents -/

/-- The compact text of a well-formed document reads back as the document, also
    with white space behind it. -/
theorem parse_render {join : Bool} {quote : Text → Text} (reads : Reads join quote) {j : Json}
    (wellFormed : WellFormed j) {trail : Text} (blank : skipSpace trail = []) :
    parse join (render quote j ++ trail) = some j := by
  have stop : Delimited trail := by
    intro c hc
    have space : isJsonSpace c = true := by
      cases trail with
      | nil => simp at hc
      | cons d trail =>
          cases hc
          by_contra solid
          simp [skipSpace_cons trail (by simpa using solid)] at blank
    simp only [isJsonSpace, Bool.or_eq_true, beq_iff_eq] at space
    simp only [isDigit, Bool.and_eq_false_iff, decide_eq_false_iff_not]
    omega
  have whole := parseValue_render reads j wellFormed ((render quote j ++ trail).length + 1) trail
    (by simp only [List.length_append]; omega) stop
  simp only [parse, whole, blank, if_true]

/-- Documents with one text are one document. -/
theorem render_injective {join : Bool} {quote : Text → Text} (reads : Reads join quote)
    {a b : Json} (ha : WellFormed a) (hb : WellFormed b) (same : render quote a = render quote b) :
    a = b := by
  have first := @parse_render _ _ reads _ ha [] rfl
  rw [same, parse_render reads hb rfl] at first
  exact (Option.some.inj first).symm

end Senex.Json
