import Senex.Foundation.JsonText
import Senex.Foundation.PyValue

/-! # JSON text of Python values

`PyValue.loads` reads the grammar.  `PyJson.dumps` and `PyJson.loads` are the two functions of
Python's `json`, which also write and read the constants `NaN`, `Infinity` and `-Infinity`.
`loads_dumps` is their round trip.
-/

namespace Senex

open Text

/-! ## Reading a document into Python -/

/-- `repr(n)` -/
def PyValue.ofInt (n : Int) : Text := (if n < 0 then [45] else []) ++ ofNat n.natAbs

/-- The value of a number: an `int` of at most 4300 digits, or a `float`. -/
def PyValue.ofNumber (raw : Text) : Option PyValue :=
  if raw.any fun c => c == 46 || c == 101 || c == 69 then (Double.read raw).map .float
  else
    let (negative, digits) := RationalDecimal.sign raw
    if digits.length ≤ 4300 then
      some (.int (if negative then -(toNat digits) else toNat digits))
    else Option.none

mutual
/-- What `json.loads` makes of a document. -/
def PyValue.ofJson : Json → Option PyValue
  | .null => some .none
  | .bool b => some (.bool b)
  | .num raw => PyValue.ofNumber raw
  | .str s => some (.str s)
  | .arr items => (PyValue.ofItems items).map .list
  | .obj members => (PyValue.ofJsonMembers members).map .dict

def PyValue.ofItems : List Json → Option (List PyValue)
  | [] => some []
  | item :: items => do return (← PyValue.ofJson item) :: (← PyValue.ofItems items)

def PyValue.ofJsonMembers : List (Text × Json) → Option (List (Text × PyValue))
  | [] => some []
  | (key, value) :: members => do
      return (key, ← PyValue.ofJson value) :: (← PyValue.ofJsonMembers members)
end

/-- `json.loads(text)` -/
def PyValue.loads (text : Text) : Option PyValue := (Json.parse true text).bind PyValue.ofJson

theorem PyValue.sign_digits (negative : Bool) {t : Text} (nonempty : t ≠ [])
    (digits : ∀ c ∈ t, isDigit c = true) :
    RationalDecimal.sign ((if negative then [45] else []) ++ t) = (negative, t) := by
  cases negative with
  | true => rfl
  | false =>
      obtain ⟨c, t, rfl⟩ := List.exists_cons_of_ne_nil nonempty
      have digit := digits c (by simp)
      simp only [isDigit, Bool.and_eq_true, decide_eq_true_eq] at digit
      rw [if_neg (by decide), List.nil_append, RationalDecimal.sign.eq_def]
      split <;> simp_all

namespace PyJson

open Json

/-! ## Writing -/

/-- How `json.dumps` writes a `float`. -/
def floatText : Double → Text
  | .nan => txt "NaN"
  | .infinity negative => (if negative then [45] else []) ++ txt "Infinity"
  | .finite negative m e canonical => (Double.finite negative m e canonical).pyRepr

mutual
/-- `json.dumps(value, sort_keys=True, separators=(",", ":"), ensure_ascii=False)`; nothing is the
    `ValueError` for an `int` of more than 4300 digits. -/
def dumps : PyValue → Option Text
  | .none => some (txt "null")
  | .bool b => some (if b then txt "true" else txt "false")
  | .int n => if (Text.ofNat n.natAbs).length ≤ 4300 then some (PyValue.ofInt n) else Option.none
  | .float x => some (floatText x)
  | .str t => some (34 :: pyQuote t ++ [34])
  | .list items => (dumpItems items).map fun t => 91 :: t ++ [93]
  | .dict members => (dumpMembers members).map fun t => 123 :: t ++ [125]

def dumpItems : List PyValue → Option Text
  | [] => some []
  | [item] => dumps item
  | item :: next :: items => do return (← dumps item) ++ 44 :: (← dumpItems (next :: items))

def dumpMembers : List (Text × PyValue) → Option Text
  | [] => some []
  | [(key, value)] => (dumps value).map fun t => 34 :: pyQuote key ++ 34 :: 58 :: t
  | (key, value) :: next :: members => do
      return 34 :: pyQuote key ++ 34 :: 58 :: ((← dumps value) ++ 44 :: (← dumpMembers (next :: members)))
end

mutual
/-- No `float` of the value is infinite or no number. -/
def finite : PyValue → Bool
  | .none | .bool _ | .int _ | .str _ => true
  | .float x => x.isFinite
  | .list items => finiteItems items
  | .dict members => finiteMembers members

def finiteItems : List PyValue → Bool
  | [] => true
  | item :: items => finite item && finiteItems items

def finiteMembers : List (Text × PyValue) → Bool
  | [] => true
  | (_, value) :: members => finite value && finiteMembers members
end

/-! ## Reading -/

/-- The words that stand for a value. -/
def constants : List (Text × PyValue) :=
  [(txt "null", .none), (txt "true", .bool true), (txt "false", .bool false), (txt "NaN", .float .nan),
    (txt "Infinity", .float (.infinity false)), (txt "-Infinity", .float (.infinity true))]

/-- A number or a constant. -/
def readScalar (t : Text) : Option (PyValue × Text) :=
  match scanNumber t with
  | some (raw, rest) => (PyValue.ofNumber raw).map fun v => (v, rest)
  | none => constants.findSome? fun constant => (dropLiteral constant.1 t).map fun rest => (constant.2, rest)

mutual
def readValue : Nat → Text → Option (PyValue × Text)
  | 0, _ => none
  | fuel + 1, t =>
      match skipSpace t with
      | [] => none
      | c :: rest =>
          if c = 34 then (scanString true rest).map fun p => (.str p.1, p.2)
          else if c = 123 then
            match expect 125 rest with
            | some rest => some (.dict [], rest)
            | none => (readMembers fuel rest []).map fun p => (.dict p.1, p.2)
          else if c = 91 then
            match expect 93 rest with
            | some rest => some (.list [], rest)
            | none => (readItems fuel rest).map fun p => (.list p.1, p.2)
          else readScalar (c :: rest)

def readItems : Nat → Text → Option (List PyValue × Text)
  | 0, _ => none
  | fuel + 1, t => do
      let (item, rest) ← readValue fuel t
      match skipSpace rest with
      | [] => none
      | c :: rest =>
          if c = 93 then some ([item], rest)
          else if c = 44 then (readItems fuel rest).map fun p => (item :: p.1, p.2)
          else none

/-- The members up to the closing brace, put into `acc`: a later member wins. -/
def readMembers : Nat → Text → List (Text × PyValue) → Option (List (Text × PyValue) × Text)
  | 0, _, _ => none
  | fuel + 1, t, acc => do
      let (key, rest) ← (expect 34 t).bind (scanString true)
      let (value, rest) ← (expect 58 rest).bind (readValue fuel)
      match skipSpace rest with
      | [] => none
      | c :: rest =>
          if c = 125 then some (insert key value acc, rest)
          else if c = 44 then readMembers fuel rest (insert key value acc)
          else none
end

/-- `json.loads(text)`; nothing is its `ValueError`, also the one for an `int` of more than 4300
    digits, which is no `JSONDecodeError`. -/
def loads (t : Text) : Option PyValue :=
  match readValue (t.length + 1) t with
  | some (v, rest) => if skipSpace rest = [] then some v else none
  | none => none

/-! ## Ordered values -/

mutual
/-- The members of every `dict` stand in key order, each key once. -/
def Ordered : PyValue → Prop
  | .none | .bool _ | .int _ | .float _ | .str _ => True
  | .list items => OrderedItems items
  | .dict members => Sorted members ∧ OrderedMembers members

def OrderedItems : List PyValue → Prop
  | [] => True
  | item :: items => Ordered item ∧ OrderedItems items

def OrderedMembers : List (Text × PyValue) → Prop
  | [] => True
  | (_, value) :: members => Ordered value ∧ OrderedMembers members
end

/-! ## The round trip -/

/-- A text that is read as this value, also in front of more text. -/
structure Scalar (t : Text) (v : PyValue) : Prop where
  read : ∀ rest, Delimited rest → readScalar (t ++ rest) = some (v, rest)
  head : ∃ c rest, t = c :: rest ∧ isJsonSpace c = false ∧ c ∉ [34, 91, 93, 123, 125]
  printable : ∀ c ∈ t, 32 ≤ c

theorem scalar_constant {word : Text} {v : PyValue} (known : (word, v) ∈ constants) : Scalar word v := by
  simp only [constants, List.mem_cons, List.not_mem_nil, or_false, Prod.mk.injEq] at known
  rcases known with ⟨rfl, rfl⟩ | ⟨rfl, rfl⟩ | ⟨rfl, rfl⟩ | ⟨rfl, rfl⟩ | ⟨rfl, rfl⟩ | ⟨rfl, rfl⟩ <;>
    exact ⟨fun _ _ => rfl, ⟨_, _, rfl, by decide⟩, by decide⟩

theorem scalar_number {raw : Text} {v : PyValue} (number : IsNumber raw)
    (value : PyValue.ofNumber raw = some v) : Scalar raw v where
  read := by
    intro rest stop
    rw [readScalar, scanNumber_append number stop]
    simp [value]
  head := by
    obtain ⟨sign, i, f, x, rfl, hsign, int, -⟩ := number
    have digit : ∀ c, isDigit c = true → isJsonSpace c = false ∧ c ∉ [34, 91, 93, 123, 125] := by
      intro c hc
      simp only [isDigit, Bool.and_eq_true, decide_eq_true_eq] at hc
      simp only [isJsonSpace, Bool.or_eq_false_iff, beq_eq_false_iff_ne, List.mem_cons, List.not_mem_nil, or_false]
      omega
    rcases hsign with rfl | rfl
    · rcases int with rfl | ⟨c, ds, rfl, hc, -⟩
      · exact ⟨48, _, rfl, digit 48 (by decide)⟩
      · exact ⟨c, _, rfl, digit c hc⟩
    · exact ⟨45, _, rfl, by decide⟩
  printable := by
    have solid := @solid_render pyQuote solid_pyQuote (.num raw) number
    simpa [render] using solid

theorem scalar_int {n : Int} (short : (Text.ofNat n.natAbs).length ≤ 4300) :
    Scalar (PyValue.ofInt n) (.int n) := by
  obtain ⟨c, ds, shape, digit, rest, zero⟩ := ofNat_shape n.natAbs
  have digits : ∀ d ∈ Text.ofNat n.natAbs, isDigit d = true := fun d hd => isDigit_of_mem_ofNat hd
  have spelled : PyValue.ofInt n = (if decide (n < 0) then [45] else []) ++ Text.ofNat n.natAbs := by
    simp [PyValue.ofInt]
  apply scalar_number
  · refine ⟨if n < 0 then [45] else [], Text.ofNat n.natAbs, [], [], by simp [PyValue.ofInt], ?_, ?_, .inl rfl,
      .inl rfl⟩
    · split <;> simp
    · by_cases h : c = 48
      · exact .inl (by rw [shape, h, zero h])
      · exact .inr ⟨c, ds, shape, digit, h, rest⟩
  · have whole : ((PyValue.ofInt n).any fun c => c == 46 || c == 101 || c == 69) = false := by
      rw [spelled, List.any_append, Bool.or_eq_false_iff, List.any_eq_false, List.any_eq_false]
      constructor
      · intro d hd
        split at hd
        · simp_all
        · simp at hd
      · intro d hd
        have digit := digits d hd
        simp only [isDigit, Bool.and_eq_true, decide_eq_true_eq] at digit
        simp only [Bool.or_eq_true, beq_iff_eq]
        omega
    have signed := PyValue.sign_digits (decide (n < 0)) (by simp [shape]) digits
    rw [PyValue.ofNumber, whole, if_neg (by decide), spelled, signed]
    simp only [if_pos short, toNat_ofNat, decide_eq_true_eq]
    split <;> (congr 2; omega)

/-- `repr` of a `float` has a point or an exponent. -/
private theorem marked_pyDigits (digits : Text) (point : Int) :
    (Double.pyDigits digits point).any (fun c => c == 46 || c == 101 || c == 69) = true := by
  unfold Double.pyDigits
  split
  · simp
  · split
    · simp
    · split
      · simp
      · simp

private theorem spelled_zero : Double.Spelled (txt "0.0") 0 :=
  ⟨[48], [46, 48], [], 1, rfl, .inl rfl, .inr ⟨[48], rfl, by decide⟩, .inl rfl, rfl, by decide +kernel⟩

theorem scalar_float (x : Double) : Scalar (floatText x) (.float x) := by
  cases x with
  | nan => exact scalar_constant (by simp [constants, floatText])
  | infinity negative => cases negative <;> exact scalar_constant (by simp [constants, floatText, txt])
  | finite negative m e canonical =>
      -- zero has a text of its own, any other number its shortest decimal
      obtain ⟨body, q, spelled, text, value⟩ : ∃ body q, Double.Spelled body q ∧
          floatText (.finite negative m e canonical) = (if negative then [45] else []) ++ body ∧
          Double.ofMagnitude negative q = .finite negative m e canonical := by
        by_cases zero : m = 0
        · subst zero
          exact ⟨_, _, spelled_zero, by simp [floatText, Double.pyRepr],
            by simpa using Double.ofMagnitude_magnitude negative canonical⟩
        · exact ⟨_, _, Double.spelled_pyRepr canonical (Nat.pos_of_ne_zero zero),
            by rw [floatText, Double.pyRepr, if_neg zero], Double.ofMagnitude_shortest negative canonical⟩
      rw [text]
      apply scalar_number (spelled.isNumber negative)
      have marked : ((floatText (.finite negative m e canonical)).any
          fun c => c == 46 || c == 101 || c == 69) = true := by
        by_cases zero : m = 0
        · simp [floatText, Double.pyRepr, zero, txt]
        · rw [floatText, Double.pyRepr, if_neg zero, List.any_append, marked_pyDigits, Bool.or_true]
      rw [text] at marked
      rw [PyValue.ofNumber, if_pos marked, spelled.read negative, value]
      rfl

theorem readValue_scalar {t : Text} {v : PyValue} (scalar : Scalar t v) {fuel : Nat} (some_left : 0 < fuel)
    {rest : Text} (stop : Delimited rest) : readValue fuel (t ++ rest) = some (v, rest) := by
  obtain ⟨fuel, rfl⟩ : ∃ n, fuel = n + 1 := ⟨fuel - 1, by omega⟩
  have read := scalar.read rest stop
  obtain ⟨c, tail, rfl, solid, other⟩ := scalar.head
  simp only [List.mem_cons, List.not_mem_nil, or_false, not_or] at other
  rw [List.cons_append] at read ⊢
  rw [readValue, skipSpace_cons _ solid]
  simp only [other, if_false, read]

/-- A written value is a scalar, a `list` or a `dict`. -/
theorem dumps_cases {v : PyValue} {t : Text} (written : dumps v = some t) :
    Scalar t v ∨ (∃ s, v = .str s ∧ t = 34 :: pyQuote s ++ [34]) ∨
      (∃ items body, v = .list items ∧ dumpItems items = some body ∧ t = 91 :: body ++ [93]) ∨
      ∃ members body, v = .dict members ∧ dumpMembers members = some body ∧ t = 123 :: body ++ [125] := by
  cases v with
  | none =>
      cases written
      exact .inl (scalar_constant (by simp [constants]))
  | bool b => cases b <;> (cases written; exact .inl (scalar_constant (by simp [constants])))
  | int n =>
      rw [dumps] at written
      split at written
      · rename_i short
        cases written
        exact .inl (scalar_int short)
      · cases written
  | float x =>
      cases written
      exact .inl (scalar_float x)
  | str s =>
      cases written
      exact .inr (.inl ⟨s, rfl, rfl⟩)
  | list items =>
      obtain ⟨body, inner, rfl⟩ := Option.map_eq_some_iff.mp written
      exact .inr (.inr (.inl ⟨items, body, rfl, inner, rfl⟩))
  | dict members =>
      obtain ⟨body, inner, rfl⟩ := Option.map_eq_some_iff.mp written
      exact .inr (.inr (.inr ⟨members, body, rfl, inner, rfl⟩))

theorem head_dumps {v : PyValue} {t : Text} (written : dumps v = some t) :
    ∃ c rest, t = c :: rest ∧ isJsonSpace c = false ∧ c ≠ 93 ∧ c ≠ 125 := by
  rcases dumps_cases written with scalar | ⟨s, -, rfl⟩ | ⟨items, body, -, -, rfl⟩ | ⟨members, body, -, -, rfl⟩
  · obtain ⟨c, rest, shape, solid, other⟩ := scalar.head
    simp only [List.mem_cons, List.not_mem_nil, or_false, not_or] at other
    exact ⟨c, rest, shape, solid, other.2.2.1, other.2.2.2.2⟩
  all_goals exact ⟨_, _, rfl, by decide⟩

theorem dumpItems_cons {item : PyValue} {items : List PyValue} {t : Text}
    (written : dumpItems (item :: items) = some t) :
    ∃ first, dumps item = some first ∧ (items = [] ∧ t = first ∨
      ∃ more, items ≠ [] ∧ dumpItems items = some more ∧ t = first ++ 44 :: more) := by
  cases items with
  | nil => exact ⟨t, written, .inl ⟨rfl, rfl⟩⟩
  | cons next items =>
      simp only [dumpItems, Option.bind_eq_bind, Option.pure_def, Option.bind_eq_some_iff,
        Option.some.injEq] at written
      obtain ⟨first, here, more, there, rfl⟩ := written
      exact ⟨first, here, .inr ⟨more, by simp, there, rfl⟩⟩

theorem dumpMembers_cons {key : Text} {value : PyValue} {members : List (Text × PyValue)} {t : Text}
    (written : dumpMembers ((key, value) :: members) = some t) :
    ∃ first, dumps value = some first ∧ (members = [] ∧ t = 34 :: pyQuote key ++ 34 :: 58 :: first ∨
      ∃ more, members ≠ [] ∧ dumpMembers members = some more ∧
        t = 34 :: pyQuote key ++ 34 :: 58 :: (first ++ 44 :: more)) := by
  cases members with
  | nil =>
      obtain ⟨first, here, rfl⟩ := Option.map_eq_some_iff.mp written
      exact ⟨first, here, .inl ⟨rfl, rfl⟩⟩
  | cons next members =>
      simp only [dumpMembers, Option.bind_eq_bind, Option.pure_def, Option.bind_eq_some_iff,
        Option.some.injEq] at written
      obtain ⟨first, here, more, there, rfl⟩ := written
      exact ⟨first, here, .inr ⟨more, by simp, there, rfl⟩⟩

mutual
theorem readValue_dumps {v : PyValue} {t : Text} (ordered : Ordered v) (written : dumps v = some t)
    (fuel : Nat) (rest : Text) (enough : t.length < fuel) (stop : Delimited rest) :
    readValue fuel (t ++ rest) = some (v, rest) := by
  obtain ⟨fuel, rfl⟩ : ∃ n, fuel = n + 1 := ⟨fuel - 1, by omega⟩
  rcases dumps_cases written with scalar | ⟨s, rfl, rfl⟩ | ⟨items, body, rfl, inner, rfl⟩ |
    ⟨members, body, rfl, inner, rfl⟩
  · exact readValue_scalar scalar (by omega) stop
  · have body := reads_pyQuote s rest
    rw [readValue]
    simp only [List.cons_append, List.append_assoc, List.nil_append]
    rw [skipSpace_cons _ (by decide)]
    simp only [if_true, body, Option.map_some]
  · simp only [List.length_append, List.length_cons, List.length_nil] at enough
    rw [readValue]
    simp only [List.cons_append, List.append_assoc, List.nil_append]
    rw [skipSpace_cons _ (by decide)]
    simp only [show (91 : Nat) ≠ 34 from by decide, show (91 : Nat) ≠ 123 from by decide, if_false, if_true]
    cases items with
    | nil =>
        cases inner
        rw [List.nil_append, expect_cons _ (by decide)]
    | cons item items =>
        have read := readItems_dumps ordered inner fuel rest (by omega)
        obtain ⟨first, here, shape⟩ := dumpItems_cons inner
        obtain ⟨c, tail, rfl, solid, other, -⟩ := head_dumps here
        have opened : expect 93 (body ++ 93 :: rest) = none := by
          rcases shape with ⟨-, rfl⟩ | ⟨more, -, -, rfl⟩ <;> exact expect_ne _ solid other
        rw [opened]
        simp only [read, Option.map_some]
  · simp only [List.length_append, List.length_cons, List.length_nil] at enough
    rw [readValue]
    simp only [List.cons_append, List.append_assoc, List.nil_append]
    rw [skipSpace_cons _ (by decide)]
    simp only [show (123 : Nat) ≠ 34 from by decide, if_false, if_true]
    rcases members with _ | ⟨⟨key, value⟩, members⟩
    · cases inner
      rw [List.nil_append, expect_cons _ (by decide)]
    · have read := readMembers_dumps ordered.2 inner fuel rest [] (by omega)
      have opened : expect 125 (body ++ 125 :: rest) = none := by
        obtain ⟨first, here, shape⟩ := dumpMembers_cons inner
        rcases shape with ⟨-, rfl⟩ | ⟨more, -, -, rfl⟩ <;> exact expect_ne _ (by decide) (by decide)
      have whole := foldl_insert_sorted [] ((key, value) :: members) (by simpa using ordered.1)
      rw [opened]
      simp only [read, Option.map_some, whole, List.nil_append]
termination_by fuel
decreasing_by all_goals omega

private theorem readItems_dumps {item : PyValue} {items : List PyValue} {t : Text}
    (ordered : OrderedItems (item :: items)) (written : dumpItems (item :: items) = some t) (fuel : Nat)
    (rest : Text) (enough : t.length + 1 < fuel) :
    readItems fuel (t ++ 93 :: rest) = some (item :: items, rest) := by
  obtain ⟨fuel, rfl⟩ : ∃ n, fuel = n + 1 := ⟨fuel - 1, by omega⟩
  obtain ⟨first, here, ⟨rfl, rfl⟩ | ⟨more, nonempty, there, rfl⟩⟩ := dumpItems_cons written
  · have read := readValue_dumps ordered.1 here fuel (93 :: rest) (by omega) (delimited_cons (by decide))
    rw [readItems, read]
    simp [skipSpace_cons rest (show isJsonSpace 93 = false by decide)]
  · obtain ⟨next, items, rfl⟩ := List.exists_cons_of_ne_nil nonempty
    simp only [List.length_append, List.length_cons] at enough
    have read := readValue_dumps ordered.1 here fuel (44 :: (more ++ 93 :: rest)) (by omega)
      (delimited_cons (by decide))
    have inner := readItems_dumps ordered.2 there fuel rest (by omega)
    rw [List.append_assoc, List.cons_append, readItems, read]
    simp [skipSpace_cons _ (show isJsonSpace 44 = false by decide), inner]
termination_by fuel
decreasing_by all_goals omega

private theorem readMembers_dumps {key : Text} {value : PyValue} {members : List (Text × PyValue)} {t : Text}
    (ordered : OrderedMembers ((key, value) :: members))
    (written : dumpMembers ((key, value) :: members) = some t) (fuel : Nat) (rest : Text)
    (acc : List (Text × PyValue)) (enough : t.length + 1 < fuel) :
    readMembers fuel (t ++ 125 :: rest) acc =
      some (((key, value) :: members).foldl (fun acc m => insert m.1 m.2 acc) acc, rest) := by
  obtain ⟨fuel, rfl⟩ : ∃ n, fuel = n + 1 := ⟨fuel - 1, by omega⟩
  have opening (more : Text) : (expect 34 (34 :: (pyQuote key ++ 34 :: 58 :: more))).bind
      (scanString true) = some (key, 58 :: more) := by
    rw [expect_cons _ (by decide), Option.bind_some, reads_pyQuote]
  obtain ⟨first, here, ⟨rfl, rfl⟩ | ⟨more, nonempty, there, rfl⟩⟩ := dumpMembers_cons written
  · simp only [List.cons_append, List.append_assoc, List.length_append, List.length_cons] at enough ⊢
    have read := readValue_dumps ordered.1 here fuel (125 :: rest) (by omega) (delimited_cons (by decide))
    rw [readMembers, opening]
    simp [expect_cons _ (show isJsonSpace 58 = false by decide), read,
      skipSpace_cons rest (show isJsonSpace 125 = false by decide)]
  · obtain ⟨⟨nextKey, nextValue⟩, members, rfl⟩ := List.exists_cons_of_ne_nil nonempty
    simp only [List.cons_append, List.append_assoc, List.length_append, List.length_cons] at enough ⊢
    have read := readValue_dumps ordered.1 here fuel (44 :: (more ++ 125 :: rest)) (by omega)
      (delimited_cons (by decide))
    have inner := readMembers_dumps ordered.2 there fuel rest (insert key value acc) (by omega)
    rw [readMembers, opening]
    simp [expect_cons _ (show isJsonSpace 58 = false by decide), read,
      skipSpace_cons _ (show isJsonSpace 44 = false by decide), inner]
termination_by fuel
decreasing_by all_goals omega
end

/-- What is written is read back. -/
theorem loads_dumps {v : PyValue} {t : Text} (ordered : Ordered v) (written : dumps v = some t) :
    loads t = some v := by
  have whole := readValue_dumps ordered written (t.length + 1) [] (by omega) delimited_nil
  rw [List.append_nil] at whole
  rw [loads, whole]
  rfl

/-- Values with one text are one value. -/
theorem dumps_injective {v w : PyValue} {t : Text} (ordered : Ordered v) (ordered' : Ordered w)
    (written : dumps v = some t) (written' : dumps w = some t) : v = w := by
  have first := loads_dumps ordered written
  rw [loads_dumps ordered' written'] at first
  exact (Option.some.inj first).symm

/-! ## Python's `==` -/

/-- The number that a value is; on the right is an infinity with its sign. -/
def number? : PyValue → Option (ℚ ⊕ Bool)
  | .bool b => some (.inl (if b then 1 else 0))
  | .int n => some (.inl n)
  | .float .nan => Option.none
  | .float (.infinity negative) => some (.inr negative)
  | .float x => some (.inl x.value)
  | _ => Option.none

mutual
/-- `a == b` of two values that were built apart. -/
def pyEq : PyValue → PyValue → Bool
  | .none, .none => true
  | .str s, .str t => s == t
  | .list xs, .list ys => pyEqItems xs ys
  | .dict xs, .dict ys => pyEqMembers xs ys
  | a, b => match number? a, number? b with
      | some x, some y => decide (x = y)
      | _, _ => false

def pyEqItems : List PyValue → List PyValue → Bool
  | [], [] => true
  | x :: xs, y :: ys => pyEq x y && pyEqItems xs ys
  | _, _ => false

def pyEqMembers : List (Text × PyValue) → List (Text × PyValue) → Bool
  | [], [] => true
  | (k, x) :: xs, (l, y) :: ys => k == l && pyEq x y && pyEqMembers xs ys
  | _, _ => false
end

mutual
theorem pyEq_refl {v : PyValue} (isFinite : finite v = true) : pyEq v v = true := by
  cases v with
  | none | bool | int | str => simp [pyEq, number?]
  | float x => cases x <;> simp_all [pyEq, number?, finite, Double.isFinite]
  | list items => simpa only [pyEq] using pyEqItems_refl isFinite
  | dict members => simpa only [pyEq] using pyEqMembers_refl isFinite

theorem pyEqItems_refl {items : List PyValue} (isFinite : finiteItems items = true) :
    pyEqItems items items = true := by
  cases items with
  | nil => rfl
  | cons item items =>
      simp only [finiteItems, Bool.and_eq_true] at isFinite
      simp only [pyEqItems, pyEq_refl isFinite.1, pyEqItems_refl isFinite.2, Bool.and_self]

theorem pyEqMembers_refl {members : List (Text × PyValue)} (isFinite : finiteMembers members = true) :
    pyEqMembers members members = true := by
  cases members with
  | nil => rfl
  | cons m members =>
      obtain ⟨key, value⟩ := m
      simp only [finiteMembers, Bool.and_eq_true] at isFinite
      simp only [pyEqMembers, pyEq_refl isFinite.1, pyEqMembers_refl isFinite.2, beq_self_eq_true, Bool.and_self]
end

/-! ## No control characters -/

mutual
/-- A written text has no control characters. -/
theorem printable_dumps {v : PyValue} {t : Text} (written : dumps v = some t) : ∀ c ∈ t, 32 ≤ c := by
  rcases dumps_cases written with scalar | ⟨s, rfl, rfl⟩ | ⟨items, body, rfl, inner, rfl⟩ |
    ⟨members, body, rfl, inner, rfl⟩
  · exact scalar.printable
  · have quoted := solid_pyQuote s
    simpa [or_imp, forall_and] using quoted
  · have inside := printable_dumpItems inner
    simpa [or_imp, forall_and] using inside
  · have inside := printable_dumpMembers inner
    simpa [or_imp, forall_and] using inside
termination_by sizeOf v

private theorem printable_dumpItems {items : List PyValue} {t : Text} (written : dumpItems items = some t) :
    ∀ c ∈ t, 32 ≤ c := by
  cases items with
  | nil =>
      cases written
      simp
  | cons item items =>
      obtain ⟨first, here, ⟨-, rfl⟩ | ⟨more, -, there, rfl⟩⟩ := dumpItems_cons written
      · exact printable_dumps here
      · have front := printable_dumps here
        have back := printable_dumpItems there
        simpa [or_imp, forall_and] using ⟨front, back⟩
termination_by sizeOf items

private theorem printable_dumpMembers {members : List (Text × PyValue)} {t : Text}
    (written : dumpMembers members = some t) : ∀ c ∈ t, 32 ≤ c := by
  cases members with
  | nil =>
      cases written
      simp
  | cons m members =>
      have smaller : sizeOf m.2 < sizeOf (m :: members) := by
        cases m
        simp only [List.cons.sizeOf_spec, Prod.mk.sizeOf_spec]
        omega
      have quoted := solid_pyQuote m.1
      obtain ⟨first, here, ⟨-, rfl⟩ | ⟨more, -, there, rfl⟩⟩ := dumpMembers_cons written
      · have front := printable_dumps here
        simpa [or_imp, forall_and] using ⟨quoted, front⟩
      · have front := printable_dumps here
        have back := printable_dumpMembers there
        simpa [or_imp, forall_and] using ⟨quoted, front, back⟩
termination_by sizeOf members
end

end PyJson

end Senex
