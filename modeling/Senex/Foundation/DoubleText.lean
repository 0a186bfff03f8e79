import Senex.Foundation.Double
import Senex.Foundation.Json

/-! # Numbers as text

How JavaScript and Python spell a number, and how both read one.  `read_jsString` is the
round trip: `Number(String(x))` is `x`.
-/

namespace Senex.Double

open Text

/-! ## Reading -/

/-- A decimal literal, rounded. -/
def read (t : Text) : Option Double :=
  let (negative, body) := RationalDecimal.sign t
  if body.contains 47 then none else (RationalDecimal.unsigned body).map (ofMagnitude negative)

/-! ## JavaScript -/

/-- The digits of a decimal as `Number::toString` places them, `point` being the place of the point. -/
def jsDigits (digits : Text) (point : Int) : Text :=
  if digits.length ≤ point ∧ point ≤ 21 then
    digits ++ List.replicate (point - digits.length).toNat 48
  else if 0 < point ∧ point ≤ 21 then digits.take point.toNat ++ 46 :: digits.drop point.toNat
  else if -6 < point ∧ point ≤ 0 then 48 :: 46 :: (List.replicate (-point).toNat 48 ++ digits)
  else
    digits.take 1 ++ (if digits.length = 1 then [] else 46 :: digits.drop 1) ++
      101 :: (if point - 1 < 0 then 45 else 43) :: ofNat (point - 1).natAbs

def jsMagnitude (d : Nat × Int) : Text := jsDigits (ofNat d.1) ((ofNat d.1).length + d.2)

/-- `String(x)` -/
def jsString : Double → Text
  | .nan => txt "NaN"
  | .infinity negative => (if negative then [45] else []) ++ txt "Infinity"
  | .finite negative m e _ =>
      if m = 0 then [48]
      else (if negative then [45] else []) ++ jsMagnitude (shortest m e)

/-! ## Python -/

/-- The digits of a decimal as `repr` places them. -/
def pyDigits (digits : Text) (point : Int) : Text :=
  if digits.length ≤ point ∧ point ≤ 16 then
    digits ++ List.replicate (point - digits.length).toNat 48 ++ [46, 48]
  else if 0 < point ∧ point ≤ 16 then digits.take point.toNat ++ 46 :: digits.drop point.toNat
  else if -4 < point ∧ point ≤ 0 then 48 :: 46 :: (List.replicate (-point).toNat 48 ++ digits)
  else
    let power := ofNat (point - 1).natAbs
    digits.take 1 ++ (if digits.length = 1 then [] else 46 :: digits.drop 1) ++
      101 :: (if point - 1 < 0 then 45 else 43) :: (if power.length < 2 then 48 :: power else power)

/-- `repr(x)` -/
def pyRepr : Double → Text
  | .nan => txt "nan"
  | .infinity negative => (if negative then [45] else []) ++ txt "inf"
  | .finite negative m e _ =>
      (if negative then [45] else []) ++
        if m = 0 then txt "0.0"
        else pyDigits (ofNat (shortest m e).1) ((ofNat (shortest m e).1).length + (shortest m e).2)

/-! ## Reading back -/

theorem toNat_append (a b : Text) : toNat (a ++ b) = toNat a * 10 ^ b.length + toNat b := by
  have shift : ∀ (b : Text) (n : Nat), b.foldl (fun acc c => 10 * acc + (c - 48)) n =
      n * 10 ^ b.length + b.foldl (fun acc c => 10 * acc + (c - 48)) 0 := by
    intro b
    induction b with
    | nil => simp
    | cons c b ih =>
        intro n
        rw [List.foldl_cons, ih, List.foldl_cons, ih (10 * 0 + (c - 48)), List.length_cons, pow_succ]
        ring
  rw [Text.toNat, List.foldl_append, shift]
  rfl

theorem toNat_zeros (n : Nat) : toNat (List.replicate n 48) = 0 := by
  induction n with
  | zero => rfl
  | succ n ih => rw [List.replicate_succ', toNat_append, ih]; rfl

/-- The parts of an unsigned literal with their value. -/
structure Spelled (t : Text) (q : ℚ) : Prop where
  parts : ∃ i f x power, t = i ++ f ++ x ∧ Json.IsInt i ∧ Json.IsFraction f ∧ Json.IsExponent x ∧
    RationalDecimal.exponent x = some power ∧
    q = (toNat (i ++ f.drop 1) : ℚ) / (10 ^ (f.drop 1).length : ℕ) * power

private theorem isDigit_isInt {i : Text} (int : Json.IsInt i) : i ≠ [] ∧ ∀ c ∈ i, isDigit c = true := by
  rcases int with rfl | ⟨c, ds, rfl, digit, -, rest⟩
  · simp [isDigit]
  · simp [digit]
    exact rest

private theorem span_digits {i rest : Text} (digits : ∀ c ∈ i, isDigit c = true)
    (stop : ∀ c ∈ rest.head?, isDigit c = false) :
    (i ++ rest).takeWhile isDigit = i ∧ (i ++ rest).dropWhile isDigit = rest := by
  have none_left : rest.takeWhile isDigit = [] ∧ rest.dropWhile isDigit = rest := by
    cases rest with
    | nil => simp
    | cons c rest => simp [stop c rfl]
  rw [List.takeWhile_append_of_pos digits, List.dropWhile_append_of_pos digits]
  simp [none_left]

private theorem head_isExponent {x : Text} (exponent : Json.IsExponent x) :
    ∀ c ∈ x.head?, isDigit c = false ∧ c ≠ 46 ∧ c ≠ 47 := by
  rcases exponent with rfl | ⟨e, sign, ds, rfl, either, -⟩
  · simp
  · rcases either with rfl | rfl <;> simp [isDigit]

theorem Spelled.unsigned {t : Text} {q : ℚ} (spelled : Spelled t q) :
    RationalDecimal.unsigned t = some q := by
  obtain ⟨i, f, x, power, rfl, int, fraction, exponent, read, rfl⟩ := spelled.parts
  obtain ⟨nonempty, digits⟩ := isDigit_isInt int
  have stop := head_isExponent exponent
  rcases fraction with rfl | ⟨ds, rfl, -, fractionDigits⟩
  · have span := span_digits digits fun c hc => (stop c hc).1
    rw [List.append_nil, RationalDecimal.unsigned, span.1, span.2]
    cases x with
    | nil =>
        have one : power = 1 := by simpa [RationalDecimal.exponent] using read.symm
        simp [nonempty, one]
    | cons c x =>
        have head := stop c rfl
        simp [nonempty, read, head.2.1, head.2.2]
  · have outer : (i ++ (46 :: ds ++ x)).takeWhile isDigit = i ∧
        (i ++ (46 :: ds ++ x)).dropWhile isDigit = 46 :: ds ++ x :=
      span_digits digits (by simp [isDigit])
    have inner := span_digits fractionDigits fun c hc => (stop c hc).1
    rw [List.append_assoc, RationalDecimal.unsigned, outer.1, outer.2]
    simp [inner.1, inner.2, nonempty, read]

theorem Spelled.isNumber {t : Text} {q : ℚ} (spelled : Spelled t q) (negative : Bool) :
    Json.IsNumber ((if negative then [45] else []) ++ t) := by
  obtain ⟨i, f, x, power, rfl, int, fraction, exponent, -, -⟩ := spelled.parts
  refine ⟨if negative then [45] else [], i, f, x, by simp, ?_, int, fraction, exponent⟩
  cases negative <;> simp

theorem Spelled.head {t : Text} {q : ℚ} (spelled : Spelled t q) :
    ∃ c rest, t = c :: rest ∧ isDigit c = true := by
  obtain ⟨i, f, x, power, rfl, int, -⟩ := spelled.parts
  obtain ⟨nonempty, digits⟩ := isDigit_isInt int
  obtain ⟨c, rest, rfl⟩ := List.exists_cons_of_ne_nil nonempty
  exact ⟨c, rest ++ f ++ x, by simp, digits c (by simp)⟩

theorem Spelled.plain {t : Text} {q : ℚ} (spelled : Spelled t q) : 47 ∉ t := by
  obtain ⟨i, f, x, power, rfl, int, fraction, exponent, -⟩ := spelled.parts
  have digit : isDigit 47 = false := by decide
  have outside : ∀ ds : Text, (∀ c ∈ ds, isDigit c = true) → 47 ∉ ds := by
    intro ds digits inside
    simp [digits 47 inside] at digit
  have int := outside i (isDigit_isInt int).2
  have fraction : 47 ∉ f := by
    rcases fraction with rfl | ⟨ds, rfl, -, digits⟩
    · simp
    · simpa using outside ds digits
  have exponent : 47 ∉ x := by
    rcases exponent with rfl | ⟨e, sign, ds, rfl, either, signs, -, digits⟩
    · simp
    · have none_left := outside ds digits
      rcases either with rfl | rfl <;> rcases signs with rfl | rfl | rfl <;> simpa using none_left
  simp [int, fraction, exponent]

/-- A signed literal reads as the rounding of its value. -/
theorem Spelled.read {t : Text} {q : ℚ} (spelled : Spelled t q) (negative : Bool) :
    read ((if negative then [45] else []) ++ t) = some (ofMagnitude negative q) := by
  obtain ⟨c, rest, rfl, digit⟩ := spelled.head
  have plain : (c :: rest).contains 47 = false := by simpa using spelled.plain
  cases negative with
  | true => simp only [Double.read, RationalDecimal.sign, if_true, List.singleton_append, plain, spelled.unsigned,
        Bool.false_eq_true, if_false, Option.map_some]
  | false =>
      have unsigned : RationalDecimal.sign (c :: rest) = (false, c :: rest) := by
        simp only [isDigit, Bool.and_eq_true, decide_eq_true_eq] at digit
        rw [RationalDecimal.sign.eq_def]
        split <;> simp_all
      simp only [Double.read, Bool.false_eq_true, if_false, List.nil_append, unsigned, plain, spelled.unsigned,
        Option.map_some]

/-- What the printed digits of a positive number look like. -/
structure Significant (digits : Text) : Prop where
  shape : ∃ c ds, digits = c :: ds ∧ c ≠ 48
  digit : ∀ c ∈ digits, isDigit c = true

theorem significant_ofNat {n : Nat} (positive : 0 < n) : Significant (ofNat n) := by
  obtain ⟨c, ds, shape, digit, rest, zero⟩ := ofNat_shape n
  refine ⟨⟨c, ds, shape, ?_⟩, fun _ hc => isDigit_of_mem_ofNat hc⟩
  rintro rfl
  have value := toNat_ofNat n
  rw [shape, zero rfl] at value
  simp [Text.toNat] at value
  omega

private theorem Significant.isInt {digits : Text} (significant : Significant digits) {n : Nat} (positive : 0 < n)
    {zeros : Text} (padding : ∀ c ∈ zeros, isDigit c = true) : Json.IsInt (digits.take n ++ zeros) := by
  obtain ⟨⟨c, ds, rfl, notZero⟩, digit⟩ := significant
  obtain ⟨n, rfl⟩ := Nat.exists_eq_add_one.mpr positive
  refine Or.inr ⟨c, ds.take n ++ zeros, by simp, digit c (by simp), notZero, ?_⟩
  intro d hd
  rcases List.mem_append.mp hd with inside | zero
  · exact digit d (List.mem_cons_of_mem _ (List.mem_of_mem_take inside))
  · exact padding d zero

private theorem isDigit_zeros {n : Nat} : ∀ c ∈ List.replicate n 48, isDigit c = true := by
  intro c hc
  rw [(List.mem_replicate.mp hc).2]
  rfl

private theorem ofNat_ne_nil (n : Nat) : ofNat n ≠ [] := by
  obtain ⟨c, ds, shape, -⟩ := ofNat_shape n
  simp [shape]

private theorem isExponent_sign {negative : Bool} {ds : Text} (nonempty : ds ≠ [])
    (digits : ∀ c ∈ ds, isDigit c = true) :
    Json.IsExponent (101 :: (if negative then 45 else 43) :: ds) := by
  refine Or.inr ⟨101, [if negative then 45 else 43], ds, rfl, Or.inl rfl, ?_, nonempty, digits⟩
  cases negative <;> simp

private theorem exponent_sign {negative : Bool} {ds : Text} (nonempty : ds ≠ [])
    (digits : ∀ c ∈ ds, isDigit c = true) :
    RationalDecimal.exponent (101 :: (if negative then 45 else 43) :: ds) =
      some (if negative then 1 / ((10 ^ toNat ds : ℕ) : ℚ) else ((10 ^ toNat ds : ℕ) : ℚ)) := by
  have all : ds.all isDigit = true := List.all_eq_true.mpr digits
  cases negative <;> simp [RationalDecimal.exponent, RationalDecimal.sign, nonempty, all]

private theorem toNat_take_drop (digits : Text) (n : Nat) : toNat (digits.take n ++ digits.drop n) = toNat digits := by
  rw [List.take_append_drop]

/-! The four ways to place the point. -/

section
variable {digits : Text} (significant : Significant digits)
include significant

private theorem Significant.length_pos : 0 < digits.length := by
  obtain ⟨⟨c, ds, rfl, -⟩, -⟩ := significant
  simp

private theorem Significant.isInt_zeros (n : Nat) : Json.IsInt (digits ++ List.replicate n 48) := by
  have int : Json.IsInt (digits.take digits.length ++ List.replicate n 48) :=
    significant.isInt significant.length_pos isDigit_zeros
  rwa [List.take_length] at int

theorem spelled_whole (n : Nat) : Spelled (digits ++ List.replicate n 48) (toNat digits * 10 ^ n) := by
  refine ⟨digits ++ List.replicate n 48, [], [], 1, by simp, significant.isInt_zeros n, Or.inl rfl,
    Or.inl rfl, rfl, ?_⟩
  simp [toNat_append, toNat_zeros]

theorem spelled_wholePoint (n : Nat) :
    Spelled (digits ++ List.replicate n 48 ++ [46, 48]) (toNat digits * 10 ^ n) := by
  refine ⟨digits ++ List.replicate n 48, [46, 48], [], 1, by simp, significant.isInt_zeros n,
    Or.inr ⟨[48], rfl, by simp, by simp [isDigit]⟩, Or.inl rfl, rfl, ?_⟩
  have zero : toNat [48] = 0 := rfl
  have ten : (10 : ℚ) ^ (n + 1) / 10 = 10 ^ n := by rw [pow_succ, mul_div_cancel_right₀ _ (by norm_num)]
  simp [toNat_append, toNat_zeros, zero, mul_div_assoc, ten]

theorem spelled_within {n k : Nat} (inside : 0 < n) (places : digits.length = n + k) (some_left : 0 < k) :
    Spelled (digits.take n ++ 46 :: digits.drop n) (toNat digits * (10 ^ k)⁻¹) := by
  refine ⟨digits.take n, 46 :: digits.drop n, [], 1, by simp, ?_, ?_, Or.inl rfl, rfl, ?_⟩
  · have int : Json.IsInt (digits.take n ++ []) := significant.isInt inside (by simp)
    rwa [List.append_nil] at int
  · refine Or.inr ⟨digits.drop n, rfl, ?_, fun c hc => significant.digit c (List.mem_of_mem_drop hc)⟩
    rw [← List.length_pos_iff_ne_nil, List.length_drop]
    omega
  · have left : digits.length - n = k := by omega
    rw [List.drop_one, List.tail_cons, toNat_take_drop, List.length_drop, mul_one, left, div_eq_mul_inv]
    push_cast
    rfl

theorem spelled_behind (n : Nat) :
    Spelled (48 :: 46 :: (List.replicate n 48 ++ digits)) (toNat digits * (10 ^ (n + digits.length))⁻¹) := by
  refine ⟨[48], 46 :: (List.replicate n 48 ++ digits), [], 1, by simp, Or.inl rfl, ?_, Or.inl rfl, rfl, ?_⟩
  · refine Or.inr ⟨List.replicate n 48 ++ digits, rfl, ?_, ?_⟩
    · have length := significant.length_pos
      rw [← List.length_pos_iff_ne_nil, List.length_append]
      omega
    · intro c hc
      rcases List.mem_append.mp hc with zero | inside
      · exact isDigit_zeros c zero
      · exact significant.digit c inside
  · have zero : toNat [48] = 0 := rfl
    rw [List.drop_one, List.tail_cons, toNat_append, toNat_append, toNat_zeros, List.length_append,
      List.length_replicate, div_eq_mul_inv, mul_one, zero]
    push_cast
    ring

theorem spelled_scientific {power : Int} {ds : Text} (nonempty : ds ≠ [])
    (isDigits : ∀ c ∈ ds, isDigit c = true) (power_eq : toNat ds = power.natAbs) :
    Spelled (digits.take 1 ++ (if digits.length = 1 then [] else 46 :: digits.drop 1) ++
      101 :: (if power < 0 then 45 else 43) :: ds) (toNat digits * (10 ^ (digits.length - 1))⁻¹ * 10 ^ power) := by
  have sign : (if power < 0 then 45 else 43 : Nat) = if decide (power < 0) then 45 else 43 := by simp
  have ten : (if decide (power < 0) then 1 / ((10 ^ toNat ds : ℕ) : ℚ) else ((10 ^ toNat ds : ℕ) : ℚ)) =
      10 ^ power := by
    rw [power_eq]
    split
    · rename_i negative
      obtain ⟨n, rfl⟩ : ∃ n : Nat, power = -n := ⟨power.natAbs, by simp at negative; omega⟩
      simp
    · rename_i negative
      obtain ⟨n, rfl⟩ : ∃ n : Nat, power = n := ⟨power.toNat, by simp at negative; omega⟩
      simp
  have int : Json.IsInt (digits.take 1 ++ []) := significant.isInt (by omega) (by simp)
  rw [List.append_nil] at int
  rw [sign]
  refine ⟨digits.take 1, if digits.length = 1 then [] else 46 :: digits.drop 1, _, 10 ^ power, rfl, int, ?_,
    isExponent_sign nonempty isDigits, (exponent_sign nonempty isDigits).trans (congrArg some ten), ?_⟩
  · split
    · exact Or.inl rfl
    · refine Or.inr ⟨digits.drop 1, rfl, ?_, fun c hc => significant.digit c (List.mem_of_mem_drop hc)⟩
      have length := significant.length_pos
      rw [← List.length_pos_iff_ne_nil, List.length_drop]
      omega
  · have fraction : (if digits.length = 1 then [] else 46 :: digits.drop 1).drop 1 = digits.drop 1 := by
      split
      · rename_i single
        rw [List.drop_nil, List.drop_eq_nil_of_le single.le]
      · rfl
    rw [fraction, toNat_take_drop, List.length_drop, div_eq_mul_inv]
    push_cast
    rfl

/-- The point moved to behind the first digit. -/
private theorem Significant.shift (power : Int) :
    (toNat digits : ℚ) * (10 ^ (digits.length - 1))⁻¹ * 10 ^ ((digits.length : Int) + power - 1) =
      toNat digits * 10 ^ power := by
  have length := significant.length_pos
  have split : (10 : ℚ) ^ ((digits.length : Int) + power - 1) = 10 ^ (digits.length - 1) * 10 ^ power := by
    rw [← zpow_natCast, ← zpow_add₀ (by norm_num)]
    congr 1
    omega
  rw [split]
  field_simp

theorem spelled_jsDigits (power : Int) :
    Spelled (jsDigits digits (digits.length + power)) (toNat digits * 10 ^ power) := by
  have length := significant.length_pos
  unfold jsDigits
  split
  · obtain ⟨n, rfl⟩ : ∃ n : Nat, power = n := ⟨power.toNat, by omega⟩
    simpa using spelled_whole significant n
  · split
    · obtain ⟨n, cut⟩ : ∃ n : Nat, (digits.length : Int) + power = n := ⟨_, (Int.toNat_of_nonneg (by omega)).symm⟩
      obtain ⟨k, rfl⟩ : ∃ k : Nat, power = -k := ⟨power.natAbs, by omega⟩
      rw [cut, zpow_neg, zpow_natCast]
      exact spelled_within significant (by omega) (by omega) (by omega)
    · split
      · obtain ⟨n, gap⟩ : ∃ n : Nat, -((digits.length : Int) + power) = n :=
          ⟨_, (Int.toNat_of_nonneg (by omega)).symm⟩
        obtain ⟨k, rfl⟩ : ∃ k : Nat, power = -k := ⟨power.natAbs, by omega⟩
        have places : k = n + digits.length := by omega
        rw [gap, zpow_neg, zpow_natCast, places]
        exact spelled_behind significant n
      · rw [← significant.shift]
        exact spelled_scientific significant (ofNat_ne_nil _) (fun _ hc => isDigit_of_mem_ofNat hc) (toNat_ofNat _)

theorem spelled_pyDigits (power : Int) :
    Spelled (pyDigits digits (digits.length + power)) (toNat digits * 10 ^ power) := by
  have length := significant.length_pos
  unfold pyDigits
  split
  · obtain ⟨n, rfl⟩ : ∃ n : Nat, power = n := ⟨power.toNat, by omega⟩
    simpa using spelled_wholePoint significant n
  · split
    · obtain ⟨n, cut⟩ : ∃ n : Nat, (digits.length : Int) + power = n := ⟨_, (Int.toNat_of_nonneg (by omega)).symm⟩
      obtain ⟨k, rfl⟩ : ∃ k : Nat, power = -k := ⟨power.natAbs, by omega⟩
      rw [cut, zpow_neg, zpow_natCast]
      exact spelled_within significant (by omega) (by omega) (by omega)
    · split
      · obtain ⟨n, gap⟩ : ∃ n : Nat, -((digits.length : Int) + power) = n :=
          ⟨_, (Int.toNat_of_nonneg (by omega)).symm⟩
        obtain ⟨k, rfl⟩ : ∃ k : Nat, power = -k := ⟨power.natAbs, by omega⟩
        have places : k = n + digits.length := by omega
        rw [gap, zpow_neg, zpow_natCast, places]
        exact spelled_behind significant n
      · rw [← significant.shift]
        apply spelled_scientific significant
        · split
          · simp
          · exact ofNat_ne_nil _
        · intro c hc
          split at hc
          · rcases List.mem_cons.mp hc with rfl | inside
            · rfl
            · exact isDigit_of_mem_ofNat inside
          · exact isDigit_of_mem_ofNat hc
        · split
          · rw [← List.singleton_append, toNat_append]
            have zero : toNat [48] = 0 := rfl
            rw [zero, zero_mul, zero_add, toNat_ofNat]
          · exact toNat_ofNat _

end

theorem spelled_jsMagnitude {m : Nat} {e : Int} (canonical : Canonical m e) (positive : 0 < m) :
    Spelled (jsMagnitude (shortest m e)) (decimalValue (shortest m e)) := by
  have spelled := spelled_jsDigits (significant_ofNat (shortest_pos canonical positive)) (shortest m e).2
  rwa [toNat_ofNat] at spelled

/-- `Number(String(x))` is `x`, but for the sign of a zero. -/
theorem read_jsString {x : Double} (finite : x.isFinite = true) (notZero : x.magnitude ≠ 0) :
    read (jsString x) = some x := by
  cases x with
  | nan => cases finite
  | infinity => cases finite
  | finite negative m e canonical =>
      have positive : 0 < m := by
        apply Nat.pos_of_ne_zero
        rintro rfl
        simp [magnitude] at notZero
      rw [jsString, if_neg positive.ne', (spelled_jsMagnitude canonical positive).read,
        ofMagnitude_shortest negative canonical]

/-- What JavaScript spells without a point and without an exponent is short. -/
theorem jsDigits_whole {digits : Text} (significant : Significant digits) (point : Int) :
    (46 ∈ jsDigits digits point ∨ 101 ∈ jsDigits digits point) ∨
      ((jsDigits digits point).length ≤ 21 ∧ ∀ c ∈ jsDigits digits point, isDigit c = true) := by
  unfold jsDigits
  split
  · rename_i whole
    right
    constructor
    · simp only [List.length_append, List.length_replicate]
      omega
    · intro c hc
      rcases List.mem_append.mp hc with inside | zero
      · exact significant.digit c inside
      · exact isDigit_zeros c zero
  · split_ifs <;> simp

/-- JavaScript spells a sign and the digits of the magnitude. -/
theorem jsString_sign {x : Double} (finite : x.isFinite = true) (notZero : x.magnitude ≠ 0) :
    ∃ (negative : Bool) (t : Text), jsString x = (if negative then [45] else []) ++ t ∧
      ((46 ∈ t ∨ 101 ∈ t) ∨ (t.length ≤ 21 ∧ t ≠ [] ∧ ∀ c ∈ t, isDigit c = true)) := by
  cases x with
  | nan => cases finite
  | infinity => cases finite
  | finite negative m e canonical =>
      have positive : 0 < m := by
        apply Nat.pos_of_ne_zero
        rintro rfl
        simp [magnitude] at notZero
      have significant := significant_ofNat (shortest_pos canonical positive)
      refine ⟨negative, jsMagnitude (shortest m e), by rw [jsString, if_neg positive.ne'], ?_⟩
      rcases jsDigits_whole significant ((ofNat (shortest m e).1).length + (shortest m e).2) with marked | whole
      · exact Or.inl marked
      · obtain ⟨c, rest, shape, -⟩ := (spelled_jsMagnitude canonical positive).head
        exact Or.inr ⟨whole.1, by simp [shape], whole.2⟩

theorem spelled_pyRepr {m : Nat} {e : Int} (canonical : Canonical m e) (positive : 0 < m) :
    Spelled (pyDigits (ofNat (shortest m e).1) ((ofNat (shortest m e).1).length + (shortest m e).2))
      (decimalValue (shortest m e)) := by
  have spelled := spelled_pyDigits (significant_ofNat (shortest_pos canonical positive)) (shortest m e).2
  rwa [toNat_ofNat] at spelled

/-- `float(repr(x))` is `x`. -/
theorem read_pyRepr {x : Double} (finite : x.isFinite = true) (notZero : x.magnitude ≠ 0) :
    read (pyRepr x) = some x := by
  cases x with
  | nan => cases finite
  | infinity => cases finite
  | finite negative m e canonical =>
      have positive : 0 < m := by
        apply Nat.pos_of_ne_zero
        rintro rfl
        simp [magnitude] at notZero
      rw [pyRepr, if_neg positive.ne', (spelled_pyRepr canonical positive).read,
        ofMagnitude_shortest negative canonical]

example : (read (txt "9007199254740993")).map (fun x => (jsString x, pyRepr x)) =
    some (txt "9007199254740992", txt "9007199254740992.0") := by
  decide +kernel

example : (read (txt "-0.0000001")).map (fun x => (jsString x, pyRepr x)) =
    some (txt "-1e-7", txt "-1e-07") := by
  decide +kernel

theorem isNumber_jsString {x : Double} (finite : x.isFinite = true) : Json.IsNumber (jsString x) := by
  cases x with
  | nan => cases finite
  | infinity => cases finite
  | finite negative m e canonical =>
      rw [jsString]
      split
      · exact Json.isNumber_ofNat 0
      · rename_i notZero
        exact (spelled_jsMagnitude canonical (Nat.pos_of_ne_zero notZero)).isNumber negative

end Senex.Double
