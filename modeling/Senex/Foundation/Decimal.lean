import Senex.Foundation.Python
import Mathlib.Data.Rat.Lemmas
import Mathlib.Algebra.Order.Ring.Unbundled.Rat

/-! # Decimal arithmetic

The operations of `decimal.Decimal` on finite values.  An operation may trap a
signal of its context.  The law of the class is that `Decimal(str(d))` is `d`;
exact rational arithmetic, which traps a division by zero only, is one instance.
-/

namespace Senex

/-- What `Decimal(text)` makes of a text. -/
inductive Parsed (D : Type) where
  /-- `InvalidOperation` -/
  | invalid
  /-- An infinity or a NaN. -/
  | nonFinite
  | finite (d : D)

class Decimal (D : Type) where
  zero : D
  add : D → D → Py D
  sub : D → D → Py D
  mul : D → D → Py D
  div : D → D → Py D
  abs : D → Py D
  lt : D → D → Bool
  eq : D → D → Bool
  str : D → Text
  parse : Text → Parsed D
  parse_str (d : D) : parse (str d) = .finite d

namespace Decimal

variable {D : Type} [Decimal D]

def le (a b : D) : Bool := lt a b || eq a b

end Decimal

/-- Decimals that compare by the number they stand for, as finite ones do. -/
class OrderedDecimal (D : Type) extends Decimal D where
  value : D → ℚ
  lt_iff (a b : D) : lt a b = true ↔ value a < value b
  eq_iff (a b : D) : eq a b = true ↔ value a = value b

namespace OrderedDecimal

variable {D : Type} [OrderedDecimal D]

theorem le_iff (a b : D) : Decimal.le a b = true ↔ value a ≤ value b := by
  simp [Decimal.le, lt_iff, eq_iff, le_iff_lt_or_eq]

theorem not_lt_iff (a b : D) : Decimal.lt a b = false ↔ value b ≤ value a := by
  rw [← Bool.not_eq_true, lt_iff, not_lt]

end OrderedDecimal

/-- Decimals whose operations raise nothing but the signals they trap, and for which what is left
of an amount less itself is nothing. -/
class TrappingDecimal (D : Type) extends OrderedDecimal D where
  add_traps (a b : D) (e : Raised) : Decimal.add a b = .error e → e.error = .decimalSignal
  sub_traps (a b : D) (e : Raised) : Decimal.sub a b = .error e → e.error = .decimalSignal
  mul_traps (a b : D) (e : Raised) : Decimal.mul a b = .error e → e.error = .decimalSignal
  div_traps (a b : D) (e : Raised) : Decimal.div a b = .error e → e.error = .decimalSignal
  value_zero : OrderedDecimal.value (Decimal.zero : D) = 0
  sub_self (a b c : D) : OrderedDecimal.value a = OrderedDecimal.value b → Decimal.sub a b = .ok c →
    OrderedDecimal.value c = 0

/-! ## Exact rationals -/

namespace RationalDecimal

open Text

def sign : Text → Bool × Text
  | 45 :: rest => (true, rest)
  | 43 :: rest => (false, rest)
  | rest => (false, rest)

def signed (negative : Bool) (q : ℚ) : ℚ := if negative then -q else q

/-- `[eE][+-]?digits`, as a power of ten. -/
def exponent : Text → Option ℚ
  | [] => some 1
  | e :: rest =>
      let (negative, digits) := sign rest
      if (e = 101 ∨ e = 69) ∧ digits ≠ [] ∧ digits.all isDigit then
        some (if negative then 1 / (10 ^ toNat digits : ℕ) else (10 ^ toNat digits : ℕ))
      else none

/-- Digits with a fraction and an exponent, or a quotient of two digit runs. -/
def unsigned (t : Text) : Option ℚ :=
  let whole := t.takeWhile isDigit
  match t.dropWhile isDigit with
  | [] => if whole = [] then none else some (toNat whole)
  | c :: rest =>
      if c = 47 then
        if whole ≠ [] ∧ rest ≠ [] ∧ rest.all isDigit then some (toNat whole / toNat rest) else none
      else
        let fraction := if c = 46 then rest.takeWhile isDigit else []
        let tail := if c = 46 then rest.dropWhile isDigit else c :: rest
        if whole = [] ∧ fraction = [] then none
        else (exponent tail).map fun power =>
          (toNat (whole ++ fraction) : ℚ) / (10 ^ fraction.length : ℕ) * power

def parse (t : Text) : Parsed ℚ :=
  let (negative, body) := sign (strip t)
  match unsigned body with
  | some q => .finite (signed negative q)
  | none =>
      if [txt "inf", txt "infinity", txt "nan", txt "snan"].contains (lower body) then .nonFinite
      else .invalid

/-- The integer, or the quotient in lowest terms. -/
def str (q : ℚ) : Text :=
  (if q < 0 then [45] else []) ++ ofNat q.num.natAbs ++
    (if q.den = 1 then [] else 47 :: ofNat q.den)

private theorem all_isDigit_ofNat (n : Nat) : (ofNat n).all isDigit = true :=
  List.all_eq_true.mpr fun _ hc => isDigit_of_mem_ofNat hc

private theorem ofNat_ne_nil (n : Nat) : ofNat n ≠ [] := by
  obtain ⟨c, ds, shape, -⟩ := ofNat_shape n
  simp [shape]

private theorem span_ofNat (n : Nat) (rest : Text) (stop : ∀ c ∈ rest.head?, isDigit c = false) :
    (ofNat n ++ rest).takeWhile isDigit = ofNat n ∧ (ofNat n ++ rest).dropWhile isDigit = rest := by
  have digits := List.all_eq_true.mp (all_isDigit_ofNat n)
  have none_left : rest.takeWhile isDigit = [] ∧ rest.dropWhile isDigit = rest := by
    cases rest with
    | nil => simp
    | cons c rest => simp [stop c rfl]
  rw [List.takeWhile_append_of_pos digits, List.dropWhile_append_of_pos digits]
  simp [none_left]

private theorem unsigned_str (n d : Nat) :
    unsigned (ofNat n ++ (if d = 1 then [] else 47 :: ofNat d)) = some ((n : ℚ) / d) := by
  by_cases whole : d = 1
  · have span := span_ofNat n [] (by simp)
    rw [List.append_nil] at span
    simp [whole, unsigned, span, ofNat_ne_nil]
  · have span := span_ofNat n (47 :: ofNat d) (by simp [isDigit])
    simp [whole, unsigned, span, ofNat_ne_nil, all_isDigit_ofNat]

theorem isDigit_not_space {c : Nat} (digit : isDigit c = true) : isPySpace c = false := by
  simp only [isDigit, Bool.and_eq_true, decide_eq_true_eq] at digit
  simp [isPySpace]
  omega

private theorem sign_digits {c : Nat} {ds : Text} (digit : isDigit c = true) :
    sign (c :: ds) = (false, c :: ds) := by
  simp only [isDigit, Bool.and_eq_true, decide_eq_true_eq] at digit
  rw [sign.eq_def]
  split <;> simp_all

theorem parse_str (q : ℚ) : parse (str q) = .finite q := by
  have magnitude := unsigned_str q.num.natAbs q.den
  obtain ⟨c, ds, shape, digit, digits, -⟩ := ofNat_shape q.num.natAbs
  set body := ofNat q.num.natAbs ++ (if q.den = 1 then [] else 47 :: ofNat q.den) with hbody
  have lastDigit : ∀ c ∈ body.getLast?, isDigit c = true := by
    intro x hx
    by_cases whole : q.den = 1
    · have : x ∈ ofNat q.num.natAbs := List.mem_of_getLast? (by simpa [hbody, whole] using hx)
      exact isDigit_of_mem_ofNat this
    · have : x ∈ ofNat q.den := by
        have := ofNat_ne_nil q.den
        obtain ⟨y, ys, hy⟩ := List.exists_cons_of_ne_nil this
        refine List.mem_of_getLast? (?_ : (ofNat q.den).getLast? = some x)
        simpa [hbody, whole, hy, List.getLast?_cons] using hx
      exact isDigit_of_mem_ofNat this
  have headed : body = c :: (ds ++ (if q.den = 1 then [] else 47 :: ofNat q.den)) := by
    simp [hbody, shape]
  by_cases negative : q < 0
  · have text : str q = 45 :: body := by simp [str, negative, hbody]
    have stripped : strip (45 :: body) = 45 :: body := by
      apply stripBy_eq_self
      · simp [isPySpace]
      · intro x hx
        rw [headed] at hx
        exact isDigit_not_space (lastDigit x (by rw [headed]; simpa using hx))
    have value : -((q.num.natAbs : ℚ) / q.den) = q := by
      have hn : q.num < 0 := Rat.num_neg.mpr negative
      have : (q.num.natAbs : ℚ) = -(q.num : ℚ) := by
        rw [← Int.cast_natCast, Int.ofNat_natAbs_of_nonpos hn.le, Int.cast_neg]
      rw [this, neg_div, neg_neg, Rat.num_div_den]
    simp only [parse, text, stripped, sign, magnitude, signed, if_true, value]
  · have text : str q = body := by simp [str, negative, hbody]
    have stripped : strip body = body := by
      apply stripBy_eq_self
      · intro x hx
        rw [headed] at hx
        cases hx
        exact isDigit_not_space digit
      · exact fun x hx => isDigit_not_space (lastDigit x hx)
    have value : (q.num.natAbs : ℚ) / q.den = q := by
      have hn : 0 ≤ q.num := Rat.num_nonneg.mpr (not_lt.mp negative)
      have : (q.num.natAbs : ℚ) = (q.num : ℚ) := by
        rw [← Int.cast_natCast, Int.natAbs_of_nonneg hn]
      rw [this, Rat.num_div_den]
    have signless : sign body = (false, body) := by rw [headed, sign_digits digit]
    simp only [parse, text, stripped, signless, magnitude, signed, Bool.false_eq_true, if_false,
      value]

end RationalDecimal

instance : Decimal ℚ where
  zero := 0
  add a b := .ok (a + b)
  sub a b := .ok (a - b)
  mul a b := .ok (a * b)
  div a b := if b = 0 then raise .decimalSignal (txt "DivisionByZero") else .ok (a / b)
  abs a := .ok |a|
  lt a b := decide (a < b)
  eq a b := decide (a = b)
  str := RationalDecimal.str
  parse := RationalDecimal.parse
  parse_str := RationalDecimal.parse_str

namespace RationalDecimal

@[simp] theorem zero_eq : (Decimal.zero : ℚ) = 0 := rfl

@[simp] theorem add_eq (a b : ℚ) : Decimal.add a b = .ok (a + b) := rfl

@[simp] theorem sub_eq (a b : ℚ) : Decimal.sub a b = .ok (a - b) := rfl

@[simp] theorem mul_eq (a b : ℚ) : Decimal.mul a b = .ok (a * b) := rfl

@[simp] theorem div_eq {a b : ℚ} (nonzero : b ≠ 0) : Decimal.div a b = .ok (a / b) := if_neg nonzero

@[simp] theorem lt_iff (a b : ℚ) : Decimal.lt a b = true ↔ a < b := decide_eq_true_iff

@[simp] theorem eq_iff (a b : ℚ) : Decimal.eq a b = true ↔ a = b := decide_eq_true_iff

@[simp] theorem le_iff (a b : ℚ) : Decimal.le a b = true ↔ a ≤ b := by
  simp [Decimal.le, le_iff_lt_or_eq]

end RationalDecimal

instance : OrderedDecimal ℚ where
  value := id
  lt_iff := RationalDecimal.lt_iff
  eq_iff := RationalDecimal.eq_iff

instance : TrappingDecimal ℚ where
  add_traps _ _ _ trapped := nomatch trapped
  sub_traps _ _ _ trapped := nomatch trapped
  mul_traps _ _ _ trapped := nomatch trapped
  div_traps a b e trapped := by
    by_cases zero : b = 0
    · have same : raise .decimalSignal (txt "DivisionByZero") = (Except.error e : Py ℚ) := by
        simpa [Decimal.div, zero] using trapped
      rw [← Except.error.inj same]
    · rw [RationalDecimal.div_eq zero] at trapped
      cases trapped
  value_zero := rfl
  sub_self a b c same difference := by
    rw [← Except.ok.inj difference]
    exact sub_eq_zero.mpr same

end Senex
