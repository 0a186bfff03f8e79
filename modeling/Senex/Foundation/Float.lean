import Senex.Foundation.Double

/-! # Floats and exact rationals

The operations that the modelled code uses of Python's floats.  Binary64
numbers are one instance and exact rationals another, for the laws that are
stated before the roundings of the floats.
-/

namespace Senex

open Text

/-- `round(x, digits)` of an exact rational. -/
def roundTo (digits : Nat) (x : ℚ) : ℚ := (Double.halfEven (x * 10 ^ digits) : ℚ) / 10 ^ digits

/-- The whole number of units `10 ^ -digits`, with its point. -/
def fixedDigits (digits units : Nat) : Text :=
  ofNat (units / 10 ^ digits) ++
    (if digits = 0 then [] else 46 :: padded digits (units % 10 ^ digits))

/-- `f"{x:.Nf}"` of a value, as the sign of the float has it. -/
def fixedText (digits : Nat) (negative : Bool) (magnitude : ℚ) : Text :=
  (if negative then [45] else []) ++
    fixedDigits digits (Double.halfEven (magnitude * 10 ^ digits)).toNat

theorem not_mem_fixedText {c : Nat} (digit : isDigit c = false) (point : c ≠ 46) (minus : c ≠ 45)
    (digits : Nat) (negative : Bool) (magnitude : ℚ) : c ∉ fixedText digits negative magnitude := by
  have number (n : Nat) : c ∉ ofNat n := fun member => by
    rw [isDigit_of_mem_ofNat member] at digit
    cases digit
  have places (width n : Nat) : c ∉ padded width n := fun member => by
    rw [isDigit_of_mem_padded member] at digit
    cases digit
  unfold fixedText fixedDigits
  cases negative <;> split <;> simp [number, places, point, minus]

/-- `str(n)` of an integer. -/
def intText (n : Int) : Text := (if n < 0 then [45] else []) ++ ofNat n.natAbs

class PyFloat (F : Type) extends Add F, Sub F, Mul F, Div F, Neg F where
  /-- The number of a literal. -/
  lit : ℚ → F
  ofDouble : Double → F
  lt : F → F → Bool
  le : F → F → Bool
  /-- `round(x, digits)` -/
  round : Nat → F → F
  /-- `f"{x:.Nf}"` -/
  fixed : Nat → F → Text
  not_mem_fixed (digits : Nat) (x : F) : 95 ∉ fixed digits x

namespace PyFloat

variable {F : Type} [PyFloat F]

/-- `max(a, b)`: the second one only if it is greater. -/
def maximum (a b : F) : F := if lt a b then b else a

/-- `min(a, b)`: the second one only if it is smaller. -/
def minimum (a b : F) : F := if lt b a then b else a

/-- `abs(x)` -/
def absolute (x : F) : F := if lt x (lit 0) then -x else x

end PyFloat

/-- Exact rationals, for the laws that hold before the roundings. -/
instance : PyFloat ℚ where
  toAdd := inferInstance
  toSub := inferInstance
  toMul := inferInstance
  toDiv := inferInstance
  toNeg := inferInstance
  lit q := q
  ofDouble x := x.value
  lt a b := decide (a < b)
  le a b := decide (a ≤ b)
  round _ x := x
  fixed digits x := fixedText digits (decide (x < 0)) |x|
  not_mem_fixed digits x := not_mem_fixedText (by decide) (by decide) (by decide) _ _ _

namespace PyFloat

@[simp] theorem lit_rat (q : ℚ) : (lit q : ℚ) = q := rfl

@[simp] theorem lt_rat (a b : ℚ) : lt a b = decide (a < b) := rfl

@[simp] theorem le_rat (a b : ℚ) : le a b = decide (a ≤ b) := rfl

@[simp] theorem round_rat (digits : Nat) (x : ℚ) : round digits x = x := rfl

theorem maximum_rat (a b : ℚ) : maximum a b = max a b := by
  simp only [maximum, lt_rat, decide_eq_true_eq]
  split
  · rename_i less
    exact (max_eq_right less.le).symm
  · rename_i notLess
    exact (max_eq_left (not_lt.mp notLess)).symm

theorem minimum_rat (a b : ℚ) : minimum a b = min a b := by
  simp only [minimum, lt_rat, decide_eq_true_eq]
  split
  · rename_i less
    exact (min_eq_right less.le).symm
  · rename_i notLess
    exact (min_eq_left (not_lt.mp notLess)).symm

end PyFloat

namespace Double

def neg : Double → Double
  | .nan => .nan
  | .infinity negative => .infinity !negative
  | .finite negative m e canonical => .finite (!negative) m e canonical

/-- The sum; a zero sum is negative only if both terms are. -/
def add (a b : Double) : Double :=
  match a, b with
  | .nan, _ | _, .nan => .nan
  | .infinity s, .infinity t => if s = t then .infinity s else .nan
  | .infinity s, .finite .. => .infinity s
  | .finite .., .infinity t => .infinity t
  | .finite s .., .finite t .. =>
      let sum := a.value + b.value
      ofMagnitude (if sum = 0 then s && t else decide (sum < 0)) |sum|

def sub (a b : Double) : Double := add a (neg b)

def mul (a b : Double) : Double :=
  match a, b with
  | .nan, _ | _, .nan => .nan
  | .infinity s, .infinity t => .infinity (xor s t)
  | .infinity s, .finite t .. => if b.magnitude = 0 then .nan else .infinity (xor s t)
  | .finite s .., .infinity t => if a.magnitude = 0 then .nan else .infinity (xor s t)
  | .finite s .., .finite t .. => ofMagnitude (xor s t) (a.magnitude * b.magnitude)

/-- The quotient by a number that is not zero; the division by zero raises and is not asked for. -/
def div (a b : Double) : Double :=
  match a, b with
  | .nan, _ | _, .nan => .nan
  | .infinity _, .infinity _ => .nan
  | .infinity s, .finite t .. => .infinity (xor s t)
  | .finite s .., .infinity t => ofMagnitude (xor s t) 0
  | .finite s .., .finite t .. => ofMagnitude (xor s t) (a.magnitude / b.magnitude)

/-- `round(x, digits)`: the float nearest to the nearest decimal. -/
def roundDigits (digits : Nat) : Double → Double
  | .finite negative m e _ => ofMagnitude negative (roundTo digits (m * 2 ^ e))
  | x => x

def fixed (digits : Nat) : Double → Text
  | .nan => txt "nan"
  | .infinity negative => if negative then txt "-inf" else txt "inf"
  | .finite negative m e _ => fixedText digits negative (m * 2 ^ e)

theorem not_mem_fixed (digits : Nat) (x : Double) : 95 ∉ fixed digits x := by
  cases x with
  | nan => exact (by decide : 95 ∉ txt "nan")
  | infinity negative =>
      cases negative with
      | true => exact (by decide : 95 ∉ txt "-inf")
      | false => exact (by decide : 95 ∉ txt "inf")
  | finite negative m e canonical => exact not_mem_fixedText (by decide) (by decide) (by decide) _ _ _

instance : PyFloat Double where
  add := add
  sub := sub
  mul := mul
  div := div
  neg := neg
  lit := Double.round
  ofDouble x := x
  lt := lt
  le := le
  round := roundDigits
  fixed := fixed
  not_mem_fixed := not_mem_fixed

end Double

end Senex
