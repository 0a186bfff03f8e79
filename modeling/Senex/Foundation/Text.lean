import Mathlib.Algebra.Group.Nat.Defs
import Mathlib.Data.List.Lex

/-! # Text as code units

A text is the list of its code units: code points for a Python `str`, UTF-16
units for a JavaScript string.  Both languages compare such lists
lexicographically, and both keep lone surrogates, which a Lean `String` cannot.
-/

namespace Senex

/-- A Python `str` (code points) or a JavaScript string (UTF-16 units). -/
abbrev Text := List Nat

/-- The text of a literal. -/
def txt (s : String) : Text := s.toList.map Char.toNat

@[simp] theorem txt_inj {s t : String} : txt s = txt t ↔ s = t := by
  have chars : Function.Injective Char.toNat := fun c d same => Char.toNat_inj.mp same
  simp [txt, List.map_inj_right chars, String.toList_inj]

namespace Text

def isDigit (c : Nat) : Bool := decide (48 ≤ c) && decide (c ≤ 57)

def isHighSurrogate (c : Nat) : Bool := decide (0xD800 ≤ c) && decide (c ≤ 0xDBFF)

def isLowSurrogate (c : Nat) : Bool := decide (0xDC00 ≤ c) && decide (c ≤ 0xDFFF)

def isSurrogate (c : Nat) : Bool := decide (0xD800 ≤ c) && decide (c ≤ 0xDFFF)

/-- ASCII lower case.  The callers accept only ASCII words, and no other
    character folds into one of them. -/
def lowerUnit (c : Nat) : Nat := if 65 ≤ c ∧ c ≤ 90 then c + 32 else c

def lower (t : Text) : Text := t.map lowerUnit

/-- `str.isspace` on one code point. -/
def isPySpace (c : Nat) : Bool :=
  (decide (9 ≤ c) && decide (c ≤ 13)) || (decide (28 ≤ c) && decide (c ≤ 32)) ||
    [133, 160, 5760, 8232, 8233, 8239, 8287, 12288].contains c ||
    (decide (8192 ≤ c) && decide (c ≤ 8202))

/-- The class `\s` of a JavaScript regular expression. -/
def isJsSpace (c : Nat) : Bool :=
  (decide (9 ≤ c) && decide (c ≤ 13)) ||
    [32, 160, 5760, 8232, 8233, 8239, 8287, 12288, 65279].contains c ||
    (decide (8192 ≤ c) && decide (c ≤ 8202))

/-- Remove the units satisfying `p` at both ends. -/
def stripBy (p : Nat → Bool) (t : Text) : Text :=
  ((t.dropWhile p).reverse.dropWhile p).reverse

/-- Python's `str.strip()`. -/
def strip (t : Text) : Text := stripBy isPySpace t

private theorem dropWhile_eq_self {p : Nat → Bool} {t : Text}
    (head : ∀ c ∈ t.head?, p c = false) : t.dropWhile p = t := by
  cases t with
  | nil => rfl
  | cons c rest => simp [head c rfl]

private theorem head_dropWhile (p : Nat → Bool) (t : Text) :
    ∀ c ∈ (t.dropWhile p).head?, p c = false := by
  induction t with
  | nil => simp
  | cons c rest ih =>
      by_cases hc : p c = true
      · simpa [List.dropWhile_cons, hc] using ih
      · simp [hc]

/-- Nothing is left to strip at either end exactly when stripping does nothing. -/
theorem stripBy_eq_self {p : Nat → Bool} {t : Text}
    (head : ∀ c ∈ t.head?, p c = false) (last : ∀ c ∈ t.getLast?, p c = false) :
    stripBy p t = t := by
  have rev : ∀ c ∈ t.reverse.head?, p c = false := by simpa using last
  rw [stripBy, dropWhile_eq_self head, dropWhile_eq_self rev, List.reverse_reverse]

/-- What ends a text that needs no stripping is stripped from it. -/
theorem stripBy_concat {p : Nat → Bool} {t : Text} {d : Nat} (space : p d = true) (nonempty : t ≠ [])
    (head : ∀ c ∈ t.head?, p c = false) (last : ∀ c ∈ t.getLast?, p c = false) :
    stripBy p (t ++ [d]) = t := by
  have rev : ∀ c ∈ t.reverse.head?, p c = false := by simpa using last
  have front : (t ++ [d]).dropWhile p = t ++ [d] := by
    cases t with
    | nil => exact absurd rfl nonempty
    | cons c rest => exact dropWhile_eq_self (by simpa using head)
  rw [stripBy, front, List.reverse_append, List.reverse_singleton, List.singleton_append,
    List.dropWhile_cons, if_pos space, dropWhile_eq_self rev, List.reverse_reverse]

/-- A stripped text does not begin with what is stripped. -/
theorem head_stripBy (p : Nat → Bool) (t : Text) : ∀ c ∈ (stripBy p t).head?, p c = false := by
  intro c hc
  -- the stripped text is a prefix of `t.dropWhile p`, whose head is not in `p`
  have pre : stripBy p t <+: t.dropWhile p := by
    have suffix := List.dropWhile_suffix (l := (t.dropWhile p).reverse) p
    simpa [stripBy] using List.reverse_prefix.mpr suffix
  obtain ⟨rest, hrest⟩ := pre
  apply head_dropWhile p t c
  rw [← hrest]
  cases hs : stripBy p t with
  | nil => simp [hs] at hc
  | cons d ds => simpa [hs] using hc

theorem mem_of_mem_stripBy {p : Nat → Bool} {t : Text} {c : Nat} (member : c ∈ stripBy p t) : c ∈ t := by
  rw [stripBy, List.mem_reverse] at member
  have inner := (List.dropWhile_sublist p).subset member
  exact (List.dropWhile_sublist p).subset (List.mem_reverse.mp inner)

theorem stripBy_stripBy (p : Nat → Bool) (t : Text) :
    stripBy p (stripBy p t) = stripBy p t := by
  apply stripBy_eq_self
  · exact head_stripBy p t
  · intro c hc
    apply head_dropWhile p (t.dropWhile p).reverse c
    simpa [stripBy] using hc

theorem strip_strip (t : Text) : strip (strip t) = strip t := stripBy_stripBy _ t

/-! ## Decimal digits -/

/-- The digits of `n` in front of `acc`; the fuel only has to exceed `n`. -/
def digitsFrom : Nat → Nat → Text → Text
  | 0, _, acc => acc
  | fuel + 1, n, acc =>
      if n < 10 then (48 + n) :: acc else digitsFrom fuel (n / 10) ((48 + n % 10) :: acc)

/-- The decimal text of a natural number. -/
def ofNat (n : Nat) : Text := digitsFrom (n + 1) n []

/-- The number a run of digits denotes. -/
def toNat (t : Text) : Nat := t.foldl (fun acc c => 10 * acc + (c - 48)) 0

private theorem foldl_digitsFrom (fuel n : Nat) (acc : Text) (enough : n < fuel) :
    (digitsFrom fuel n acc).foldl (fun acc c => 10 * acc + (c - 48)) 0 =
      acc.foldl (fun acc c => 10 * acc + (c - 48)) n := by
  induction fuel generalizing n acc with
  | zero => omega
  | succ fuel ih =>
      rw [digitsFrom]
      split
      · simp
      · rw [ih (n / 10) _ (by omega), List.foldl_cons]
        congr 1
        omega

@[simp] theorem toNat_ofNat (n : Nat) : toNat (ofNat n) = n := by
  simpa [toNat, ofNat] using foldl_digitsFrom (n + 1) n [] (by omega)

theorem ofNat_injective {m n : Nat} (same : ofNat m = ofNat n) : m = n := by
  rw [← toNat_ofNat m, same, toNat_ofNat]

private theorem digitsFrom_shape (fuel n : Nat) (acc : Text) (enough : n < fuel) :
    ∃ c ds, digitsFrom fuel n acc = c :: ds ++ acc ∧ isDigit c = true ∧
      (∀ d ∈ ds, isDigit d = true) ∧ (c = 48 → ds = [] ∧ n = 0) := by
  induction fuel generalizing n acc with
  | zero => omega
  | succ fuel ih =>
      rw [digitsFrom]
      split
      · exact ⟨48 + n, [], rfl, by simp [isDigit]; omega, by simp, fun h => ⟨rfl, by omega⟩⟩
      · obtain ⟨c, ds, shape, digit, rest, zero⟩ := ih (n / 10) ((48 + n % 10) :: acc) (by omega)
        refine ⟨c, ds ++ [48 + n % 10], by simp [shape], digit, ?_, fun h => by have := zero h; omega⟩
        intro d hd
        rcases List.mem_append.mp hd with hd | hd
        · exact rest d hd
        · simp only [List.mem_singleton] at hd
          subst hd
          simp [isDigit]
          omega

/-- A decimal text is a digit followed by digits, and starts with `0` only for zero. -/
theorem ofNat_shape (n : Nat) :
    ∃ c ds, ofNat n = c :: ds ∧ isDigit c = true ∧ (∀ d ∈ ds, isDigit d = true) ∧
      (c = 48 → ds = []) := by
  obtain ⟨c, ds, shape, digit, rest, zero⟩ := digitsFrom_shape (n + 1) n [] (by omega)
  exact ⟨c, ds, by simpa [ofNat] using shape, digit, rest, fun h => (zero h).1⟩

theorem isDigit_of_mem_ofNat {n c : Nat} (member : c ∈ ofNat n) : isDigit c = true := by
  obtain ⟨head, ds, shape, digit, rest, -⟩ := ofNat_shape n
  rw [shape] at member
  rcases List.mem_cons.mp member with rfl | h
  · exact digit
  · exact rest c h

/-! ## Fixed-width digits -/

/-- The last `width` decimal digits of `n`, with leading zeros. -/
def padded : Nat → Nat → Text
  | 0, _ => []
  | width + 1, n => padded width (n / 10) ++ [48 + n % 10]

@[simp] theorem length_padded (width n : Nat) : (padded width n).length = width := by
  induction width generalizing n with
  | zero => rfl
  | succ width ih => simp [padded, ih]

theorem isDigit_of_mem_padded {width n c : Nat} (member : c ∈ padded width n) :
    isDigit c = true := by
  induction width generalizing n with
  | zero => simp [padded] at member
  | succ width ih =>
      rcases List.mem_append.mp member with h | h
      · exact ih h
      · simp only [List.mem_singleton] at h
        subst h
        simp [isDigit]
        omega

theorem toNat_padded (width n : Nat) (fits : n < 10 ^ width) : toNat (padded width n) = n := by
  induction width generalizing n with
  | zero => simpa [padded, toNat] using (by omega : 0 = n)
  | succ width ih =>
      have smaller : n / 10 < 10 ^ width := by
        rw [Nat.pow_succ] at fits
        omega
      have step := ih (n / 10) smaller
      simp only [toNat] at step
      simp only [padded, toNat, List.foldl_append, List.foldl_cons, List.foldl_nil, step]
      omega

theorem toNat_replicate_zero (k : Nat) (t : Text) : toNat (List.replicate k 48 ++ t) = toNat t := by
  induction k with
  | zero => rfl
  | succ k ih => simpa [toNat, List.replicate_succ] using ih

/-- `f"{n:0widthd}"`, which does not cut a longer number. -/
def zeroPadded (width n : Nat) : Text :=
  List.replicate (width - (ofNat n).length) 48 ++ ofNat n

theorem zeroPadded_injective {width m n : Nat} (same : zeroPadded width m = zeroPadded width n) :
    m = n := by
  have read : toNat (zeroPadded width m) = toNat (zeroPadded width n) := by rw [same]
  simpa [zeroPadded, toNat_replicate_zero] using read

end Text

end Senex
