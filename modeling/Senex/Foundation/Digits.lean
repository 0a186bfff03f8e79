import Senex.Foundation.PyValue

/-! # Digits of a Python text

`str.isdigit` and `int` know the digits of every script, of Unicode 14 as Python 3.11 has it.
`int(text, 16)` decides by the kind of each character (`hexKind`), which lower case does not change.
-/

namespace Senex.Text

/-- The zeros of the decimal digits. -/
def zeros : List Nat :=
  [48, 1632, 1776, 1984, 2406, 2534, 2662, 2790, 2918, 3046, 3174, 3302, 3430, 3558, 3664, 3792, 3872, 4160,
    4240, 6112, 6160, 6470, 6608, 6784, 6800, 6992, 7088, 7232, 7248, 42528, 43216, 43264, 43472, 43504,
    43600, 44016, 65296, 66720, 68912, 69734, 69872, 69942, 70096, 70384, 70736, 70864, 71248, 71360, 71472,
    71904, 72016, 72784, 73040, 73120, 92768, 92864, 93008, 120782, 120792, 120802, 120812, 120822, 123200,
    123632, 125264, 130032]

/-- The value of a decimal digit. -/
def decimal? (c : Nat) : Option Nat :=
  (zeros.find? fun zero => decide (zero ≤ c) && decide (c < zero + 10)).map (c - ·)

/-! ## `int(text, 16)` -/

/-- What a character is to `int(text, 16)`. -/
inductive HexKind where
  | space
  | sign
  | zero
  | digit
  | x
  | underscore
  | other
  deriving DecidableEq

/-- Of the ASCII separators, `int` takes those of C for space, `str.strip` four more. -/
def hexKind (c : Nat) : HexKind :=
  if c = 32 ∨ 9 ≤ c ∧ c ≤ 13 ∨ 127 ≤ c ∧ isPySpace c = true then .space
  else if c = 43 ∨ c = 45 then .sign
  else if decimal? c = some 0 then .zero
  else if (decimal? c).isSome = true ∨ 97 ≤ c ∧ c ≤ 102 ∨ 65 ≤ c ∧ c ≤ 70 then .digit
  else if c = 120 ∨ c = 88 then .x
  else if c = 95 then .underscore
  else .other

namespace HexKind

def isDigit : HexKind → Bool
  | .zero | .digit => true
  | _ => false

def trim (kinds : List HexKind) : List HexKind :=
  ((kinds.dropWhile (· = .space)).reverse.dropWhile (· = .space)).reverse

def dropSign : List HexKind → List HexKind
  | .sign :: rest => rest
  | kinds => kinds

/-- `0x`, and an underscore behind it. -/
def dropPrefix : List HexKind → List HexKind
  | .zero :: .x :: .underscore :: rest => rest
  | .zero :: .x :: rest => rest
  | kinds => kinds

/-- Digits, with single underscores between them. -/
def isRun : List HexKind → Bool
  | [] => false
  | [k] => k.isDigit
  | k :: .underscore :: rest => k.isDigit && isRun rest
  | k :: l :: rest => k.isDigit && isRun (l :: rest)

theorem isDigit_iff {k : HexKind} : k.isDigit = true ↔ k = .zero ∨ k = .digit := by
  cases k <;> simp [isDigit]

end HexKind

/-- Whether `int(text, 16)` returns a number; it raises `ValueError` otherwise. -/
def readsHex (t : Text) : Bool :=
  HexKind.isRun (HexKind.dropPrefix (HexKind.dropSign (HexKind.trim (t.map hexKind))))

private theorem hexKind_lower : ∀ c ∈ List.range' 65 26, hexKind (c + 32) = hexKind c := by decide

theorem hexKind_pyLower (t : Text) : (pyLower t).map hexKind = t.map hexKind := by
  simp only [pyLower, List.map_map]
  apply List.map_congr_left
  intro c _
  simp only [Function.comp_apply, lowerUnit]
  split
  · rename_i kelvin
    subst kelvin
    decide
  · split
    · apply hexKind_lower
      rw [List.mem_range'_1]
      omega
    · rfl

@[simp] theorem readsHex_pyLower (t : Text) : readsHex (pyLower t) = readsHex t := by
  rw [readsHex, hexKind_pyLower, readsHex]

@[simp] theorem length_pyLower (t : Text) : (pyLower t).length = t.length := by simp [pyLower]

private theorem trim_digits {kinds : List HexKind} (digits : ∀ k ∈ kinds, k.isDigit = true) :
    HexKind.trim kinds = kinds := by
  have kept : ∀ ks : List HexKind, (∀ k ∈ ks, k.isDigit = true) → ks.dropWhile (· = .space) = ks := by
    intro ks digits
    cases ks with
    | nil => rfl
    | cons k ks =>
        rcases HexKind.isDigit_iff.mp (digits k (by simp)) with rfl | rfl <;> rfl
  rw [HexKind.trim, kept kinds digits, kept kinds.reverse (by simpa using digits), List.reverse_reverse]

private theorem isRun_digits {kinds : List HexKind} (nonempty : kinds ≠ [])
    (digits : ∀ k ∈ kinds, k.isDigit = true) : HexKind.isRun kinds = true := by
  induction kinds with
  | nil => exact absurd rfl nonempty
  | cons k kinds ih =>
      have here := digits k (by simp)
      cases kinds with
      | nil => exact here
      | cons l kinds =>
          have rest := ih (by simp) fun d hd => digits d (List.mem_cons_of_mem _ hd)
          rcases HexKind.isDigit_iff.mp (digits l (by simp)) with rfl | rfl <;>
            simp [HexKind.isRun, here, rest]

/-- A number that only digits spell is read. -/
theorem readsHex_digits {t : Text} (nonempty : t ≠ []) (digits : ∀ c ∈ t, (hexKind c).isDigit = true) :
    readsHex t = true := by
  have kinds : ∀ k ∈ t.map hexKind, k.isDigit = true := by simpa using digits
  have plain : HexKind.dropPrefix (HexKind.dropSign (t.map hexKind)) = t.map hexKind := by
    cases shape : t.map hexKind with
    | nil => rfl
    | cons k ks =>
        rw [shape] at kinds
        have first := HexKind.isDigit_iff.mp (kinds k (by simp))
        cases ks with
        | nil => rcases first with rfl | rfl <;> rfl
        | cons l ks =>
            have second := HexKind.isDigit_iff.mp (kinds l (by simp))
            rcases first with rfl | rfl <;> rcases second with rfl | rfl <;> rfl
  rw [readsHex, trim_digits kinds, plain]
  exact isRun_digits (by simpa using nonempty) kinds

/-! ## `str.isdigit`, `int` and `float` -/

/-- The digits that are not decimal ones, such as superscripts: first and last of each row. -/
def otherDigits : List (Nat × Nat) :=
  [(178, 179), (185, 185), (4969, 4977), (6618, 6618), (8304, 8304), (8308, 8313), (8320, 8329), (9312, 9320),
    (9332, 9340), (9352, 9360), (9450, 9450), (9461, 9469), (9471, 9471), (10102, 10110), (10112, 10120),
    (10122, 10130), (68160, 68163), (69216, 69224), (69714, 69722), (127232, 127242)]

/-- `text.isdigit()` -/
def isdigit (t : Text) : Bool :=
  !t.isEmpty && t.all fun c =>
    (decimal? c).isSome || otherDigits.any fun row => decide (row.1 ≤ c) && decide (c ≤ row.2)

/-- `int(text)` of a text of digits, which raises `ValueError` for one that is not decimal and
    for more than 4300 of them. -/
def intDigits (t : Text) : Option Int :=
  if t.length ≤ 4300 then
    (t.mapM decimal?).map fun digits => digits.foldl (fun (n : Int) digit => 10 * n + digit) 0
  else none

/-- A numeral in ASCII, as `float` has it before it reads it. -/
def toAscii (t : Text) : Text :=
  t.map fun c =>
    if c < 127 then c
    else if isPySpace c then 32
    else match decimal? c with
      | some digit => 48 + digit
      | none => 63

/-- `float(text)`.  Of the ASCII separators it takes those of C for space. -/
def readFloat (t : Text) : Option Double :=
  if (toAscii t).any fun c => decide (28 ≤ c) && decide (c ≤ 31) then none
  else PyValue.floatText (toAscii t)

/-- `int(text)` -/
def readInt (t : Text) : Option Int :=
  if (toAscii t).any fun c => decide (28 ≤ c) && decide (c ≤ 31) then none
  else PyValue.intText (toAscii t)

/-- A number of `width` digits at most is written with that many. -/
theorem length_ofNat_le {n width : Nat} (positive : 0 < width) (fits : n < 10 ^ width) :
    (ofNat n).length ≤ width := by
  obtain ⟨c, ds, shape, digit, -, zero⟩ := ofNat_shape n
  rw [shape, List.length_cons]
  by_cases leading : c = 48
  · simp [zero leading]
    omega
  · have value : n = (c - 48) * 10 ^ ds.length + toNat ds := by
      rw [← toNat_ofNat n, shape, ← List.singleton_append, Double.toNat_append]
      simp [toNat]
    simp only [isDigit, Bool.and_eq_true, decide_eq_true_eq] at digit
    have least : 1 * 10 ^ ds.length ≤ (c - 48) * 10 ^ ds.length := Nat.mul_le_mul_right _ (by omega)
    have shorter : 10 ^ ds.length < 10 ^ width := by omega
    exact (Nat.pow_lt_pow_iff_right (by decide)).mp shorter

private theorem dropUnderscores_digits {t : Text} (digits : ∀ c ∈ t, isDigit c = true) :
    PyValue.dropUnderscores t = some t := by
  have plain {c : Nat} (digit : isDigit c = true) : c ≠ 95 := by
    rintro rfl
    exact absurd digit (by decide)
  induction t with
  | nil => rfl
  | cons c rest ih =>
      have here := plain (digits c (by simp))
      have below := ih fun d hd => digits d (List.mem_cons_of_mem _ hd)
      cases rest with
      | nil => simp [PyValue.dropUnderscores, here]
      | cons d rest =>
          have next := plain (digits d (by simp))
          simp [PyValue.dropUnderscores, here, next, below]

/-- `int(str(n))`, below the limit of its digits. -/
theorem readInt_ofNat {n : Nat} (short : (ofNat n).length ≤ 4300) : readInt (ofNat n) = some (n : Int) := by
  have digits : ∀ c ∈ ofNat n, 48 ≤ c ∧ c ≤ 57 := fun c member => by
    simpa [isDigit] using isDigit_of_mem_ofNat member
  have ascii : toAscii (ofNat n) = ofNat n := by
    refine List.map_congr_left (fun c member => ?_) |>.trans (List.map_id _)
    have := digits c member
    rw [if_pos (by omega)]
    rfl
  have separators : (ofNat n).any (fun c => decide (28 ≤ c) && decide (c ≤ 31)) = false := by
    simp only [List.any_eq_false, Bool.and_eq_true, decide_eq_true_eq]
    intro c member
    have := digits c member
    omega
  have spaces (c : Nat) (digit : 48 ≤ c ∧ c ≤ 57) : isPySpace c = false := by
    have table : ∀ c < 58, 48 ≤ c → isPySpace c = false := by decide
    exact table c (by omega) digit.1
  have stripped : strip (ofNat n) = ofNat n :=
    stripBy_eq_self (fun c hc => spaces c (digits c (List.mem_of_mem_head? hc)))
      fun c hc => spaces c (digits c (List.mem_of_getLast? hc))
  have unsigned : RationalDecimal.sign (ofNat n) = (false, ofNat n) := by
    obtain ⟨c, ds, shape, -⟩ := ofNat_shape n
    have digit := digits c (by simp [shape])
    rw [shape, RationalDecimal.sign.eq_def]
    split <;> simp_all
  have kept : PyValue.dropUnderscores (ofNat n) = some (ofNat n) :=
    dropUnderscores_digits fun c member => isDigit_of_mem_ofNat member
  have nonempty : ofNat n ≠ [] := by
    obtain ⟨c, ds, shape, -⟩ := ofNat_shape n
    simp [shape]
  have run : (ofNat n).all isDigit = true := List.all_eq_true.mpr fun c member => isDigit_of_mem_ofNat member
  simp only [readInt, ascii, separators, PyValue.intText, stripped, kept, Option.bind_some, unsigned]
  rw [if_neg (by simp), if_pos ⟨nonempty, run, short⟩, toNat_ofNat]
  rfl

/-- An ASCII digit has its value. -/
theorem decimal?_digit {c : Nat} (digit : isDigit c = true) : decimal? c = some (c - 48) := by
  have table : ∀ c < 58, 48 ≤ c → decimal? c = some (c - 48) := by decide
  simp only [isDigit, Bool.and_eq_true, decide_eq_true_eq] at digit
  exact table c (by omega) digit.1

/-- `str(n).isdigit()` -/
theorem isdigit_ofNat (n : Nat) : isdigit (ofNat n) = true := by
  obtain ⟨c, ds, shape, -⟩ := ofNat_shape n
  have nonempty : (ofNat n).isEmpty = false := by rw [shape]; rfl
  rw [isdigit, nonempty, Bool.not_false, Bool.true_and, List.all_eq_true]
  intro d member
  rw [decimal?_digit (isDigit_of_mem_ofNat member)]
  rfl

/-- `int(str(n))` of a text that `isdigit`, below the limit of its digits. -/
theorem intDigits_ofNat {n : Nat} (short : (ofNat n).length ≤ 4300) : intDigits (ofNat n) = some (n : Int) := by
  have values {t : Text} (digits : ∀ c ∈ t, isDigit c = true) : t.mapM decimal? = some (t.map (· - 48)) := by
    induction t with
    | nil => rfl
    | cons c t ih =>
        rw [List.mapM_cons, decimal?_digit (digits c (.head _)), ih fun d member => digits d (.tail _ member)]
        rfl
  have folded (t : Text) (m : Nat) : (t.map fun c => ((c - 48 : Nat) : Int)).foldl (fun (n digit : Int) => 10 * n + digit)
      (m : Int) = ((t.foldl (fun acc c => 10 * acc + (c - 48)) m : Nat) : Int) := by
    induction t generalizing m with
    | nil => rfl
    | cons c t ih =>
        rw [List.map_cons, List.foldl_cons, List.foldl_cons, ← ih]
        push_cast
        rfl
  have value := folded (ofNat n) 0
  rw [show (ofNat n).foldl (fun acc c => 10 * acc + (c - 48)) 0 = n from toNat_ofNat n] at value
  unfold intDigits
  rw [if_pos short, values fun c member => isDigit_of_mem_ofNat member, Option.map_some, ← value]
  simp only [bind_pure_comp, List.map_eq_map, List.map_map]
  rfl

end Senex.Text

/-- `float(value)`, where a text may have the digits of any script. -/
def Senex.PyValue.number : Senex.PyValue → Senex.Py Senex.Double
  | .str t => Senex.orRaise (Senex.Text.readFloat t) .valueError (Senex.txt "could not convert string to float")
  | value => value.toFloat
