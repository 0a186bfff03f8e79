import Mathlib.Data.List.DropRight
import Senex.Foundation.Text
import Senex.Foundation.Utf8

/-! # Base64

`base64.urlsafe_b64encode` and `base64.urlsafe_b64decode`.  The decoder skips characters that are no sextets
and stops at a whole pad; what the encoder writes it reads back, also when the pads were stripped and
put on again.
-/

namespace Senex.Base64

/-! ## Sextets -/

/-- The character of a sextet in the alphabet for URLs. -/
def charOf (v : Nat) : Nat :=
  if v < 26 then v + 65 else if v < 52 then v + 71 else if v < 62 then v - 4 else if v = 62 then 45 else 95

/-- The sextet of a character in either alphabet. -/
def sextet? (c : Nat) : Option Nat :=
  if 65 ≤ c ∧ c ≤ 90 then some (c - 65)
  else if 97 ≤ c ∧ c ≤ 122 then some (c - 71)
  else if 48 ≤ c ∧ c ≤ 57 then some (c + 4)
  else if c = 43 ∨ c = 45 then some 62
  else if c = 47 ∨ c = 95 then some 63
  else none

/-- `=` -/
def pad : Nat := 61

theorem sextet?_charOf {v : Nat} (small : v < 64) : sextet? (charOf v) = some v := by
  unfold charOf sextet?
  split_ifs <;> first | omega | exact congrArg some (by omega)

theorem charOf_ne_pad (v : Nat) : charOf v ≠ pad := by
  unfold charOf pad
  split_ifs <;> omega

theorem charOf_lt (v : Nat) : charOf v < 0x80 := by
  unfold charOf
  split_ifs <;> omega

/-! ## The codec -/

/-- `base64.urlsafe_b64encode` -/
def encode : Bytes → Text
  | a :: b :: c :: rest =>
      charOf (a / 4) :: charOf (a % 4 * 16 + b / 16) :: charOf (b % 16 * 4 + c / 64) :: charOf (c % 64) :: encode rest
  | [a, b] => [charOf (a / 4), charOf (a % 4 * 16 + b / 16), charOf (b % 16 * 4), pad]
  | [a] => [charOf (a / 4), charOf (a % 4 * 16), pad, pad]
  | [] => []

/-- `binascii.a2b_base64` behind `quad` sextets of a group, with what is `left` of the last one and the
    pads since; nothing is the `binascii.Error` of a group that is cut. -/
def decodeFrom : Nat → Nat → Nat → Text → Option Bytes
  | quad, _, _, [] => if quad = 0 then some [] else none
  | quad, left, pads, c :: t =>
      if c = pad then
        if 2 ≤ quad then if 4 ≤ quad + (pads + 1) then some [] else decodeFrom quad left (pads + 1) t
        else decodeFrom quad left pads t
      else
        match sextet? c, quad with
        | none, quad => decodeFrom quad left pads t
        | some v, 0 => decodeFrom 1 v 0 t
        | some v, 1 => (decodeFrom 2 (v % 16) 0 t).map ((left * 4 + v / 16) :: ·)
        | some v, 2 => (decodeFrom 3 (v % 4) 0 t).map ((left * 16 + v / 4) :: ·)
        | some v, _ => (decodeFrom 0 0 0 t).map ((left * 64 + v) :: ·)

/-- `base64.urlsafe_b64decode` of ASCII text. -/
def decode (t : Text) : Option Bytes := decodeFrom 0 0 0 t

/-- `.rstrip("=")` -/
def stripPads (t : Text) : Text := t.rdropWhile (· == pad)

/-- `t + "=" * (-len(t) % 4)` -/
def repad (t : Text) : Text := t ++ List.replicate ((4 - t.length % 4) % 4) pad

/-! ## Reading back -/

section
variable {v left pads : Nat} (small : v < 64) (t : Text)
include small

theorem decodeFrom_first : decodeFrom 0 left pads (charOf v :: t) = decodeFrom 1 v 0 t := by
  simp [decodeFrom, charOf_ne_pad v, sextet?_charOf small]

theorem decodeFrom_second : decodeFrom 1 left pads (charOf v :: t) =
    (decodeFrom 2 (v % 16) 0 t).map ((left * 4 + v / 16) :: ·) := by
  simp [decodeFrom, charOf_ne_pad v, sextet?_charOf small]

theorem decodeFrom_third : decodeFrom 2 left pads (charOf v :: t) =
    (decodeFrom 3 (v % 4) 0 t).map ((left * 16 + v / 4) :: ·) := by
  simp [decodeFrom, charOf_ne_pad v, sextet?_charOf small]

theorem decodeFrom_fourth : decodeFrom 3 left pads (charOf v :: t) =
    (decodeFrom 0 0 0 t).map ((left * 64 + v) :: ·) := by
  simp [decodeFrom, charOf_ne_pad v, sextet?_charOf small]

end

/-- What the encoder writes is read back. -/
theorem decode_encode {bytes : Bytes} (small : ∀ b ∈ bytes, b < 256) : decode (encode bytes) = some bytes := by
  unfold decode
  induction bytes using encode.induct with
  | case1 a b c rest ih =>
      have a_lt : a < 256 := small a (by simp)
      have b_lt : b < 256 := small b (by simp)
      have c_lt : c < 256 := small c (by simp)
      have first : a / 4 * 4 + (a % 4 * 16 + b / 16) / 16 = a := by omega
      have second : (a % 4 * 16 + b / 16) % 16 * 16 + (b % 16 * 4 + c / 64) / 4 = b := by omega
      have third : (b % 16 * 4 + c / 64) % 4 * 64 + c % 64 = c := by omega
      rw [encode, decodeFrom_first (by omega), decodeFrom_second (by omega), decodeFrom_third (by omega),
        decodeFrom_fourth (by omega), ih fun x inside => small x (by simp [inside]), first, second, third]
      rfl
  | case2 a b =>
      have a_lt : a < 256 := small a (by simp)
      have b_lt : b < 256 := small b (by simp)
      have first : a / 4 * 4 + (a % 4 * 16 + b / 16) / 16 = a := by omega
      have second : (a % 4 * 16 + b / 16) % 16 * 16 + b % 16 * 4 / 4 = b := by omega
      rw [encode, decodeFrom_first (by omega), decodeFrom_second (by omega), decodeFrom_third (by omega), first, second]
      rfl
  | case3 a =>
      have a_lt : a < 256 := small a (by simp)
      have first : a / 4 * 4 + a % 4 * 16 / 16 = a := by omega
      rw [encode, decodeFrom_first (by omega), decodeFrom_second (by omega), first]
      rfl
  | case4 => rfl

/-! ## Pads -/

theorem stripPads_cons {c : Nat} (no_pad : c ≠ pad) (t : Text) : stripPads (c :: t) = c :: stripPads t := by
  have kept : [c].rdropWhile (· == pad) = [c] := by simp [List.rdropWhile, no_pad]
  induction t using List.reverseRecOn with
  | nil => exact kept
  | append_singleton t d ih =>
      unfold stripPads at ih ⊢
      by_cases is_pad : (d == pad) = true
      · rw [← List.cons_append, List.rdropWhile_concat_pos (p := (· == pad)) _ _ is_pad,
          List.rdropWhile_concat_pos (p := (· == pad)) _ _ is_pad, ih]
      · rw [← List.cons_append, List.rdropWhile_concat_neg (p := (· == pad)) _ _ is_pad,
          List.rdropWhile_concat_neg (p := (· == pad)) _ _ is_pad, List.cons_append]

theorem repad_group (a b c d : Nat) (t : Text) : repad (a :: b :: c :: d :: t) = a :: b :: c :: d :: repad t := by
  have same : (a :: b :: c :: d :: t).length % 4 = t.length % 4 := by
    simp only [List.length_cons]
    omega
  rw [repad, same]
  rfl

/-- Pads that were stripped are put on again. -/
theorem repad_stripPads_encode (bytes : Bytes) : repad (stripPads (encode bytes)) = encode bytes := by
  induction bytes using encode.induct with
  | case1 a b c rest ih =>
      rw [encode, stripPads_cons (charOf_ne_pad _), stripPads_cons (charOf_ne_pad _),
        stripPads_cons (charOf_ne_pad _), stripPads_cons (charOf_ne_pad _), repad_group, ih]
  | case2 a b =>
      rw [encode, stripPads_cons (charOf_ne_pad _), stripPads_cons (charOf_ne_pad _),
        stripPads_cons (charOf_ne_pad _)]
      rfl
  | case3 a =>
      rw [encode, stripPads_cons (charOf_ne_pad _), stripPads_cons (charOf_ne_pad _)]
      rfl
  | case4 => rfl

theorem ascii_encode (bytes : Bytes) : ∀ c ∈ encode bytes, c < 0x80 := by
  have ascii_pad : pad < 0x80 := by decide
  induction bytes using encode.induct with
  | case1 a b c rest ih => simpa [encode, charOf_lt] using ih
  | case2 a b => simp [encode, charOf_lt, ascii_pad]
  | case3 a => simp [encode, charOf_lt, ascii_pad]
  | case4 => simp [encode]

end Senex.Base64
