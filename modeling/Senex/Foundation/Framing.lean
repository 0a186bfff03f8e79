import Mathlib.Data.List.Basic
import Mathlib.Tactic.Ring

/-! # Encodings one after another

An encoding separates if the value and what follows it can be told from the text.  Then the values can
be told from their encodings one after another (`Separates.flatMap`).  Fields that end with a stop,
that have a known length, or that come behind their length, separate.
-/

namespace Senex.Framing

variable {α β : Type*}

/-- The value and the rest can be told from what is encoded. -/
def Separates (ok : α → Prop) (encode : α → List β) : Prop :=
  ∀ a b x y, ok a → ok b → encode a ++ x = encode b ++ y → a = b ∧ x = y

theorem Separates.flatMap {ok : α → Prop} {encode : α → List β} (separates : Separates ok encode)
    (some : ∀ a, ok a → encode a ≠ []) {items others : List α} (valid : ∀ a ∈ items, ok a)
    (valid' : ∀ a ∈ others, ok a) (same : items.flatMap encode = others.flatMap encode) : items = others := by
  induction items generalizing others with
  | nil =>
      cases others with
      | nil => rfl
      | cons b others =>
          have nothing : encode b = [] := (List.append_eq_nil_iff.mp same.symm).1
          exact absurd nothing (some b (valid' b (.head _)))
  | cons a items ih =>
      cases others with
      | nil =>
          have nothing : encode a = [] := (List.append_eq_nil_iff.mp same).1
          exact absurd nothing (some a (valid a (.head _)))
      | cons b others =>
          obtain ⟨rfl, rest⟩ := separates a b _ _ (valid a (.head _)) (valid' b (.head _)) same
          rw [ih (fun c inside => valid c (.tail _ inside)) (fun c inside => valid' c (.tail _ inside)) rest]

/-- A field that ends with a stop it does not hold. -/
theorem terminated_inj {stop : β} {a b x y : List β} (absent : stop ∉ a) (absent' : stop ∉ b)
    (same : a ++ stop :: x = b ++ stop :: y) : a = b ∧ x = y := by
  induction a generalizing b with
  | nil =>
      cases b with
      | nil => exact ⟨rfl, (List.cons.inj same).2⟩
      | cons c b => exact absurd (by rw [(List.cons.inj same).1]; exact .head _) absent'
  | cons c a ih =>
      cases b with
      | nil => exact absurd (by rw [← (List.cons.inj same).1]; exact .head _) absent
      | cons d b =>
          obtain ⟨rfl, rest⟩ := List.cons.inj same
          obtain ⟨rfl, tail⟩ := ih (fun inside => absent (.tail _ inside)) (fun inside => absent' (.tail _ inside)) rest
          exact ⟨rfl, tail⟩

/-! ## Lengths -/

/-- `n.to_bytes(width, "big")` of a number that fits. -/
def bigEndian : Nat → Nat → List Nat
  | 0, _ => []
  | width + 1, n => bigEndian width (n / 256) ++ [n % 256]

@[simp] theorem length_bigEndian (width n : Nat) : (bigEndian width n).length = width := by
  induction width generalizing n with
  | zero => rfl
  | succ width ih => rw [bigEndian, List.length_append, ih]; rfl

theorem bigEndian_inj {width m n : Nat} (fits : m < 256 ^ width) (fits' : n < 256 ^ width)
    (same : bigEndian width m = bigEndian width n) : m = n := by
  induction width generalizing m n with
  | zero =>
      rw [Nat.pow_zero] at fits fits'
      omega
  | succ width ih =>
      rw [Nat.pow_succ] at fits fits'
      rw [bigEndian, bigEndian] at same
      obtain ⟨high, low⟩ := List.append_inj same (by simp)
      have upper := ih (by omega) (by omega) high
      have lower := (List.cons.inj low).1
      omega

/-- A field behind its length. -/
theorem counted_inj {width : Nat} {a b x y : List Nat} (fits : a.length < 256 ^ width) (fits' : b.length < 256 ^ width)
    (same : bigEndian width a.length ++ (a ++ x) = bigEndian width b.length ++ (b ++ y)) : a = b ∧ x = y := by
  obtain ⟨lengths, rest⟩ := List.append_inj same (by simp)
  exact List.append_inj rest (bigEndian_inj fits fits' lengths)

end Senex.Framing
