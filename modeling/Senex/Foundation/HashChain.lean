import Mathlib.Data.List.Basic

/-! # Hash chains

A chain of records over an anchor: each record takes the next sequence number,
names the hash of its predecessor, carries a key not used before it and is
sealed by its own hash.  The record type, its keys and its hashes are arbitrary.
-/

namespace Senex

/-- How a record type takes part in a chain. -/
structure ChainFormat (R H K : Type) where
  seq : R → Nat
  prev : R → H
  hash : R → H
  key : R → K
  /-- The record is well formed by itself, its own hash included. -/
  Sealed : R → Prop

/-- Where a chain stands: its last sequence number, its head hash and its keys. -/
structure Anchor (H K : Type) where
  seq : Nat
  head : H
  used : List K

namespace ChainFormat

variable {R H K : Type} (F : ChainFormat R H K)

/-- The record may follow the anchor. -/
structure Extends (a : Anchor H K) (r : R) : Prop where
  seq : F.seq r = a.seq + 1
  prev : F.prev r = a.head
  fresh : F.key r ∉ a.used
  isSealed : F.Sealed r

def advance (a : Anchor H K) (r : R) : Anchor H K := ⟨F.seq r, F.hash r, a.used ++ [F.key r]⟩

/-- The anchor behind a list of records. -/
def after (a : Anchor H K) (rs : List R) : Anchor H K := rs.foldl F.advance a

def Chain (a : Anchor H K) : List R → Prop
  | [] => True
  | r :: rs => F.Extends a r ∧ Chain (F.advance a r) rs

@[simp] theorem after_nil (a : Anchor H K) : F.after a [] = a := rfl

@[simp] theorem after_cons (a : Anchor H K) (r : R) (rs : List R) :
    F.after a (r :: rs) = F.after (F.advance a r) rs := rfl

@[simp] theorem after_append (a : Anchor H K) (xs ys : List R) :
    F.after a (xs ++ ys) = F.after (F.after a xs) ys := List.foldl_append

theorem used_after (a : Anchor H K) (rs : List R) : (F.after a rs).used = a.used ++ rs.map F.key := by
  induction rs generalizing a with
  | nil => simp
  | cons r rs ih => simp [ih, advance]

theorem chain_append (a : Anchor H K) (xs ys : List R) :
    F.Chain a (xs ++ ys) ↔ F.Chain a xs ∧ F.Chain (F.after a xs) ys := by
  induction xs generalizing a with
  | nil => simp [Chain]
  | cons x xs ih => simp [Chain, ih, and_assoc]

/-- One more record on a chain. -/
theorem chain_concat {a : Anchor H K} {rs : List R} {r : R} (chain : F.Chain a rs)
    (follows : F.Extends (F.after a rs) r) : F.Chain a (rs ++ [r]) :=
  (F.chain_append a rs [r]).mpr ⟨chain, follows, trivial⟩

variable {F}

theorem Chain.prefix {a : Anchor H K} {xs ys : List R} (chain : F.Chain a (xs ++ ys)) :
    F.Chain a xs := ((F.chain_append a xs ys).mp chain).1

theorem Chain.seq_after {a : Anchor H K} {rs : List R} (chain : F.Chain a rs) :
    (F.after a rs).seq = a.seq + rs.length := by
  induction rs generalizing a with
  | nil => rfl
  | cons r rs ih =>
      have here : F.seq r = a.seq + 1 := chain.1.seq
      rw [after_cons, ih chain.2, List.length_cons, advance, here]
      simp only
      omega

/-- Sequence numbers are positions. -/
theorem Chain.seq_eq {a : Anchor H K} {xs ys : List R} {r : R} (chain : F.Chain a (xs ++ r :: ys)) :
    F.seq r = a.seq + xs.length + 1 := by
  obtain ⟨front, back⟩ := (F.chain_append a xs (r :: ys)).mp chain
  rw [back.1.seq, front.seq_after]

/-- Two records of a chain with one sequence number are one record. -/
theorem Chain.eq_of_seq {a : Anchor H K} {rs : List R} {r s : R} (chain : F.Chain a rs)
    (hr : r ∈ rs) (hs : s ∈ rs) (same : F.seq r = F.seq s) : r = s := by
  obtain ⟨front, back, rfl⟩ := List.append_of_mem hr
  obtain ⟨front', back', split⟩ := List.append_of_mem hs
  have first := chain.seq_eq
  have second := (split ▸ chain : F.Chain a (front' ++ s :: back')).seq_eq
  have lengths : front.length = front'.length := by omega
  have heads := (List.append_inj split lengths).2
  exact (List.cons.inj heads).1

/-- No two records of a chain carry one key. -/
theorem Chain.nodup_keys {a : Anchor H K} {rs : List R} (chain : F.Chain a rs) :
    (rs.map F.key).Nodup ∧ ∀ r ∈ rs, F.key r ∉ a.used := by
  induction rs generalizing a with
  | nil => simp
  | cons r rs ih =>
      obtain ⟨distinct, apart⟩ := ih chain.2
      have out : ∀ s ∈ rs, F.key s ∉ a.used ∧ F.key s ≠ F.key r := by
        intro s hs
        have := apart s hs
        simpa [advance, not_or] using this
      refine ⟨List.nodup_cons.mpr ⟨?_, distinct⟩, ?_⟩
      · intro member
        obtain ⟨s, hs, same⟩ := List.mem_map.mp member
        exact (out s hs).2 same
      · intro s hs
        rcases List.mem_cons.mp hs with rfl | hs
        · exact chain.1.fresh
        · exact (out s hs).1

end ChainFormat

end Senex
