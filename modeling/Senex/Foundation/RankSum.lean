import Mathlib.Data.List.ProdSigma
import Mathlib.Data.Rat.Defs
import Mathlib.Algebra.Order.Field.Rat
import Mathlib.Algebra.BigOperators.Group.List.Basic
import Mathlib.Tactic.Ring
import Mathlib.Tactic.Linarith
import Mathlib.Tactic.FieldSimp
import Mathlib.Tactic.NormNum

/-! # Rank sums

The sum of the ranks of some of the keys of a list, less the least it can be, counts the
pairs of such a key with one of the others below it, a tie as one half (`rankSum_eq`).
-/

namespace Senex.RankSum

variable {κ : Type*} [LinearOrder κ]

/-- What a pair counts for its second key: one where the first key is below it, one half at a tie. -/
def beats (below above : κ) : ℚ :=
  if below < above then 1 else if below = above then 1 / 2 else 0

@[simp] theorem beats_self (x : κ) : beats x x = 1 / 2 := by
  simp [beats]

theorem beats_of_lt {x y : κ} (less : x < y) : beats x y = 1 := if_pos less

theorem beats_of_gt {x y : κ} (greater : y < x) : beats x y = 0 := by
  rw [beats, if_neg greater.not_gt, if_neg greater.ne']

/-- Either key beats the other, or each gets one half. -/
theorem beats_add_beats (x y : κ) : beats x y + beats y x = 1 := by
  rcases lt_trichotomy x y with less | rfl | greater
  · rw [beats_of_lt less, beats_of_gt less, add_zero]
  · rw [beats_self]
    norm_num
  · rw [beats_of_gt greater, beats_of_lt greater, zero_add]

/-- What a key counts against all keys of a list. -/
def wins (keys : List κ) (y : κ) : ℚ := (keys.map fun x => beats x y).sum

@[simp] theorem wins_nil (y : κ) : wins [] y = 0 := rfl

@[simp] theorem wins_cons (x : κ) (keys : List κ) (y : κ) : wins (x :: keys) y = beats x y + wins keys y := by
  simp [wins]

@[simp] theorem wins_append (first second : List κ) (y : κ) :
    wins (first ++ second) y = wins first y + wins second y := by
  simp [wins]

theorem wins_perm {keys others : List κ} (same : keys.Perm others) (y : κ) : wins keys y = wins others y :=
  (same.map _).sum_eq

/-- What the keys of one list count against those of another. -/
def crossWins (winners losers : List κ) : ℚ := (winners.map (wins losers)).sum

theorem sum_beats_add_wins (x : κ) (keys : List κ) :
    (keys.map fun y => beats x y).sum + wins keys x = keys.length := by
  induction keys with
  | nil => simp
  | cons y keys ih =>
      have pair : beats x y + beats y x = 1 := beats_add_beats x y
      simp only [List.map_cons, List.sum_cons, wins_cons, List.length_cons]
      push_cast
      linarith

/-- Among themselves the keys of a list win half of their pairs. -/
theorem crossWins_self (keys : List κ) : crossWins keys keys = (keys.length : ℚ) ^ 2 / 2 := by
  induction keys with
  | nil => simp [crossWins]
  | cons x keys ih =>
      have against : (keys.map fun y => beats x y).sum + wins keys x = keys.length := sum_beats_add_wins x keys
      have split : (keys.map fun y => wins (x :: keys) y).sum =
          (keys.map fun y => beats x y).sum + crossWins keys keys := by
        simp only [wins_cons, List.sum_map_add]
        rfl
      have whole : crossWins (x :: keys) (x :: keys) =
          beats x x + wins keys x + (keys.map fun y => wins (x :: keys) y).sum := by
        rw [crossWins, List.map_cons, List.sum_cons, wins_cons]
      rw [whole, split, ih, beats_self, List.length_cons]
      push_cast
      linarith

/-- The rank of a key in a list, the average one where several share the key. -/
def rank (keys : List κ) (y : κ) : ℚ := 1 / 2 + wins keys y

theorem rank_perm {keys others : List κ} (same : keys.Perm others) (y : κ) : rank keys y = rank others y := by
  rw [rank, rank, wins_perm same]

theorem wins_eq_length {keys : List κ} {y : κ} (below : ∀ x ∈ keys, x < y) : wins keys y = keys.length := by
  induction keys with
  | nil => rfl
  | cons x keys ih =>
      rw [wins_cons, beats_of_lt (below x (.head _)), ih fun z member => below z (.tail _ member)]
      push_cast [List.length_cons]
      ring

theorem wins_eq_half {keys : List κ} {y : κ} (equal : ∀ x ∈ keys, x = y) : wins keys y = keys.length / 2 := by
  induction keys with
  | nil => simp
  | cons x keys ih =>
      rw [wins_cons, equal x (.head _), beats_self, ih fun z member => equal z (.tail _ member)]
      push_cast [List.length_cons]
      ring

theorem wins_eq_zero {keys : List κ} {y : κ} (above : ∀ x ∈ keys, y < x) : wins keys y = 0 := by
  induction keys with
  | nil => rfl
  | cons x keys ih =>
      rw [wins_cons, beats_of_gt (above x (.head _)), ih fun z member => above z (.tail _ member), add_zero]

/-- In a sorted list the rank of a key is the middle of its run. -/
theorem rank_run {below run above : List κ} {y : κ} (less : ∀ x ∈ below, x < y) (equal : ∀ x ∈ run, x = y)
    (greater : ∀ x ∈ above, y < x) :
    rank (below ++ run ++ above) y = ((below.length + 1) + (below.length + run.length)) / 2 := by
  rw [rank, wins_append, wins_append, wins_eq_length less, wins_eq_half equal, wins_eq_zero greater]
  ring

/-- In a strictly sorted list the ranks count up from one. -/
theorem ranks_of_sorted {keys : List κ} (sorted : keys.Pairwise (· < ·)) :
    keys.map (rank keys) = (List.range keys.length).map fun place : Nat => (place : ℚ) + 1 := by
  refine List.ext_getElem (by simp) fun place inside _ => ?_
  have here : place < keys.length := by simpa using inside
  have split : keys = keys.take place ++ [keys[place]] ++ keys.drop (place + 1) := by simp
  have less : ∀ x ∈ keys.take place, x < keys[place] := by
    intro x member
    obtain ⟨i, below, rfl⟩ := List.mem_take_iff_getElem.mp member
    exact List.pairwise_iff_getElem.mp sorted i place (by omega) here (by omega)
  have greater : ∀ x ∈ keys.drop (place + 1), keys[place] < x := by
    intro x member
    obtain ⟨i, below, rfl⟩ := List.mem_drop_iff_getElem.mp member
    exact List.pairwise_iff_getElem.mp sorted place _ here (by omega) (by omega)
  have middle : rank keys keys[place] =
      (((keys.take place).length + 1) + ((keys.take place).length + [keys[place]].length)) / 2 := by
    conv_lhs => arg 1; rw [split]
    exact rank_run less (by simp) greater
  have before : (keys.take place).length = place := by
    rw [List.length_take]
    omega
  rw [before] at middle
  simp only [List.getElem_map, List.getElem_range, middle, List.length_singleton]
  push_cast
  ring

/-- A count by two cases of which none or one applies. -/
theorem countP_cases {α : Type*} {p q r : α → Prop} [DecidablePred p] [DecidablePred q] [DecidablePred r]
    {items : List α} (cover : ∀ a ∈ items, p a ↔ q a ∨ r a) (apart : ∀ a ∈ items, q a → ¬r a) :
    (items.countP fun a => p a) = (items.countP fun a => q a) + (items.countP fun a => r a) := by
  induction items with
  | nil => rfl
  | cons a items ih =>
      have rest := ih (fun b member => cover b (.tail _ member)) (fun b member => apart b (.tail _ member))
      have here := cover a (.head _)
      have single := apart a (.head _)
      rw [List.countP_cons, List.countP_cons, List.countP_cons, rest]
      by_cases first : q a
      · simp [here, first, single first]
        omega
      · by_cases second : r a
        · simp [here, first, second]
          omega
        · simp [here, first, second]

/-- Wins counted pair by pair. -/
theorem crossWins_eq_count {α : Type*} (key : α → κ) (winners losers : List α) :
    crossWins (winners.map key) (losers.map key) =
      ((winners ×ˢ losers).countP fun pair => key pair.2 < key pair.1) +
        ((winners ×ˢ losers).countP fun pair => key pair.2 = key pair.1 : ℚ) / 2 := by
  have one (winner : α) : wins (losers.map key) (key winner) =
      (losers.countP fun loser => key loser < key winner) +
        (losers.countP fun loser => key loser = key winner : ℚ) / 2 := by
    induction losers with
    | nil => simp
    | cons loser losers ih =>
        rw [List.map_cons, wins_cons, ih, List.countP_cons, List.countP_cons]
        rcases lt_trichotomy (key loser) (key winner) with less | same | greater
        · simp [beats_of_lt less, less, less.ne]
          ring
        · simp [same]
          ring
        · simp [beats_of_gt greater, greater.not_gt, greater.ne']
  induction winners with
  | nil => simp [crossWins]
  | cons winner winners ih =>
      have count (p : α × α → Bool) : ((winner :: winners) ×ˢ losers).countP p =
          losers.countP (fun loser => p (winner, loser)) + (winners ×ˢ losers).countP p := by
        simp [List.product_cons, List.countP_map, Function.comp_def]
      have first : crossWins ((winner :: winners).map key) (losers.map key) =
          wins (losers.map key) (key winner) + crossWins (winners.map key) (losers.map key) := by
        simp [crossWins]
      rw [first, one, ih, count, count]
      push_cast
      ring

/-- The rank sum of the first keys counts what they win against the others. -/
theorem rankSum_eq (winners losers : List κ) :
    (winners.map (rank (winners ++ losers))).sum =
      (winners.length * (winners.length + 1) : ℚ) / 2 + crossWins winners losers := by
  have ranks : (winners.map (rank (winners ++ losers))).sum =
      (winners.map fun _ => (1 / 2 : ℚ)).sum + crossWins winners winners + crossWins winners losers := by
    change (winners.map fun y => 1 / 2 + wins (winners ++ losers) y).sum = _
    simp only [wins_append, List.sum_map_add, add_assoc]
    rfl
  rw [ranks, crossWins_self, List.map_const', List.sum_replicate, nsmul_eq_mul]
  ring

end Senex.RankSum
