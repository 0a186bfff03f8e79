import Senex.Gateway.Value
import Senex.Settlement.Writer

/-! # JSON between the gateway and Python

What the gateway answers, Python reads, and what Python sends, the gateway reads.  On the way a
number is respelled twice; its value comes back (`respell_carry`).
-/

namespace Senex

open Text

/-- `JSON.stringify(value)` -/
def Gateway.stringify (v : Json) : Json := v.mapNumbers fun raw => (numberOf raw).jsString

mutual
/-- `json.dumps(value, allow_nan=False)`; nothing is the `ValueError`. -/
def PyValue.dumps : PyValue → Option Json
  | .none => some .null
  | .bool b => some (.bool b)
  | .int n => some (.num (PyValue.ofInt n))
  | .float x => if x.isFinite then some (.num x.pyRepr) else Option.none
  | .str t => some (.str t)
  | .list items => (PyValue.dumpItems items).map .arr
  | .dict members => (PyValue.dumpMembers members).map .obj

def PyValue.dumpItems : List PyValue → Option (List Json)
  | [] => some []
  | item :: items => do return (← PyValue.dumps item) :: (← PyValue.dumpItems items)

def PyValue.dumpMembers : List (Text × PyValue) → Option (List (Text × Json))
  | [] => some []
  | (key, value) :: members => do
      return (key, ← PyValue.dumps value) :: (← PyValue.dumpMembers members)
end

namespace Gateway

/-- The text of a number behind its way to Python and back. -/
def carry (raw : Text) : Text :=
  match PyValue.ofNumber (numberOf raw).jsString with
  | some (.int n) => PyValue.ofInt n
  | some (.float x) => x.pyRepr
  | _ => []

theorem read_ofNat (negative : Bool) (n : Nat) :
    Double.read ((if negative then [45] else []) ++ ofNat n) = some (Double.ofMagnitude negative n) := by
  have spelled : Double.Spelled (ofNat n) n := by
    refine ⟨ofNat n, [], [], 1, by simp, ?_, Or.inl rfl, Or.inl rfl, rfl, by simp⟩
    obtain ⟨c, ds, shape, digit, rest, zero⟩ := ofNat_shape n
    by_cases h : c = 48
    · exact Or.inl (by rw [shape, zero h, h])
    · exact Or.inr ⟨c, ds, shape, digit, h, rest⟩
  exact spelled.read negative

/-- An integer literal, signed. -/
private theorem read_digits (negative : Bool) {t : Text} (nonempty : t ≠ [])
    (digits : ∀ c ∈ t, isDigit c = true) :
    Double.read ((if negative then [45] else []) ++ t) = some (Double.ofMagnitude negative (toNat t)) := by
  have taken : (t ++ []).takeWhile isDigit = t ++ [].takeWhile isDigit :=
    List.takeWhile_append_of_pos digits
  have dropped : (t ++ []).dropWhile isDigit = [].dropWhile isDigit :=
    List.dropWhile_append_of_pos digits
  simp only [List.append_nil, List.takeWhile_nil, List.dropWhile_nil] at taken dropped
  have plain : 47 ∉ t := by
    intro inside
    exact absurd (digits 47 inside) (by decide)
  simp [Double.read, PyValue.sign_digits negative nonempty digits, plain, RationalDecimal.unsigned, taken, dropped,
    nonempty]

private theorem respell_zero {raw : Text} (finite : IsFinite raw) (zero : (numberOf raw).magnitude = 0) :
    (numberOf raw).jsString = [48] ∧ respell raw = [48] := by
  unfold respell
  rw [IsFinite] at finite
  generalize numberOf raw = x at finite zero
  cases x with
  | nan => cases finite
  | infinity => cases finite
  | finite negative m e canonical =>
      have none_left : m = 0 := by
        simp only [Double.magnitude, mul_eq_zero, Nat.cast_eq_zero] at zero
        rcases zero with h | h
        · exact h
        · exact absurd h (zpow_ne_zero _ (by norm_num))
      subst none_left
      have spelled : (Double.finite negative 0 e canonical).jsString = [48] := by rw [Double.jsString, if_pos rfl]
      have whole : isInteger (Double.finite negative 0 e canonical) = true := by
        cases negative <;> simp [isInteger, Double.isFinite, Double.value]
      exact ⟨spelled, by rw [canonicalNumber, whole, if_pos rfl, spelled]⟩

/-- A number comes back from Python with its value, spelled in some way. -/
theorem respell_carry {raw : Text} (finite : IsFinite raw) :
    (∃ v, PyValue.ofNumber (numberOf raw).jsString = some v ∧ v.dumps = some (.num (carry raw))) ∧
      respell (carry raw) = respell raw := by
  by_cases zero : (numberOf raw).magnitude = 0
  · obtain ⟨spelled, respelled⟩ := respell_zero finite zero
    have read : PyValue.ofNumber [48] = some (.int 0) := rfl
    have carried : carry raw = [48] := by
      rw [carry, spelled, read]
      decide
    refine ⟨⟨.int 0, by rw [spelled, read], ?_⟩, ?_⟩
    · rw [carried]
      rfl
    · rw [carried, respelled]
      decide +kernel
  · have finite' : (numberOf raw).isFinite = true := finite
    have back := Double.read_jsString finite' zero
    obtain ⟨negative, t, spelled, shape⟩ := Double.jsString_sign finite' zero
    rcases shape with marked | ⟨short, nonempty, digits⟩
    · have read : PyValue.ofNumber (numberOf raw).jsString = some (.float (numberOf raw)) := by
        have float : ((numberOf raw).jsString.any fun c => c == 46 || c == 101 || c == 69) = true := by
          rw [spelled, List.any_append, Bool.or_eq_true, List.any_eq_true, List.any_eq_true]
          right
          rcases marked with point | exponent
          · exact ⟨46, point, by decide⟩
          · exact ⟨101, exponent, by decide⟩
        rw [PyValue.ofNumber, if_pos float, back]
        rfl
      have carried : carry raw = (numberOf raw).pyRepr := by rw [carry, read]
      refine ⟨⟨_, read, ?_⟩, ?_⟩
      · rw [carried, PyValue.dumps, if_pos finite']
      · rw [carried, respell, numberOf, Double.read_pyRepr finite' zero]
        rfl
    · have value : Double.ofMagnitude negative (toNat t) = numberOf raw := by
        rw [spelled, read_digits negative nonempty digits] at back
        exact Option.some.inj back
      have positive : 0 < toNat t := by
        apply Nat.pos_of_ne_zero
        intro none_left
        apply zero
        rw [← value, none_left]
        simp [Double.ofMagnitude, Double.magnitude]
      have read : PyValue.ofNumber (numberOf raw).jsString =
          some (.int (if negative then -(toNat t) else toNat t)) := by
        have int : ((numberOf raw).jsString.any fun c => c == 46 || c == 101 || c == 69) = false := by
          rw [spelled, List.any_append, Bool.or_eq_false_iff, List.any_eq_false, List.any_eq_false]
          constructor
          · cases negative <;> simp
          · intro c inside
            have digit := digits c inside
            simp only [isDigit, Bool.and_eq_true, decide_eq_true_eq] at digit
            simp only [Bool.or_eq_true, beq_iff_eq]
            omega
        rw [PyValue.ofNumber, int, spelled, if_neg (by decide)]
        simp only [PyValue.sign_digits negative nonempty digits]
        rw [if_pos (by omega)]
      have text : PyValue.ofInt (if negative then -(toNat t) else toNat t) =
          (if negative then [45] else []) ++ ofNat (toNat t) := by
        cases negative <;> simp [PyValue.ofInt, positive]
      have carried : carry raw = (if negative then [45] else []) ++ ofNat (toNat t) := by
        rw [carry, read]
        exact text
      refine ⟨⟨_, read, ?_⟩, ?_⟩
      · rw [carried, PyValue.dumps, text]
      · rw [carried, respell, numberOf, read_ofNat, value]
        rfl

mutual
/-- A document that the gateway answers comes back with each number carried. -/
theorem dumps_ofJson {j : Json} (finite : j.EachNumber IsFinite) :
    ∃ v, PyValue.ofJson (stringify j) = some v ∧ v.dumps = some (j.mapNumbers carry) := by
  cases j with
  | null => exact ⟨.none, rfl, rfl⟩
  | bool b => exact ⟨.bool b, rfl, rfl⟩
  | str t => exact ⟨.str t, rfl, rfl⟩
  | num raw => exact (respell_carry finite).1
  | arr items =>
      obtain ⟨vs, read, written⟩ := dumpItems_ofItems finite
      refine ⟨.list vs, ?_, ?_⟩
      · simp only [stringify, Json.mapNumbers, PyValue.ofJson, read, Option.map_some]
      · simp only [PyValue.dumps, written, Option.map_some, Json.mapNumbers]
  | obj members =>
      obtain ⟨vs, read, written⟩ := dumpMembers_ofJsonMembers finite
      refine ⟨.dict vs, ?_, ?_⟩
      · simp only [stringify, Json.mapNumbers, PyValue.ofJson, read, Option.map_some]
      · simp only [PyValue.dumps, written, Option.map_some, Json.mapNumbers]

theorem dumpItems_ofItems {items : List Json} (finite : Json.EachNumberItems IsFinite items) :
    ∃ vs, PyValue.ofItems (Json.mapNumbersItems (fun raw => (numberOf raw).jsString) items) = some vs ∧
      PyValue.dumpItems vs = some (Json.mapNumbersItems carry items) := by
  cases items with
  | nil => exact ⟨[], rfl, rfl⟩
  | cons item items =>
      obtain ⟨v, read, written⟩ := dumps_ofJson finite.1
      obtain ⟨vs, readRest, writtenRest⟩ := dumpItems_ofItems finite.2
      rw [stringify] at read
      refine ⟨v :: vs, ?_, ?_⟩
      · simp [Json.mapNumbersItems, PyValue.ofItems, read, readRest]
      · simp [PyValue.dumpItems, written, writtenRest, Json.mapNumbersItems]

theorem dumpMembers_ofJsonMembers {members : List (Text × Json)}
    (finite : Json.EachNumberMembers IsFinite members) :
    ∃ vs, PyValue.ofJsonMembers
        (Json.mapNumbersMembers (fun raw => (numberOf raw).jsString) members) = some vs ∧
      PyValue.dumpMembers vs = some (Json.mapNumbersMembers carry members) := by
  cases members with
  | nil => exact ⟨[], rfl, rfl⟩
  | cons m members =>
      obtain ⟨key, value⟩ := m
      obtain ⟨v, read, written⟩ := dumps_ofJson finite.1
      obtain ⟨vs, readRest, writtenRest⟩ := dumpMembers_ofJsonMembers finite.2
      rw [stringify] at read
      refine ⟨(key, v) :: vs, ?_, ?_⟩
      · simp [Json.mapNumbersMembers, PyValue.ofJsonMembers, read, readRest]
      · simp [PyValue.dumpMembers, written, writtenRest, Json.mapNumbersMembers]
end

/-- To `canonical`, what comes back is what was sent. -/
theorem mapNumbers_respell_carry {j : Json} (finite : j.EachNumber IsFinite) :
    (j.mapNumbers carry).mapNumbers respell = j.mapNumbers respell := by
  rw [Json.mapNumbers_mapNumbers, Json.mapNumbers_eq_iff]
  exact finite.imp fun raw numeric => (respell_carry numeric).2

end Gateway

end Senex
