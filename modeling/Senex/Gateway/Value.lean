import Senex.Foundation.DoubleText
import Senex.Foundation.JsonText

/-! # Values of the gateway

The gateway keeps each number of a request together with its spelling, so a document stands for
the value and for the spellings.  `canonicalRaw` is `canonical` with the spellings, `canonical`
is `canonical` without them, which respells each number by its value.

Strings stand as their code points, as they are on the wire.
-/

namespace Senex

open Text

namespace Json

/-! ## Numbers in place -/

mutual
/-- The document with each number respelled. -/
def mapNumbers (f : Text → Text) : Json → Json
  | .null => .null
  | .bool b => .bool b
  | .num raw => .num (f raw)
  | .str s => .str s
  | .arr items => .arr (mapNumbersItems f items)
  | .obj members => .obj (mapNumbersMembers f members)

def mapNumbersItems (f : Text → Text) : List Json → List Json
  | [] => []
  | item :: items => mapNumbers f item :: mapNumbersItems f items

def mapNumbersMembers (f : Text → Text) : List (Text × Json) → List (Text × Json)
  | [] => []
  | (key, value) :: members => (key, mapNumbers f value) :: mapNumbersMembers f members
end

mutual
/-- Each number of the document, as it is spelled, satisfies `p`. -/
def EachNumber (p : Text → Prop) : Json → Prop
  | .null | .bool _ | .str _ => True
  | .num raw => p raw
  | .arr items => EachNumberItems p items
  | .obj members => EachNumberMembers p members

def EachNumberItems (p : Text → Prop) : List Json → Prop
  | [] => True
  | item :: items => EachNumber p item ∧ EachNumberItems p items

def EachNumberMembers (p : Text → Prop) : List (Text × Json) → Prop
  | [] => True
  | (_, value) :: members => EachNumber p value ∧ EachNumberMembers p members
end

mutual
theorem mapNumbers_eq_iff (f g : Text → Text) (j : Json) :
    mapNumbers f j = mapNumbers g j ↔ EachNumber (fun raw => f raw = g raw) j := by
  cases j with
  | null | bool | str => simp [mapNumbers, EachNumber]
  | num raw => simp [mapNumbers, EachNumber]
  | arr items => simp [mapNumbers, EachNumber, mapNumbersItems_eq_iff f g items]
  | obj members => simp [mapNumbers, EachNumber, mapNumbersMembers_eq_iff f g members]

theorem mapNumbersItems_eq_iff (f g : Text → Text) (items : List Json) :
    mapNumbersItems f items = mapNumbersItems g items ↔
      EachNumberItems (fun raw => f raw = g raw) items := by
  cases items with
  | nil => simp [mapNumbersItems, EachNumberItems]
  | cons item items =>
      simp [mapNumbersItems, EachNumberItems, mapNumbers_eq_iff f g item, mapNumbersItems_eq_iff f g items]

theorem mapNumbersMembers_eq_iff (f g : Text → Text) (members : List (Text × Json)) :
    mapNumbersMembers f members = mapNumbersMembers g members ↔
      EachNumberMembers (fun raw => f raw = g raw) members := by
  cases members with
  | nil => simp [mapNumbersMembers, EachNumberMembers]
  | cons m members =>
      obtain ⟨key, value⟩ := m
      simp [mapNumbersMembers, EachNumberMembers, mapNumbers_eq_iff f g value,
        mapNumbersMembers_eq_iff f g members]
end

mutual
theorem mapNumbers_mapNumbers (f g : Text → Text) (j : Json) :
    mapNumbers f (mapNumbers g j) = mapNumbers (f ∘ g) j := by
  cases j with
  | null | bool | str => rfl
  | num raw => rfl
  | arr items => simp only [mapNumbers, mapNumbersItems_mapNumbersItems f g items]
  | obj members => simp only [mapNumbers, mapNumbersMembers_mapNumbersMembers f g members]

theorem mapNumbersItems_mapNumbersItems (f g : Text → Text) (items : List Json) :
    mapNumbersItems f (mapNumbersItems g items) = mapNumbersItems (f ∘ g) items := by
  cases items with
  | nil => rfl
  | cons item items =>
      simp only [mapNumbersItems, mapNumbers_mapNumbers f g item, mapNumbersItems_mapNumbersItems f g items]

theorem mapNumbersMembers_mapNumbersMembers (f g : Text → Text) (members : List (Text × Json)) :
    mapNumbersMembers f (mapNumbersMembers g members) = mapNumbersMembers (f ∘ g) members := by
  cases members with
  | nil => rfl
  | cons m members =>
      obtain ⟨key, value⟩ := m
      simp only [mapNumbersMembers, mapNumbers_mapNumbers f g value,
        mapNumbersMembers_mapNumbersMembers f g members]
end

mutual
theorem mapNumbers_id (j : Json) : mapNumbers (fun raw => raw) j = j := by
  cases j with
  | null | bool | str => rfl
  | num raw => rfl
  | arr items => simp only [mapNumbers, mapNumbersItems_id items]
  | obj members => simp only [mapNumbers, mapNumbersMembers_id members]

theorem mapNumbersItems_id (items : List Json) : mapNumbersItems (fun raw => raw) items = items := by
  cases items with
  | nil => rfl
  | cons item items => simp only [mapNumbersItems, mapNumbers_id item, mapNumbersItems_id items]

theorem mapNumbersMembers_id (members : List (Text × Json)) :
    mapNumbersMembers (fun raw => raw) members = members := by
  cases members with
  | nil => rfl
  | cons m members =>
      obtain ⟨key, value⟩ := m
      simp only [mapNumbersMembers, mapNumbers_id value, mapNumbersMembers_id members]
end

/-- A document keeps its spellings if each of its numbers does. -/
theorem mapNumbers_eq_self_iff (f : Text → Text) (j : Json) :
    mapNumbers f j = j ↔ EachNumber (fun raw => f raw = raw) j := by
  rw [← mapNumbers_eq_iff f (fun raw => raw), mapNumbers_id]

theorem mapNumbersMembers_eq_map (f : Text → Text) (members : List (Text × Json)) :
    mapNumbersMembers f members = members.map fun m => (m.1, mapNumbers f m.2) := by
  induction members with
  | nil => rfl
  | cons m members ih => rw [mapNumbersMembers, ih, List.map_cons]

theorem lookup_mapNumbersMembers (f : Text → Text) (key : Text) (members : List (Text × Json)) :
    lookup key (mapNumbersMembers f members) = (lookup key members).map (mapNumbers f) := by
  induction members with
  | nil => rfl
  | cons m members ih =>
      rw [mapNumbersMembers, lookup, lookup, ih]
      split <;> rfl

mutual
theorem EachNumber.imp {p q : Text → Prop} (weaken : ∀ raw, p raw → q raw) {j : Json}
    (each : EachNumber p j) : EachNumber q j := by
  cases j with
  | null | bool | str => trivial
  | num raw => exact weaken raw each
  | arr items => exact EachNumberItems.imp weaken each
  | obj members => exact EachNumberMembers.imp weaken each

theorem EachNumberItems.imp {p q : Text → Prop} (weaken : ∀ raw, p raw → q raw) {items : List Json}
    (each : EachNumberItems p items) : EachNumberItems q items := by
  cases items with
  | nil => trivial
  | cons item items => exact ⟨EachNumber.imp weaken each.1, EachNumberItems.imp weaken each.2⟩

theorem EachNumberMembers.imp {p q : Text → Prop} (weaken : ∀ raw, p raw → q raw)
    {members : List (Text × Json)} (each : EachNumberMembers p members) : EachNumberMembers q members := by
  cases members with
  | nil => trivial
  | cons m members => exact ⟨EachNumber.imp weaken each.1, EachNumberMembers.imp weaken each.2⟩
end

mutual
theorem wellFormed_mapNumbers {f : Text → Text} {j : Json} (wellFormed : WellFormed j)
    (numbers : EachNumber (fun raw => IsNumber (f raw)) j) : WellFormed (mapNumbers f j) := by
  cases j with
  | null | bool | str => trivial
  | num raw => exact numbers
  | arr items => exact wellFormed_mapNumbersItems wellFormed numbers
  | obj members =>
      refine ⟨?_, wellFormed_mapNumbersMembers wellFormed.2 numbers⟩
      rw [Sorted, mapNumbersMembers_eq_map, List.pairwise_map]
      exact wellFormed.1

theorem wellFormed_mapNumbersItems {f : Text → Text} {items : List Json}
    (wellFormed : WellFormedItems items) (numbers : EachNumberItems (fun raw => IsNumber (f raw)) items) :
    WellFormedItems (mapNumbersItems f items) := by
  cases items with
  | nil => trivial
  | cons item items =>
      exact ⟨wellFormed_mapNumbers wellFormed.1 numbers.1, wellFormed_mapNumbersItems wellFormed.2 numbers.2⟩

theorem wellFormed_mapNumbersMembers {f : Text → Text} {members : List (Text × Json)}
    (wellFormed : WellFormedMembers members)
    (numbers : EachNumberMembers (fun raw => IsNumber (f raw)) members) :
    WellFormedMembers (mapNumbersMembers f members) := by
  cases members with
  | nil => trivial
  | cons m members =>
      exact ⟨wellFormed_mapNumbers wellFormed.1 numbers.1,
        wellFormed_mapNumbersMembers wellFormed.2 numbers.2⟩
end

/-! ## Own members -/

/-- The key whose assignment sets the prototype of an object. -/
def protoKey : Text := txt "__proto__"

mutual
/-- What is left of a document when each member was assigned: an assignment to `__proto__` makes no
    member of the object's own. -/
def own : Json → Json
  | .null => .null
  | .bool b => .bool b
  | .num raw => .num raw
  | .str s => .str s
  | .arr items => .arr (ownItems items)
  | .obj members => .obj (ownMembers members)

def ownItems : List Json → List Json
  | [] => []
  | item :: items => own item :: ownItems items

def ownMembers : List (Text × Json) → List (Text × Json)
  | [] => []
  | (key, value) :: members =>
      if key = protoKey then ownMembers members else (key, own value) :: ownMembers members
end

mutual
/-- No member at any depth is called `__proto__`. -/
def Plain : Json → Prop
  | .null | .bool _ | .num _ | .str _ => True
  | .arr items => PlainItems items
  | .obj members => PlainMembers members

def PlainItems : List Json → Prop
  | [] => True
  | item :: items => Plain item ∧ PlainItems items

def PlainMembers : List (Text × Json) → Prop
  | [] => True
  | (key, value) :: members => key ≠ protoKey ∧ Plain value ∧ PlainMembers members
end

mutual
theorem plain_own (j : Json) : Plain (own j) := by
  cases j with
  | null | bool | num | str => trivial
  | arr items => exact plain_ownItems items
  | obj members => exact plain_ownMembers members

theorem plain_ownItems (items : List Json) : PlainItems (ownItems items) := by
  cases items with
  | nil => trivial
  | cons item items => exact ⟨plain_own item, plain_ownItems items⟩

theorem plain_ownMembers (members : List (Text × Json)) : PlainMembers (ownMembers members) := by
  cases members with
  | nil => trivial
  | cons m members =>
      obtain ⟨key, value⟩ := m
      rw [ownMembers]
      split
      · exact plain_ownMembers members
      · rename_i other
        exact ⟨other, plain_own value, plain_ownMembers members⟩
end

mutual
theorem own_of_plain {j : Json} (plain : Plain j) : own j = j := by
  cases j with
  | null | bool | num | str => rfl
  | arr items => rw [own, ownItems_of_plain plain]
  | obj members => rw [own, ownMembers_of_plain plain]

theorem ownItems_of_plain {items : List Json} (plain : PlainItems items) : ownItems items = items := by
  cases items with
  | nil => rfl
  | cons item items => rw [ownItems, own_of_plain plain.1, ownItems_of_plain plain.2]

theorem ownMembers_of_plain {members : List (Text × Json)} (plain : PlainMembers members) :
    ownMembers members = members := by
  cases members with
  | nil => rfl
  | cons m members =>
      obtain ⟨key, value⟩ := m
      rw [ownMembers, if_neg plain.1, own_of_plain plain.2.1, ownMembers_of_plain plain.2.2]
end

theorem own_eq_self_iff {j : Json} : own j = j ↔ Plain j := by
  constructor
  · intro same
    rw [← same]
    exact plain_own j
  · exact own_of_plain

mutual
theorem plain_mapNumbers (f : Text → Text) (j : Json) : Plain (mapNumbers f j) ↔ Plain j := by
  cases j with
  | null | bool | num | str => exact Iff.rfl
  | arr items => exact plain_mapNumbersItems f items
  | obj members => exact plain_mapNumbersMembers f members

theorem plain_mapNumbersItems (f : Text → Text) (items : List Json) :
    PlainItems (mapNumbersItems f items) ↔ PlainItems items := by
  cases items with
  | nil => exact Iff.rfl
  | cons item items =>
      simp only [mapNumbersItems, PlainItems, plain_mapNumbers f item, plain_mapNumbersItems f items]

theorem plain_mapNumbersMembers (f : Text → Text) (members : List (Text × Json)) :
    PlainMembers (mapNumbersMembers f members) ↔ PlainMembers members := by
  cases members with
  | nil => exact Iff.rfl
  | cons m members =>
      obtain ⟨key, value⟩ := m
      simp only [mapNumbersMembers, PlainMembers, plain_mapNumbers f value, plain_mapNumbersMembers f members]
end

mutual
theorem own_mapNumbers (f : Text → Text) (j : Json) : own (mapNumbers f j) = mapNumbers f (own j) := by
  cases j with
  | null | bool | num | str => rfl
  | arr items => simp only [mapNumbers, own, ownItems_mapNumbersItems f items]
  | obj members => simp only [mapNumbers, own, ownMembers_mapNumbersMembers f members]

theorem ownItems_mapNumbersItems (f : Text → Text) (items : List Json) :
    ownItems (mapNumbersItems f items) = mapNumbersItems f (ownItems items) := by
  cases items with
  | nil => rfl
  | cons item items =>
      simp only [mapNumbersItems, ownItems, own_mapNumbers f item, ownItems_mapNumbersItems f items]

theorem ownMembers_mapNumbersMembers (f : Text → Text) (members : List (Text × Json)) :
    ownMembers (mapNumbersMembers f members) = mapNumbersMembers f (ownMembers members) := by
  cases members with
  | nil => rfl
  | cons m members =>
      obtain ⟨key, value⟩ := m
      simp only [mapNumbersMembers, ownMembers, ownMembers_mapNumbersMembers f members]
      split
      · rfl
      · rw [mapNumbersMembers, own_mapNumbers f value]
end

theorem ownMembers_eq (members : List (Text × Json)) :
    ownMembers members = (members.filter fun m => m.1 ≠ protoKey).map fun m => (m.1, own m.2) := by
  induction members with
  | nil => rfl
  | cons m members ih =>
      rw [ownMembers, List.filter_cons, ih]
      by_cases proto : m.1 = protoKey <;> simp [proto]

mutual
theorem wellFormed_own {j : Json} (wellFormed : WellFormed j) : WellFormed (own j) := by
  cases j with
  | null | bool | str => trivial
  | num raw => exact wellFormed
  | arr items => exact wellFormed_ownItems wellFormed
  | obj members =>
      refine ⟨?_, wellFormed_ownMembers wellFormed.2⟩
      rw [ownMembers_eq, Sorted, List.pairwise_map]
      exact List.Pairwise.filter _ wellFormed.1

theorem wellFormed_ownItems {items : List Json} (wellFormed : WellFormedItems items) :
    WellFormedItems (ownItems items) := by
  cases items with
  | nil => trivial
  | cons item items => exact ⟨wellFormed_own wellFormed.1, wellFormed_ownItems wellFormed.2⟩

theorem wellFormed_ownMembers {members : List (Text × Json)} (wellFormed : WellFormedMembers members) :
    WellFormedMembers (ownMembers members) := by
  cases members with
  | nil => trivial
  | cons m members =>
      obtain ⟨key, value⟩ := m
      rw [ownMembers]
      split
      · exact wellFormed_ownMembers wellFormed.2
      · exact ⟨wellFormed_own wellFormed.1, wellFormed_ownMembers wellFormed.2⟩
end

mutual
theorem EachNumber.own {p : Text → Prop} {j : Json} (each : EachNumber p j) : EachNumber p (own j) := by
  cases j with
  | null | bool | str => trivial
  | num raw => exact each
  | arr items => exact EachNumberItems.own each
  | obj members => exact EachNumberMembers.own each

theorem EachNumberItems.own {p : Text → Prop} {items : List Json} (each : EachNumberItems p items) :
    EachNumberItems p (ownItems items) := by
  cases items with
  | nil => trivial
  | cons item items => exact ⟨EachNumber.own each.1, EachNumberItems.own each.2⟩

theorem EachNumberMembers.own {p : Text → Prop} {members : List (Text × Json)}
    (each : EachNumberMembers p members) : EachNumberMembers p (ownMembers members) := by
  cases members with
  | nil => trivial
  | cons m members =>
      obtain ⟨key, value⟩ := m
      rw [ownMembers]
      split
      · exact EachNumberMembers.own each.2
      · exact ⟨EachNumber.own each.1, EachNumberMembers.own each.2⟩
end

theorem EachNumberMembers.lookup {p : Text → Prop} {members : List (Text × Json)}
    (each : EachNumberMembers p members) {key : Text} {value : Json}
    (found : Json.lookup key members = some value) : EachNumber p value := by
  induction members with
  | nil => cases found
  | cons m members ih =>
      obtain ⟨k, v⟩ := m
      rw [Json.lookup] at found
      split at found
      · cases found
        exact each.1
      · exact ih each.2 found

/-- Respelling its numbers does not hide what a document has lost. -/
theorem mapNumbers_own_iff (f : Text → Text) (j : Json) :
    mapNumbers f (own j) = mapNumbers f j ↔ Plain j := by
  rw [← own_mapNumbers, own_eq_self_iff, plain_mapNumbers]

end Json

namespace Gateway

/-! ## `Number` and `String` -/

/-- The value of a number, as it is spelled. -/
def numberOf (raw : Text) : Double := (Double.read raw).getD .nan

def hexDigit? (c : Nat) : Option Nat := Json.hexValue c

/-- Digits of some radix behind `0x`, `0o` or `0b`. -/
def radixDigits (radix : Nat) (digits : Text) : Option Nat :=
  if digits = [] then none
  else digits.foldlM (fun acc c => do
    let d ← hexDigit? c
    if d < radix then some (radix * acc + d) else none) 0

/-- `Number(text)` -/
def numberOfText (t : Text) : Double :=
  let body := stripBy isJsSpace t
  let radix (n : Nat) (digits : Text) : Double :=
    ((radixDigits n digits).map fun value => Double.round value).getD .nan
  match body with
  | [] => Double.round 0
  | 48 :: 120 :: digits | 48 :: 88 :: digits => radix 16 digits
  | 48 :: 111 :: digits | 48 :: 79 :: digits => radix 8 digits
  | 48 :: 98 :: digits | 48 :: 66 :: digits => radix 2 digits
  | _ =>
      let (negative, unsigned) := RationalDecimal.sign body
      if unsigned = txt "Infinity" then .infinity negative else numberOf body

mutual
/-- `String(value)`; nothing is the `TypeError` of an object whose `toString` is no function. -/
def textOf : Json → Option Text
  | .null => some (txt "null")
  | .bool b => some (if b then txt "true" else txt "false")
  | .num raw => some (Double.jsString (numberOf raw))
  | .str s => some s
  | .arr items => joinTexts items
  | .obj members =>
      if (Json.lookup (txt "toString") members).isSome then none else some (txt "[object Object]")

/-- `items.join()` -/
def joinTexts : List Json → Option Text
  | [] => some []
  | [item] => itemText item
  | item :: next :: items => do return (← itemText item) ++ 44 :: (← joinTexts (next :: items))

def itemText : Json → Option Text
  | .null => some []
  | .bool b => some (if b then txt "true" else txt "false")
  | .num raw => some (Double.jsString (numberOf raw))
  | .str s => some s
  | .arr items => joinTexts items
  | .obj members =>
      if (Json.lookup (txt "toString") members).isSome then none else some (txt "[object Object]")
end

/-- `Number(value)`; nothing is the `TypeError`. -/
def toNumber : Json → Option Double
  | .null => some (Double.round 0)
  | .bool b => some (Double.round (if b then 1 else 0))
  | .num raw => some (numberOf raw)
  | value => (textOf value).map numberOfText

/-! ## Canonical text -/

/-- `Number.isInteger(x)` -/
def isInteger (x : Double) : Bool := x.isFinite && decide (x.value.den = 1)

/-- `[m, e] = s.split("e")` with the exponent padded to two digits. -/
def padExponent (s : Text) : Text :=
  match s.dropWhile (· ≠ 101) with
  | [] => s
  | _ :: e =>
      let sign := if e.head? = some 45 then 45 else 43
      let digits := if e.head? = some 45 ∨ e.head? = some 43 then e.drop 1 else e
      s.takeWhile (· ≠ 101) ++ 101 :: sign :: (if digits.length < 2 then 48 :: digits else digits)

/-- `pyFloat` of a finite number. -/
def pyFloat (x : Double) : Text :=
  if x.isNegative && decide (x.value = 0) then txt "-0.0"
  else if isInteger x then x.jsString ++ txt ".0"
  else padExponent x.jsString

/-- How `canonical` spells a finite number. -/
def canonicalNumber (x : Double) : Text := if isInteger x then x.jsString else pyFloat x

/-- How `canonical` respells a number. -/
def respell (raw : Text) : Text := canonicalNumber (numberOf raw)

/-- `canonical(v, rawNumbers, path)`: each number as it is spelled. -/
def canonicalRaw (v : Json) : Text := Json.render Json.jsQuote v

/-- `canonical(v)` -/
def canonical (v : Json) : Text := canonicalRaw (v.mapNumbers respell)

/-! ## One text, one value -/

/-- A number that the gateway can hold. -/
def IsFinite (raw : Text) : Prop := (numberOf raw).isFinite = true

/-- Padding keeps a number a number. -/
theorem isNumber_padExponent {s : Text} (number : Json.IsNumber s) : Json.IsNumber (padExponent s) := by
  obtain ⟨sign, i, f, x, rfl, hsign, int, fraction, exponent⟩ := number
  have digit : ∀ c, isDigit c = true → c ≠ 101 := by
    rintro c digit rfl
    cases digit
  have before : ∀ c ∈ sign ++ i ++ f, c ≠ 101 := by
    simp only [List.mem_append, or_imp, forall_and]
    refine ⟨⟨?_, ?_⟩, ?_⟩
    · rcases hsign with rfl | rfl <;> simp
    · rcases int with rfl | ⟨c, ds, rfl, first, -, rest⟩
      · simp
      · exact List.forall_mem_cons.mpr ⟨digit c first, fun d hd => digit d (rest d hd)⟩
    · rcases fraction with rfl | ⟨ds, rfl, -, digits⟩
      · simp
      · exact List.forall_mem_cons.mpr ⟨by decide, fun d hd => digit d (digits d hd)⟩
  have skipped (rest : Text) :
      (sign ++ i ++ f ++ rest).takeWhile (· ≠ 101) = sign ++ i ++ f ++ rest.takeWhile (· ≠ 101) ∧
      (sign ++ i ++ f ++ rest).dropWhile (· ≠ 101) = rest.dropWhile (· ≠ 101) := by
    have holds : ∀ c ∈ sign ++ i ++ f, decide (c ≠ 101) = true := by
      intro c inside
      exact decide_eq_true (before c inside)
    exact ⟨List.takeWhile_append_of_pos holds, List.dropWhile_append_of_pos holds⟩
  have unpadded : (x.dropWhile (· ≠ 101)) = [] → Json.IsNumber (padExponent (sign ++ i ++ f ++ x)) := by
    intro nothing
    rw [padExponent, (skipped x).2, nothing]
    exact ⟨sign, i, f, x, rfl, hsign, int, fraction, exponent⟩
  rcases exponent with rfl | ⟨e, signs, ds, rfl, either, hsigns, nonempty, digits⟩
  · exact unpadded rfl
  · rcases either with rfl | rfl
    · obtain ⟨c, ds, rfl⟩ := List.exists_cons_of_ne_nil nonempty
      have first : c ≠ 45 ∧ c ≠ 43 := by
        have isDigit := digits c (by simp)
        simp only [Text.isDigit, Bool.and_eq_true, decide_eq_true_eq] at isDigit
        omega
      have stop (rest : Text) : (101 :: rest).dropWhile (· ≠ 101) = 101 :: rest ∧
          (101 :: rest).takeWhile (· ≠ 101) = [] := by
        simp
      have written : padExponent (sign ++ i ++ f ++ 101 :: (signs ++ c :: ds)) =
          sign ++ i ++ f ++ 101 :: ([if signs = [45] then 45 else 43] ++
            if (c :: ds).length < 2 then 48 :: c :: ds else c :: ds) := by
        rw [padExponent, (skipped _).1, (skipped _).2, (stop _).1, (stop _).2]
        rcases hsigns with rfl | rfl | rfl <;> simp [first]
      rw [written]
      refine ⟨sign, i, f, _, rfl, hsign, int, fraction, Or.inr ⟨101, _, _, rfl, Or.inl rfl, ?_, ?_, ?_⟩⟩
      · split <;> simp
      · split <;> simp
      · intro d inside
        split at inside
        · rcases List.mem_cons.mp inside with rfl | inside
          · rfl
          · exact digits d inside
        · exact digits d inside
    · apply unpadded
      have absent : ∀ c ∈ 69 :: (signs ++ ds), decide (c ≠ 101) = true := by
        intro c inside
        simp only [List.mem_cons, List.mem_append] at inside
        rcases inside with rfl | inside | inside
        · rfl
        · rcases hsigns with rfl | rfl | rfl <;> simp at inside <;> simp [inside]
        · exact decide_eq_true (digit c (digits c inside))
      have all : (69 :: (signs ++ ds) ++ []).dropWhile (fun c => decide (c ≠ 101)) = [] :=
        List.dropWhile_append_of_pos absent
      rwa [List.append_nil] at all

theorem isNumber_respell {raw : Text} (finite : IsFinite raw) : Json.IsNumber (respell raw) := by
  unfold respell canonicalNumber
  split
  · exact Double.isNumber_jsString finite
  · rename_i fractional
    unfold pyFloat
    split
    · exact ⟨[45], [48], [46, 48], [], rfl, Or.inr rfl, Or.inl rfl,
        Or.inr ⟨[48], rfl, by simp, by decide⟩, Or.inl rfl⟩
    · exact isNumber_padExponent (Double.isNumber_jsString finite)

/-- A document that the gateway can hold. -/
structure Holds (v : Json) : Prop where
  wellFormed : v.WellFormed
  finite : v.EachNumber IsFinite

theorem Holds.respelled {v : Json} (holds : Holds v) : (v.mapNumbers respell).WellFormed :=
  Json.wellFormed_mapNumbers holds.wellFormed (holds.finite.imp fun _ => isNumber_respell)

theorem Holds.own {v : Json} (holds : Holds v) : Holds v.own :=
  ⟨Json.wellFormed_own holds.wellFormed, holds.finite.own⟩

theorem Holds.lookup {members : List (Text × Json)} (holds : Holds (.obj members)) {key : Text} {value : Json}
    (found : Json.lookup key members = some value) : Holds value := by
  have wellFormed := Json.wellFormed_get? holds.wellFormed key
  have member : (Json.obj members).get? key = some value := found
  rw [member] at wellFormed
  exact ⟨wellFormed, Json.EachNumberMembers.lookup holds.finite found⟩

theorem canonical_inj {v w : Json} (v_holds : Holds v) (w_holds : Holds w) :
    canonical v = canonical w ↔ v.mapNumbers respell = w.mapNumbers respell := by
  constructor
  · exact Json.render_injective Json.reads_jsQuote v_holds.respelled w_holds.respelled
  · intro same
    rw [canonical, same, canonical]

/-- `canonical` tells a document from what is left of it. -/
theorem canonical_own_iff {v : Json} (holds : Holds v) : canonical v.own = canonical v ↔ v.Plain := by
  rw [canonical_inj holds.own holds, Json.mapNumbers_own_iff]

end Gateway

end Senex
