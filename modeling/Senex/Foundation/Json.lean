import Mathlib.Data.List.Nodup
import Senex.Foundation.Text

/-! # JSON documents

A document keeps the spelling of each number and the members of each object in
strictly increasing key order, so that equal JSON values with equally spelled
numbers are equal documents.  `render` is the compact text of `json.dumps` with
`sort_keys` and of a sorting canonicaliser; the escaping of strings differs
between the two languages and is a parameter.
-/

namespace Senex

inductive Json where
  | null
  | bool (b : Bool)
  /-- A number, as it is spelled. -/
  | num (raw : Text)
  | str (s : Text)
  | arr (items : List Json)
  | obj (members : List (Text × Json))
  deriving Repr, Inhabited

namespace Json

mutual
def beq : Json → Json → Bool
  | .null, .null => true
  | .bool a, .bool b => a == b
  | .num a, .num b => a == b
  | .str a, .str b => a == b
  | .arr a, .arr b => beqItems a b
  | .obj a, .obj b => beqMembers a b
  | _, _ => false

def beqItems : List Json → List Json → Bool
  | [], [] => true
  | a :: as, b :: bs => beq a b && beqItems as bs
  | _, _ => false

def beqMembers : List (Text × Json) → List (Text × Json) → Bool
  | [], [] => true
  | (j, a) :: as, (k, b) :: bs => j == k && beq a b && beqMembers as bs
  | _, _ => false
end

mutual
theorem beq_iff (a b : Json) : beq a b = true ↔ a = b := by
  cases a with
  | null => cases b <;> simp [beq]
  | bool a => cases b <;> simp [beq]
  | num a => cases b <;> simp [beq]
  | str a => cases b <;> simp [beq]
  | arr a => cases b <;> simp [beq, beqItems_iff a]
  | obj a => cases b <;> simp [beq, beqMembers_iff a]

theorem beqItems_iff (as bs : List Json) : beqItems as bs = true ↔ as = bs := by
  cases as with
  | nil => cases bs <;> simp [beqItems]
  | cons a as => cases bs <;> simp [beqItems, beq_iff a, beqItems_iff as]

theorem beqMembers_iff (as bs : List (Text × Json)) : beqMembers as bs = true ↔ as = bs := by
  cases as with
  | nil => cases bs <;> simp [beqMembers]
  | cons a as =>
      obtain ⟨j, a⟩ := a
      cases bs <;> simp [beqMembers, beq_iff a, beqMembers_iff as, Prod.ext_iff]
end

instance : DecidableEq Json := fun a b => decidable_of_iff (beq a b = true) (beq_iff a b)

/-! ## Members -/

/-- `object[key] = value`: replace the member, or put it at its place in key order. -/
def insert {α : Type} (key : Text) (value : α) : List (Text × α) → List (Text × α)
  | [] => [(key, value)]
  | (k, v) :: rest =>
      if key = k then (key, value) :: rest
      else if key < k then (key, value) :: (k, v) :: rest
      else (k, v) :: insert key value rest

def lookup {α : Type} (key : Text) : List (Text × α) → Option α
  | [] => none
  | (k, v) :: rest => if key = k then some v else lookup key rest

/-- The object of these members; a later member replaces an earlier one. -/
def ofMembers (members : List (Text × Json)) : Json :=
  .obj (members.foldl (fun acc m => insert m.1 m.2 acc) [])

def get? (key : Text) : Json → Option Json
  | .obj members => lookup key members
  | _ => none

/-- The keys of an object, sorted. -/
def keys : Json → List Text
  | .obj members => members.map Prod.fst
  | _ => []

/-- `{k: v for k, v in object.items() if k not in dropped}`. -/
def without (dropped : List Text) : Json → Json
  | .obj members => .obj (members.filter fun m => !dropped.contains m.1)
  | other => other

@[simp] theorem without_nil (j : Json) : j.without [] = j := by
  cases j <;> simp [without]

def ofNat (n : Nat) : Json := .num (Text.ofNat n)

def asText? : Json → Option Text
  | .str s => some s
  | _ => none

/-- A number spelled as a natural number. -/
def asNat? : Json → Option Nat
  | .num raw => if raw = Text.ofNat (Text.toNat raw) then some (Text.toNat raw) else none
  | _ => none

def asTexts? : Json → Option (List Text)
  | .arr items => items.mapM asText?
  | _ => none

def isObject : Json → Bool
  | .obj _ => true
  | _ => false

@[simp] theorem asText?_str (s : Text) : asText? (.str s) = some s := rfl

@[simp] theorem asNat?_ofNat (n : Nat) : asNat? (ofNat n) = some n := by
  simp [asNat?, ofNat]

@[simp] theorem asTexts?_arr_str (ts : List Text) : asTexts? (.arr (ts.map .str)) = some ts := by
  induction ts with
  | nil => rfl
  | cons t ts ih =>
      simp only [asTexts?] at ih
      simp [asTexts?, ih]

theorem lookup_insert_self {α : Type} (key : Text) (value : α) (members : List (Text × α)) :
    lookup key (insert key value members) = some value := by
  induction members with
  | nil => simp [insert, lookup]
  | cons m members ih =>
      obtain ⟨k, v⟩ := m
      simp only [insert]
      split
      · simp [lookup]
      · split
        · simp [lookup]
        · simp [lookup, *]

theorem lookup_insert_of_ne {α : Type} {key other : Text} (value : α) (different : other ≠ key)
    (members : List (Text × α)) :
    lookup other (insert key value members) = lookup other members := by
  induction members with
  | nil => simp [insert, lookup, different]
  | cons m members ih =>
      obtain ⟨k, v⟩ := m
      simp only [insert]
      split
      · rename_i same
        subst same
        simp [lookup, different]
      · split
        · simp [lookup, different]
        · simp [lookup, ih]

theorem lookup_foldl_insert {α : Type} (key : Text) (members acc : List (Text × α)) :
    lookup key (members.foldl (fun acc m => insert m.1 m.2 acc) acc) =
      (lookup key members.reverse).or (lookup key acc) := by
  induction members generalizing acc with
  | nil => simp [lookup]
  | cons m members ih =>
      obtain ⟨k, v⟩ := m
      have append : ∀ (front : List (Text × α)),
          lookup key (front ++ [(k, v)]) = (lookup key front).or (lookup key [(k, v)]) := by
        intro front
        induction front with
        | nil => simp [lookup]
        | cons f front ih =>
            obtain ⟨j, w⟩ := f
            simp only [List.cons_append, lookup]
            split
            · rfl
            · exact ih
      rw [List.foldl_cons, ih, List.reverse_cons, append, Option.or_assoc]
      congr 1
      by_cases same : key = k
      · subst same
        simp [lookup_insert_self, lookup]
      · simp [lookup_insert_of_ne _ same, lookup, same]

/-- A member of a built object is the last one given for its key. -/
theorem get?_ofMembers (key : Text) (members : List (Text × Json)) :
    get? key (ofMembers members) = lookup key members.reverse := by
  simp [ofMembers, get?, lookup_foldl_insert, lookup]

/-- The sorted keys of a built object depend on the given keys only. -/
theorem keys_ofMembers (members : List (Text × Json)) :
    keys (ofMembers members) =
      ((members.map fun m => (m.1, ())).foldl (fun acc m => insert m.1 m.2 acc) []).map Prod.fst := by
  have erase : ∀ (key : Text) (value : Json) (acc : List (Text × Json)),
      (insert key value acc).map (fun m => (m.1, ())) =
        insert key () (acc.map fun m => (m.1, ())) := by
    intro key value acc
    induction acc with
    | nil => rfl
    | cons m acc ih =>
        simp only [insert, List.map_cons]
        split
        · rfl
        · split
          · rfl
          · rw [List.map_cons, ih]
  have fold : ∀ (members acc : List (Text × Json)),
      (members.foldl (fun acc m => insert m.1 m.2 acc) acc).map (fun m => (m.1, ())) =
        (members.map fun m => (m.1, ())).foldl (fun acc m => insert m.1 m.2 acc)
          (acc.map fun m => (m.1, ())) := by
    intro members
    induction members with
    | nil => exact fun _ => rfl
    | cons m members ih =>
        intro acc
        rw [List.foldl_cons, ih, List.map_cons, List.foldl_cons, erase]
  have whole := fold members []
  simp only [ofMembers, keys, List.map_nil] at whole ⊢
  rw [← whole, List.map_map]
  rfl

/-! ## Well-formed documents -/

/-- Members in strictly increasing key order. -/
def Sorted {α : Type} (members : List (Text × α)) : Prop :=
  members.Pairwise fun a b => a.1 < b.1

theorem mem_insert {α : Type} {key : Text} {value : α} {members : List (Text × α)}
    {m : Text × α} (member : m ∈ insert key value members) :
    m = (key, value) ∨ m ∈ members := by
  induction members with
  | nil => simpa [insert] using member
  | cons head members ih =>
      obtain ⟨k, v⟩ := head
      simp only [insert] at member
      split at member
      · simp only [List.mem_cons] at member ⊢
        tauto
      · split at member
        · simpa using member
        · simp only [List.mem_cons] at member ⊢
          rcases member with h | h
          · exact Or.inr (Or.inl h)
          · rcases ih h with h | h
            · exact Or.inl h
            · exact Or.inr (Or.inr h)

theorem sorted_insert {α : Type} (key : Text) (value : α) {members : List (Text × α)}
    (sorted : Sorted members) : Sorted (insert key value members) := by
  induction members with
  | nil => simp [insert, Sorted]
  | cons head members ih =>
      obtain ⟨k, v⟩ := head
      obtain ⟨before, tail⟩ := List.pairwise_cons.mp sorted
      simp only [insert]
      split
      · rename_i same
        subst same
        exact List.pairwise_cons.mpr ⟨before, tail⟩
      · split
        · rename_i less
          refine List.pairwise_cons.mpr ⟨?_, sorted⟩
          intro m hm
          rcases List.mem_cons.mp hm with rfl | hm
          · exact less
          · exact lt_trans less (before m hm)
        · rename_i different notLess
          refine List.pairwise_cons.mpr ⟨?_, ih tail⟩
          intro m hm
          rcases mem_insert hm with rfl | hm
          · exact lt_of_le_of_ne (not_lt.mp notLess) (Ne.symm different)
          · exact before m hm

/-- A key beyond every member goes to the end. -/
theorem insert_of_lt {α : Type} {key : Text} {value : α} {members : List (Text × α)}
    (beyond : ∀ m ∈ members, m.1 < key) :
    insert key value members = members ++ [(key, value)] := by
  induction members with
  | nil => rfl
  | cons head members ih =>
      obtain ⟨k, v⟩ := head
      have less : k < key := beyond (k, v) (by simp)
      simp only [insert, ne_of_gt less, not_lt_of_gt less, if_false, List.cons_append]
      rw [ih fun m hm => beyond m (List.mem_cons_of_mem _ hm)]

theorem foldl_insert_sorted {α : Type} (front members : List (Text × α))
    (sorted : Sorted (front ++ members)) :
    members.foldl (fun acc m => insert m.1 m.2 acc) front = front ++ members := by
  induction members generalizing front with
  | nil => simp
  | cons m members ih =>
      have below : ∀ x ∈ front, x.1 < m.1 := fun x hx =>
        (List.pairwise_append.mp sorted).2.2 x hx m (by simp)
      rw [List.foldl_cons, insert_of_lt below, ih (front ++ [m]) (by simpa using sorted)]
      simp

/-- In a list of distinct keys, a lookup finds exactly the members. -/
theorem lookup_eq_some_iff {α : Type} {members : List (Text × α)}
    (distinct : (members.map Prod.fst).Nodup) {key : Text} {value : α} :
    lookup key members = some value ↔ (key, value) ∈ members := by
  induction members with
  | nil => simp [lookup]
  | cons m members ih =>
      obtain ⟨k, v⟩ := m
      obtain ⟨apart, distinct⟩ := List.nodup_cons.mp distinct
      simp only [lookup, List.mem_cons, Prod.mk.injEq]
      split
      · rename_i same
        subst same
        have absent : (key, value) ∉ members := fun inside =>
          apart (List.mem_map.mpr ⟨_, inside, rfl⟩)
        simp [absent, eq_comm]
      · rename_i different
        simp [different, ih distinct]

theorem Sorted.distinct {α : Type} {members : List (Text × α)} (sorted : Sorted members) :
    (members.map Prod.fst).Nodup :=
  (List.pairwise_map.mpr sorted).imp ne_of_lt

/-! Items filed under their keys. -/

theorem sorted_foldl_insert {α : Type} (key : α → Text) (items : List α)
    {acc : List (Text × α)} (sorted : Sorted acc) :
    Sorted (items.foldl (fun acc item => insert (key item) item acc) acc) := by
  induction items generalizing acc with
  | nil => exact sorted
  | cons item items ih => exact ih (sorted_insert _ _ sorted)

theorem mem_foldl_insert {α : Type} {key : α → Text} {items : List α}
    (distinct : (items.map key).Nodup) {id : Text} {item : α} :
    (id, item) ∈ items.foldl (fun acc item => insert (key item) item acc) [] ↔
      item ∈ items ∧ key item = id := by
  have sorted : Sorted (items.foldl (fun acc item => insert (key item) item acc) []) :=
    sorted_foldl_insert key items List.Pairwise.nil
  have pairs : items.foldl (fun acc item => insert (key item) item acc) [] =
      (items.map fun item => (key item, item)).foldl (fun acc m => insert m.1 m.2 acc) [] := by
    rw [List.foldl_map]
  have reversed : ((items.map fun item => (key item, item)).reverse.map Prod.fst).Nodup := by
    rw [List.map_reverse, List.nodup_reverse, List.map_map]
    exact distinct
  rw [← lookup_eq_some_iff sorted.distinct, pairs, lookup_foldl_insert]
  simp only [lookup, Option.or_none, lookup_eq_some_iff reversed]
  simp [and_comm]

theorem filter_insert {α : Type} (keep : Text → Bool) (key : Text) (value : α)
    {members : List (Text × α)} (sorted : Sorted members) :
    (insert key value members).filter (fun m => keep m.1) =
      if keep key then insert key value (members.filter fun m => keep m.1)
      else members.filter fun m => keep m.1 := by
  induction members with
  | nil => cases h : keep key <;> simp [insert, h]
  | cons m members ih =>
      obtain ⟨k, v⟩ := m
      obtain ⟨before, tail⟩ := List.pairwise_cons.mp sorted
      simp only [insert]
      split
      · rename_i same
        subst same
        cases h : keep key <;> simp [insert, h]
      · rename_i different
        split
        · rename_i less
          -- everything behind `key` in the filtered list is still beyond it
          have beyond : ∀ m ∈ members.filter (fun m => keep m.1), key < m.1 := fun m hm =>
            less.trans (before m (List.mem_filter.mp hm).1)
          have front : insert key value (members.filter fun m => keep m.1) =
              (key, value) :: members.filter fun m => keep m.1 := by
            cases h : members.filter (fun m => keep m.1) with
            | nil => rfl
            | cons n rest =>
                have := beyond n (by simp [h])
                simp [insert, ne_of_lt this, this]
          cases hk : keep k <;> cases h : keep key <;>
            simp [insert, hk, h, different, less, front]
        · rename_i notLess
          have ih := ih tail
          cases hk : keep k <;> cases h : keep key <;>
            simp [insert, hk, different, notLess, ih, h]

/-- Dropping keys from a built object leaves them out of its building. -/
theorem without_ofMembers (dropped : List Text) (members : List (Text × Json)) :
    without dropped (ofMembers members) =
      ofMembers (members.filter fun m => !dropped.contains m.1) := by
  have fold : ∀ (members acc : List (Text × Json)), Sorted acc →
      (members.foldl (fun acc m => insert m.1 m.2 acc) acc).filter
          (fun m => !dropped.contains m.1) =
        (members.filter fun m => !dropped.contains m.1).foldl (fun acc m => insert m.1 m.2 acc)
          (acc.filter fun m => !dropped.contains m.1) := by
    intro members
    induction members with
    | nil => exact fun _ _ => rfl
    | cons m members ih =>
        intro acc sorted
        rw [List.foldl_cons, ih _ (sorted_insert _ _ sorted),
          filter_insert (fun key => !dropped.contains key) _ _ sorted]
        cases h : dropped.contains m.1 <;>
          simp only [List.filter_cons, h, Bool.not_true, Bool.not_false, Bool.false_eq_true, if_true,
            if_false, List.foldl_cons]
  exact congrArg Json.obj (fold members [] List.Pairwise.nil)

/-! ## Numbers as the grammar spells them -/

def IsInt (i : Text) : Prop :=
  i = [48] ∨ ∃ c ds, i = c :: ds ∧ Text.isDigit c = true ∧ c ≠ 48 ∧ ∀ d ∈ ds, Text.isDigit d = true

def IsFraction (f : Text) : Prop :=
  f = [] ∨ ∃ ds, f = 46 :: ds ∧ ds ≠ [] ∧ ∀ d ∈ ds, Text.isDigit d = true

def IsExponent (x : Text) : Prop :=
  x = [] ∨ ∃ e sign ds, x = e :: (sign ++ ds) ∧ (e = 101 ∨ e = 69) ∧
    (sign = [] ∨ sign = [43] ∨ sign = [45]) ∧ ds ≠ [] ∧ ∀ d ∈ ds, Text.isDigit d = true

/-- `-?(0|[1-9]\d*)(\.\d+)?([eE][+-]?\d+)?` -/
def IsNumber (raw : Text) : Prop :=
  ∃ sign i f x, raw = sign ++ i ++ f ++ x ∧ (sign = [] ∨ sign = [45]) ∧
    IsInt i ∧ IsFraction f ∧ IsExponent x

theorem isNumber_ofNat (n : Nat) : IsNumber (Text.ofNat n) := by
  obtain ⟨c, ds, shape, digit, rest, zero⟩ := Text.ofNat_shape n
  refine ⟨[], c :: ds, [], [], by simp [shape], Or.inl rfl, ?_, Or.inl rfl, Or.inl rfl⟩
  by_cases h : c = 48
  · exact Or.inl (by rw [h, zero h])
  · exact Or.inr ⟨c, ds, rfl, digit, h, rest⟩

mutual
/-- Sorted objects and grammatical numbers, at every depth. -/
def WellFormed : Json → Prop
  | .null | .bool _ | .str _ => True
  | .num raw => IsNumber raw
  | .arr items => WellFormedItems items
  | .obj members => Sorted members ∧ WellFormedMembers members

def WellFormedItems : List Json → Prop
  | [] => True
  | item :: items => WellFormed item ∧ WellFormedItems items

def WellFormedMembers : List (Text × Json) → Prop
  | [] => True
  | (_, value) :: members => WellFormed value ∧ WellFormedMembers members
end

/-- A well-formed document. -/
abbrev Document := {j : Json // WellFormed j}

@[simp] theorem wellFormed_str (s : Text) : WellFormed (.str s) := trivial

@[simp] theorem wellFormed_ofNat (n : Nat) : WellFormed (ofNat n) := isNumber_ofNat n

theorem wellFormedItems_iff (items : List Json) :
    WellFormedItems items ↔ ∀ item ∈ items, WellFormed item := by
  induction items with
  | nil => simp [WellFormedItems]
  | cons item items ih => simp [WellFormedItems, ih]

theorem wellFormedMembers_iff (members : List (Text × Json)) :
    WellFormedMembers members ↔ ∀ m ∈ members, WellFormed m.2 := by
  induction members with
  | nil => simp [WellFormedMembers]
  | cons m members ih => simp [WellFormedMembers, ih]

theorem wellFormed_ofMembers {members : List (Text × Json)}
    (wellFormed : ∀ m ∈ members, WellFormed m.2) : WellFormed (ofMembers members) := by
  have build : ∀ (members front : List (Text × Json)), Sorted front →
      (∀ m ∈ front, WellFormed m.2) → (∀ m ∈ members, WellFormed m.2) →
      Sorted (members.foldl (fun acc m => insert m.1 m.2 acc) front) ∧
        ∀ m ∈ members.foldl (fun acc m => insert m.1 m.2 acc) front, WellFormed m.2 := by
    intro members
    induction members with
    | nil => exact fun front sorted ok _ => ⟨sorted, ok⟩
    | cons m members ih =>
        intro front sorted ok todo
        apply ih _ (sorted_insert m.1 m.2 sorted)
        · intro x hx
          rcases mem_insert hx with rfl | hx
          · exact todo m (by simp)
          · exact ok x hx
        · exact fun x hx => todo x (List.mem_cons_of_mem _ hx)
  obtain ⟨sorted, ok⟩ := build members [] List.Pairwise.nil (by simp) wellFormed
  exact ⟨sorted, (wellFormedMembers_iff _).mpr ok⟩

theorem wellFormed_without {j : Json} (dropped : List Text) (wellFormed : WellFormed j) :
    WellFormed (without dropped j) := by
  cases j with
  | obj members =>
      obtain ⟨sorted, ok⟩ := wellFormed
      exact ⟨List.Pairwise.filter _ sorted, (wellFormedMembers_iff _).mpr fun m hm =>
        (wellFormedMembers_iff _).mp ok m (List.mem_filter.mp hm).1⟩
  | _ => exact wellFormed

theorem wellFormed_lookup {key : Text} {members : List (Text × Json)}
    (wellFormed : ∀ m ∈ members, WellFormed m.2) : WellFormed ((lookup key members).getD .null) := by
  induction members with
  | nil => trivial
  | cons m members ih =>
      rw [lookup]
      split
      · exact wellFormed m (by simp)
      · exact ih fun n hn => wellFormed n (List.mem_cons_of_mem _ hn)

/-- A member of a well-formed document is well formed. -/
theorem wellFormed_get? {j : Json} (wellFormed : WellFormed j) (key : Text) :
    WellFormed ((j.get? key).getD .null) := by
  cases j with
  | obj members =>
      exact wellFormed_lookup fun m hm => (wellFormedMembers_iff _).mp wellFormed.2 m hm
  | _ => trivial

/-! ## Text of a document -/

mutual
/-- The compact text, with strings written by `quote`. -/
def render (quote : Text → Text) : Json → Text
  | .null => txt "null"
  | .bool true => txt "true"
  | .bool false => txt "false"
  | .num raw => raw
  | .str s => 34 :: quote s ++ [34]
  | .arr items => 91 :: renderItems quote items ++ [93]
  | .obj members => 123 :: renderMembers quote members ++ [125]

def renderItems (quote : Text → Text) : List Json → Text
  | [] => []
  | [item] => render quote item
  | item :: next :: items => render quote item ++ 44 :: renderItems quote (next :: items)

def renderMembers (quote : Text → Text) : List (Text × Json) → Text
  | [] => []
  | [(key, value)] => 34 :: quote key ++ 34 :: 58 :: render quote value
  | (key, value) :: next :: members =>
      34 :: quote key ++ 34 :: 58 :: (render quote value ++ 44 :: renderMembers quote (next :: members))
end

end Json

end Senex
