import Senex.Foundation.DoubleText
import Senex.Foundation.Python

/-! # Python values of JSON documents

What `json.loads` makes of a document, with the conversions `str`, `int` and `float` of
the built-in types.
-/

namespace Senex

open Text

/-- A value of a JSON document in Python.  The members of a `dict` stand in key order. -/
inductive PyValue where
  | none
  | bool (b : Bool)
  | int (n : Int)
  | float (x : Double)
  | str (t : Text)
  | list (items : List PyValue)
  | dict (members : List (Text × PyValue))
  deriving Inhabited

namespace PyValue

/-! ## Members -/

/-- `{key: value, ...}` -/
def ofMembers (members : List (Text × PyValue)) : PyValue :=
  .dict (members.foldl (fun acc m => Json.insert m.1 m.2 acc) [])

/-- `value.get(key)` of a `dict`. -/
def get (key : Text) : PyValue → PyValue
  | .dict members => (Json.lookup key members).getD .none
  | _ => .none

/-- `value[key] = member` on a copy of a `dict`. -/
def set (value : PyValue) (key : Text) (member : PyValue) : PyValue :=
  match value with
  | .dict members => .dict (Json.insert key member members)
  | other => other

/-- `isinstance(value, dict)` -/
def isDict : PyValue → Bool
  | .dict _ => true
  | _ => false

def isNone : PyValue → Bool
  | .none => true
  | _ => false

/-- `value == text` -/
def eqText (text : Text) : PyValue → Bool
  | .str t => decide (t = text)
  | _ => false

@[simp] theorem get_ofMembers (key : Text) (members : List (Text × PyValue)) :
    get key (ofMembers members) = (Json.lookup key members.reverse).getD .none := by
  simp [get, ofMembers, Json.lookup_foldl_insert, Json.lookup]

theorem get_set_self {value : PyValue} (dict : value.isDict = true) (key : Text) (member : PyValue) :
    get key (set value key member) = member := by
  cases value <;> simp_all [isDict, get, set, Json.lookup_insert_self]

@[simp] theorem get_set_of_ne {key other : Text} (member : PyValue) (different : other ≠ key)
    (value : PyValue) : get other (set value key member) = get other value := by
  cases value <;> simp [get, set, Json.lookup_insert_of_ne _ different]

@[simp] theorem isDict_ofMembers (members : List (Text × PyValue)) : isDict (ofMembers members) = true :=
  rfl

@[simp] theorem isDict_set (value : PyValue) (key : Text) (member : PyValue) :
    isDict (set value key member) = isDict value := by
  cases value <;> rfl

theorem eqText_iff {text : Text} {value : PyValue} : eqText text value = true ↔ value = .str text := by
  cases value <;> simp [eqText]

@[simp] theorem eqText_str (text t : Text) : eqText text (.str t) = decide (t = text) := rfl

/-! ## `str` -/

/-- `bool(value)` -/
def truthy : PyValue → Bool
  | .none => false
  | .bool b => b
  | .int n => decide (n ≠ 0)
  | .float x => x.isNan || decide (x.value ≠ 0)
  | .str t => decide (t ≠ [])
  | .list items => !items.isEmpty
  | .dict members => !members.isEmpty

/-- `str(value)` of a scalar.  The text of a list or of a `dict` begins with a bracket, and
    no caller knows such a text. -/
def text? : PyValue → Option Text
  | .none => some (txt "None")
  | .bool b => some (if b then txt "True" else txt "False")
  | .int n => some ((if n < 0 then [45] else []) ++ ofNat n.natAbs)
  | .float x => some (Double.pyRepr x)
  | .str t => some t
  | .list _ | .dict _ => Option.none

/-- `str(value or "")` -/
def textOrEmpty (value : PyValue) : Option Text :=
  if value.truthy then value.text? else some []

/-! ## `int` and `float` -/

/-- A numeral without its underscores, each of which stands between digits. -/
def dropUnderscores : Text → Option Text
  | [] => some []
  | [c] => if c = 95 then Option.none else some [c]
  | c :: d :: rest =>
      if c = 95 then Option.none
      else if d = 95 then
        if isDigit c ∧ (rest.head?.any isDigit) then (dropUnderscores rest).map (c :: ·) else Option.none
      else (dropUnderscores (d :: rest)).map (c :: ·)

/-- The number that `float(text)` reads. -/
def floatText (t : Text) : Option Double :=
  (dropUnderscores (strip t)).bind fun body =>
    let (negative, unsigned) := RationalDecimal.sign body
    if [txt "inf", txt "infinity"].contains (lower unsigned) then some (.infinity negative)
    else if lower unsigned = txt "nan" then some .nan
    else Double.read body

/-- The number that `int(text)` reads, of at most 4300 digits. -/
def intText (t : Text) : Option Int :=
  (dropUnderscores (strip t)).bind fun body =>
    let (negative, digits) := RationalDecimal.sign body
    if digits ≠ [] ∧ digits.all isDigit ∧ digits.length ≤ 4300 then
      some (if negative then -(toNat digits) else toNat digits)
    else Option.none

/-- `float(value)` -/
def toFloat : PyValue → Py Double
  | .bool b => .ok (Double.round (if b then 1 else 0))
  | .int n =>
      let x := Double.round n
      if x.isFinite then .ok x else raise .overflowError (txt "int too large to convert to float")
  | .float x => .ok x
  | .str t => orRaise (floatText t) .valueError (txt "could not convert string to float")
  | .none | .list _ | .dict _ =>
      raise .typeError (txt "float() argument must be a string or a real number")

/-- `int(value)` -/
def toInt : PyValue → Py Int
  | .bool b => .ok (if b then 1 else 0)
  | .int n => .ok n
  | .float .nan => raise .valueError (txt "cannot convert float NaN to integer")
  | .float (.infinity _) => raise .overflowError (txt "cannot convert float infinity to integer")
  | .float x => .ok x.trunc
  | .str t => orRaise (intText t) .valueError (txt "invalid literal for int() with base 10")
  | .none | .list _ | .dict _ =>
      raise .typeError (txt "int() argument must be a string, a bytes-like object or a real number")

@[simp] theorem toFloat_float (x : Double) : toFloat (.float x) = .ok x := rfl

@[simp] theorem toInt_int (n : Int) : toInt (.int n) = .ok n := rfl

end PyValue

/-- `except (TypeError, ValueError)` -/
def PyError.isTypeOrValue (error : PyError) : Bool := error == .typeError || error.isValueError

/-- The value of a call, or nothing when it raises what the caller catches. -/
def attempt {α : Type} (caught : PyError → Bool) (call : Py α) : Py (Option α) :=
  match call with
  | .ok a => .ok (some a)
  | .error e => if caught e.error then .ok none else .error e

@[simp] theorem attempt_ok {α : Type} (caught : PyError → Bool) (a : α) :
    attempt caught (.ok a) = .ok (some a) := rfl

@[simp] theorem attempt_eq_some {α : Type} {caught : PyError → Bool} {call : Py α} {a : α} :
    attempt caught call = .ok (some a) ↔ call = .ok a := by
  cases call with
  | ok b => simp [attempt]
  | error e =>
      simp only [attempt, reduceCtorEq, iff_false]
      split <;> simp

theorem Py.return_none_or {α : Type} {c : Prop} [Decidable c] {rest : Py (Option α)} {a : α} :
    (if c then pure none else rest) = .ok (some a) ↔ ¬c ∧ rest = .ok (some a) := by
  by_cases h : c <;> simp [h]

theorem Py.return_false_or {c : Prop} [Decidable c] {rest : Py Bool} :
    (if c then pure false else rest) = .ok true ↔ ¬c ∧ rest = .ok true := by
  by_cases h : c <;> simp [h]

namespace Text

/-- Upper case of the ASCII letters and of the two other characters whose upper case is one.
    The callers look for ASCII words. -/
def upperUnit (c : Nat) : Nat :=
  if 97 ≤ c ∧ c ≤ 122 then c - 32 else if c = 0x131 then 73 else if c = 0x17F then 83 else c

def upper (t : Text) : Text := t.map upperUnit

/-- Lower case as `str.lower` has it: the Kelvin sign becomes a `k`. -/
def pyLower (t : Text) : Text := t.map fun c => if c = 0x212A then 107 else lowerUnit c

/-- `text.replace("Z", "+00:00")` -/
def spellZone (t : Text) : Text := t.flatMap fun c => if c = 90 then txt "+00:00" else [c]

theorem upper_upper (t : Text) : upper (upper t) = upper t := by
  simp only [upper, List.map_map]
  apply List.map_congr_left
  intro c _
  simp only [Function.comp_apply, upperUnit]
  split_ifs <;> omega

theorem spellZone_eq_self {t : Text} (absent : 90 ∉ t) : spellZone t = t := by
  induction t with
  | nil => rfl
  | cons c t ih =>
      simp only [List.mem_cons, not_or] at absent
      simp only [spellZone] at ih
      simp [spellZone, Ne.symm absent.1, ih absent.2]

end Text

/-- The microseconds between two timestamps, where both can be read and compared. -/
def Text.elapsedMicros (earlier later : Text) : Option Int := do
  let a ← Datetime.fromIsoformat (spellZone earlier)
  let b ← Datetime.fromIsoformat (spellZone later)
  let micros := (Datetime.toMicros b.civil : Int) - Datetime.toMicros a.civil
  match b.offset, a.offset with
  | none, none => some micros
  | some o, some o' => some (micros - o + o')
  | _, _ => none

end Senex
