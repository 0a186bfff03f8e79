import Senex.Foundation.Decimal
import Senex.Foundation.JsonText
import Senex.Foundation.Sha256

/-! # Input contracts of the paper engine

`contracts.py`, with the wrappers that `execution_resilience.py` and
`paper_execution_contract.py` put around it, and their canonical JSON digest.
-/

namespace Senex.Paper

open Text

/-- The `positive` and `non_negative` flags of `as_decimal`; no caller sets both. -/
inductive Bound where
  | any
  | positive
  | nonNegative
  deriving DecidableEq

section
variable {D : Type} [Decimal D]

def Bound.admits : Bound → D → Bool
  | .any, _ => true
  | .positive, d => !Decimal.le d Decimal.zero
  | .nonNegative, d => !Decimal.lt d Decimal.zero

def Bound.message : Bound → Text
  | .any => []
  | .positive => txt " must be positive"
  | .nonNegative => txt " must be non-negative"

def asDecimal (value : PyArg) (fieldName : Text) (bound : Bound) : Py D :=
  match value with
  | .bool _ => raise .replayContractError (fieldName ++ txt " must be numeric, not boolean")
  | value =>
      match Decimal.parse value.text with
      | .invalid => raise .replayContractError (fieldName ++ txt " must be a finite decimal")
      | .nonFinite => raise .replayContractError (fieldName ++ txt " must be finite")
      | .finite d =>
          if bound.admits d then .ok d else raise .replayContractError (fieldName ++ bound.message)

/-- `_decimal` of the paper contract. -/
def decimal (value : PyArg) (name : Text) (bound : Bound) : Py D :=
  rewrap (fun e => e.isValueError || e == .typeError) .contractError id (asDecimal value name bound)

/-- `_dec` of the resilience module. -/
def dec (value : PyArg) (field : Text) (bound : Bound) : Py D :=
  rewrap (fun e => e.isValueError || e == .typeError) .resilienceError id (asDecimal value field bound)

theorem asDecimal_admits {value : PyArg} {name : Text} {bound : Bound} {d : D}
    (read : asDecimal value name bound = .ok d) : bound.admits d = true := by
  unfold asDecimal at read
  split at read
  · simp at read
  · split at read
    · simp at read
    · simp at read
    · split at read
      · cases read
        assumption
      · simp at read

/-- A decimal within its bound passes through its own text unchanged. -/
theorem asDecimal_str {d : D} {bound : Bound} (admitted : bound.admits d = true) (name : Text) :
    asDecimal (.str (Decimal.str d)) name bound = .ok d := by
  simp [asDecimal, PyArg.text, Decimal.parse_str, admitted]

theorem asDecimal_object {d : D} {bound : Bound} (admitted : bound.admits d = true) (name : Text) :
    asDecimal (.other (Decimal.str d)) name bound = .ok d := by
  simp [asDecimal, PyArg.text, Decimal.parse_str, admitted]

theorem decimal_admits {value : PyArg} {name : Text} {bound : Bound} {d : D}
    (read : decimal value name bound = .ok d) : bound.admits d = true :=
  asDecimal_admits (rewrap_eq_ok.mp read)

theorem dec_admits {value : PyArg} {name : Text} {bound : Bound} {d : D}
    (read : dec value name bound = .ok d) : bound.admits d = true :=
  asDecimal_admits (rewrap_eq_ok.mp read)

theorem decimal_str {d : D} {bound : Bound} (admitted : bound.admits d = true) (name : Text) :
    decimal (.str (Decimal.str d)) name bound = .ok d := by
  rw [decimal, asDecimal_str admitted, rewrap_ok]

theorem dec_str {d : D} {bound : Bound} (admitted : bound.admits d = true) (name : Text) :
    dec (.str (Decimal.str d)) name bound = .ok d := by
  rw [dec, asDecimal_str admitted, rewrap_ok]

theorem dec_object {d : D} {bound : Bound} (admitted : bound.admits d = true) (name : Text) :
    dec (.other (Decimal.str d)) name bound = .ok d := by
  rw [dec, asDecimal_object admitted, rewrap_ok]

end

/-! ## Timestamps -/

def parseTimestamp : PyArg → Py Datetime
  | .datetime d => .ok d
  | .str value =>
      let text := strip value
      if text = [] then
        raise .replayContractError (txt "timestamp must be a non-empty ISO-8601 datetime")
      else
        -- a trailing `Z` is spelled out for `fromisoformat`
        let text := if text.getLast? = some 90 then text.dropLast ++ txt "+00:00" else text
        match Datetime.fromIsoformat text with
        | none => raise .replayContractError (txt "timestamp must be an ISO-8601 datetime")
        | some d => .ok d
  | _ => raise .replayContractError (txt "timestamp must be a non-empty ISO-8601 datetime")

def normalizeTimestamp (value : PyArg) : Py Text := do
  let parsed ← parseTimestamp value
  match parsed.offset with
  | none => raise .replayContractError (txt "timestamp must include a timezone")
  | some offset =>
      match Datetime.toUtc parsed.civil offset with
      | none => raise .overflowError (txt "date value out of range")
      | some c => .ok (Datetime.canonical c)

private theorem head_canonical (c : Civil) : ∃ d rest, Datetime.canonical c = d :: rest ∧ isDigit d = true := by
  obtain ⟨a, as, shape⟩ : ∃ a as, padded 4 c.year = a :: as := ⟨_, _, rfl⟩
  exact ⟨a, _, by rw [Datetime.canonical, Datetime.isoDate, shape]; rfl,
    @isDigit_of_mem_padded 4 c.year _ (by simp [shape])⟩

theorem normalizeTimestamp_canonical (c : Civil) :
    normalizeTimestamp (.str (Datetime.canonical c)) = .ok (Datetime.canonical c) := by
  obtain ⟨d, rest, headed, digit⟩ := head_canonical c
  have whole : Datetime.canonical c =
      (Datetime.isoDate c ++ 84 :: Datetime.isoClock c) ++ [90] := by simp [Datetime.canonical]
  have stripped : strip (Datetime.canonical c) = Datetime.canonical c := by
    apply stripBy_eq_self
    · intro x hx
      rw [headed] at hx
      cases hx
      simp only [isDigit, Bool.and_eq_true, decide_eq_true_eq] at digit
      simp [isPySpace]
      omega
    · intro x hx
      rw [whole, List.getLast?_append] at hx
      cases hx
      decide
  have nonempty : Datetime.canonical c ≠ [] := by simp [headed]
  have zulu : (Datetime.canonical c).getLast? = some 90 := by
    rw [whole, List.getLast?_append]
    rfl
  have body : (Datetime.canonical c).dropLast ++ txt "+00:00" =
      Datetime.isoDate c ++ 84 :: (Datetime.isoClock c ++ txt "+00:00") := by
    rw [whole, List.dropLast_concat]
    simp
  simp only [normalizeTimestamp, parseTimestamp, stripped, nonempty, if_false, zulu, if_true, body,
    Datetime.fromIsoformat_canonical, Py.ok_bind, Datetime.toUtc]

/-- A normalized timestamp is canonical, and normalizing it again changes nothing. -/
theorem normalizeTimestamp_idem {value : PyArg} {t : Text}
    (normalized : normalizeTimestamp value = .ok t) : normalizeTimestamp (.str t) = .ok t := by
  simp only [normalizeTimestamp, Py.bind_eq_ok] at normalized
  obtain ⟨parsed, -, rest⟩ := normalized
  split at rest
  · simp at rest
  · split at rest
    · simp at rest
    · cases rest
      exact normalizeTimestamp_canonical _

/-! ## Texts and digests -/

/-- `_nonempty`: the stripped text. -/
def nonempty (value : PyArg) (name : Text) : Py Text :=
  match value with
  | .str t =>
      if strip t = [] then raise .contractError (name ++ txt " must be a non-empty string")
      else .ok (strip t)
  | _ => raise .contractError (name ++ txt " must be a non-empty string")

@[simp] theorem nonempty_str {t u name : Text} :
    nonempty (.str t) name = .ok u ↔ strip t ≠ [] ∧ strip t = u := by
  simp only [nonempty]
  split
  · rename_i blank
    simp [blank]
  · rename_i filled
    simp [filled]

theorem nonempty_idem {value : PyArg} {name : Text} {t : Text} (read : nonempty value name = .ok t)
    (other : Text) : nonempty (.str t) other = .ok t := by
  unfold nonempty at read
  split at read
  · split at read
    · simp at read
    · rename_i s filled
      cases read
      simp [nonempty, strip_strip, filled]
  · simp at read

theorem strip_of_nonempty {value : PyArg} {name : Text} {t : Text}
    (read : nonempty value name = .ok t) : strip t = t ∧ t ≠ [] := by
  have again := nonempty_idem read name
  simp only [nonempty] at again
  split at again
  · simp at again
  · rename_i filled
    simp only [Except.ok.injEq] at again
    exact ⟨again, again ▸ filled⟩

/-- `json.dumps(value, sort_keys=True, separators=(",", ":"), ensure_ascii=False)`. -/
def canonicalJson (value : Json) : Text := Json.render Json.pyQuote value

def encodeUtf8 (t : Text) : Py Bytes :=
  match Utf8.encode t with
  | some bytes => .ok bytes
  | none => raise .unicodeEncodeError (txt "surrogates not allowed")

/-- `_sha` and `_digest_payload`. -/
def digest (value : Json) : Py Text := do
  let bytes ← encodeUtf8 (canonicalJson value)
  return Sha256.hexdigest bytes

/-- An argument as `str()` of a decoded JSON value; no container's text is a valid argument. -/
def jsonArg : Json → PyArg
  | .null => .other (txt "None")
  | .bool b => .bool b
  | .num raw => .other raw
  | .str s => .str s
  | .arr _ => .other (txt "[...]")
  | .obj _ => .other (txt "{...}")

end Senex.Paper
