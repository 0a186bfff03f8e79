import Mathlib.Data.Sum.Order
import Senex.Authority.Cursor
import Senex.Foundation.Digits
import Senex.Gateway.Timestamps

/-! # The order of cursors

The gateway orders its rows by `(ts, id)` as they are stored, the client by what the API shows of them.
-/

namespace Senex.Gateway

open Text JsDate

def apiRow (r : Source) : Source := { r with ts := apiTs r.ts, createdAt := apiTs r.createdAt }

/-- `_row_cursor` of an answered row, whose `id` is a number. -/
def rowCursor (row : Source) : Except Text (Text × Text) :=
  let rowId := if row.id = 0 then [] else ofNat row.id
  if row.ts = [] ∨ rowId = [] then .error (txt "AUTHORITY_HISTORY_CURSOR_FIELD_MISSING")
  else .ok (row.ts, rowId)

/-- `_cursor_order_key`.  A number comes before every other id. -/
def cursorOrderKey : Option (Text × Text) → Text ×ₗ (Int ⊕ₗ Text)
  | none => toLex ([], toLex (.inl (-1)))
  | some (ts, rowId) => toLex (ts, toLex ((readInt rowId).elim (.inr rowId) .inl))

/-- `_cursor_gt` -/
def cursorGt (left : Text × Text) (right : Option (Text × Text)) : Bool :=
  right.isNone || decide (cursorOrderKey right < cursorOrderKey (some left))

/-- `ORDER BY ts ASC, id ASC`, as `(ts > ? OR (ts = ? AND id > ?))` compares rows too. -/
def StoredBefore (a b : Source) : Prop := a.ts < b.ts ∨ a.ts = b.ts ∧ a.id < b.id

/-- A row as the gateway writes it: D1 counts ids from 1 in 64 bits. -/
structure Written (other : Text → Option Int) (r : Source) : Prop where
  positive : 1 ≤ r.id
  bounded : r.id < 2 ^ 63
  normal : ∃ x, utc6 other x = .ok r.ts

theorem rowCursor_apiRow {other : Text → Option Int} {r : Source} (written : Written other r) :
    rowCursor (apiRow r) = .ok (apiTs r.ts, ofNat r.id) := by
  obtain ⟨x, accepted⟩ := written.normal
  obtain ⟨front, fraction, stored⟩ := stored_of_accepted accepted
  have shown : apiTs r.ts ≠ [] := by
    obtain ⟨c, rest, rfl, -⟩ := stored.front.head
    simp [apiTs_stored stored]
  have numbered : r.id ≠ 0 := by
    have := written.positive
    omega
  have digits : ofNat r.id ≠ [] := by
    obtain ⟨c, ds, shape, -⟩ := ofNat_shape r.id
    simp [shape]
  simp [rowCursor, apiRow, shown, numbered, digits]

/-- The key of a row is its timestamp and its number. -/
theorem cursorOrderKey_row {other : Text → Option Int} {r : Source} (written : Written other r) :
    cursorOrderKey (some (apiTs r.ts, ofNat r.id)) = toLex (apiTs r.ts, toLex (.inl (r.id : Int))) := by
  have bounded := written.bounded
  have short := @length_ofNat_le r.id 19 (by decide) (by omega)
  rw [cursorOrderKey, readInt_ofNat (by omega)]
  rfl

theorem cursorGt_iff {other : Text → Option Int} {r r' : Source} (written : Written other r)
    (written' : Written other r') :
    cursorGt (apiTs r'.ts, ofNat r'.id) (some (apiTs r.ts, ofNat r.id)) = true ↔ StoredBefore r r' := by
  obtain ⟨x, accepted⟩ := written.normal
  obtain ⟨y, accepted'⟩ := written'.normal
  have numbers : toLex (Sum.inl (r.id : Int) : Int ⊕ Text) < toLex (.inl (r'.id : Int)) ↔ r.id < r'.id := by
    rw [Sum.Lex.inl_lt_inl_iff]
    exact Int.ofNat_lt
  simp only [cursorGt, Option.isNone_some, Bool.false_or, decide_eq_true_eq]
  rw [cursorOrderKey_row written, cursorOrderKey_row written', Prod.Lex.toLex_lt_toLex, numbers]
  simp only [StoredBefore, apiTs_lt_iff accepted accepted', apiTs_inj accepted accepted']

/-- Stored timestamps are normal forms and stand in the order of their instants, as far as `utc6` keeps
    these; the API keeps that order, and with it the order of rows. -/
theorem timestamps_ordered (other : Text → Option Int) :
    (∀ x a, utc6 other x = .ok a → utc6 other a = .ok a) ∧
    (∀ x y a b i j, utc6 other x = .ok a → utc6 other y = .ok b → Named x → Named y →
      instant other x = some i → instant other y = some j → FourDigits i → FourDigits j →
        (a < b ↔ kept x i < kept y j) ∧ (a = b ↔ kept x i = kept y j)) ∧
    (∀ x y a b, utc6 other x = .ok a → utc6 other y = .ok b →
      (apiTs a = apiTs b ↔ a = b) ∧ (apiTs a < apiTs b ↔ a < b)) ∧
    ∀ r r', Written other r → Written other r' → ∃ c c', rowCursor (apiRow r) = .ok c ∧
      rowCursor (apiRow r') = .ok c' ∧ (cursorGt c' (some c) = true ↔ StoredBefore r r') := by
  refine ⟨fun x a accepted => utc6_idem accepted, ?_, ?_, ?_⟩
  · intro x y a b i j accepted accepted' named named' read read' years years'
    exact utc6_lt_iff accepted accepted' named named' read read' years years'
  · intro x y a b accepted accepted'
    exact ⟨apiTs_inj accepted accepted', apiTs_lt_iff accepted accepted'⟩
  · intro r r' written written'
    exact ⟨_, _, rowCursor_apiRow written, rowCursor_apiRow written', cursorGt_iff written written'⟩

/-- The texts that are stored for two timestamps stand as their instants do, to the microsecond. -/
def Coincide (other : Text → Option Int) (x y : Text) : Prop :=
  ∀ a b i j, utc6 other x = .ok a → utc6 other y = .ok b → instant other x = some i →
    instant other y = some j → (a < b ↔ i < j) ∧ (a = b ↔ i = j)

/-- `Date` counts no microseconds, puts a sign before a year of six digits and knows a 24th hour. -/
theorem not_coincide : ¬ Coincide (fun _ => none) (txt "2026-01-01T00:00:00Z") (txt "2026-01-01T02:00:00.0001+02:00") ∧
    ¬ Coincide (fun _ => none) (txt "2026-01-01T00:00:00Z") (txt "+010000-01-01T00:00:00Z") ∧
    ¬ Coincide (fun _ => none) (txt "2026-01-01T24:00:00Z") (txt "2026-01-02T00:00:00Z") := by
  have new : utc6 (fun _ => none) (txt "2026-01-01T00:00:00Z") = .ok (txt "2026-01-01T00:00:00.000000Z") := rfl
  have start : instant (fun _ => none) (txt "2026-01-01T00:00:00Z") = some 1767225600000000 := by decide +kernel
  refine ⟨fun same => ?_, fun same => ?_, fun same => ?_⟩
  · have cut : utc6 (fun _ => none) (txt "2026-01-01T02:00:00.0001+02:00") =
        .ok (txt "2026-01-01T00:00:00.000000Z") := by decide +kernel
    have later : instant (fun _ => none) (txt "2026-01-01T02:00:00.0001+02:00") = some 1767225600000100 := by
      decide +kernel
    exact absurd ((same _ _ _ _ new cut start later).2.mp rfl) (by decide)
  · have sign : utc6 (fun _ => none) (txt "+010000-01-01T00:00:00Z") =
        .ok (txt "+010000-01-01T00:00:00.000000Z") := by decide +kernel
    have later : instant (fun _ => none) (txt "+010000-01-01T00:00:00Z") = some 253402300800000000 := by
      decide +kernel
    exact absurd ((same _ _ _ _ new sign start later).1.mpr (by decide)) (by decide)
  · have hour : utc6 (fun _ => none) (txt "2026-01-01T24:00:00Z") = .ok (txt "2026-01-01T24:00:00.000000Z") := rfl
    have day : utc6 (fun _ => none) (txt "2026-01-02T00:00:00Z") = .ok (txt "2026-01-02T00:00:00.000000Z") := rfl
    have first : instant (fun _ => none) (txt "2026-01-01T24:00:00Z") = some 1767312000000000 := by decide +kernel
    have second : instant (fun _ => none) (txt "2026-01-02T00:00:00Z") = some 1767312000000000 := by decide +kernel
    exact absurd ((same _ _ _ _ hour day first second).2.mpr rfl) (by decide)

end Senex.Gateway
