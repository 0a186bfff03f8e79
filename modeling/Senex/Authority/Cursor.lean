import Mathlib.Data.Prod.Lex
import Mathlib.Order.Lattice
import Senex.Foundation.Text

/-! # Cursors

The `(ts, id)` pairs by which the authority reader finds its place in D1.
-/

namespace Senex.Authority

open Text

/-- A `(ts, id)` pair.  D1 allocates integer ids, so the id text of a row is kept as its number. -/
structure Cursor where
  ts : Text
  id : Nat
  deriving DecidableEq

/-- `_cursor_order_key` -/
def Cursor.orderKey (c : Cursor) : Text ×ₗ Nat := toLex (c.ts, c.id)

theorem Cursor.orderKey_injective : Function.Injective Cursor.orderKey := by
  rintro ⟨ts, id⟩ ⟨ts', id'⟩ same
  obtain ⟨rfl, rfl⟩ := Prod.mk.inj (toLex.injective same)
  rfl

instance : LinearOrder Cursor := LinearOrder.lift' Cursor.orderKey Cursor.orderKey_injective

theorem Cursor.lt_iff (a b : Cursor) : a < b ↔ a.ts < b.ts ∨ a.ts = b.ts ∧ a.id < b.id :=
  Prod.Lex.toLex_lt_toLex

/-- `_cursor_gt` -/
def cursorGt (left : Cursor) : Option Cursor → Bool
  | none => true
  | some right => decide (right < left)

/-- `_row_cursor` -/
def rowCursor (row : Cursor) : Except Text Cursor :=
  if row.ts = [] ∨ row.id = 0 then .error (txt "AUTHORITY_HISTORY_CURSOR_FIELD_MISSING") else .ok row

end Senex.Authority
