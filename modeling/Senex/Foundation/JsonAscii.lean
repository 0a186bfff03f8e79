import Senex.Foundation.JsonText
import Senex.Foundation.Utf8

/-! # ASCII JSON strings

`json.dumps` escapes what is not ASCII unless it is told otherwise: a character beyond the first plane as
the two halves of a surrogate pair.  A text of Unicode characters is read back from its escapes.
-/

namespace Senex

open Text

/-- The escapes of `json.dumps` with `ensure_ascii`. -/
def Json.asciiUnit (c : Nat) : Text :=
  if c < 127 then escapeUnit c
  else if c < 65536 then unicodeEscape c
  else unicodeEscape (55296 + (c - 65536) / 1024) ++ unicodeEscape (56320 + (c - 65536) % 1024)

def Json.asciiQuote (s : Text) : Text := s.flatMap asciiUnit

/-- No surrogate stands in the text. -/
def IsUnicode (t : Text) : Prop := ∀ c ∈ t, isSurrogate c = false ∧ c < 0x110000

instance (t : Text) : Decidable (IsUnicode t) := List.decidableBAll _ _

theorem isUnicode_of_encode {t : Text} {bytes : Bytes} (coded : Utf8.encode t = some bytes) : IsUnicode t := by
  induction t generalizing bytes with
  | nil => simp [IsUnicode]
  | cons c rest ih =>
      simp only [Utf8.encode, Option.bind_eq_bind, Option.bind_eq_some_iff] at coded
      obtain ⟨head, unit, tail, others, -⟩ := coded
      intro d member
      rcases List.mem_cons.mp member with rfl | inside
      · unfold Utf8.encodeUnit isSurrogate at unit
        unfold isSurrogate
        split_ifs at unit <;> simp_all <;> omega
      · exact ih others d inside

namespace Json

/-! ## Strings -/

/-- What the scanner makes of the escapes of a character. -/
private def asciiUnits (c : Nat) : List (Nat × Bool) :=
  if c < 127 then [(c, isControlEscape c)]
  else if c < 65536 then [(c, true)]
  else [(55296 + (c - 65536) / 1024, true), (56320 + (c - 65536) % 1024, true)]

private theorem scanUnits_asciiUnit {c : Nat} (small : c < 0x110000) (rest : Text) :
    scanUnits (asciiUnit c ++ rest) = (scanUnits rest).map fun p => (asciiUnits c ++ p.1, p.2) := by
  unfold asciiUnit asciiUnits
  split_ifs with plain unit
  · exact scanUnits_escapeUnit c rest
  · exact scanUnits_unicodeEscape unit rest
  · rw [List.append_assoc, scanUnits_unicodeEscape (by omega), scanUnits_unicodeEscape (by omega), Option.map_map]
    rfl

private theorem scanUnits_asciiQuote {s : Text} (unicode : IsUnicode s) (rest : Text) :
    scanUnits (asciiQuote s ++ 34 :: rest) = some (s.flatMap asciiUnits, rest) := by
  induction s with
  | nil => exact scanUnits_quote rest
  | cons c s ih =>
      have later := ih fun d inside => unicode d (.tail _ inside)
      rw [asciiQuote] at later ⊢
      rw [List.flatMap_cons, List.append_assoc, scanUnits_asciiUnit (unicode c (.head _)).2, later]
      rfl

private theorem joinEscaped_cons {c : Nat} (low : isHighSurrogate c = false) (escaped : Bool)
    (units : List (Nat × Bool)) : joinEscaped ((c, escaped) :: units) = c :: joinEscaped units := by
  cases units with
  | nil => rfl
  | cons u units => simp [joinEscaped, low]

private theorem joinEscaped_asciiUnits {s : Text} (unicode : IsUnicode s) : joinEscaped (s.flatMap asciiUnits) = s := by
  induction s with
  | nil => rfl
  | cons c s ih =>
      have later := ih fun d inside => unicode d (.tail _ inside)
      obtain ⟨noSurrogate, small⟩ := unicode c (.head _)
      have notHigh : isHighSurrogate c = false := by
        simp only [isSurrogate, isHighSurrogate, Bool.and_eq_false_iff, decide_eq_false_iff_not] at noSurrogate ⊢
        omega
      rw [List.flatMap_cons, asciiUnits]
      split_ifs with plain unit
      · rw [List.singleton_append, joinEscaped_cons notHigh, later]
      · rw [List.singleton_append, joinEscaped_cons notHigh, later]
      · have high : isHighSurrogate (55296 + (c - 65536) / 1024) = true := by
          simp only [isHighSurrogate, Bool.and_eq_true, decide_eq_true_eq]
          omega
        have low : isLowSurrogate (56320 + (c - 65536) % 1024) = true := by
          simp only [isLowSurrogate, Bool.and_eq_true, decide_eq_true_eq]
          omega
        have whole : 0x10000 + (55296 + (c - 65536) / 1024 - 0xD800) * 0x400 +
            (56320 + (c - 65536) % 1024 - 0xDC00) = c := by
          omega
        simp only [List.cons_append, List.nil_append, joinEscaped, high, low, Bool.and_self, if_true, whole]
        exact congrArg _ later

/-- A text of Unicode characters is read back. -/
theorem scanString_asciiQuote {s : Text} (unicode : IsUnicode s) (rest : Text) :
    scanString true (asciiQuote s ++ 34 :: rest) = some (s, rest) := by
  rw [scanString, scanUnits_asciiQuote unicode, Option.map_some, if_pos rfl, joinEscaped_asciiUnits unicode]

/-- The escapes have no control character. -/
theorem solid_asciiQuote (s : Text) : ∀ c ∈ asciiQuote s, 32 ≤ c := by
  intro c member
  obtain ⟨d, -, inside⟩ := List.mem_flatMap.mp member
  unfold asciiUnit at inside
  split_ifs at inside
  · exact solid_escapeUnit d c inside
  · exact solid_unicodeEscape d c inside
  · rcases List.mem_append.mp inside with first | second
    · exact solid_unicodeEscape _ c first
    · exact solid_unicodeEscape _ c second

end Json

end Senex
