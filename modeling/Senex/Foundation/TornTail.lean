import Senex.Foundation.DoubleText
import Senex.Foundation.JsonLine
import Senex.Foundation.Sha256

/-! # Torn tails

Both append-only stores mark a torn last line alike: behind it stands an object with the line's
number, length and SHA-256.  `TornTail.format` is their common way to read a file, under the key
of each store.
-/

namespace Senex

open Text

namespace Json

/-! ## Python's `==` -/

/-- The number a spelling stands for; on the right is an infinity with its sign. -/
def numeric (raw : Text) : ℚ ⊕ Bool :=
  if raw.any fun c => c == 46 || c == 101 || c == 69 then
    match Double.read raw with
    | some (.infinity negative) => .inr negative
    | some x => .inl x.value
    | none => .inl 0
  else
    let (negative, digits) := RationalDecimal.sign raw
    .inl (if negative then -(toNat digits) else toNat digits)

/-- The number that a number or a boolean is. -/
def numeric? : Json → Option (ℚ ⊕ Bool)
  | .bool b => some (.inl (if b then 1 else 0))
  | .num raw => some (numeric raw)
  | _ => none

mutual
/-- `a == b` of two decoded documents. -/
def pyEq : Json → Json → Bool
  | .null, .null => true
  | .str s, .str t => s == t
  | .arr xs, .arr ys => pyEqItems xs ys
  | .obj xs, .obj ys => pyEqMembers xs ys
  | .bool b, other => decide (numeric? (.bool b) = numeric? other)
  | .num raw, other => decide (numeric? (.num raw) = numeric? other)
  | _, _ => false

def pyEqItems : List Json → List Json → Bool
  | [], [] => true
  | x :: xs, y :: ys => pyEq x y && pyEqItems xs ys
  | _, _ => false

def pyEqMembers : List (Text × Json) → List (Text × Json) → Bool
  | [], [] => true
  | (k, x) :: xs, (l, y) :: ys => k == l && pyEq x y && pyEqMembers xs ys
  | _, _ => false
end

mutual
theorem pyEq_refl (j : Json) : pyEq j j = true := by
  cases j with
  | null => rfl
  | bool b => simp [pyEq]
  | num raw => simp [pyEq]
  | str s => simp [pyEq]
  | arr items => simp only [pyEq, pyEqItems_refl items]
  | obj members => simp only [pyEq, pyEqMembers_refl members]

theorem pyEqItems_refl (items : List Json) : pyEqItems items items = true := by
  cases items with
  | nil => rfl
  | cons item items => simp only [pyEqItems, pyEq_refl item, pyEqItems_refl items, Bool.and_self]

theorem pyEqMembers_refl (members : List (Text × Json)) : pyEqMembers members members = true := by
  cases members with
  | nil => rfl
  | cons m members =>
      obtain ⟨key, value⟩ := m
      simp only [pyEqMembers, pyEq_refl value, pyEqMembers_refl members, beq_self_eq_true, Bool.and_self]
end

/-- `bool(value)` -/
def truthy : Json → Bool
  | .null => false
  | .bool b => b
  | .num raw => numeric raw != .inl 0
  | .str s => !s.isEmpty
  | .arr items => !items.isEmpty
  | .obj members => !members.isEmpty

/-- `value.get(key)` of a `dict`. -/
def get (key : Text) (value : Json) : Json := (value.get? key).getD .null

end Json

namespace TornTail

/-- `_recovery_marker` under the key of a store. -/
def recoveryMarker (key : Text) (raw : Bytes) (lineNo : Nat) : Json :=
  .ofMembers [(key, .ofMembers [
    (txt "kind", .str (txt "TORN_TAIL")),
    (txt "line_no", .ofNat lineNo),
    (txt "sha256", .str (Sha256.hexdigest raw)),
    (txt "bytes", .ofNat raw.length)])]

/-- `_marker_matches` under the key of a store. -/
def markerMatches (key : Text) (value : Json) (raw : Bytes) (lineNo : Nat) : Bool :=
  value.isObject &&
    let marker := value.get key
    marker.isObject &&
      (marker.get (txt "kind")).pyEq (.str (txt "TORN_TAIL")) &&
      (marker.get (txt "line_no")).pyEq (.ofNat lineNo) &&
      (marker.get (txt "sha256")).pyEq (.str (Sha256.hexdigest raw)) &&
      (marker.get (txt "bytes")).pyEq (.ofNat raw.length)

/-- A file of JSON lines whose torn lines are marked under the key. -/
def format (key : Text) (corrupt : Nat → Raised) : LogFormat Json.Document where
  parse := Json.parseLine
  marker raw lineNo := ((recoveryMarker key raw lineNo).bytes).getD []
  isMarkerOf value := markerMatches key value.1
  corrupt := corrupt

theorem markerMatches_recoveryMarker (key : Text) (raw : Bytes) (lineNo : Nat) :
    markerMatches key (recoveryMarker key raw lineNo) raw lineNo = true := by
  simp [markerMatches, recoveryMarker, Json.get, Json.get?_ofMembers, Json.lookup, Json.pyEq_refl]
  exact ⟨rfl, rfl⟩

theorem wellFormed_recoveryMarker (key : Text) (raw : Bytes) (lineNo : Nat) :
    (recoveryMarker key raw lineNo).WellFormed := by
  apply Json.wellFormed_ofMembers
  intro m hm
  rw [List.mem_singleton.mp hm]
  apply Json.wellFormed_ofMembers
  intro m hm
  simp only [List.mem_cons, List.not_mem_nil, or_false] at hm
  rcases hm with rfl | rfl | rfl | rfl <;> simp

theorem ascii_pyQuote {s : Text} (ascii : ∀ c ∈ s, c < 0x80) : ∀ c ∈ Json.pyQuote s, c < 0x80 := by
  intro c hc
  obtain ⟨d, hd, escaped⟩ := List.mem_flatMap.mp hc
  have small := ascii d hd
  have hex (n : Nat) : Json.hexDigit (n % 16) < 0x80 := by
    unfold Json.hexDigit
    split <;> omega
  unfold Json.escapeUnit Json.unicodeEscape at escaped
  split_ifs at escaped <;> simp only [List.mem_cons, List.not_mem_nil, or_false] at escaped
  all_goals grind

private theorem ascii_ofNat (n : Nat) : ∀ c ∈ Text.ofNat n, c < 0x80 := by
  intro c hc
  have digit := isDigit_of_mem_ofNat hc
  simp only [isDigit, Bool.and_eq_true, decide_eq_true_eq] at digit
  omega

theorem ascii_hexdigest (raw : Bytes) : ∀ c ∈ Sha256.hexdigest raw, c < 0x80 := by
  have hex := Sha256.isHex64_hexdigest raw
  simp only [Sha256.isHex64, Bool.and_eq_true, List.all_eq_true] at hex
  intro c hc
  have lower := hex.2 c hc
  simp only [Sha256.isLowerHex, isDigit, Bool.or_eq_true, Bool.and_eq_true, decide_eq_true_eq] at lower
  omega

private theorem ascii_recoveryMarker {key : Text} (ascii : ∀ c ∈ key, c < 0x80) (raw : Bytes)
    (lineNo : Nat) : ∀ c ∈ Json.render Json.pyQuote (recoveryMarker key raw lineNo), c < 0x80 := by
  have inner : Json.ofMembers [(txt "kind", .str (txt "TORN_TAIL")), (txt "line_no", .ofNat lineNo),
      (txt "sha256", .str (Sha256.hexdigest raw)), (txt "bytes", .ofNat raw.length)] =
      .obj [(txt "bytes", .ofNat raw.length), (txt "kind", .str (txt "TORN_TAIL")),
        (txt "line_no", .ofNat lineNo), (txt "sha256", .str (Sha256.hexdigest raw))] := rfl
  have word (s : String) (plain : ∀ c ∈ txt s, c < 0x80) : ∀ c ∈ Json.pyQuote (txt s), c < 0x80 :=
    ascii_pyQuote plain
  rw [recoveryMarker, inner]
  intro c hc
  by_contra large
  have outer : c ∉ Json.pyQuote key := fun h => large (ascii_pyQuote ascii c h)
  have bytes : c ∉ Json.pyQuote (txt "bytes") := fun h => large (word "bytes" (by decide) c h)
  have kind : c ∉ Json.pyQuote (txt "kind") := fun h => large (word "kind" (by decide) c h)
  have torn : c ∉ Json.pyQuote (txt "TORN_TAIL") := fun h => large (word "TORN_TAIL" (by decide) c h)
  have line : c ∉ Json.pyQuote (txt "line_no") := fun h => large (word "line_no" (by decide) c h)
  have sha : c ∉ Json.pyQuote (txt "sha256") := fun h => large (word "sha256" (by decide) c h)
  have number (n : Nat) : c ∉ Text.ofNat n := fun h => large (ascii_ofNat n c h)
  have digest : c ∉ Json.pyQuote (Sha256.hexdigest raw) :=
    fun h => large (ascii_pyQuote (ascii_hexdigest raw) c h)
  simp only [Json.ofMembers, List.foldl_cons, List.foldl_nil, Json.insert, Json.render,
    Json.renderMembers, Json.ofNat, List.mem_append, List.mem_cons, List.not_mem_nil, or_false, outer,
    bytes, kind, torn, line, sha, number, digest, or_false, false_or] at hc
  omega

/-- The text of a marker under an ASCII key has an encoding. -/
theorem bytes_recoveryMarker {key : Text} (ascii : ∀ c ∈ key, c < 0x80) (raw : Bytes) (lineNo : Nat) :
    (recoveryMarker key raw lineNo).bytes =
      some (Json.render Json.pyQuote (recoveryMarker key raw lineNo)) :=
  Utf8.encode_ascii (ascii_recoveryMarker ascii raw lineNo)

theorem lawful_format {key : Text} (ascii : ∀ c ∈ key, c < 0x80) (corrupt : Nat → Raised) :
    (format key corrupt).Lawful where
  solid := by
    intro raw lineNo
    have coded := bytes_recoveryMarker ascii raw lineNo
    simp only [format, coded, Option.getD_some]
    exact @Json.solid_bytes ⟨_, wellFormed_recoveryMarker key raw lineNo⟩ _ coded
  read := by
    intro raw lineNo
    have coded := bytes_recoveryMarker ascii raw lineNo
    simp only [format, coded, Option.getD_some,
      @Json.parseLine_bytes ⟨_, wellFormed_recoveryMarker key raw lineNo⟩ _ coded, Option.any_some]
    exact markerMatches_recoveryMarker key raw lineNo

/-- A document with the line it is written as. -/
def entry (d : Json.Document) (line : Bytes) : Entry Json.Document := ⟨line, d⟩

theorem sound_entry {key : Text} {corrupt : Nat → Raised} {d : Json.Document} {line : Bytes}
    (object : d.1.isObject = true) (coded : d.1.bytes = some line) :
    (entry d line).Sound (format key corrupt) where
  solid := Json.solid_bytes coded
  filled := by
    obtain ⟨tail, rfl⟩ := Json.head_bytes object coded
    rfl
  read := Json.parseLine_bytes coded
  cut := fun _ cut nonempty proper => Json.torn_line object coded cut nonempty proper

end TornTail

end Senex
