import Senex.Foundation.Text

/-! # UTF-8 and lines of a file

Strict UTF-8 as Python's `str.encode` and `bytes.decode` have it: a lone
surrogate has no encoding, and overlong, surrogate or truncated byte sequences
have no decoding.  `splitlines` is the one of `bytes`.
-/

namespace Senex

/-- The bytes of a file, each below 256. -/
abbrev Bytes := List Nat

namespace Utf8

open Text

def encodeUnit (c : Nat) : Option Bytes :=
  if c < 0x80 then some [c]
  else if c < 0x800 then some [0xC0 + c / 64, 0x80 + c % 64]
  else if isSurrogate c then none
  else if c < 0x10000 then some [0xE0 + c / 4096, 0x80 + c / 64 % 64, 0x80 + c % 64]
  else if c < 0x110000 then
    some [0xF0 + c / 262144, 0x80 + c / 4096 % 64, 0x80 + c / 64 % 64, 0x80 + c % 64]
  else none

/-- `text.encode("utf-8")`; `none` is the `UnicodeEncodeError`. -/
def encode : Text → Option Bytes
  | [] => some []
  | c :: rest => do
      let bytes ← encodeUnit c
      let tail ← encode rest
      return bytes ++ tail

def isContinuation (b : Nat) : Bool := decide (0x80 ≤ b) && decide (b ≤ 0xBF)

/-- `data.decode("utf-8")`; `none` is the `UnicodeDecodeError`. -/
def decode : Bytes → Option Text
  | [] => some []
  | b :: rest =>
      if b < 0x80 then (decode rest).map (b :: ·)
      else if b < 0xC2 then none
      else if b < 0xE0 then
        match rest with
        | b₁ :: rest =>
            if isContinuation b₁ then
              (decode rest).map (((b - 0xC0) * 64 + (b₁ - 0x80)) :: ·)
            else none
        | _ => none
      else if b < 0xF0 then
        match rest with
        | b₁ :: b₂ :: rest =>
            let c := (b - 0xE0) * 4096 + (b₁ - 0x80) * 64 + (b₂ - 0x80)
            if isContinuation b₁ && isContinuation b₂ && decide (0x800 ≤ c) && !isSurrogate c then
              (decode rest).map (c :: ·)
            else none
        | _ => none
      else
        match rest with
        | b₁ :: b₂ :: b₃ :: rest =>
            let c := (b - 0xF0) * 262144 + (b₁ - 0x80) * 4096 + (b₂ - 0x80) * 64 + (b₃ - 0x80)
            if isContinuation b₁ && isContinuation b₂ && isContinuation b₃ &&
                decide (0x10000 ≤ c) && decide (c < 0x110000) then
              (decode rest).map (c :: ·)
            else none
        | _ => none

theorem decode_encodeUnit {c : Nat} {bytes : Bytes} (coded : encodeUnit c = some bytes)
    (rest : Bytes) : decode (bytes ++ rest) = (decode rest).map (c :: ·) := by
  unfold encodeUnit at coded
  split at coded
  · cases coded
    rename_i ascii
    rw [List.singleton_append, decode.eq_def]
    simp only [ascii, if_true]
  split at coded
  · cases coded
    have lead : ¬ (0xC0 + c / 64 < 0x80) ∧ ¬ (0xC0 + c / 64 < 0xC2) ∧ 0xC0 + c / 64 < 0xE0 := by omega
    have cont : isContinuation (0x80 + c % 64) = true := by simp [isContinuation]; omega
    have back : (0xC0 + c / 64 - 0xC0) * 64 + (0x80 + c % 64 - 0x80) = c := by omega
    simp only [List.cons_append, List.nil_append, decode, lead, cont, back, if_true, if_false]
  split at coded
  · cases coded
  split at coded
  · cases coded
    rename_i plain small
    have lead : ¬ (0xE0 + c / 4096 < 0x80) ∧ ¬ (0xE0 + c / 4096 < 0xC2) ∧
        ¬ (0xE0 + c / 4096 < 0xE0) ∧ 0xE0 + c / 4096 < 0xF0 := by omega
    have cont₁ : isContinuation (0x80 + c / 64 % 64) = true := by simp [isContinuation]; omega
    have cont₂ : isContinuation (0x80 + c % 64) = true := by simp [isContinuation]; omega
    have back : (0xE0 + c / 4096 - 0xE0) * 4096 + (0x80 + c / 64 % 64 - 0x80) * 64 +
        (0x80 + c % 64 - 0x80) = c := by omega
    have wide : decide (0x800 ≤ c) = true := by simp; omega
    have bare : (!isSurrogate c) = true := by simpa using plain
    simp only [List.cons_append, List.nil_append, decode, lead, cont₁, cont₂, back, wide, bare,
      Bool.and_self, if_true, if_false]
  split at coded
  · cases coded
    have lead : ¬ (0xF0 + c / 262144 < 0x80) ∧ ¬ (0xF0 + c / 262144 < 0xC2) ∧
        ¬ (0xF0 + c / 262144 < 0xE0) ∧ ¬ (0xF0 + c / 262144 < 0xF0) := by omega
    have cont₁ : isContinuation (0x80 + c / 4096 % 64) = true := by simp [isContinuation]; omega
    have cont₂ : isContinuation (0x80 + c / 64 % 64) = true := by simp [isContinuation]; omega
    have cont₃ : isContinuation (0x80 + c % 64) = true := by simp [isContinuation]; omega
    have back : (0xF0 + c / 262144 - 0xF0) * 262144 + (0x80 + c / 4096 % 64 - 0x80) * 4096 +
        (0x80 + c / 64 % 64 - 0x80) * 64 + (0x80 + c % 64 - 0x80) = c := by omega
    have wide : decide (0x10000 ≤ c) = true ∧ decide (c < 0x110000) = true := by
      constructor <;> simp <;> omega
    simp only [List.cons_append, List.nil_append, decode, lead, cont₁, cont₂, cont₃, back, wide.1,
      wide.2, Bool.and_self, if_true, if_false]
  · cases coded

/-- What `encode` writes, `decode` reads. -/
theorem decode_encode {t : Text} {bytes : Bytes} (coded : encode t = some bytes) :
    decode bytes = some t := by
  induction t generalizing bytes with
  | nil => cases coded; rfl
  | cons c rest ih =>
      simp only [encode, Option.bind_eq_bind, Option.bind_eq_some_iff, Option.pure_def,
        Option.some.injEq] at coded
      obtain ⟨head, hhead, tail, htail, rfl⟩ := coded
      rw [decode_encodeUnit hhead, ih htail, Option.map_some]

theorem encode_append (s t : Text) :
    encode (s ++ t) = (encode s).bind fun a => (encode t).map (a ++ ·) := by
  induction s with
  | nil => cases h : encode t <;> simp [encode, h]
  | cons c rest ih =>
      simp only [List.cons_append, encode, ih]
      cases encodeUnit c <;> cases encode rest <;> cases encode t <;> simp

private theorem mem_encodeUnit {c b : Nat} {bytes : Bytes} (coded : encodeUnit c = some bytes)
    (member : b ∈ bytes) (ascii : b < 0x80) : b = c := by
  unfold encodeUnit at coded
  split at coded
  · cases coded; simpa using member
  all_goals repeat' split at coded
  all_goals try cases coded
  all_goals
    simp only [List.mem_cons, List.not_mem_nil, or_false] at member
    omega

/-- An ASCII byte of the encoding is that character of the text. -/
theorem mem_of_mem_encode {t : Text} {bytes : Bytes} {b : Nat} (coded : encode t = some bytes)
    (member : b ∈ bytes) (ascii : b < 0x80) : b ∈ t := by
  induction t generalizing bytes with
  | nil => cases coded; simp at member
  | cons c rest ih =>
      simp only [encode, Option.bind_eq_bind, Option.bind_eq_some_iff, Option.pure_def,
        Option.some.injEq] at coded
      obtain ⟨head, hhead, tail, htail, rfl⟩ := coded
      rcases List.mem_append.mp member with h | h
      · exact List.mem_cons.mpr (Or.inl (mem_encodeUnit hhead h ascii))
      · exact List.mem_cons_of_mem _ (ih htail h)

end Utf8

namespace Bytes

def splitlinesFrom (line : Bytes) : Bytes → List Bytes
  | [] => if line = [] then [] else [line]
  | 10 :: rest => line :: splitlinesFrom [] rest
  | 13 :: 10 :: rest => line :: splitlinesFrom [] rest
  | 13 :: rest => line :: splitlinesFrom [] rest
  | b :: rest => splitlinesFrom (line ++ [b]) rest

/-- `data.splitlines()`: the lines between `\n`, `\r\n` and `\r`, without them. -/
def splitlines (data : Bytes) : List Bytes := splitlinesFrom [] data

theorem splitlinesFrom_line (line head rest : Bytes)
    (plain : ∀ b ∈ head, b ≠ 10 ∧ b ≠ 13) :
    splitlinesFrom line (head ++ 10 :: rest) = (line ++ head) :: splitlinesFrom [] rest := by
  induction head generalizing line with
  | nil => simp [splitlinesFrom]
  | cons b head ih =>
      obtain ⟨notNewline, notReturn⟩ := plain b (by simp)
      have step : splitlinesFrom line (b :: (head ++ 10 :: rest)) =
          splitlinesFrom (line ++ [b]) (head ++ 10 :: rest) := by
        rw [splitlinesFrom.eq_def]
        split <;> simp_all
      rw [List.cons_append, step, ih _ (fun c hc => plain c (List.mem_cons_of_mem _ hc))]
      simp

/-- A file of newline-terminated lines splits into those lines. -/
theorem splitlines_lines (lines : List Bytes)
    (plain : ∀ line ∈ lines, ∀ b ∈ line, b ≠ 10 ∧ b ≠ 13) :
    splitlines (lines.flatMap (· ++ [10])) = lines := by
  induction lines with
  | nil => rfl
  | cons line lines ih =>
      have here := splitlinesFrom_line [] line (lines.flatMap (· ++ [10])) (plain line (by simp))
      simp only [List.flatMap_cons, List.append_assoc, List.cons_append, List.nil_append]
      rw [splitlines, here, List.nil_append]
      exact congrArg (line :: ·) (ih fun l hl => plain l (List.mem_cons_of_mem _ hl))

/-- `data.endswith(b"\n")`. -/
def endsWithNewline (data : Bytes) : Bool := data.getLast? == some 10

/-- The lines of a file that a newline ends. -/
def wholeLines (data : Bytes) : Bytes := (data.reverse.dropWhile (· != 10)).reverse

@[simp] theorem wholeLines_nil : wholeLines [] = [] := rfl

@[simp] theorem wholeLines_newline (line : Bytes) : wholeLines (line ++ [10]) = line ++ [10] := by
  simp [wholeLines]

theorem wholeLines_prefix (data : Bytes) : wholeLines data <+: data := by
  have suffix := List.dropWhile_suffix (l := data.reverse) (· != 10)
  simpa [wholeLines] using List.reverse_prefix.mpr suffix

/-- What follows the last newline is no whole line. -/
theorem wholeLines_append {tail : Bytes} (torn : 10 ∉ tail) (front : Bytes) :
    wholeLines (front ++ tail) = wholeLines front := by
  have dropped : ∀ b ∈ tail.reverse, (b != 10) = true := by
    intro b hb
    have : b ≠ 10 := by
      rintro rfl
      exact torn (List.mem_reverse.mp hb)
    simpa using this
  unfold wholeLines
  rw [List.reverse_append, List.dropWhile_append_of_pos dropped]

end Bytes

end Senex
