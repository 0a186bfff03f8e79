import Senex.Foundation.Utf8

/-! # Lines of a text

`str.splitlines` breaks a text at more characters than a file breaks at, `json.dumps` without
`ensure_ascii` writes three of them as they are.  `Unbroken` is what both kinds of reader keep in
one line.
-/

namespace Senex.Text

/-- The characters at which `str.splitlines` breaks a text. -/
def isBoundary (c : Nat) : Bool := [10, 11, 12, 13, 28, 29, 30, 133, 8232, 8233].contains c

def splitlinesFrom (line : Text) : Text → List Text
  | [] => if line = [] then [] else [line]
  | 13 :: 10 :: rest => line :: splitlinesFrom [] rest
  | c :: rest => if isBoundary c then line :: splitlinesFrom [] rest else splitlinesFrom (line ++ [c]) rest

/-- `text.splitlines()` -/
def splitlines (t : Text) : List Text := splitlinesFrom [] t

/-- What a file opened as text reads: `\r\n` and `\r` are newlines. -/
def universal : Text → Text
  | [] => []
  | 13 :: 10 :: rest => 10 :: universal rest
  | c :: rest => (if c = 13 then 10 else c) :: universal rest

/-- `path.read_text(encoding="utf-8")`; nothing is the `UnicodeDecodeError`. -/
def readText (data : Bytes) : Option Text := (Utf8.decode data).map universal

/-- No character breaks the text. -/
def Unbroken (t : Text) : Prop := ∀ c ∈ t, isBoundary c = false

instance (t : Text) : Decidable (Unbroken t) := inferInstanceAs (Decidable (∀ c ∈ t, isBoundary c = false))

/-- A text with a boundary, cut at the first one. -/
theorem exists_boundary {t : Text} (broken : ¬ Unbroken t) :
    ∃ front c back, t = front ++ c :: back ∧ Unbroken front ∧ isBoundary c = true := by
  induction t with
  | nil => simp [Unbroken] at broken
  | cons c t ih =>
      cases boundary : isBoundary c with
      | true => exact ⟨[], c, t, rfl, by simp [Unbroken], boundary⟩
      | false =>
          have later : ¬ Unbroken t := by
            intro solid
            apply broken
            intro d hd
            rcases List.mem_cons.mp hd with rfl | hd
            · exact boundary
            · exact solid d hd
          obtain ⟨front, d, back, rfl, solid, found⟩ := ih later
          refine ⟨c :: front, d, back, rfl, ?_, found⟩
          intro e he
          rcases List.mem_cons.mp he with rfl | he
          · exact boundary
          · exact solid e he

private theorem splitlinesFrom_plain {c : Nat} (plain : isBoundary c = false) (line rest : Text) :
    splitlinesFrom line (c :: rest) = splitlinesFrom (line ++ [c]) rest := by
  rw [splitlinesFrom.eq_def]
  split
  · simp_all
  · rename_i same
    cases same
    cases plain
  · rename_i same
    cases same
    rw [if_neg (by simp [plain])]

private theorem splitlinesFrom_boundary {c : Nat} (boundary : isBoundary c = true) (single : c ≠ 13)
    (line rest : Text) : splitlinesFrom line (c :: rest) = line :: splitlinesFrom [] rest := by
  rw [splitlinesFrom.eq_def]
  split
  · simp_all
  · rename_i same
    cases same
    exact absurd rfl single
  · rename_i same
    cases same
    rw [if_pos boundary]

private theorem splitlinesFrom_unbroken {front : Text} (solid : Unbroken front) (line rest : Text) :
    splitlinesFrom line (front ++ rest) = splitlinesFrom (line ++ front) rest := by
  induction front generalizing line with
  | nil => simp
  | cons c front ih =>
      have here := splitlinesFrom_plain (solid c (by simp)) line (front ++ rest)
      have there := ih (fun d hd => solid d (List.mem_cons_of_mem _ hd)) (line ++ [c])
      simp only [List.append_assoc, List.singleton_append] at there
      rw [List.cons_append, here, there]

/-- The first line ends at the first boundary. -/
theorem splitlines_boundary {front : Text} (solid : Unbroken front) {c : Nat} (boundary : isBoundary c = true)
    (single : c ≠ 13) (rest : Text) : splitlines (front ++ c :: rest) = front :: splitlines rest := by
  rw [splitlines, splitlinesFrom_unbroken solid, List.nil_append, splitlinesFrom_boundary boundary single]
  rfl

/-- A text of newline-terminated lines splits into those lines. -/
theorem splitlines_lines {lines : List Text} (solid : ∀ line ∈ lines, Unbroken line) :
    splitlines (lines.flatMap fun line => line ++ [10]) = lines := by
  induction lines with
  | nil => rfl
  | cons line lines ih =>
      have rest := ih fun l hl => solid l (List.mem_cons_of_mem _ hl)
      simp only [List.flatMap_cons, List.append_assoc, List.singleton_append]
      rw [splitlines_boundary (solid line (by simp)) (by decide) (by decide), rest]

theorem universal_eq_self {t : Text} (absent : 13 ∉ t) : universal t = t := by
  induction t with
  | nil => rfl
  | cons c t ih =>
      simp only [List.mem_cons, not_or] at absent
      rw [universal.eq_def]
      split
      · simp_all
      · rename_i same
        cases same
        exact absurd rfl absent.1
      · rename_i same
        cases same
        rw [if_neg (Ne.symm absent.1), ih absent.2]

/-- A text without carriage returns is read from its encoding. -/
theorem readText_encode {t : Text} {data : Bytes} (coded : Utf8.encode t = some data) (absent : 13 ∉ t) :
    readText data = some t := by
  rw [readText, Utf8.decode_encode coded, Option.map_some, universal_eq_self absent]

end Senex.Text
