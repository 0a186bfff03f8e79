import Senex.Foundation.LineLog
import Mathlib

/-! # Files of lines whose reader skips what it cannot read

Values are appended one a line; a line that an interruption cut does not read.  `Shape` says which
values a file holds that only whole and cut lines were written to.
-/

namespace Senex

/-- How values are written as lines and read back, for the values that can be written. -/
structure LineCodec (V : Type) where
  Admits : V → Prop
  line : V → Bytes
  read : Bytes → Option V
  solid : ∀ v, Admits v → Bytes.Solid (line v)
  nonblank : ∀ v, Admits v → Bytes.blank (line v) = false
  read_line : ∀ v, Admits v → read (line v) = some v
  /-- No proper beginning of a line reads as anything. -/
  read_torn : ∀ v front, Admits v → front <+: line v → front ≠ line v → read front = none

/-- The file behind a crash that leaves `n` bytes of its last line. -/
def Bytes.cutLast (data : Bytes) (n : Nat) : Bytes :=
  data.take ((Bytes.wholeLines data.dropLast).length + n)

namespace LineCodec

variable {V : Type} (C : LineCodec V)

/-- The values of a file: blank lines and lines that do not read are left out. -/
def values (data : Bytes) : List V :=
  (Bytes.lines data).filterMap fun l => if Bytes.blank l.content then none else C.read l.content

/-- The lines of values, each with its newline. -/
def text (vs : List V) : Bytes := vs.flatMap fun v => C.line v ++ [10]

@[simp] theorem text_nil : C.text [] = [] := rfl

@[simp] theorem text_append (first second : List V) : C.text (first ++ second) = C.text first ++ C.text second := by
  simp [text]

@[simp] theorem text_singleton (v : V) : C.text [v] = C.line v ++ [10] := by simp [text]

variable {C}

theorem line_ne_nil {v : V} (admits : C.Admits v) : C.line v ≠ [] :=
  Bytes.ne_nil_of_not_blank (C.nonblank v admits)

/-- Whole lines are read first. -/
theorem values_text_append {vs : List V} (admits : ∀ v ∈ vs, C.Admits v) (tail : Bytes) :
    C.values (C.text vs ++ tail) = vs ++ C.values tail := by
  induction vs with
  | nil => rfl
  | cons v vs ih =>
      have here := admits v (by simp)
      have first := Bytes.lines_cons (C.solid v here) (C.text vs ++ tail)
      have rest := ih fun w member => admits w (List.mem_cons_of_mem _ member)
      simp only [values] at rest ⊢
      simp only [text, List.flatMap_cons, List.append_assoc, List.cons_append, List.nil_append] at first rest ⊢
      rw [first, List.filterMap_cons, C.nonblank v here, if_neg (by simp), C.read_line v here, rest]

/-- A cut line reads if nothing of it is missing. -/
theorem values_cut {v : V} (admits : C.Admits v) {front : Bytes} (cut : front <+: C.line v) :
    C.values front = if front = C.line v then [v] else [] := by
  have solid := (C.solid v admits).front cut
  by_cases empty : front = []
  · subst empty
    simp [values, (line_ne_nil admits).symm]
  · rw [values, Bytes.lines_open solid empty]
    by_cases whole : front = C.line v
    · simp [whole, C.nonblank v admits, C.read_line v admits]
    · simp [whole, C.read_torn v front admits cut whole]

variable (C)

/-- The values of a file that only lines were written to: whole ones, and at the end one whose
    newline or more is missing. -/
inductive Shape : Bytes → List V → Prop where
  | whole {vs : List V} (admits : ∀ v ∈ vs, C.Admits v) : Shape (C.text vs) vs
  | unended {vs : List V} {v : V} (admits : ∀ w ∈ vs ++ [v], C.Admits w) :
      Shape (C.text vs ++ C.line v) (vs ++ [v])
  | torn {vs : List V} {v : V} {front : Bytes} (admits : ∀ w ∈ vs, C.Admits w) (admitted : C.Admits v)
      (cut : front <+: C.line v) (proper : front ≠ C.line v) (nonempty : front ≠ []) :
      Shape (C.text vs ++ front) vs

variable {C}

namespace Shape

variable {data : Bytes} {vs : List V}

theorem values_eq (shape : C.Shape data vs) : C.values data = vs := by
  cases shape with
  | whole admits =>
      have read := values_text_append admits []
      simpa [values] using read
  | @unended us v admits =>
      have last : C.Admits v := admits v (by simp)
      rw [values_text_append fun w member => admits w (List.mem_append_left _ member),
        values_cut last (List.prefix_refl _), if_pos rfl]
  | torn admits admitted cut proper nonempty =>
      rw [values_text_append admits, values_cut admitted cut, if_neg proper, List.append_nil]

theorem admits (shape : C.Shape data vs) : ∀ v ∈ vs, C.Admits v := by
  cases shape <;> assumption

private theorem not_newline {v : V} (admitted : C.Admits v) {front : Bytes} (cut : front <+: C.line v)
    (nonempty : front ≠ []) (before : Bytes) : Bytes.endsWithNewline (before ++ front) = false := by
  have solid := (C.solid v admitted).front cut
  have last := solid _ (List.getLast_mem nonempty)
  simp [Bytes.endsWithNewline, List.getLast?_append_of_ne_nil _ nonempty, List.getLast?_eq_getLast_of_ne_nil nonempty, last.1]

/-- A file that is empty or ends in a newline holds whole lines. -/
theorem eq_text (shape : C.Shape data vs) (ended : data = [] ∨ Bytes.endsWithNewline data = true) :
    data = C.text vs := by
  cases shape with
  | whole => rfl
  | @unended us v admits =>
      have last : C.Admits v := admits v (by simp)
      have open_ := not_newline last (List.prefix_refl _) (line_ne_nil last) (C.text us)
      rcases ended with empty | newline
      · exact absurd (List.append_eq_nil_iff.mp empty).2 (line_ne_nil last)
      · rw [open_] at newline
        cases newline
  | @torn _ _ front _ admitted cut proper nonempty =>
      have open_ := not_newline admitted cut nonempty (C.text vs)
      rcases ended with empty | newline
      · exact absurd (List.append_eq_nil_iff.mp empty).2 nonempty
      · rw [open_] at newline
        cases newline

/-- The first `n` bytes of a line behind whole ones. -/
theorem take_line {v : V} (admits : ∀ w ∈ vs, C.Admits w) (admitted : C.Admits v) (n : Nat) :
    C.Shape (C.text vs ++ (C.line v ++ [10]).take n) (if (C.line v).length ≤ n then vs ++ [v] else vs) := by
  have all : ∀ w ∈ vs ++ [v], C.Admits w := by
    intro w member
    rcases List.mem_append.mp member with member | member
    · exact admits w member
    · rw [List.mem_singleton.mp member]
      exact admitted
  rcases lt_trichotomy n (C.line v).length with short | exact_ | long
  · rw [if_neg (not_le.mpr short), List.take_append_of_le_length short.le]
    by_cases none_left : n = 0
    · subst none_left
      simpa using Shape.whole admits
    · refine .torn admits admitted (List.take_prefix _ _) ?_ ?_
      · intro whole
        have lengths := congrArg List.length whole
        rw [List.length_take, min_eq_left short.le] at lengths
        omega
      · rw [Ne, List.take_eq_nil_iff, not_or]
        exact ⟨none_left, line_ne_nil admitted⟩
  · rw [if_pos exact_.ge, exact_, List.take_left']
    · exact .unended all
    · rfl
  · rw [if_pos long.le, List.take_of_length_le (by simp; omega)]
    simpa using Shape.whole all

/-- The place where the last line of a file begins. -/
private theorem start_of_last {last : Bytes} (nonempty : last ≠ []) (solid : Bytes.Solid last.dropLast)
    (us : List V) : (Bytes.wholeLines (C.text us ++ last).dropLast).length = (C.text us).length := by
  have tail : 10 ∉ last.dropLast := fun inside => (solid 10 inside).1 rfl
  rw [List.dropLast_append_of_ne_nil nonempty, Bytes.wholeLines_append tail]
  cases us using List.reverseRecOn with
  | nil => rfl
  | append_singleton us u =>
      rw [text_append, text_singleton, ← List.append_assoc, Bytes.wholeLines_newline]

private theorem cutLast_line (us : List V) {last : Bytes} (nonempty : last ≠ [])
    (solid : Bytes.Solid last.dropLast) (n : Nat) :
    Bytes.cutLast (C.text us ++ last) n = C.text us ++ last.take n := by
  rw [Bytes.cutLast, start_of_last nonempty solid, List.take_length_add_append]

private theorem solid_dropLast {v : V} (admitted : C.Admits v) {last : Bytes} (cut : last <+: C.line v ++ [10]) :
    Bytes.Solid last.dropLast := by
  apply (C.solid v admitted).front
  rcases List.prefix_concat_iff.mp cut with rfl | inside
  · simp
  · exact (List.dropLast_prefix last).trans inside

/-- A crash that cuts the line of the last value. -/
private theorem cutLast_value {us : List V} {v : V} (admits : ∀ w ∈ us ++ [v], C.Admits w) {last : Bytes}
    (cut : last <+: C.line v ++ [10]) (nonempty : last ≠ []) (n : Nat) :
    ∃ left, C.Shape (Bytes.cutLast (C.text us ++ last) n) left ∧
      (left = us ++ [v] ∨ ∃ w, us ++ [v] = left ++ [w] ∧
        (Bytes.cutLast (C.text us ++ last) n).length < (C.text left ++ C.line w).length) := by
  have admitted : C.Admits v := admits v (by simp)
  have front : ∀ w ∈ us, C.Admits w := fun w member => admits w (List.mem_append_left _ member)
  have shape := take_line front admitted (min n last.length)
  have first : (C.line v ++ [10]).take (min n last.length) = last.take n := by
    rw [← List.take_take, ← List.prefix_iff_eq_take.mp cut]
  rw [cutLast_line us nonempty (solid_dropLast admitted cut)]
  rw [first] at shape
  split at shape
  · exact ⟨_, shape, Or.inl rfl⟩
  · refine ⟨us, shape, Or.inr ⟨v, rfl, ?_⟩⟩
    simp only [List.length_append, List.length_take]
    omega

/-- A crash that cuts the last line takes at most the last value, and that only with a part of its text. -/
theorem cutLast (shape : C.Shape data vs) (n : Nat) :
    ∃ left, C.Shape (Bytes.cutLast data n) left ∧
      (left = vs ∨ ∃ v, vs = left ++ [v] ∧
        (Bytes.cutLast data n).length < (C.text left ++ C.line v).length) := by
  cases shape with
  | whole admits =>
      cases vs using List.reverseRecOn with
      | nil =>
          have empty : Bytes.cutLast (C.text []) n = C.text [] := by simp [Bytes.cutLast]
          rw [empty]
          exact ⟨[], .whole admits, Or.inl rfl⟩
      | append_singleton us v =>
          rw [text_append, text_singleton]
          exact cutLast_value admits (List.prefix_refl _) (by simp) n
  | unended admits =>
      exact cutLast_value admits (List.prefix_append _ _) (line_ne_nil (admits _ (by simp))) n
  | torn admits admitted cut proper nonempty =>
      rename_i v front
      have short : front.length < (C.line v).length :=
        lt_of_le_of_ne cut.length_le fun same => proper (cut.eq_of_length same)
      have shape := take_line admits admitted (min n front.length)
      have inside := cut.trans (List.prefix_append (C.line v) [10])
      have first : (C.line v ++ [10]).take (min n front.length) = front.take n := by
        rw [← List.take_take, ← List.prefix_iff_eq_take.mp inside]
      rw [first, if_neg (by omega)] at shape
      rw [cutLast_line vs nonempty (solid_dropLast admitted inside)]
      exact ⟨vs, shape, Or.inl rfl⟩

end Shape

end LineCodec

end Senex
