import Senex.Foundation.Utf8
import Senex.Foundation.Python
import Mathlib.Algebra.Ring.Nat

/-! # Append-only files of lines

A file holds one value a line.  A write that an interruption cut leaves a torn last line, which
the next writer closes with a marker line; a reader skips a torn line in front of its marker.
`LogFile` is a file of this shape, and `scan_data` is what the reader makes of it.
-/

namespace Senex

/-- A line of a file, and whether a line break ends it. -/
structure Line where
  content : Bytes
  terminated : Bool
  deriving DecidableEq, Repr

namespace Bytes

def linesFrom (line : Bytes) : Bytes → List Line
  | [] => if line = [] then [] else [⟨line, false⟩]
  | 10 :: rest => ⟨line, true⟩ :: linesFrom [] rest
  | 13 :: 10 :: rest => ⟨line, true⟩ :: linesFrom [] rest
  | 13 :: rest => ⟨line, true⟩ :: linesFrom [] rest
  | b :: rest => linesFrom (line ++ [b]) rest

/-- `data.splitlines(keepends=True)`, each line with its `rstrip(b"\r\n")`. -/
def lines (data : Bytes) : List Line := linesFrom [] data

/-- The white space of `bytes.strip`. -/
def isSpace (b : Nat) : Bool := b == 32 || (decide (9 ≤ b) && decide (b ≤ 13))

/-- `not content.strip()` -/
def blank (content : Bytes) : Bool := content.all isSpace

/-- No line break inside. -/
def Solid (line : Bytes) : Prop := ∀ b ∈ line, b ≠ 10 ∧ b ≠ 13

theorem Solid.front {line front : Bytes} (solid : Solid line) (cut : front <+: line) : Solid front :=
  fun b hb => solid b (cut.subset hb)

private theorem linesFrom_plain {b : Nat} (line rest : Bytes) (plain : b ≠ 10 ∧ b ≠ 13) :
    linesFrom line (b :: rest) = linesFrom (line ++ [b]) rest := by
  rw [linesFrom.eq_def]
  split <;> simp_all

private theorem linesFrom_solid {line : Bytes} (solid : Solid line) (before rest : Bytes) :
    linesFrom before (line ++ rest) = linesFrom (before ++ line) rest := by
  induction line generalizing before with
  | nil => simp
  | cons b line ih =>
      have tail : Solid line := fun c hc => solid c (List.mem_cons_of_mem _ hc)
      rw [List.cons_append, linesFrom_plain _ _ (solid b (by simp)), ih tail]
      simp

/-- A line in front of a newline is the first line. -/
theorem lines_cons {line : Bytes} (solid : Solid line) (rest : Bytes) :
    lines (line ++ 10 :: rest) = ⟨line, true⟩ :: lines rest := by
  rw [lines, linesFrom_solid solid]
  rfl

/-- A line that nothing ends. -/
theorem lines_open {line : Bytes} (solid : Solid line) (nonempty : line ≠ []) :
    lines line = [⟨line, false⟩] := by
  have whole := linesFrom_solid solid [] []
  rw [List.append_nil, List.nil_append] at whole
  rw [lines, whole, linesFrom, if_neg nonempty]

@[simp] theorem lines_nil : lines [] = [] := rfl

theorem blank_cons (b : Nat) (rest : Bytes) : blank (b :: rest) = (isSpace b && blank rest) := rfl

theorem ne_nil_of_not_blank {line : Bytes} (filled : blank line = false) : line ≠ [] := by
  rintro rfl
  cases filled

end Bytes

open Bytes

/-- How a file's lines are read, and how a torn line is marked. -/
structure LogFormat (V : Type) where
  parse : Bytes → Option V
  marker : Bytes → Nat → Bytes
  isMarkerOf : V → Bytes → Nat → Bool
  corrupt : Nat → Raised

/-- What stands behind the last line break of a file that was read. -/
inductive Ending where
  | whole
  | torn (raw : Bytes) (lineNo : Nat)
  | unended
  deriving DecidableEq, Repr

structure Scan (σ : Type) where
  state : σ
  recovered : Nat
  ending : Ending

namespace LogFormat

variable {V σ : Type} (F : LogFormat V) (accept : Nat → σ → V → Py σ)

/-- The loop over the lines of a file; `accept` takes each value into the state. -/
def scanLines : Nat → σ → Nat → List Line → Py (Scan σ)
  | _, s, recovered, [] => .ok ⟨s, recovered, .whole⟩
  | lineNo, s, recovered, line :: rest =>
      if blank line.content then scanLines (lineNo + 1) s recovered rest
      else
        match F.parse line.content with
        | none =>
            match rest with
            | [] =>
                if line.terminated then .error (F.corrupt lineNo)
                else .ok ⟨s, recovered, .torn line.content lineNo⟩
            | next :: rest =>
                if (F.parse next.content).any fun v => F.isMarkerOf v line.content lineNo then
                  scanLines (lineNo + 2) s (recovered + 1) rest
                else .error (F.corrupt lineNo)
        | some v =>
            (accept lineNo s v).bind fun s =>
              if rest = [] ∧ line.terminated = false then .ok ⟨s, recovered, .unended⟩
              else scanLines (lineNo + 1) s recovered rest

def scan (s : σ) (data : Bytes) : Py (Scan σ) := F.scanLines accept 1 s 0 (lines data)

theorem scanLines_read {F : LogFormat V} {accept : Nat → σ → V → Py σ} {content : Bytes} {v : V}
    (filled : blank content = false) (read : F.parse content = some v) (terminated : Bool) (lineNo : Nat)
    (s : σ) (recovered : Nat) (rest : List Line) :
    F.scanLines accept lineNo s recovered (⟨content, terminated⟩ :: rest) =
      (accept lineNo s v).bind fun s =>
        if rest = [] ∧ terminated = false then .ok ⟨s, recovered, .unended⟩
        else F.scanLines accept (lineNo + 1) s recovered rest := by
  rw [scanLines.eq_def]
  simp only [filled, read, Bool.false_eq_true, if_false]

/-- The marker of a torn line is a line that is read as that marker. -/
structure Lawful : Prop where
  solid : ∀ torn lineNo, Solid (F.marker torn lineNo)
  read : ∀ torn lineNo,
    ((F.parse (F.marker torn lineNo)).any fun v => F.isMarkerOf v torn lineNo) = true

end LogFormat

/-- A value with the line it is written as. -/
structure Entry (V : Type) where
  line : Bytes
  value : V

/-- The line reads as its value, and no beginning of it reads as any. -/
structure Entry.Sound {V : Type} (F : LogFormat V) (e : Entry V) : Prop where
  solid : Solid e.line
  filled : blank e.line = false
  read : F.parse e.line = some e.value
  cut : ∀ front, front <+: e.line → front ≠ [] → front ≠ e.line →
    blank front = false ∧ F.parse front = none

/-- A line that reads as nothing. -/
structure Torn {V : Type} (F : LogFormat V) (raw : Bytes) : Prop where
  solid : Solid raw
  filled : blank raw = false
  unread : F.parse raw = none

/-- A whole line, or a torn line with its marker. -/
inductive Segment (V : Type) where
  | record (e : Entry V)
  | repaired (raw : Bytes)

namespace Segment

variable {V σ : Type} (F : LogFormat V) (accept : Nat → σ → V → Py σ)

def Sound : Segment V → Prop
  | .record e => e.Sound F
  | .repaired raw => Torn F raw

def height : Segment V → Nat
  | .record _ => 1
  | .repaired _ => 2

def values : Segment V → List V
  | .record e => [e.value]
  | .repaired _ => []

def bytes (lineNo : Nat) : Segment V → Bytes
  | .record e => e.line ++ [10]
  | .repaired raw => raw ++ 10 :: (F.marker raw lineNo ++ [10])

def lines (lineNo : Nat) : Segment V → List Line
  | .record e => [⟨e.line, true⟩]
  | .repaired raw => [⟨raw, true⟩, ⟨F.marker raw lineNo, true⟩]

/-- The lines that segments take. -/
def total (segs : List (Segment V)) : Nat := (segs.map height).sum

def data : Nat → List (Segment V) → Bytes
  | _, [] => []
  | lineNo, seg :: segs => seg.bytes F lineNo ++ data (lineNo + seg.height) segs

def allLines : Nat → List (Segment V) → List Line
  | _, [] => []
  | lineNo, seg :: segs => seg.lines F lineNo ++ allLines (lineNo + seg.height) segs

/-- What reading the segments does to the state. -/
def acceptAll : Nat → σ → List (Segment V) → Py σ
  | _, s, [] => .ok s
  | lineNo, s, .record e :: segs =>
      (accept lineNo s e.value).bind fun s => acceptAll (lineNo + 1) s segs
  | lineNo, s, .repaired _ :: segs => acceptAll (lineNo + 2) s segs

def repairs (segs : List (Segment V)) : Nat := (segs.map fun seg => seg.height - 1).sum

variable {F} {accept}

theorem lines_bytes (lawful : F.Lawful) {seg : Segment V} (sound : seg.Sound F) (lineNo : Nat)
    (rest : Bytes) :
    Bytes.lines (seg.bytes F lineNo ++ rest) = seg.lines F lineNo ++ Bytes.lines rest := by
  cases seg with
  | record e =>
      have here := lines_cons (Entry.Sound.solid sound) rest
      simpa [bytes, lines] using here
  | repaired raw =>
      have first := lines_cons (Torn.solid sound) (F.marker raw lineNo ++ 10 :: rest)
      have second := lines_cons (lawful.solid raw lineNo) rest
      simp only [bytes, lines, List.append_assoc, List.cons_append, List.nil_append, first, second]

/-- Reading a sound segment in front of further lines. -/
theorem scanLines_cons (lawful : F.Lawful) {seg : Segment V} (sound : seg.Sound F) (lineNo : Nat) (s : σ)
    (recovered : Nat) (rest : List Line) :
    F.scanLines accept lineNo s recovered (seg.lines F lineNo ++ rest) =
      (acceptAll accept lineNo s [seg]).bind fun s =>
        F.scanLines accept (lineNo + seg.height) s (recovered + (seg.height - 1)) rest := by
  cases seg with
  | record e =>
      simp only [lines, List.cons_append, List.nil_append, acceptAll, height,
        LogFormat.scanLines_read (Entry.Sound.filled sound) (Entry.Sound.read sound)]
      cases accept lineNo s e.value with
      | ok s => simp [Except.bind]
      | error raised => rfl
  | repaired raw =>
      have filled := Torn.filled sound
      have unread := Torn.unread sound
      simp only [lines, List.cons_append, List.nil_append, LogFormat.scanLines, filled, unread,
        lawful.read raw lineNo, acceptAll]
      simp [Except.bind, height]

theorem sound_cons {seg : Segment V} {segs : List (Segment V)} :
    (∀ x ∈ seg :: segs, x.Sound F) ↔ seg.Sound F ∧ ∀ x ∈ segs, x.Sound F :=
  List.forall_mem_cons

theorem lines_data (lawful : F.Lawful) {segs : List (Segment V)} (sound : ∀ seg ∈ segs, seg.Sound F)
    (lineNo : Nat) (rest : Bytes) :
    Bytes.lines (data F lineNo segs ++ rest) = allLines F lineNo segs ++ Bytes.lines rest := by
  induction segs generalizing lineNo with
  | nil => rfl
  | cons seg segs ih =>
      obtain ⟨here, there⟩ := sound_cons.mp sound
      simp only [data, allLines, List.append_assoc]
      rw [lines_bytes lawful here, ih there]

theorem acceptAll_cons (lineNo : Nat) (s : σ) (seg : Segment V) (segs : List (Segment V)) :
    acceptAll accept lineNo s (seg :: segs) =
      (acceptAll accept lineNo s [seg]).bind fun s => acceptAll accept (lineNo + seg.height) s segs := by
  cases seg with
  | record e =>
      simp only [acceptAll, height]
      cases accept lineNo s e.value <;> rfl
  | repaired raw => rfl

theorem acceptAll_append (lineNo : Nat) (s : σ) (front back : List (Segment V)) :
    acceptAll accept lineNo s (front ++ back) =
      (acceptAll accept lineNo s front).bind fun s => acceptAll accept (lineNo + total front) s back := by
  induction front generalizing lineNo s with
  | nil => rfl
  | cons seg front ih =>
      rw [List.cons_append, acceptAll_cons, acceptAll_cons lineNo s seg front]
      cases acceptAll accept lineNo s [seg] with
      | ok s =>
          simp only [Except.bind, ih, total, List.map_cons, List.sum_cons, Nat.add_assoc]
      | error raised => rfl

/-- Reading sound segments in front of further lines. -/
theorem scanLines_append (lawful : F.Lawful) {segs : List (Segment V)}
    (sound : ∀ seg ∈ segs, seg.Sound F) (lineNo : Nat) (s : σ) (recovered : Nat) (rest : List Line) :
    F.scanLines accept lineNo s recovered (allLines F lineNo segs ++ rest) =
      (acceptAll accept lineNo s segs).bind fun s =>
        F.scanLines accept (lineNo + total segs) s (recovered + repairs segs) rest := by
  induction segs generalizing lineNo s recovered with
  | nil => rfl
  | cons seg segs ih =>
      obtain ⟨here, there⟩ := sound_cons.mp sound
      rw [allLines, List.append_assoc, scanLines_cons lawful here, acceptAll_cons lineNo s seg segs]
      cases acceptAll accept lineNo s [seg] with
      | ok s =>
          simp only [Except.bind, ih there, total, repairs, List.map_cons, List.sum_cons, Nat.add_assoc]
      | error raised => rfl

end Segment

/-! ## Files -/

/-- What follows the last segment: nothing, a torn line, or a whole line that lacks its newline. -/
inductive Tail (V : Type) where
  | clean
  | torn (raw : Bytes)
  | unended (e : Entry V)

namespace Tail

variable {V : Type} (F : LogFormat V)

def bytes : Tail V → Bytes
  | clean => []
  | torn raw => raw
  | unended e => e.line

def Sound : Tail V → Prop
  | clean => True
  | torn raw => Torn F raw
  | unended e => e.Sound F

def values : Tail V → List V
  | clean => []
  | torn _ => []
  | unended e => [e.value]

end Tail

/-- A file of segments and a tail, all of them sound. -/
structure LogFile {V : Type} (F : LogFormat V) where
  segments : List (Segment V)
  tail : Tail V
  sound : ∀ seg ∈ segments, seg.Sound F
  soundTail : tail.Sound F

namespace LogFile

variable {V σ : Type} {F : LogFormat V} (file : LogFile F)

def empty : LogFile F := ⟨[], .clean, by simp, trivial⟩

def data : Bytes := Segment.data F 1 file.segments ++ file.tail.bytes

/-- The number of the line behind the segments. -/
def lineNo : Nat := 1 + Segment.total file.segments

/-- The values in a file, in order. -/
def values : List V := file.segments.flatMap Segment.values ++ file.tail.values

/-- What a writer puts behind the tail before it appends. -/
def recovery : Bytes :=
  match file.tail with
  | .clean => []
  | .torn raw => 10 :: (F.marker raw file.lineNo ++ [10])
  | .unended _ => [10]

/-- The file with its tail closed. -/
def repaired : LogFile F where
  segments := file.segments ++
    match file.tail with
    | .clean => []
    | .torn raw => [.repaired raw]
    | .unended e => [.record e]
  tail := .clean
  sound := by
    have soundTail := file.soundTail
    intro seg hseg
    rcases List.mem_append.mp hseg with h | h
    · exact file.sound seg h
    · split at h
      · simp at h
      · rename_i raw same
        rw [same] at soundTail
        rw [List.mem_singleton.mp h]
        exact soundTail
      · rename_i e same
        rw [same] at soundTail
        rw [List.mem_singleton.mp h]
        exact soundTail
  soundTail := trivial

/-- The file with a further record; its tail is to be clean. -/
def append (e : Entry V) (sound : e.Sound F) : LogFile F where
  segments := file.segments ++ [.record e]
  tail := .clean
  sound := by
    intro seg hseg
    rcases List.mem_append.mp hseg with h | h
    · exact file.sound seg h
    · rw [List.mem_singleton.mp h]
      exact sound
  soundTail := trivial

theorem segmentData_append (F : LogFormat V) (lineNo : Nat) (front back : List (Segment V)) :
    Segment.data F lineNo (front ++ back) =
      Segment.data F lineNo front ++ Segment.data F (lineNo + Segment.total front) back := by
  induction front generalizing lineNo with
  | nil => rfl
  | cons seg front ih =>
      simp only [List.cons_append, Segment.data, ih, List.append_assoc, Segment.total, List.map_cons,
        List.sum_cons, Nat.add_assoc]

theorem data_repaired : file.repaired.data = file.data ++ file.recovery := by
  obtain ⟨segments, tail, sound, soundTail⟩ := file
  simp only [data, repaired, recovery, segmentData_append, lineNo, Tail.bytes, List.append_nil]
  cases tail with
  | clean => simp [Segment.data]
  | torn raw => simp [Segment.data, Segment.bytes]
  | unended e => simp [Segment.data, Segment.bytes]

@[simp] theorem values_repaired : file.repaired.values = file.values := by
  obtain ⟨segments, tail, sound, soundTail⟩ := file
  cases tail <;> simp [values, repaired, Segment.values, Tail.values]

@[simp] theorem tail_repaired : file.repaired.tail = .clean := rfl

@[simp] theorem values_empty : (empty : LogFile F).values = [] := rfl

@[simp] theorem data_empty : (empty : LogFile F).data = [] := rfl

variable {file}

theorem recovery_of_clean (clean : file.tail = .clean) : file.recovery = [] := by
  simp [recovery, clean]

theorem data_append (clean : file.tail = .clean) {e : Entry V} (sound : e.Sound F) :
    (file.append e sound).data = file.data ++ (e.line ++ [10]) := by
  simp [data, append, segmentData_append, clean, Tail.bytes, Segment.data, Segment.bytes]

theorem values_append (clean : file.tail = .clean) {e : Entry V} (sound : e.Sound F) :
    (file.append e sound).values = file.values ++ [e.value] := by
  simp [values, append, clean, Tail.values, Segment.values]

/-- What is left of an append that was cut: nothing, a torn line, a line without its newline or
    all of it. -/
theorem exists_cut (clean : file.tail = .clean) {e : Entry V} (sound : e.Sound F) (n : Nat) :
    ∃ left : LogFile F, left.data = file.data ++ (e.line ++ [10]).take n ∧
      (n < e.line.length ∧ left.values = file.values ∧ (left.tail = .clean ∨ ∃ raw, left.tail = .torn raw) ∨
        n = e.line.length ∧ left.values = file.values ++ [e.value] ∧ left.tail = .unended e ∨
        e.line.length < n ∧ left.values = file.values ++ [e.value] ∧ left.tail = .clean) := by
  rcases Nat.lt_trichotomy n e.line.length with short | exact_ | long
  · have taken : (e.line ++ [10]).take n = e.line.take n := List.take_append_of_le_length (by omega)
    rcases Nat.eq_zero_or_pos n with none | some
    · subst none
      exact ⟨file, by simp, Or.inl ⟨short, rfl, Or.inl clean⟩⟩
    · have length : (e.line.take n).length = n := by simp; omega
      have torn : Torn F (e.line.take n) := by
        have nonempty : e.line.take n ≠ [] := by
          intro empty
          rw [empty] at length
          simp at length
          omega
        have shorter : e.line.take n ≠ e.line := by
          intro same
          rw [same] at length
          omega
        have unread := sound.cut _ (List.take_prefix n e.line) nonempty shorter
        exact ⟨sound.solid.front (List.take_prefix n e.line), unread.1, unread.2⟩
      refine ⟨⟨file.segments, .torn (e.line.take n), file.sound, torn⟩, ?_, Or.inl ⟨short, ?_, ?_⟩⟩
      · simp [data, clean, taken, Tail.bytes]
      · simp [values, clean, Tail.values]
      · exact Or.inr ⟨_, rfl⟩
  · refine ⟨⟨file.segments, .unended e, file.sound, sound⟩, ?_, Or.inr (Or.inl ⟨exact_, ?_, rfl⟩)⟩
    · have taken : (e.line ++ [10]).take n = e.line := by
        rw [exact_, List.take_append_of_le_length (Nat.le_refl _), List.take_length]
      simp [data, clean, taken, Tail.bytes]
    · simp [values, clean, Tail.values]
  · refine ⟨file.append e sound, ?_, Or.inr (Or.inr ⟨long, values_append clean sound, rfl⟩)⟩
    rw [data_append clean sound, List.take_of_length_le (by simp; omega)]

/-! ## Reading a file -/

variable (file) in
/-- What the reader says of the tail. -/
def ending : Ending :=
  match file.tail with
  | .clean => .whole
  | .torn raw => .torn raw file.lineNo
  | .unended _ => .unended

theorem clean_of_ending (whole : file.ending = .whole) : file.tail = .clean := by
  unfold ending at whole
  cases tail : file.tail <;> simp [tail] at whole
  rfl

theorem scan_data (lawful : F.Lawful) (accept : Nat → σ → V → Py σ) (s : σ) :
    F.scan accept s file.data =
      (Segment.acceptAll accept 1 s file.repaired.segments).bind fun s =>
        .ok ⟨s, Segment.repairs file.segments, file.ending⟩ := by
  obtain ⟨segments, tail, sound, soundTail⟩ := file
  simp only [LogFormat.scan, data, repaired, Segment.lines_data lawful sound,
    Segment.scanLines_append lawful sound, Segment.acceptAll_append]
  cases Segment.acceptAll accept 1 s segments with
  | error raised => rfl
  | ok s =>
      simp only [Except.bind]
      cases tail with
      | clean => simp [Tail.bytes, LogFormat.scanLines, Segment.acceptAll, ending]
      | torn raw =>
          have lines := lines_open (Torn.solid soundTail) (ne_nil_of_not_blank (Torn.filled soundTail))
          simp only [Tail.bytes, lines, LogFormat.scanLines, Torn.filled soundTail, Torn.unread soundTail,
            Segment.acceptAll, ending, lineNo]
          simp
      | unended e =>
          have lines := lines_open (Entry.Sound.solid soundTail)
            (ne_nil_of_not_blank (Entry.Sound.filled soundTail))
          simp only [Tail.bytes, lines, Segment.acceptAll, ending,
            LogFormat.scanLines_read (Entry.Sound.filled soundTail) (Entry.Sound.read soundTail)]
          cases accept (1 + Segment.total segments) s e.value with
          | ok s => simp [Except.bind]
          | error raised => rfl

end LogFile

end Senex
