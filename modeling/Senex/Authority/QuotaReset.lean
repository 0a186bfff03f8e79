import Senex.Authority.QuotaBreaker

/-! # Reads and the daily quota

Once the breaker is open, no read is sent before the next midnight, whatever restarts and damage to
the file come between, and behind it the reads go out again.  Where the file may be written, a process
that restarts sends what one that never restarts would send.
-/

namespace Senex.Authority

open Text Datetime

/-! ## Memory and file -/

/-- The memory says that the breaker is open until then. -/
def Remembers (p : BreakerProcess) (until_ : Civil) : Prop := p.memory.openUntil = some (isoformat until_)

/-- The file says so. -/
def Records (p : BreakerProcess) (until_ : Civil) : Prop :=
  ∃ bytes openedAt reason, p.file = some bytes ∧ readBreaker bytes = some (openedAt, until_, reason)

/-- The file cannot be read. -/
def Damaged (p : BreakerProcess) : Prop := ∃ bytes, p.file = some bytes ∧ readBreaker bytes = none

section
variable {p : BreakerProcess} {clock : UtcClock} {until_ : Civil}

/-- An opening is remembered, and recorded where the file may be written. -/
theorem persist_opened (reason : Text) (ascii : ∀ c ∈ reason, c < 0x80) (given : reason ≠ []) :
    let opened := persistQuotaBreakerState { p with memory := openedMemory clock reason p.memory }
    Remembers opened clock.reset ∧ opened.writes = p.writes ∧
      (p.writes = true → Records opened clock.reset) ∧ (p.writes = false → opened.file = p.file) := by
  intro opened
  have memory : Opened (openedMemory clock reason p.memory) (isoformat clock.now) clock.reset reason :=
    ⟨rfl, rfl, rfl, ⟨ascii_isoformat clock.now, ascii⟩, given⟩
  obtain ⟨bytes, written, read⟩ := readBreaker_breakerBytes memory
  cases writes : p.writes with
  | false =>
      have same : opened = { p with memory := openedMemory clock reason p.memory } := by
        simp [opened, persistQuotaBreakerState, writes]
      rw [same]
      exact ⟨rfl, writes, fun h => Bool.noConfusion h, fun _ => rfl⟩
  | true =>
      have same : opened = { p with memory := openedMemory clock reason p.memory, file := some bytes } := by
        simp [opened, persistQuotaBreakerState, writes, written]
      rw [same]
      exact ⟨rfl, writes, fun _ => ⟨bytes, _, _, rfl, read⟩, fun h => Bool.noConfusion h⟩

theorem load_of_absent (absent : p.file = none) : loadQuotaBreakerState clock p = p := by
  rw [loadQuotaBreakerState, absent]

theorem load_of_records (records : Records p until_) :
    Remembers (loadQuotaBreakerState clock p) until_ ∧ (loadQuotaBreakerState clock p).file = p.file ∧
      (loadQuotaBreakerState clock p).writes = p.writes := by
  obtain ⟨bytes, openedAt, reason, here, read⟩ := records
  rw [loadQuotaBreakerState, here]
  dsimp only
  rw [read]
  exact ⟨rfl, rfl, rfl⟩

/-- What cannot be read is taken for an exhausted quota. -/
theorem load_of_damaged (damaged : Damaged p) :
    Remembers (loadQuotaBreakerState clock p) clock.reset ∧
      (Records (loadQuotaBreakerState clock p) clock.reset ∨ (loadQuotaBreakerState clock p).file = p.file) := by
  obtain ⟨bytes, here, read⟩ := damaged
  have loaded : loadQuotaBreakerState clock p = persistQuotaBreakerState
      { p with memory := openedMemory clock (txt "D1_QUOTA_BREAKER_STATE_CORRUPT") p.memory } := by
    rw [loadQuotaBreakerState, here]
    dsimp only
    rw [read]
  obtain ⟨remembers, -, records, same⟩ := @persist_opened p clock (txt "D1_QUOTA_BREAKER_STATE_CORRUPT") (by decide)
    (by decide)
  rw [loaded]
  refine ⟨remembers, ?_⟩
  by_cases writes : p.writes = true
  · exact Or.inl (records writes)
  · exact Or.inr (same (Bool.eq_false_iff.mpr writes))

/-! ## The status -/

/-- The process behind the end of its breaker. -/
def reopened (p : BreakerProcess) : BreakerProcess :=
  clearQuotaBreakerState { p with memory := { p.memory with openedAt := .none, openUntil := none, reason := .none } }

@[simp] theorem reopened_openUntil : (reopened p).memory.openUntil = none := by
  unfold reopened clearQuotaBreakerState
  split <;> rfl

@[simp] theorem reopened_writes : (reopened p).writes = p.writes := by
  unfold reopened clearQuotaBreakerState
  split <;> rfl

theorem reopened_file : (reopened p).file = if p.writes then none else p.file := by
  unfold reopened clearQuotaBreakerState
  cases p.writes <;> rfl

/-- What a status makes of a process that says until when the breaker is open. -/
structure Answers (early : Bool) (p : BreakerProcess) (until_ : Civil) (answer : BreakerProcess × BreakerStatus) :
    Prop where
  isOpen : answer.2.isOpen = early
  openUntil : answer.2.openUntil = if early then some (isoformat until_) else none
  after : answer.1 = if early then p else reopened p

theorem loadedStatus_of_remembers (early : Civil → Bool) (remembers : Remembers p until_) :
    Answers (early until_) p until_ (loadedStatus early p) := by
  have filled : (isoformat until_).isEmpty = false := List.isEmpty_eq_false_iff.mpr (isoformat_ne_nil until_)
  have known : ((p.memory.openUntil.filter fun raw => !raw.isEmpty).bind parseUntil) = some until_ := by
    rw [remembers, Option.filter_some, filled, Bool.not_false, if_pos rfl, Option.bind_some, parseUntil_isoformat]
  unfold loadedStatus
  rw [known]
  cases is : early until_ with
  | true => constructor <;> simp [is]
  | false => constructor <;> simp [is, reopened]

theorem status_of_remembers (remembers : Remembers p until_) :
    Answers (clock.before until_) p until_ (quotaBreakerStatus clock p) := by
  have filled : (isoformat until_).isEmpty = false := List.isEmpty_eq_false_iff.mpr (isoformat_ne_nil until_)
  have loaded : (if (p.memory.openUntil.getD []).isEmpty then loadQuotaBreakerState clock p else p) = p := by
    rw [remembers, Option.getD_some, filled, if_neg Bool.false_ne_true]
  rw [quotaBreakerStatus, loaded]
  exact loadedStatus_of_remembers clock.before remembers

/-- Without a memory the file decides. -/
theorem status_of_forgotten (forgotten : p.memory.openUntil = none)
    (remembered : Remembers (loadQuotaBreakerState clock p) until_) :
    Answers (clock.before until_) (loadQuotaBreakerState clock p) until_ (quotaBreakerStatus clock p) := by
  have here : (p.memory.openUntil.getD []).isEmpty = true := by rw [forgotten]; rfl
  rw [quotaBreakerStatus, if_pos here]
  exact loadedStatus_of_remembers clock.before remembered

theorem status_of_closed (forgotten : p.memory.openUntil = none) (absent : p.file = none) :
    (quotaBreakerStatus clock p).2.isOpen = false ∧ (quotaBreakerStatus clock p).1 = p := by
  have here : (p.memory.openUntil.getD []).isEmpty = true := by rw [forgotten]; rfl
  rw [quotaBreakerStatus, if_pos here, load_of_absent absent]
  unfold loadedStatus
  rw [forgotten]
  exact ⟨rfl, rfl⟩

end

/-! ## Until the reset -/

namespace BreakerStep

/-- The time of a step, where it reads it. -/
def clock? : BreakerStep → Option UtcClock
  | .begin clock | .finish clock _ | .status clock => some clock
  | _ => none

/-- The step happens from one datetime on and before another. -/
def Within (from_ until_ : Civil) (a : BreakerStep) : Prop :=
  ∀ clock ∈ a.clock?, orderKey from_ ≤ orderKey clock.now ∧ orderKey clock.now < orderKey until_

/-- Damage leaves a file that cannot be read. -/
def Unreadable : BreakerStep → Prop
  | .damage bytes => readBreaker bytes = none
  | _ => True

def isRestart : BreakerStep → Bool
  | .restart => true
  | _ => false

end BreakerStep

/-- A clock before the reset has the same reset. -/
theorem UtcClock.reset_eq (clock : UtcClock) {from_ until_ : Civil} (next : nextMidnight from_ = some until_)
    (late : orderKey from_ ≤ orderKey clock.now) (early : orderKey clock.now < orderKey until_) :
    clock.reset = until_ :=
  Option.some.inj (clock.next.symm.trans (nextMidnight_eq next late early))

/-- The breaker stays open until then, whatever the memory has forgotten. -/
def Held (until_ : Civil) (p : BreakerProcess) : Prop :=
  (p.memory.openUntil = none ∨ Remembers p until_) ∧ (Records p until_ ∨ Damaged p)

section
variable {p : BreakerProcess} {clock : UtcClock} {until_ : Civil}

/-- The status of a breaker that stays open. -/
theorem status_of_held (held : Held until_ p) (next : clock.reset = until_) :
    ∃ loaded, Held until_ loaded ∧ Remembers loaded until_ ∧
      Answers true loaded until_ (quotaBreakerStatus clock p) := by
  have early : clock.before until_ = true := decide_eq_true (next ▸ lt_nextMidnight clock.next)
  obtain ⟨forgotten | remembers, on_file⟩ := held
  · rcases on_file with records | damaged
    · obtain ⟨remembers, same, -⟩ := @load_of_records p clock until_ records
      exact ⟨_, ⟨Or.inr remembers, Or.inl (records.imp fun _ h => by rwa [same])⟩, remembers,
        early ▸ status_of_forgotten forgotten remembers⟩
    · obtain ⟨remembers, on_file⟩ := @load_of_damaged p clock damaged
      rw [next] at remembers on_file
      refine ⟨_, ⟨Or.inr remembers, on_file.imp_right fun same => ?_⟩, remembers,
        early ▸ status_of_forgotten forgotten remembers⟩
      exact damaged.imp fun _ h => by rwa [same]
  · exact ⟨p, ⟨Or.inr remembers, on_file⟩, remembers, early ▸ status_of_remembers remembers⟩

/-- What an opening leaves, and the date that it reports. -/
theorem opening (p : BreakerProcess) (clock : UtcClock) :
    Remembers (openD1QuotaBreaker clock p).1 clock.reset ∧
      (openD1QuotaBreaker clock p).1.writes = p.writes ∧
      (p.writes = true → Records (openD1QuotaBreaker clock p).1 clock.reset) ∧
      (p.writes = false → (openD1QuotaBreaker clock p).1.file = p.file) := by
  obtain ⟨remembers, writes, records, same⟩ := @persist_opened p clock (txt "D1_QUOTA_EXCEEDED") (by decide) (by decide)
  have early : clock.before clock.reset = true := decide_eq_true (lt_nextMidnight clock.next)
  have after := (@status_of_remembers _ clock _ remembers).after
  rw [if_pos early] at after
  rw [openD1QuotaBreaker, after]
  exact ⟨remembers, writes, records, same⟩

/-- A step before the reset leaves the breaker open, and the file says so or cannot be read. -/
theorem Held.step (held : Held until_ p) {from_ : Civil} (next : nextMidnight from_ = some until_) {a : BreakerStep}
    (within : a.Within from_ until_) (unreadable : a.Unreadable) : Held until_ (breakerStep p a) := by
  have reset {clock : UtcClock} (here : a.clock? = some clock) : clock.reset = until_ := by
    obtain ⟨late, early⟩ := within clock here
    exact clock.reset_eq next late early
  obtain ⟨memory, on_file⟩ := held
  cases a with
  | begin clock =>
      obtain ⟨loaded, still, -, answers⟩ := status_of_held ⟨memory, on_file⟩ (reset rfl)
      simp only [breakerStep, beginGet, answers.isOpen, answers.after, if_true]
      exact still
  | status clock =>
      obtain ⟨loaded, still, -, answers⟩ := status_of_held ⟨memory, on_file⟩ (reset rfl)
      rw [breakerStep, answers.after, if_pos rfl]
      exact still
  | finish clock response =>
      by_cases quota : isD1QuotaResponse response = true
      · obtain ⟨remembers, -, records, same⟩ := opening p clock
        rw [reset rfl] at remembers records
        simp only [breakerStep, finishGet, quota, if_true]
        refine ⟨Or.inr remembers, ?_⟩
        by_cases writes : p.writes = true
        · exact Or.inl (records writes)
        · have same := same (Bool.eq_false_iff.mpr writes)
          exact on_file.imp (fun h => h.imp fun _ h => by rwa [same]) fun h => h.imp fun _ h => by rwa [same]
      · simp only [breakerStep, finishGet, quota]
        exact ⟨memory, on_file⟩
  | restart => exact ⟨Or.inl rfl, on_file⟩
  | setWrites allowed => exact ⟨memory, on_file⟩
  | damage bytes => exact ⟨memory, Or.inr ⟨bytes, rfl, unreadable⟩⟩

/-- Without a restart the memory is enough. -/
theorem Remembers.step (remembers : Remembers p until_) {from_ : Civil} (next : nextMidnight from_ = some until_)
    {a : BreakerStep} (within : a.Within from_ until_) (running : a.isRestart = false) :
    Remembers (breakerStep p a) until_ := by
  have reset {clock : UtcClock} (here : a.clock? = some clock) : clock.reset = until_ := by
    obtain ⟨late, early⟩ := within clock here
    exact clock.reset_eq next late early
  have early {clock : UtcClock} (here : a.clock? = some clock) : clock.before until_ = true :=
    decide_eq_true (within clock here).2
  cases a with
  | begin clock =>
      have answers := @status_of_remembers p clock until_ remembers
      simp only [breakerStep, beginGet, answers.isOpen, answers.after, early rfl, if_true]
      exact remembers
  | status clock =>
      have answers := @status_of_remembers p clock until_ remembers
      rw [breakerStep, answers.after, early rfl, if_pos rfl]
      exact remembers
  | finish clock response =>
      by_cases quota : isD1QuotaResponse response = true
      · have opened := (opening p clock).1
        rw [reset rfl] at opened
        simp only [breakerStep, finishGet, quota, if_true]
        exact opened
      · simp only [breakerStep, finishGet, quota]
        exact remembers
  | restart => cases running
  | setWrites allowed => exact remembers
  | damage bytes => exact remembers

/-- The text of the exception of a read that is not sent. -/
def suppressionText (until_ : Civil) : Text :=
  txt "D1_QUOTA_EXCEEDED;retry_at=" ++ isoformat until_ ++ txt ";network_call_suppressed=true"

theorem suppressed_of_answers {loaded : BreakerProcess}
    (answers : Answers true loaded until_ (quotaBreakerStatus clock p)) :
    sends p (.begin clock) = [] ∧ (beginGet clock p).2 = .error (suppressionText until_) := by
  constructor
  · rw [sends, answers.isOpen, if_pos rfl]
  · have tail : txt ";network_call_suppressed=" ++ txt "true" = txt ";network_call_suppressed=true" := rfl
    simp only [beginGet, answers.isOpen, if_true, quotaMessage, answers.openUntil, Option.getD_some, suppressionText,
      List.append_assoc, tail]

/-- What a step of a run must be for the breaker to stay open over it. -/
def Spared (writes : Bool) (from_ until_ : Civil) (a : BreakerStep) : Prop :=
  a.Within from_ until_ ∧ if writes then a.Unreadable else a.isRestart = false

/-- The breaker is open until then; where its file could not be written, only its memory says so. -/
def StaysOpen (writes : Bool) (until_ : Civil) (p : BreakerProcess) : Prop :=
  if writes then Held until_ p else Remembers p until_

variable {writes : Bool} {from_ : Civil}

theorem StaysOpen.step (is_open : StaysOpen writes until_ p) (next : nextMidnight from_ = some until_) {a : BreakerStep}
    (spared : Spared writes from_ until_ a) : StaysOpen writes until_ (breakerStep p a) := by
  cases writes with
  | true => exact Held.step is_open next spared.1 spared.2
  | false => exact Remembers.step is_open next spared.1 spared.2

theorem StaysOpen.answers (is_open : StaysOpen writes until_ p) (next : clock.reset = until_) :
    ∃ loaded, Answers true loaded until_ (quotaBreakerStatus clock p) := by
  have early : clock.before until_ = true := decide_eq_true (next ▸ lt_nextMidnight clock.next)
  cases writes with
  | true =>
      obtain ⟨loaded, -, -, answers⟩ := status_of_held is_open next
      exact ⟨loaded, answers⟩
  | false => exact ⟨p, early ▸ status_of_remembers is_open⟩

theorem StaysOpen.sends_nil (is_open : StaysOpen writes until_ p) (next : nextMidnight from_ = some until_)
    {a : BreakerStep} (spared : Spared writes from_ until_ a) : sends p a = [] := by
  cases a with
  | begin clock =>
      obtain ⟨late, early⟩ := spared.1 clock rfl
      obtain ⟨loaded, answers⟩ := is_open.answers (clock.reset_eq next late early)
      exact (suppressed_of_answers answers).1
  | _ => rfl

theorem staysOpen_of_opening (p : BreakerProcess) (clock : UtcClock) :
    StaysOpen p.writes clock.reset (openD1QuotaBreaker clock p).1 := by
  obtain ⟨remembers, -, records, -⟩ := opening p clock
  cases writes : p.writes with
  | true => exact ⟨Or.inr remembers, Or.inl (records writes)⟩
  | false => exact remembers

end

/-- Behind an answer over the quota no read is sent before the next midnight, and each one that is
    tried raises that midnight.  Other answers come in, the process restarts and the file is damaged;
    where it may not be written, the process must not restart. -/
theorem quota_answer_stops_reads (p : BreakerProcess) (clock : UtcClock) (response : D1Response)
    (quota : isD1QuotaResponse response = true) (labels : List BreakerStep)
    (spared : ∀ a ∈ labels, Spared p.writes clock.now clock.reset a) :
    let opened := breakerStep p (.finish clock response)
    emitted breakerStep sends opened labels = [] ∧
      ∀ later : UtcClock, orderKey clock.now ≤ orderKey later.now → orderKey later.now < orderKey clock.reset →
        (beginGet later (run breakerStep opened labels)).2 = .error (suppressionText clock.reset) := by
  intro opened
  have start : StaysOpen p.writes clock.reset opened := by
    have opened_eq : opened = (openD1QuotaBreaker clock p).1 := by
      simp only [opened, breakerStep, finishGet, quota, if_true]
    rw [opened_eq]
    exact staysOpen_of_opening p clock
  have allowed : Allowed breakerStep (fun _ a => Spared p.writes clock.now clock.reset a) opened labels := by
    rw [allowed_iff_split]
    rintro first a rest rfl
    exact spared a (by simp)
  have kept (s : BreakerProcess) (a : BreakerStep) (is_open : StaysOpen p.writes clock.reset s)
      (spared : Spared p.writes clock.now clock.reset a) : StaysOpen p.writes clock.reset (breakerStep s a) :=
    is_open.step clock.next spared
  constructor
  · exact emitted_eq_nil kept (fun _ _ is_open spared => is_open.sends_nil clock.next spared) start allowed
  · intro later late early
    have still := run_invariant kept start allowed
    obtain ⟨loaded, answers⟩ := still.answers (later.reset_eq clock.next late early)
    exact (suppressed_of_answers answers).2

/-- Midday on the last day of a year, and on the first one. -/
def newYearsEve : UtcClock where
  now := ⟨2023, 12, 31, 12, 0, 0, 0, by decide⟩
  reset := ⟨2024, 1, 1, 0, 0, 0, 0, by decide⟩
  next := rfl

def newYear : UtcClock where
  now := ⟨2024, 1, 1, 12, 0, 0, 0, by decide⟩
  reset := ⟨2024, 1, 2, 0, 0, 0, 0, by decide⟩
  next := rfl

/-- An answer over the quota, a damaged file and a restart. -/
theorem quota_answer_stops_reads_damaged :
    emitted breakerStep sends (breakerStep {} (.finish newYearsEve ⟨429, []⟩))
      [.damage [255], .restart, .begin newYearsEve] = [] := by
  have early : orderKey newYearsEve.now ≤ orderKey newYearsEve.now ∧
      orderKey newYearsEve.now < orderKey newYearsEve.reset := ⟨le_rfl, lt_nextMidnight newYearsEve.next⟩
  have unreadable : readBreaker [255] = none := rfl
  refine (quota_answer_stops_reads {} newYearsEve ⟨429, []⟩ rfl [.damage [255], .restart, .begin newYearsEve] ?_).1
  intro a inside
  simp only [List.mem_cons, List.not_mem_nil, or_false] at inside
  rcases inside with rfl | rfl | rfl
  · exact ⟨fun clock here => (Option.some_ne_none _ here.symm).elim, unreadable⟩
  · exact ⟨fun clock here => (Option.some_ne_none _ here.symm).elim, trivial⟩
  · exact ⟨fun clock here => Option.some.inj here ▸ early, trivial⟩

/-! ## The gate -/

/-- What the breaker is for: a date before which nothing is sent. -/
def gateStep (until_ : Option Civil) : BreakerStep → Option Civil
  | .begin clock | .status clock => until_.filter clock.before
  | .finish clock response => if isD1QuotaResponse response then some clock.reset else until_
  | .restart | .setWrites _ | .damage _ => until_

/-- The reads that the gate lets pass. -/
def gateSends (until_ : Option Civil) : BreakerStep → List UtcClock
  | .begin clock => if until_.any clock.before then [] else [clock]
  | _ => []

/-- The file is left to the breaker, which may write it. -/
def BreakerStep.LeavesFile : BreakerStep → Prop
  | .setWrites allowed => allowed = true
  | .damage _ => False
  | _ => True

/-- A process that keeps the date of a gate, in its file at least. -/
def Gated (p : BreakerProcess) (until_ : Option Civil) : Prop :=
  p.writes = true ∧
    match until_ with
    | none => p.memory.openUntil = none ∧ p.file = none
    | some u => (p.memory.openUntil = none ∨ Remembers p u) ∧ Records p u

section
variable {p : BreakerProcess} {gate : Option Civil}

/-- A status says what the gate says, and keeps its date. -/
theorem Gated.status (gated : Gated p gate) (clock : UtcClock) :
    (quotaBreakerStatus clock p).2.isOpen = gate.any clock.before ∧
      Gated (quotaBreakerStatus clock p).1 (gate.filter clock.before) := by
  obtain ⟨writes, kept⟩ := gated
  cases gate with
  | none =>
      obtain ⟨closed, same⟩ := @status_of_closed p clock kept.1 kept.2
      rw [closed, same]
      exact ⟨rfl, writes, kept⟩
  | some until_ =>
      obtain ⟨memory, records⟩ := kept
      have found : ∃ loaded, loaded.writes = true ∧ Remembers loaded until_ ∧ Records loaded until_ ∧
          Answers (clock.before until_) loaded until_ (quotaBreakerStatus clock p) := by
        rcases memory with forgotten | remembers
        · obtain ⟨remembers, same, writes'⟩ := @load_of_records p clock until_ records
          exact ⟨_, writes'.trans writes, remembers, records.imp fun _ h => by rwa [same],
            status_of_forgotten forgotten remembers⟩
        · exact ⟨p, writes, remembers, records, status_of_remembers remembers⟩
      obtain ⟨loaded, writes, remembers, records, answers⟩ := found
      refine ⟨by rw [answers.isOpen, Option.any_some], ?_⟩
      rw [answers.after]
      cases early : clock.before until_ with
      | true =>
          rw [if_pos rfl, Option.filter_some, if_pos early]
          exact ⟨writes, Or.inr remembers, records⟩
      | false =>
          rw [if_neg Bool.false_ne_true, Option.filter_some, if_neg (by rw [early]; exact Bool.false_ne_true)]
          exact ⟨by rw [reopened_writes, writes], reopened_openUntil, by rw [reopened_file, writes, if_pos rfl]⟩

theorem Gated.step (gated : Gated p gate) {a : BreakerStep} (leaves : a.LeavesFile) :
    Gated (breakerStep p a) (gateStep gate a) ∧ sends p a = gateSends gate a := by
  cases a with
  | begin clock =>
      obtain ⟨isOpen, still⟩ := gated.status clock
      refine ⟨?_, by rw [sends, gateSends, isOpen]⟩
      simp only [breakerStep, beginGet, gateStep]
      split <;> exact still
  | status clock => exact ⟨(gated.status clock).2, rfl⟩
  | finish clock response =>
      refine ⟨?_, rfl⟩
      by_cases quota : isD1QuotaResponse response = true
      · obtain ⟨remembers, writes, records, -⟩ := opening p clock
        simp only [breakerStep, finishGet, gateStep, quota, if_true]
        exact ⟨writes.trans gated.1, Or.inr remembers, records gated.1⟩
      · simp only [breakerStep, finishGet, gateStep, quota]
        exact gated
  | restart =>
      refine ⟨⟨rfl, ?_⟩, rfl⟩
      obtain ⟨-, kept⟩ := gated
      cases gate with
      | none => exact ⟨rfl, kept.2⟩
      | some until_ => exact ⟨Or.inl rfl, kept.2⟩
  | setWrites allowed => exact ⟨⟨leaves, gated.2⟩, rfl⟩
  | damage bytes => exact leaves.elim

end

/-- A process that starts without a file sends what the gate lets pass: its restarts make no difference, and
    the first read at the reset or behind it is sent. -/
theorem breaker_refines_gate (labels : List BreakerStep) (leaves : ∀ a ∈ labels, a.LeavesFile) :
    emitted breakerStep sends {} labels = emitted gateStep gateSends none labels :=
  emitted_eq_of_related (fun _ _ _ gated leaves => gated.step leaves)
    (show Gated {} none from ⟨rfl, rfl, rfl⟩) leaves

/-- A restart on the way, and a read on either side of the reset. -/
theorem breaker_refines_gate_new_year :
    emitted breakerStep sends {} [.begin newYearsEve, .finish newYearsEve ⟨429, []⟩, .restart, .begin newYearsEve,
      .begin newYear] = [newYearsEve, newYear] := by
  have expired : newYear.before newYearsEve.reset = false := decide_eq_false (by decide)
  have early : newYearsEve.before newYearsEve.reset = true := decide_eq_true (lt_nextMidnight newYearsEve.next)
  have quota : isD1QuotaResponse ⟨429, []⟩ = true := rfl
  rw [breaker_refines_gate _ (by simp [BreakerStep.LeavesFile])]
  simp [emitted, gateStep, gateSends, quota, early, expired]

end Senex.Authority
