import Mathlib.Data.List.Induction
import Senex.Authority.Count

/-! # The recorded count stays exact

Every call carries what it has read so far, and a step of any call keeps all of it true
while D1 grows beyond the highest id.  `Counter.counted_iff_current` says that the
recorded pair is exact throughout a run exactly when no call adds its delta to a count that
another call has moved on in between.
-/

namespace Senex.Authority

open Text Keyset

/-! ## D1 -/

/-- The rows of D1 stand in the order of their ids, which are positive. -/
structure Ids (rows : List Cursor) : Prop where
  sorted : Keyset.Sorted Cursor.id rows
  positive : ∀ r ∈ rows, 0 < r.id

/-- The cursor is none, or a row. -/
def Placed (rows : List Cursor) (cursor : Option Cursor) : Prop := ∀ c ∈ cursor, c ∈ rows

theorem Ids.upTo_zero {rows : List Cursor} (ids : Ids rows) : upTo Cursor.id 0 rows = [] := by
  apply List.filter_eq_nil_iff.mpr
  intro r hr low
  have positive := ids.positive r hr
  have low := of_decide_eq_true low
  omega

theorem Ids.exact_zero {rows : List Cursor} (ids : Ids rows) : Recorded.Exact rows ⟨0, none⟩ := by
  simp [Recorded.Exact, floorId, ids.upTo_zero]

/-- No cursor is beyond the last row. -/
theorem Ids.floorId_le {rows : List Cursor} (ids : Ids rows) {cursor : Option Cursor}
    (placed : Placed rows cursor) : floorId cursor ≤ floorId rows.getLast? := by
  cases cursor with
  | none => exact Nat.zero_le _
  | some c =>
      have inside := placed c rfl
      cases isLast : rows.getLast? with
      | none =>
          rw [List.getLast?_eq_none_iff.mp isLast] at inside
          cases inside
      | some last => exact ids.sorted.le_last isLast inside

theorem Ids.append {rows : List Cursor} (ids : Ids rows) {row : Cursor}
    (above : floorId rows.getLast? < row.id) : Ids (rows ++ [row]) where
  sorted := by
    refine List.pairwise_append.mpr ⟨ids.sorted, List.pairwise_singleton _ _, ?_⟩
    intro r hr s hs
    rw [List.mem_singleton.mp hs]
    have placed : Placed rows (some r) := by
      intro c same
      rwa [← Option.some.inj same]
    exact (ids.floorId_le placed).trans_lt above
  positive := by
    intro r hr
    rcases List.mem_append.mp hr with old | new
    · exact ids.positive r old
    · rw [List.mem_singleton.mp new]
      omega

/-- Two rows up to which equally many rows stand are one row. -/
theorem Ids.eq_of_length {rows : List Cursor} (ids : Ids rows) {a b : Option Cursor}
    (ha : Placed rows a) (hb : Placed rows b)
    (same : (upTo Cursor.id (floorId a) rows).length = (upTo Cursor.id (floorId b) rows).length) :
    a = b := by
  -- the row of the larger id would be one more
  have apart : ∀ {c d : Option Cursor}, Placed rows d → floorId c < floorId d →
      (upTo Cursor.id (floorId c) rows).length < (upTo Cursor.id (floorId d) rows).length := by
    intro c d placed less
    rw [← upTo_append_between ids.sorted less.le, List.length_append]
    cases d with
    | none => exact absurd less (Nat.not_lt_zero _)
    | some row =>
        have inside : row ∈ between Cursor.id (floorId c) (floorId (some row)) rows :=
          mem_between.mpr ⟨placed row rfl, less, le_rfl⟩
        have := List.length_pos_of_mem inside
        omega
  have ids_eq : floorId a = floorId b := by
    rcases lt_trichotomy (floorId a) (floorId b) with less | equal | less
    · exact absurd same (apart hb less).ne
    · exact equal
    · exact absurd same (apart ha less).ne'
  cases a with
  | none =>
      cases b with
      | none => rfl
      | some row => exact absurd ids_eq (ids.positive row (hb row rfl)).ne
  | some first =>
      cases b with
      | none => exact absurd ids_eq (ids.positive first (ha first rfl)).ne'
      | some second => exact congrArg some (ids.sorted.eq_of_key (ha _ rfl) (hb _ rfl) ids_eq)

/-! ## What a call has read -/

/-- What was collected are the rows from the start to the position. -/
structure Reading (rows : List Cursor) (start : Option Cursor) (position : Nat)
    (collected : List Cursor) : Prop where
  placed : Placed rows start
  le : floorId start ≤ position
  whole : collected = between Cursor.id (floorId start) position rows
  ends : floorId (collected.getLast?.or start) = position

theorem Reading.begin {rows : List Cursor} {start : Option Cursor} (placed : Placed rows start) :
    Reading rows start (floorId start) [] :=
  ⟨placed, le_rfl, (between_self _ _).symm, rfl⟩

theorem readIds_eq_ok {message : Text} {data : List Cursor} {p q : Nat}
    (read : readIds message p data = .ok q) : q = (data.getLast?.map Cursor.id).getD p := by
  induction data generalizing p with
  | nil =>
      cases read
      rfl
  | cons row rest ih =>
      simp only [readIds, rowCursor] at read
      split at read
      · cases read
      · rename_i key found
        split at found
        · cases found
        · obtain rfl : row = key := Except.ok.inj found
          split at read
          · cases read
          · rw [ih read, List.getLast?_cons]
            cases rest.getLast? <;> rfl

theorem Reading.turn {rows : List Cursor} {start : Option Cursor} {position next limit : Nat}
    {collected : List Cursor} {message : Text} (ids : Ids rows)
    (reading : Reading rows start position collected)
    (read : readIds message position (page Cursor.id position limit rows) = .ok next) :
    Reading rows start next (collected ++ page Cursor.id position limit rows) := by
  have moved := readIds_eq_ok read
  cases isLast : (page Cursor.id position limit rows).getLast? with
  | none =>
      rw [isLast] at moved
      rw [List.getLast?_eq_none_iff.mp isLast, List.append_nil, moved]
      exact reading
  | some last =>
      have beyond := (mem_page (List.mem_of_getLast? isLast)).2
      obtain rfl : next = last.id := by simpa [isLast] using moved
      refine ⟨reading.placed, reading.le.trans beyond.le, ?_, ?_⟩
      · rw [page_eq_between ids.sorted isLast]
        nth_rewrite 1 [reading.whole]
        exact between_append_between ids.sorted reading.le beyond.le
      · simp [isLast, floorId]

/-- The rows that a bootstrap has counted go up to its position. -/
theorem boot_turn {rows : List Cursor} {cursor : Option Cursor} {total next limit : Nat}
    {message : Text} (ids : Ids rows) (exact_ : Recorded.Exact rows ⟨total, cursor⟩)
    (placed : Placed rows cursor)
    (read : readIds message (floorId cursor) (page Cursor.id (floorId cursor) limit rows) = .ok next) :
    Recorded.Exact rows ⟨total + (page Cursor.id (floorId cursor) limit rows).length,
        (page Cursor.id (floorId cursor) limit rows).getLast?.or cursor⟩ ∧
      Placed rows ((page Cursor.id (floorId cursor) limit rows).getLast?.or cursor) ∧
      floorId ((page Cursor.id (floorId cursor) limit rows).getLast?.or cursor) = next := by
  have reading := (Reading.begin placed).turn ids read
  rw [List.nil_append] at reading
  refine ⟨?_, ?_, reading.ends⟩
  · have sum := upTo_append_between ids.sorted reading.le
    unfold Recorded.Exact at exact_ ⊢
    dsimp only at exact_ ⊢
    rw [reading.ends, ← sum, List.length_append, ← reading.whole, exact_]
  · intro c hc
    cases isLast : (page Cursor.id (floorId cursor) limit rows).getLast? with
    | none =>
        rw [isLast] at hc
        exact placed c hc
    | some last =>
        rw [isLast] at hc
        cases hc
        exact (mem_page (List.mem_of_getLast? isLast)).1

/-! ## The invariant -/

/-- A pair that is exact, with a row of D1 for its cursor. -/
def Recorded.Sound (rows : List Cursor) (p : Recorded) : Prop := p.Exact rows ∧ Placed rows p.cursor

/-- What a call knows is true of D1. -/
def Refresh.Sound (rows : List Cursor) : Refresh → Prop
  | .bootPage _ total cursor currentId _ => Recorded.Sound rows ⟨total, cursor⟩ ∧ floorId cursor = currentId
  | .bootTailAgain _ total cursor => Recorded.Sound rows ⟨total, cursor⟩
  | .bootDone total cursor => Recorded.Sound rows ⟨total, cursor⟩
  | .deltaPage start currentId collected _ => Reading rows start currentId collected
  | .deltaDone start collected => ∃ position, Reading rows start position collected
  | .returned count cursor => Recorded.Sound rows ⟨count, cursor⟩
  | .bootTail => True
  | .failed _ => True

structure Counter.Sound (w : Counter) : Prop where
  ids : Ids w.rows
  memory : ∀ p ∈ w.memory, p.Sound w.rows
  durable : ∀ p ∈ w.durable, p.Sound w.rows
  refreshes : ∀ refresh ∈ w.refreshes, refresh.Sound w.rows

theorem Counter.sound_start (limits : DeltaLimits) (writesAllowed : Bool) :
    (Counter.start limits writesAllowed).Sound where
  ids := ⟨List.Pairwise.nil, by simp [Counter.start]⟩
  memory := by simp [Counter.start]
  durable := by simp [Counter.start]
  refreshes := by simp [Counter.start]

theorem Counter.Sound.counted {w : Counter} (sound : w.Sound) : w.Counted where
  memory := fun p hp => (sound.memory p hp).1
  durable := fun p hp => (sound.durable p hp).1
  returned := fun _ _ member => (sound.refreshes _ member).1

/-! D1 grows beyond everything that is known. -/

section
variable {rows : List Cursor} {row : Cursor} (ids : Ids rows) (above : floorId rows.getLast? < row.id)

include ids above

theorem Placed.upTo_append {cursor : Option Cursor} (placed : Placed rows cursor) :
    upTo Cursor.id (floorId cursor) (rows ++ [row]) = upTo Cursor.id (floorId cursor) rows :=
  Keyset.upTo_append ((ids.floorId_le placed).trans_lt above)

omit ids above in
theorem Placed.append {cursor : Option Cursor} (placed : Placed rows cursor) :
    Placed (rows ++ [row]) cursor :=
  fun c hc => List.mem_append_left _ (placed c hc)

theorem Recorded.Sound.append {p : Recorded} (sound : p.Sound rows) : p.Sound (rows ++ [row]) := by
  refine ⟨?_, sound.2.append⟩
  unfold Recorded.Exact
  rw [sound.2.upTo_append ids above]
  exact sound.1

theorem Reading.append {start : Option Cursor} {position : Nat} {collected : List Cursor}
    (reading : Reading rows start position collected) :
    Reading (rows ++ [row]) start position collected := by
  have placed : Placed rows (collected.getLast?.or start) := by
    intro c hc
    cases isLast : collected.getLast? with
    | none =>
        rw [isLast] at hc
        exact reading.placed c hc
    | some last =>
        rw [isLast] at hc
        cases hc
        have inside := List.mem_of_getLast? isLast
        rw [reading.whole] at inside
        exact (mem_between.mp inside).1
  have same := placed.upTo_append ids above
  rw [reading.ends] at same
  exact ⟨reading.placed.append, reading.le, by rw [between_of_upTo same, ← reading.whole], reading.ends⟩

theorem Refresh.Sound.append {refresh : Refresh} (sound : refresh.Sound rows) :
    refresh.Sound (rows ++ [row]) := by
  cases refresh with
  | bootTail => trivial
  | bootPage => exact ⟨sound.1.append ids above, sound.2⟩
  | bootTailAgain => exact Recorded.Sound.append ids above sound
  | bootDone => exact Recorded.Sound.append ids above sound
  | deltaPage => exact Reading.append ids above sound
  | deltaDone =>
      obtain ⟨position, reading⟩ := sound
      exact ⟨position, reading.append ids above⟩
  | returned => exact Recorded.Sound.append ids above sound
  | failed => trivial

end

theorem Counter.Sound.insert {w : Counter} (sound : w.Sound) (ts : Text) (skipped : Nat) :
    (w.step (.insert ts skipped)).Sound := by
  have above : floorId w.rows.getLast? < (Cursor.mk ts (w.lastId + 1 + skipped)).id := by
    show w.lastId < w.lastId + 1 + skipped
    omega
  exact {
    ids := sound.ids.append above
    memory := fun p hp => (sound.memory p hp).append sound.ids above
    durable := fun p hp => (sound.durable p hp).append sound.ids above
    refreshes := fun refresh member => (sound.refreshes refresh member).append sound.ids above }

/-! ## Steps of calls -/

/-- One call has moved on. -/
theorem Counter.Sound.set {w : Counter} (sound : w.Sound) {memory durable : Option Recorded}
    (remembers : ∀ p ∈ memory, p.Sound w.rows) (stored : ∀ p ∈ durable, p.Sound w.rows) (i : Nat)
    {refresh : Refresh} (next : refresh.Sound w.rows) :
    Counter.Sound { w with memory, durable, refreshes := w.refreshes.set i refresh } where
  ids := sound.ids
  memory := remembers
  durable := stored
  refreshes := by
    intro other member
    rcases List.mem_or_eq_of_mem_set member with old | rfl
    · exact sound.refreshes other old
    · exact next

/-- One call has begun. -/
theorem Counter.Sound.begin {w : Counter} (sound : w.Sound) {memory : Option Recorded}
    (remembers : ∀ p ∈ memory, p.Sound w.rows) {refresh : Refresh} (first : refresh.Sound w.rows) :
    Counter.Sound { w with memory, refreshes := w.refreshes ++ [refresh] } where
  ids := sound.ids
  memory := remembers
  durable := sound.durable
  refreshes := by
    intro other member
    rcases List.mem_append.mp member with old | new
    · exact sound.refreshes other old
    · rw [List.mem_singleton.mp new]
      exact first

theorem Counter.Sound.call {w : Counter} (sound : w.Sound) (unreadable guarded : Option Text) :
    (w.call unreadable guarded).Sound := by
  unfold Counter.call
  split
  · rename_i p known
    exact sound.begin sound.memory (Reading.begin (sound.memory p known).2)
  · split
    · exact sound.begin sound.memory trivial
    · split
      · rename_i p known
        have loaded : ∀ q ∈ some p, q.Sound w.rows := by
          rintro q ⟨⟩
          exact sound.durable p known
        exact sound.begin loaded (Reading.begin (sound.durable p known).2)
      · split
        · split
          · exact sound.begin sound.memory trivial
          · exact sound.begin sound.memory trivial
        · exact sound.begin sound.memory trivial

theorem bootTurn_sound {rows : List Cursor} {tailBefore cursor : Option Cursor} {total currentId pages : Nat}
    (ids : Ids rows) (sound : Recorded.Sound rows ⟨total, cursor⟩) (here : floorId cursor = currentId) :
    (bootTurn tailBefore total cursor currentId pages
      (page Cursor.id currentId historyPageSizeMax rows)).Sound rows := by
  subst here
  unfold bootTurn
  split
  · trivial
  · rename_i next read
    obtain ⟨exact_, placed, ends⟩ := boot_turn ids sound.1 sound.2 read
    dsimp only
    split
    · exact ⟨exact_, placed⟩
    · split
      · trivial
      · exact ⟨⟨exact_, placed⟩, ends⟩

theorem deltaTurn_sound {rows : List Cursor} {limits : DeltaLimits} {start : Option Cursor}
    {currentId pages : Nat} {collected : List Cursor} (ids : Ids rows)
    (reading : Reading rows start currentId collected) :
    (deltaTurn limits start currentId collected pages
      (page Cursor.id currentId limits.pageSize rows)).Sound rows := by
  unfold deltaTurn
  split
  · trivial
  · rename_i next read
    have further := reading.turn ids read
    split
    · exact ⟨next, further⟩
    · split
      · trivial
      · split
        · trivial
        · exact further

theorem bootEnd_sound {rows : List Cursor} {tailBefore cursor tailAfter : Option Cursor} {total : Nat}
    (ids : Ids rows) (sound : Recorded.Sound rows ⟨total, cursor⟩) :
    (bootEnd tailBefore total cursor tailAfter).Sound rows := by
  unfold bootEnd
  split
  · trivial
  · split
    · split
      · trivial
      · exact ⟨ids.exact_zero, by rintro _ ⟨⟩⟩
    · split
      · trivial
      · exact sound

theorem Counter.Sound.answered {w : Counter} (sound : w.Sound) {refresh : Refresh}
    (before : refresh.Sound w.rows) : (w.answered refresh).Sound w.rows := by
  cases refresh with
  | bootTail => exact ⟨⟨sound.ids.exact_zero, by rintro _ ⟨⟩⟩, rfl⟩
  | bootPage => exact bootTurn_sound sound.ids before.1 before.2
  | bootTailAgain => exact bootEnd_sound sound.ids before
  | deltaPage => exact deltaTurn_sound sound.ids before
  | bootDone => exact before
  | deltaDone => exact before
  | returned => exact before
  | failed => trivial

theorem Counter.Sound.answer {w : Counter} (sound : w.Sound) (i : Nat) (failure : Option Text) :
    (w.answer i failure).Sound := by
  unfold Counter.answer
  split
  · exact sound
  · rename_i refresh waiting
    have before := sound.refreshes refresh (List.mem_of_getElem? waiting)
    split
    · split
      · exact sound.set sound.memory sound.durable i trivial
      · exact sound.set sound.memory sound.durable i (sound.answered before)
    · exact sound

/-- A delta from the recorded cursor leads to an exact pair, and any other does not. -/
theorem Recorded.Sound.add {rows : List Cursor} {p : Recorded} (ids : Ids rows) (sound : p.Sound rows)
    {start : Option Cursor} {position : Nat} {delta : List Cursor}
    (reading : Reading rows start position delta) :
    (delta ≠ [] → p.cursor = start) ↔ (p.add delta).Exact rows := by
  cases isLast : delta.getLast? with
  | none =>
      have none := List.getLast?_eq_none_iff.mp isLast
      simpa [none, Recorded.add] using sound.1
  | some last =>
      have filled : delta ≠ [] := by
        rintro rfl
        cases isLast
      have ends := reading.ends
      rw [isLast] at ends
      have ends : last.id = position := ends
      have total := sound.1
      have sum := congrArg List.length (upTo_append_between ids.sorted reading.le)
      rw [List.length_append, ← reading.whole] at sum
      unfold Recorded.Exact at total ⊢
      simp only [Recorded.add, isLast, floorId, ends, total]
      constructor
      · intro same
        rw [← sum, ← same filled]
        rfl
      · intro exact_ _
        rw [← sum] at exact_
        exact ids.eq_of_length sound.2 reading.placed (Nat.add_right_cancel exact_)

theorem Recorded.add_placed {rows : List Cursor} {p : Recorded} (sound : p.Sound rows)
    {start : Option Cursor} {position : Nat} {delta : List Cursor}
    (reading : Reading rows start position delta) : Placed rows (p.add delta).cursor := by
  unfold Recorded.add
  split
  · exact sound.2
  · rename_i last isLast
    rintro _ ⟨⟩
    have inside := List.mem_of_getLast? isLast
    rw [reading.whole] at inside
    exact (mem_between.mp inside).1

theorem Counter.Sound.resume {w : Counter} (sound : w.Sound) (i : Nat) (unsaved : Option Text)
    (current : w.Current (.resume i unsaved)) : (w.resume i unsaved).Sound := by
  unfold Counter.resume
  split
  · rename_i total cursor waiting
    have done := sound.refreshes _ (List.mem_of_getElem? waiting)
    split
    · exact sound.set sound.memory sound.durable i trivial
    · have known : ∀ p ∈ some (Recorded.mk total cursor), p.Sound w.rows := by
        rintro p ⟨⟩
        exact done
      exact sound.set known known i (Reading.begin done.2)
  · rename_i start collected waiting
    obtain ⟨position, reading⟩ := sound.refreshes _ (List.mem_of_getElem? waiting)
    split
    · exact sound.set sound.memory sound.durable i trivial
    · rename_i p known
      have before := sound.memory p known
      have added : (p.add collected).Sound w.rows :=
        ⟨(before.add sound.ids reading).mp fun filled => current start collected waiting filled p known,
          Recorded.add_placed before reading⟩
      have moved : ∀ q ∈ some (p.add collected), q.Sound w.rows := by
        rintro q ⟨⟩
        exact added
      dsimp only
      split
      · split
        · exact sound.set moved sound.durable i trivial
        · exact sound.set moved moved i added
      · exact sound.set moved sound.durable i added
  · exact sound

theorem Counter.Sound.step {w : Counter} (sound : w.Sound) (label : Counter.Label)
    (current : w.Current label) : (w.step label).Sound := by
  cases label with
  | insert ts skipped => exact sound.insert ts skipped
  | restart writesAllowed =>
      exact ⟨sound.ids, by rintro _ ⟨⟩, sound.durable, by rintro _ ⟨⟩⟩
  | call unreadable guarded => exact sound.call unreadable guarded
  | answer i failure => exact sound.answer i failure
  | resume i unsaved => exact sound.resume i unsaved current

/-- A step that adds a delta behind another call's leaves a wrong pair in memory. -/
theorem Counter.current_of_counted {w : Counter} (sound : w.Sound) {label : Counter.Label}
    (counted : (w.step label).Counted) : w.Current label := by
  cases label with
  | resume i unsaved =>
      intro start collected waiting filled p known
      obtain ⟨position, reading⟩ := sound.refreshes _ (List.mem_of_getElem? waiting)
      have before := sound.memory p known
      have known : w.memory = some p := known
      refine (before.add sound.ids reading).mpr ?_ filled
      have after : (w.step (.resume i unsaved)).memory = some (p.add collected) ∧
          (w.step (.resume i unsaved)).rows = w.rows := by
        simp only [Counter.step, Counter.resume, waiting, known]
        split
        · split <;> exact ⟨rfl, rfl⟩
        · exact ⟨rfl, rfl⟩
      have exact_ := counted.memory (p.add collected) after.1
      rwa [after.2] at exact_
  | insert => trivial
  | restart => trivial
  | call => trivial
  | answer => trivial

/-! ## Runs -/

/-- In a run of any number of calls, what is recorded and returned is exact at every point
    exactly when no call adds its delta to a count that another call has moved on. -/
theorem Counter.counted_iff_current (limits : DeltaLimits) (writesAllowed : Bool)
    (labels : List Counter.Label) :
    (∀ first rest, labels = first ++ rest →
        (run Counter.step (.start limits writesAllowed) first).Counted) ↔
      Allowed Counter.step Counter.Current (.start limits writesAllowed) labels := by
  have sound : ∀ first, Allowed Counter.step Counter.Current (.start limits writesAllowed) first →
      (run Counter.step (.start limits writesAllowed) first).Sound := fun _ allowed =>
    run_invariant (fun _ label sound current => sound.step label current)
      (Counter.sound_start limits writesAllowed) allowed
  constructor
  · intro counted
    induction labels using List.reverseRecOn with
    | nil => trivial
    | append_singleton labels label ih =>
        have allowed := ih fun first rest split =>
          counted first (rest ++ [label]) (by rw [split, List.append_assoc])
        refine (allowed_append _ labels [label]).mpr ⟨allowed, ?_, trivial⟩
        apply Counter.current_of_counted (sound labels allowed)
        have last := counted (labels ++ [label]) [] (List.append_nil _).symm
        rwa [run_concat] at last
  · rintro allowed first rest rfl
    exact (sound first ((allowed_append _ first rest).mp allowed).1).counted

/-- A call bootstraps over an empty table; then a row arrives, and two calls read it. -/
def overlapping : List Counter.Label :=
  [.call none none, .answer 0 none, .answer 0 none, .answer 0 none, .resume 0 none,
   .answer 0 none, .resume 0 none, .insert (txt "2026-01-01T00:00:00+00:00") 0,
   .call none none, .call none none, .answer 1 none, .answer 2 none, .resume 1 none, .resume 2 none]

/-- Both calls count the row. -/
theorem Counter.not_counted_overlapping :
    ¬ (run Counter.step (.start .default true) overlapping).Counted := by
  intro counted
  have doubled : (run Counter.step (.start .default true) overlapping).memory.map Recorded.count = some 2 := by
    decide +kernel
  have oneRow : (run Counter.step (.start .default true) overlapping).rows.length = 1 := by
    decide +kernel
  obtain ⟨p, known, two⟩ := Option.map_eq_some_iff.mp doubled
  have exact_ := counted.memory p known
  have most : p.count ≤ 1 := by
    rw [← oneRow, exact_]
    exact List.length_filter_le _ _
  omega

end Senex.Authority
