import Senex.Antifragility.Lifecycle
import Senex.Foundation.Transition
import Mathlib

/-! # Restoring a snapshot

A snapshot keeps the state object itself, and a restore copies its `dict` but not the list inside, so
events applied later show in the snapshot.  A restore gives the state of the whole stream as long as
no event has been applied to an object of the latest snapshot.
-/

namespace Senex.Antifragility

namespace World

variable (aggregateId : Text)

/-- What an aggregate may do: it emits events of its own, from a state that has all of them that are stored,
    and takes snapshots of a loaded state. -/
def Proper (w : World) : Move → Prop
  | .emit c => w.state.isSome = true ∧ owns aggregateId (c.event w.store) = true ∧
      ∀ ev ∈ w.events, owns aggregateId ev = true → ev.seq ≤ w.seq
  | .snapshot => w.state.isSome = true
  | .other _ | .restore | .load | .newProcess => True

/-- A restore gives the state that loading the whole stream gives. -/
def Right (w : World) (m : Move) : Prop :=
  m = .restore → (w.step aggregateId .restore).value = (w.step aggregateId .load).value

/-- A restore finds the latest snapshot untouched. -/
def Untouched (w : World) (m : Move) : Prop := m = .restore → w.touched = false

/-! ## Projections -/

/-- The state of the events up to a number. -/
def upTo (events : List Event) (seq : Int) : Lifecycle :=
  project aggregateId (events.filter fun ev => decide (ev.seq ≤ seq))

theorem project_append (first second : List Event) : project aggregateId (first ++ second) =
    (second.filter (owns aggregateId)).foldl (applyEvent aggregateId) (project aggregateId first) := by
  rw [project, List.filter_append, List.foldl_append, ← project]

theorem length_foldl_applyEvent (s : Lifecycle) (events : List Event) :
    (events.foldl (applyEvent aggregateId) s).2.length = s.2.length + events.length := by
  induction events generalizing s with
  | nil => rfl
  | cons ev events ih =>
      rw [List.foldl_cons, ih]
      simp only [applyEvent, List.length_append, List.length_cons, List.length_nil]
      omega

/-- The events of a store are numbered upwards, up to its counter. -/
structure Numbered (store : EventStore) (events : List Event) : Prop where
  ascending : events.Pairwise fun a b => a.seq < b.seq
  bounded : ∀ ev ∈ events, 0 < ev.seq ∧ ev.seq ≤ store.seqCounter
  nonneg : 0 ≤ store.seqCounter

variable {aggregateId}

namespace Numbered

variable {store : EventStore} {events : List Event}

theorem concat (numbered : Numbered store events) (c : Call) :
    Numbered (store.appended c) (events ++ [c.event store]) where
  ascending := by
    refine List.pairwise_append.mpr ⟨numbered.ascending, List.pairwise_singleton _ _, ?_⟩
    intro ev member new last
    rw [List.mem_singleton.mp last]
    have bound := (numbered.bounded ev member).2
    simp only [Call.event]
    omega
  bounded ev member := by
    have nonneg := numbered.nonneg
    rcases List.mem_append.mp member with earlier | new
    · have bound := numbered.bounded ev earlier
      simp only [EventStore.appended]
      omega
    · rw [List.mem_singleton.mp new]
      simp only [EventStore.appended, Call.event]
      omega
  nonneg := by
    have nonneg := numbered.nonneg
    simp only [EventStore.appended]
    omega

/-- The stream is what a number leaves behind it and what comes after. -/
theorem split (ascending : events.Pairwise fun a b => a.seq < b.seq) (seq : Int) :
    events = (events.filter fun ev => decide (ev.seq ≤ seq)) ++
      events.filter fun ev => decide (seq + 1 ≤ ev.seq) := by
  induction events with
  | nil => rfl
  | cons ev events ih =>
      obtain ⟨later, rest⟩ := List.pairwise_cons.mp ascending
      by_cases early : ev.seq ≤ seq
      · have out : ¬ seq + 1 ≤ ev.seq := by omega
        simp only [List.filter_cons, early, out, decide_true, decide_false, if_true, Bool.false_eq_true, if_false,
          List.cons_append]
        exact congrArg (ev :: ·) (ih rest)
      · have into : seq + 1 ≤ ev.seq := by omega
        have none_early : events.filter (fun e => decide (e.seq ≤ seq)) = [] := by
          rw [List.filter_eq_nil_iff]
          intro e member
          have after := later e member
          simp only [decide_eq_true_eq]
          omega
        have all_late : events.filter (fun e => decide (seq + 1 ≤ e.seq)) = events := by
          rw [List.filter_eq_self]
          intro e member
          have after := later e member
          simp only [decide_eq_true_eq]
          omega
        simp only [List.filter_cons, early, into, decide_true, decide_false, if_true, Bool.false_eq_true, if_false,
          none_early, all_late, List.nil_append]

/-- The whole stream is the state of a number with the owned events behind it applied. -/
theorem project_eq (numbered : Numbered store events) (seq : Int) : project aggregateId events =
    ((replay (seq + 1) none events).filter (owns aggregateId)).foldl (applyEvent aggregateId)
      (upTo aggregateId events seq) := by
  rw [replay_eq_filter, upTo, ← project_append, ← split numbered.ascending seq]

/-- A later event does not belong to an earlier number. -/
theorem upTo_concat (c : Call) {seq : Int} (bounded : seq ≤ store.seqCounter) :
    upTo aggregateId (events ++ [c.event store]) seq = upTo aggregateId events seq := by
  have out : ¬ (c.event store).seq ≤ seq := by
    simp only [Call.event]
    omega
  rw [upTo, List.filter_append, List.filter_cons_of_neg (by simpa using out), List.filter_nil, List.append_nil, upTo]

/-- Where every owned event is numbered up to `seq`, the state of `seq` is the state of the stream. -/
theorem upTo_eq_project {seq : Int} (all : ∀ ev ∈ events, owns aggregateId ev = true → ev.seq ≤ seq) :
    upTo aggregateId events seq = project aggregateId events := by
  rw [upTo, project, project, List.filter_filter]
  congr 1
  apply List.filter_congr
  intro ev member
  have bound := all ev member
  cases mine : owns aggregateId ev <;> simp_all

end Numbered

/-! ## What a run keeps -/

variable (aggregateId)

/-- The latest snapshot holds the state of its number; a touched one has more entries. -/
def Snapshotted (w : World) (seq : Int) (r : Nat) : Prop :=
  seq ≤ w.store.seqCounter ∧ ∃ v, w.heap.read r = some v ∧
    (w.touched = false → v = upTo aggregateId w.events seq) ∧
    (w.touched = true → (upTo aggregateId w.events seq).2.length < v.2.length)

structure Sound (w : World) : Prop where
  numbered : Numbered w.store w.events
  seq : w.seq ≤ w.store.seqCounter
  state : ∀ r, w.state = some r → w.heap.read r = some (upTo aggregateId w.events w.seq)
  files : ∀ file ∈ w.files, file.2 = some (upTo aggregateId w.events file.1) ∧ file.1 ≤ w.store.seqCounter
  latest : ∀ snap, w.latest = some snap → ∃ r, snap.2 = some r ∧ w.Snapshotted aggregateId snap.1 r
  fresh : w.latest = none → w.touched = false

variable {aggregateId}
variable {w : World}

/-! ## The last number -/

/-- Behind events numbered upwards, the last number is above all of them. -/
theorem lastSeq_spec {seq : Int} {events : List Event} (ascending : events.Pairwise fun a b => a.seq < b.seq)
    (above : ∀ ev ∈ events, seq < ev.seq) : seq ≤ lastSeq seq events ∧
      (∀ ev ∈ events, ev.seq ≤ lastSeq seq events) ∧ lastSeq seq events ∈ seq :: events.map Event.seq := by
  induction events generalizing seq with
  | nil => simp [lastSeq]
  | cons ev events ih =>
      obtain ⟨later, rest⟩ := List.pairwise_cons.mp ascending
      obtain ⟨least, all, member⟩ := ih rest later
      have here := above ev (by simp)
      refine ⟨?_, ?_, List.mem_cons_of_mem _ member⟩
      · exact here.le.trans least
      · rw [List.forall_mem_cons]
        exact ⟨least, all⟩

theorem mem_owned {seq : Int} {ev : Event} :
    ev ∈ w.owned aggregateId seq ↔ (ev ∈ w.events ∧ seq ≤ ev.seq) ∧ owns aggregateId ev = true := by
  simp only [owned, replay_eq_filter, List.mem_filter, decide_eq_true_eq]

/-- The number behind the owned events from `seq` on, where those before it are numbered below it. -/
theorem lastSeq_owned (numbered : Numbered w.store w.events) {seq first : Int} (bounded : seq ≤ w.store.seqCounter)
    (above : ∀ ev ∈ w.events, first ≤ ev.seq → seq < ev.seq)
    (below : ∀ ev ∈ w.events, ev.seq < first → ev.seq ≤ seq) :
    seq ≤ lastSeq seq (w.owned aggregateId first) ∧ lastSeq seq (w.owned aggregateId first) ≤ w.store.seqCounter ∧
      ∀ ev ∈ w.events, owns aggregateId ev = true → ev.seq ≤ lastSeq seq (w.owned aggregateId first) := by
  have ascending : (w.owned aggregateId first).Pairwise fun a b => a.seq < b.seq := by
    rw [owned, replay_eq_filter]
    exact (numbered.ascending.filter _).filter _
  obtain ⟨least, all, member⟩ := lastSeq_spec ascending fun ev inside =>
    above ev (mem_owned.mp inside).1.1 (mem_owned.mp inside).1.2
  refine ⟨least, ?_, ?_⟩
  · rcases List.mem_cons.mp member with same | inside
    · rw [same]
      exact bounded
    · obtain ⟨ev, place, same⟩ := List.mem_map.mp inside
      rw [← same]
      exact (numbered.bounded ev (mem_owned.mp place).1.1).2
  · intro ev place mine
    by_cases early : ev.seq < first
    · exact (below ev place early).trans least
    · exact all ev (mem_owned.mpr ⟨⟨place, not_lt.mp early⟩, mine⟩)

/-! ## Loading and restoring -/

namespace Sound

theorem latest_lt {snap : Int × Option Nat} (sound : Sound aggregateId w) (found : w.latest = some snap) :
    ∃ r v, snap.2 = some r ∧ w.heap.read r = some v := by
  obtain ⟨r, state, -, v, held, -⟩ := sound.latest snap found
  exact ⟨r, v, state, held⟩

/-- Loading applies every owned event to an initial state. -/
theorem read_load (sound : Sound aggregateId w) :
    (w.load aggregateId).heap.read w.heap.next = some (project aggregateId w.events) := by
  have none_before : upTo aggregateId w.events (-1) = (initialFields, []) := by
    have empty : w.events.filter (fun ev => decide (ev.seq ≤ -1)) = [] := by
      rw [List.filter_eq_nil_iff]
      intro ev member
      have positive := (sound.numbered.bounded ev member).1
      simp only [decide_eq_true_eq]
      omega
    rw [upTo, empty]
    rfl
  have whole := @Numbered.project_eq aggregateId _ _ sound.numbered (-1)
  rw [none_before] at whole
  rw [whole]
  exact Objects.read_extendAll (w.heap.read_alloc initialFields []) _

theorem value_load (sound : Sound aggregateId w) :
    (w.load aggregateId).value = some (project aggregateId w.events) := sound.read_load

/-- Restoring applies the owned events behind the snapshot to a copy of it. -/
theorem read_restore {seq : Int} {r : Nat} {v : Lifecycle} (held : w.heap.read r = some v)
    (found : w.latest = some (seq, some r)) : (w.restore aggregateId).value =
      some ((w.owned aggregateId (seq + 1)).foldl (applyEvent aggregateId) v) := by
  rw [restore, found]
  exact Objects.read_extendAll (Objects.read_copy held) _

/-- A restore is right where the latest snapshot is untouched. -/
theorem right_iff (sound : Sound aggregateId w) : w.Right aggregateId .restore ↔ w.Untouched .restore := by
  simp only [Right, Untouched, true_imp_iff, step, sound.value_load]
  cases found : w.latest with
  | none =>
      have same : w.restore aggregateId = w.load aggregateId := by rw [restore, found]
      rw [same, sound.value_load]
      simpa using sound.fresh found
  | some snap =>
      obtain ⟨seq, r?⟩ := snap
      obtain ⟨r, rfl, -, v, held, clean, dirty⟩ := sound.latest _ found
      have whole := @Numbered.project_eq aggregateId _ _ sound.numbered seq
      rw [read_restore held found, Option.some.injEq, whole]
      constructor
      · intro same
        by_contra touched
        have more : (upTo aggregateId w.events seq).2.length < v.2.length := dirty (by simpa using touched)
        have lengths := congrArg (fun s => s.2.length) same
        simp only [length_foldl_applyEvent, owned] at lengths
        omega
      · intro untouched
        rw [clean untouched]
        rfl

/-! ## Steps -/

theorem load (sound : Sound aggregateId w) : Sound aggregateId (w.load aggregateId) := by
  have numbered := sound.numbered
  obtain ⟨-, bounded, all⟩ := @lastSeq_owned aggregateId w numbered 0 0 numbered.nonneg
    (fun ev member _ => (numbered.bounded ev member).1) (fun ev member early => early.le)
  refine ⟨numbered, bounded, ?_, sound.files, ?_, sound.fresh⟩
  · rintro r state
    cases state
    rw [sound.read_load]
    exact congrArg some (Numbered.upTo_eq_project all).symm
  · intro snap found
    obtain ⟨r, state, limit, v, held, marks⟩ := sound.latest snap found
    refine ⟨r, state, limit, v, ?_, marks⟩
    exact Objects.read_extendAll_apart (Objects.read_alloc_old held _ _) (Objects.listOf_alloc held _ _) _

theorem restore (sound : Sound aggregateId w) (untouched : w.touched = false) :
    Sound aggregateId (w.restore aggregateId) := by
  cases found : w.latest with
  | none =>
      have same : w.restore aggregateId = w.load aggregateId := by rw [World.restore, found]
      rw [same]
      exact sound.load
  | some snap =>
      obtain ⟨seq, r?⟩ := snap
      obtain ⟨r, rfl, limit, v, held, clean, -⟩ := sound.latest _ found
      have number : seq ≤ w.store.seqCounter := limit
      have value : v = upTo aggregateId w.events seq := clean untouched
      obtain ⟨-, bounded, all⟩ := @lastSeq_owned aggregateId w sound.numbered seq (seq + 1) number
        (fun ev member late => by omega) (fun ev member early => by omega)
      have restored := @read_restore aggregateId w seq r v held found
      have shown : w.restore aggregateId = { w with
          heap := replayInto aggregateId (w.heap.copy r) w.heap.next (w.owned aggregateId (seq + 1))
          state := some w.heap.next
          seq := lastSeq seq (w.owned aggregateId (seq + 1))
          touched := w.touched || !(w.owned aggregateId (seq + 1)).isEmpty } := by rw [World.restore, found]
      rw [shown] at restored ⊢
      refine ⟨sound.numbered, bounded, ?_, sound.files, ?_, ?_⟩
      · rintro n state
        cases state
        have whole := @Numbered.project_eq aggregateId _ _ sound.numbered seq
        rw [← value] at whole
        refine restored.trans (congrArg some ?_)
        exact whole.symm.trans (Numbered.upTo_eq_project all).symm
      · rintro snap latest
        cases Option.some.inj (found.symm.trans latest)
        refine ⟨r, rfl, limit, (v.1, v.2 ++ (w.owned aggregateId (seq + 1)).map entryOf), ?_, ?_, ?_⟩
        · exact Objects.read_extendAll_shared (Objects.read_copy_old held)
            (Nat.ne_of_gt (Objects.lt_next held)) (Objects.listOf_copy held) _
        · intro clean
          have none_later : w.owned aggregateId (seq + 1) = [] := by simpa [untouched] using clean
          rw [none_later, List.map_nil, List.append_nil]
          exact value
        · intro touched
          have some_later : w.owned aggregateId (seq + 1) ≠ [] := by simpa [untouched] using touched
          have positive := List.length_pos_iff.mpr some_later
          rw [← value]
          simp only [List.length_append, List.length_map]
          omega
      · intro none_found
        exact absurd (found.symm.trans none_found) (by simp)

/-- An event of the aggregate, on a state that has all of them before it. -/
theorem emit (sound : Sound aggregateId w) {c : Call} (proper : w.Proper aggregateId (.emit c)) :
    Sound aggregateId (w.emit aggregateId c) := by
  obtain ⟨loaded, mine, current⟩ := proper
  obtain ⟨r, state⟩ := Option.isSome_iff_exists.mp loaded
  have held := sound.state r state
  have shown : w.emit aggregateId c = { w with
      store := w.store.appended c
      events := w.events ++ [c.event w.store]
      heap := w.heap.extend r (applyFields aggregateId (c.event w.store)) (entryOf (c.event w.store))
      seq := (c.event w.store).seq
      touched := w.touched || w.shares } := by rw [World.emit, state]
  have later {seq : Int} (bounded : seq ≤ w.store.seqCounter) :=
    @Numbered.upTo_concat aggregateId _ w.events c seq bounded
  rw [shown]
  refine ⟨sound.numbered.concat c, by simp [Call.event, EventStore.appended], ?_, ?_, ?_, ?_⟩
  · rintro s same
    cases Option.some.inj (state.symm.trans same)
    have behind : ∀ ev ∈ w.events ++ [c.event w.store], owns aggregateId ev = true →
        ev.seq ≤ (c.event w.store).seq := by
      intro ev member owned
      rcases List.mem_append.mp member with earlier | new
      · have bound := (sound.numbered.bounded ev earlier).2
        simp only [Call.event]
        omega
      · rw [List.mem_singleton.mp new]
    rw [Numbered.upTo_eq_project behind, project_append, List.filter_cons_of_pos mine, List.filter_nil,
      List.foldl_cons, List.foldl_nil, ← Numbered.upTo_eq_project current]
    exact Objects.read_extend held _ _
  · intro file member
    obtain ⟨value, bounded⟩ := sound.files file member
    refine ⟨value.trans (congrArg some (later bounded).symm), ?_⟩
    simp only [EventStore.appended]
    omega
  · rintro ⟨seq, s?⟩ found
    obtain ⟨s, rfl, bounded, v, read, clean, dirty⟩ := sound.latest _ found
    have bounded : seq ≤ w.store.seqCounter := bounded
    have shares : w.shares = (w.heap.listOf r == w.heap.listOf s) := by
      have latest : w.latest = some (seq, some s) := found
      rw [World.shares, state, latest]
    refine ⟨s, rfl, ?_, ?_⟩
    · simp only [EventStore.appended]
      omega
    simp only [later bounded]
    by_cases shared : w.heap.listOf r = w.heap.listOf s
    · have longer : ∃ f, (w.heap.extend r (applyFields aggregateId (c.event w.store))
          (entryOf (c.event w.store))).read s = some (f, v.2 ++ [entryOf (c.event w.store)]) := by
        by_cases same : r = s
        · subst same
          exact ⟨_, Objects.read_extend read _ _⟩
        · exact ⟨_, Objects.read_extend_shared read same shared _ _⟩
      obtain ⟨f, extended⟩ := longer
      refine ⟨_, extended, ?_, ?_⟩
      · intro untouched
        simp [shares, shared] at untouched
      · intro _
        have atLeast : (upTo aggregateId w.events seq).2.length ≤ v.2.length := by
          cases mark : w.touched with
          | false => rw [clean mark]
          | true => exact (dirty mark).le
        rw [List.length_append, List.length_singleton]
        omega
    · have apart : w.shares = false := by simpa [shares] using shared
      simp only [apart, Bool.or_false]
      exact ⟨v, Objects.read_extend_apart read shared _ _, clean, dirty⟩
  · intro none_found
    have apart : w.shares = false := by
      have latest : w.latest = none := none_found
      rw [World.shares, state, latest]
    simp only [apart, Bool.or_false]
    exact sound.fresh none_found

/-- An event of another component. -/
theorem other (sound : Sound aggregateId w) (c : Call) : Sound aggregateId (w.step aggregateId (.other c)) := by
  have later {seq : Int} (bounded : seq ≤ w.store.seqCounter) :=
    @Numbered.upTo_concat aggregateId _ w.events c seq bounded
  have counter {seq : Int} (bounded : seq ≤ w.store.seqCounter) : seq ≤ (w.store.appended c).seqCounter := by
    simp only [EventStore.appended]
    omega
  refine ⟨sound.numbered.concat c, counter sound.seq, ?_, ?_, ?_, sound.fresh⟩
  · intro r state
    exact (sound.state r state).trans (congrArg some (later sound.seq).symm)
  · intro file member
    obtain ⟨value, bounded⟩ := sound.files file member
    exact ⟨value.trans (congrArg some (later bounded).symm), counter bounded⟩
  · intro snap found
    obtain ⟨r, state, bounded, v, read, clean, dirty⟩ := sound.latest snap found
    refine ⟨r, state, counter bounded, v, read, ?_⟩
    have same := later bounded
    simp only [step, same]
    exact ⟨clean, dirty⟩

theorem mem_saveFile {seq : Int} {state : Option Lifecycle} {files : List (Int × Option Lifecycle)}
    {file : Int × Option Lifecycle} (member : file ∈ saveFile seq state files) :
    file = (seq, state) ∨ file ∈ files := by
  induction files with
  | nil => simpa [saveFile] using member
  | cons first files ih =>
      unfold saveFile at member
      split at member
      · exact List.mem_cons.mp member
      split at member
      · rcases List.mem_cons.mp member with same | later
        · exact Or.inl same
        · exact Or.inr (List.mem_cons_of_mem _ later)
      · rcases List.mem_cons.mp member with same | later
        · exact Or.inr (by simp [same])
        · rcases ih later with new | old
          · exact Or.inl new
          · exact Or.inr (List.mem_cons_of_mem _ old)

/-- A snapshot of a loaded state. -/
theorem snapshot (sound : Sound aggregateId w) (loaded : w.state.isSome = true) :
    Sound aggregateId (w.step aggregateId .snapshot) := by
  obtain ⟨r, state⟩ := Option.isSome_iff_exists.mp loaded
  have held := sound.state r state
  have value : w.value = some (upTo aggregateId w.events w.seq) := by rw [World.value, state, Option.bind_some, held]
  refine ⟨sound.numbered, sound.seq, sound.state, ?_, ?_, fun _ => rfl⟩
  · intro file member
    rcases mem_saveFile member with rfl | earlier
    · exact ⟨value, sound.seq⟩
    · exact sound.files file earlier
  · rintro snap found
    simp only [World.step, World.latest, List.getLast?_concat, Option.some.injEq] at found
    subst found
    exact ⟨r, state, sound.seq, _, held, fun _ => rfl, fun touched => by cases touched⟩

/-- The snapshots of a new process hold what their files do. -/
theorem read_loadFiles {files : List (Int × Option Lifecycle)} (states : ∀ file ∈ files, file.2.isSome = true)
    {w : Objects Fields Entry × List (Int × Option Nat)} {P : Int → Lifecycle → Prop}
    (before : ∀ snap ∈ w.2, ∃ r v, snap.2 = some r ∧ w.1.read r = some v ∧ P snap.1 v)
    (held : ∀ file ∈ files, ∀ v, file.2 = some v → P file.1 v) :
    ∀ snap ∈ (files.foldl loadFile w).2, ∃ r v, snap.2 = some r ∧ (files.foldl loadFile w).1.read r = some v ∧
      P snap.1 v := by
  induction files generalizing w with
  | nil => exact before
  | cons file files ih =>
      obtain ⟨v, value⟩ := Option.isSome_iff_exists.mp (states file (by simp))
      have loaded : loadFile w file = (w.1.alloc v.1 v.2, w.2 ++ [(file.1, some w.1.next)]) := by
        rw [loadFile, value]
      rw [List.foldl_cons, loaded]
      apply ih fun f member => states f (List.mem_cons_of_mem _ member)
      · intro snap member
        rcases List.mem_append.mp member with earlier | new
        · obtain ⟨r, u, state, read, kept⟩ := before snap earlier
          exact ⟨r, u, state, Objects.read_alloc_old read _ _, kept⟩
        · rw [List.mem_singleton.mp new]
          exact ⟨_, v, rfl, Objects.read_alloc _ _ _, held file (by simp) v value⟩
      · exact fun f member => held f (List.mem_cons_of_mem _ member)

theorem newProcess (sound : Sound aggregateId w) : Sound aggregateId (w.step aggregateId .newProcess) := by
  refine ⟨sound.numbered, sound.numbered.nonneg, ?_, sound.files, ?_, fun _ => rfl⟩
  · intro r state
    cases state
  · intro snap found
    have states : ∀ file ∈ w.files, file.2.isSome = true := by
      intro file member
      rw [(sound.files file member).1]
      rfl
    obtain ⟨r, v, state, read, value, bounded⟩ := @read_loadFiles w.files states (⟨[], []⟩, [])
      (fun seq v => v = upTo aggregateId w.events seq ∧ seq ≤ w.store.seqCounter) (by simp) (by
        intro file member v held
        obtain ⟨value, bounded⟩ := sound.files file member
        exact ⟨Option.some.inj (held.symm.trans value), bounded⟩) snap (List.mem_of_getLast? found)
    exact ⟨r, state, bounded, v, read, fun _ => value, fun touched => by cases touched⟩

/-- One step of a run. -/
theorem step (sound : Sound aggregateId w) {m : Move} (proper : w.Proper aggregateId m) (untouched : w.Untouched m) :
    Sound aggregateId (w.step aggregateId m) := by
  cases m with
  | emit c => exact sound.emit proper
  | other c => exact sound.other c
  | snapshot => exact sound.snapshot proper
  | restore => exact sound.restore (untouched rfl)
  | load => exact sound.load
  | newProcess => exact sound.newProcess

end Sound

theorem sound_start : Sound aggregateId start where
  numbered := ⟨List.Pairwise.nil, by simp [start], le_refl _⟩
  seq := le_refl _
  state r state := by cases state
  files file member := by cases member
  latest snap found := by cases found
  fresh _ := rfl

/-- In a run of proper moves, every restore is right if and only if every restore finds the latest snapshot
    untouched. -/
theorem right_iff_untouched {moves : List Move}
    (proper : Allowed (World.step aggregateId) (World.Proper aggregateId) start moves) :
    Allowed (World.step aggregateId) (World.Right aggregateId) start moves ↔
      Allowed (World.step aggregateId) World.Untouched start moves := by
  have every : ∀ w, Sound aggregateId w → Allowed (World.step aggregateId) (World.Proper aggregateId) w moves →
      (Allowed (World.step aggregateId) (World.Right aggregateId) w moves ↔
        Allowed (World.step aggregateId) World.Untouched w moves) := by
    clear proper
    induction moves with
    | nil => simp [Allowed]
    | cons m moves ih =>
        rintro w sound ⟨here, rest⟩
        have now : w.Right aggregateId m ↔ w.Untouched m := by
          by_cases restoring : m = .restore
          · rw [restoring]
            exact sound.right_iff
          · simp [Right, Untouched, restoring]
        simp only [Allowed, now]
        apply and_congr_right
        intro untouched
        exact ih _ (sound.step here untouched) rest
  exact every start sound_start proper

end World

/-! ## Restores in one process -/

/-- An event of the aggregate `p1`. -/
def made (id : String) : Call :=
  ⟨txt "PREDICTION_MADE", .obj [(txt "prediction_id", .str (txt "p1")), (txt "symbol", .str (txt "BTCUSDT"))],
    none, txt id, txt "2026-01-01T00:00:00.000000Z"⟩

/-- A snapshot, then an event, and a restore in a new process. -/
def restoredLater : List Move := [.load, .snapshot, .emit (made "e1"), .newProcess, .restore]

theorem right_iff_untouched_restoredLater :
    Allowed (World.step (txt "p1")) (World.Right (txt "p1")) World.start restoredLater ↔
      Allowed (World.step (txt "p1")) World.Untouched World.start restoredLater :=
  World.right_iff_untouched ⟨trivial, rfl, ⟨rfl, rfl, by simp [World.step, World.load, World.start]⟩,
    trivial, trivial, trivial⟩

/-- The same without a new process. -/
def restoredAtOnce : List Move := [.load, .snapshot, .emit (made "e1"), .restore]

theorem not_right_restoredAtOnce :
    ¬ ∀ moves, Allowed (World.step (txt "p1")) (World.Proper (txt "p1")) World.start moves →
      Allowed (World.step (txt "p1")) (World.Right (txt "p1")) World.start moves := by
  intro right
  have proper : Allowed (World.step (txt "p1")) (World.Proper (txt "p1")) World.start restoredAtOnce :=
    ⟨trivial, rfl, ⟨rfl, rfl, by simp [World.step, World.load, World.start]⟩, trivial, trivial⟩
  obtain ⟨-, -, -, restored, -⟩ := right restoredAtOnce proper
  have same := restored rfl
  revert same
  decide +kernel

end Senex.Antifragility
