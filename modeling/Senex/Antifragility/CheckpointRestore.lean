import Senex.Antifragility.Checkpoint
import Senex.Foundation.TextOrder
import Mathlib

/-! # Restoring a checkpoint

A restore is right as long as no step takes a checkpoint's state away: no object of a latest clean checkpoint is
changed, no number of dirty snapshots pushes it out of the memory, no file of another subsystem is overwritten,
and every file can be written.
-/

namespace Senex.Antifragility

open Text

/-! ## Names of files -/

theorem fileFor_lt {name : Text} {a b : Nat} (less : a < b) (fits : b < 10 ^ 10) : fileFor name a < fileFor name b := by
  rw [fileFor, fileFor, seqText, seqText, if_pos (less.trans fits), if_pos fits]
  apply List.append_left_lt
  apply List.append_left_lt
  exact append_lt_of_length (padded_lt less fits) (by simp) _ _

/-! ## Files in order -/

section
variable {α : Type} {members : List (Text × α)} {key : Text} {value : α} {p : Text × α → Bool}

theorem filter_insert_of_neg (absent : key ∉ members.map Prod.fst) (out : p (key, value) = false) :
    (Json.insert key value members).filter p = members.filter p := by
  induction members with
  | nil => simp [Json.insert, out]
  | cons m members ih =>
      obtain ⟨k, v⟩ := m
      simp only [List.map_cons, List.mem_cons, not_or] at absent
      rw [Json.insert, if_neg absent.1]
      split
      · rw [List.filter_cons_of_neg (by simp [out])]
      · rw [List.filter_cons, List.filter_cons, ih absent.2]

/-- What is filed behind the others of its kind is the last of them. -/
theorem filter_insert_of_pos (sorted : Json.Sorted members) (absent : key ∉ members.map Prod.fst)
    (behind : ∀ m ∈ members, p m = true → m.1 < key) (into : p (key, value) = true) :
    (Json.insert key value members).filter p = members.filter p ++ [(key, value)] := by
  induction members with
  | nil => simp [Json.insert, into]
  | cons m members ih =>
      obtain ⟨k, v⟩ := m
      obtain ⟨after, rest⟩ := List.pairwise_cons.mp sorted
      simp only [List.map_cons, List.mem_cons, not_or] at absent
      rw [Json.insert, if_neg absent.1]
      split
      next less =>
        -- All that is left is behind the new one.
        have none_left : (((k, v) :: members).filter p) = [] := by
          rw [List.filter_eq_nil_iff]
          intro m member kind
          have early := behind m member kind
          rcases List.mem_cons.mp member with rfl | inner
          · exact lt_asymm less early
          · exact lt_asymm (less.trans (after m inner)) early
        rw [List.filter_cons_of_pos into, none_left, List.nil_append]
      next =>
        have tail := ih rest absent.2 fun m member => behind m (List.mem_cons_of_mem _ member)
        rw [List.filter_cons, List.filter_cons, tail]
        split <;> simp

end

namespace CheckpointWorld

variable {J : Type}

/-! ## The invariant -/

/-- The files of the snapshots of a name, in order. -/
def filesOf (name : Text) : List (J × Bool) → List (CheckpointFile J)
  | [] => []
  | (state, isClean) :: earlier => filesOf name earlier ++ [⟨name, earlier.length + 1, state, isClean⟩]

/-- Files, counters and memory are those of the snapshots. -/
structure Kept (maxPerSubsystem : Nat) (w : CheckpointWorld J) : Prop where
  sorted : Json.Sorted w.files
  keyed : ∀ m ∈ w.files, m.1 = fileFor m.2.name m.2.seq ∧ m.2.seq < 10 ^ 10 ∧ m.2.seq ≤ w.counters m.2.name
  stored : ∀ name, (w.files.filter fun m => decide (m.2.name = name)).map Prod.snd = filesOf name (w.taken name)
  counted : ∀ name, w.counters name = (w.taken name).length
  cached : ∀ name, (w.cache name).map Checkpoint.isClean = ((w.taken name).map Prod.snd).take maxPerSubsystem
  window : ∀ name, (w.taken name).any Prod.snd = true → (w.taken name).findIdx Prod.snd < maxPerSubsystem
  values : ∀ name cp, w.latestClean name = some cp → w.objects[cp.state]? = w.expected name

/-- A step that takes no checkpoint's state away. -/
def Keeps (maxPerSubsystem : Nat) (writable : Text → Bool) (w : CheckpointWorld J) : CheckpointStep J → Prop
  | .newObject _ | .restart => True
  | .mutate object _ => ∀ name cp, w.latestClean name = some cp → cp.state ≠ object
  | .takeSnapshot name object isClean =>
      w.objects[object]?.isSome = true ∧ writable (fileFor name (w.counters name + 1)) = true ∧
      w.counters name + 1 < 10 ^ 10 ∧
      (∀ f, Json.lookup (fileFor name (w.counters name + 1)) w.files = some f → f.name = name) ∧
      if isClean then 0 < maxPerSubsystem
      else (w.taken name).any Prod.snd = true → (w.taken name).findIdx Prod.snd + 1 < maxPerSubsystem

section
variable {maxPerSubsystem : Nat}

/-- Looking among the first ones is enough where the first match is among them. -/
theorem find?_take {α : Type} {p : α → Bool} {l : List α} {n : Nat}
    (inside : l.any p = true → l.findIdx p < n) : (l.take n).find? p = l.find? p := by
  induction l generalizing n with
  | nil => simp
  | cons a l ih =>
      by_cases match_ : p a = true
      · have some_room : 0 < n := by
          have := inside (by simp [match_])
          omega
        obtain ⟨n, rfl⟩ := Nat.exists_eq_add_of_lt some_room
        simp [match_]
      · have other : p a = false := by simpa using match_
        cases n with
        | zero =>
            have none_left : (a :: l).any p = false := by
              by_contra some_left
              rw [Bool.not_eq_false] at some_left
              have := inside some_left
              omega
            rw [List.take_zero, List.find?_nil, eq_comm, List.find?_eq_none]
            simpa using none_left
        | succ n =>
            rw [List.take_succ_cons, List.find?_cons, List.find?_cons, other]
            apply ih
            intro some_later
            have := inside (by simp [some_later])
            simp only [List.findIdx_cons, other, cond_false] at this
            omega

/-- The clean ones of the memory are those of the snapshots. -/
theorem Kept.find_clean {w : CheckpointWorld J} (kept : Kept maxPerSubsystem w) (name : Text) :
    (w.latestClean name).isSome = ((w.taken name).find? Prod.snd).isSome := by
  have flags := congrArg (List.find? id) (kept.cached name)
  rw [List.find?_map, ← List.map_take, List.find?_map] at flags
  have both := congrArg Option.isSome flags
  rw [Option.isSome_map, Option.isSome_map] at both
  have first := find?_take (kept.window name)
  rw [latestClean, ← first]
  exact both

theorem Kept.some_expected {w : CheckpointWorld J} (kept : Kept maxPerSubsystem w) {name : Text} {cp : Checkpoint}
    (found : w.latestClean name = some cp) : ∃ state, w.expected name = some state := by
  have some_clean := kept.find_clean name
  rw [found, Option.isSome_some, eq_comm, Option.isSome_iff_exists] at some_clean
  obtain ⟨snapshot, clean⟩ := some_clean
  exact ⟨snapshot.1, by rw [expected, clean, Option.map_some]⟩

theorem restores_of_kept {w : CheckpointWorld J} (kept : Kept maxPerSubsystem w) : w.Restores := by
  intro name
  cases found : w.latestClean name with
  | some cp => rw [restore, found, Option.bind_some, kept.values name cp found]
  | none =>
      have no_clean := kept.find_clean name
      rw [found, Option.isSome_none, eq_comm, Option.isSome_eq_false_iff, Option.isNone_iff_eq_none] at no_clean
      rw [restore, found, expected, no_clean, Option.bind_none, Option.map_none]

/-! ## Snapshots -/

theorem kept_newObject {w : CheckpointWorld J} (kept : Kept maxPerSubsystem w) (state : J) :
    Kept maxPerSubsystem { w with objects := w.objects ++ [state] } where
  sorted := kept.sorted
  keyed := kept.keyed
  stored := kept.stored
  counted := kept.counted
  cached := kept.cached
  window := kept.window
  values name cp found := by
    have value := kept.values name cp found
    obtain ⟨saved, some_value⟩ := kept.some_expected found
    rw [some_value] at value
    obtain ⟨inside, _⟩ := List.getElem?_eq_some_iff.mp value
    exact (List.getElem?_append_left inside).trans (value.trans some_value.symm)

theorem kept_mutate {w : CheckpointWorld J} (kept : Kept maxPerSubsystem w) {object : Nat} (state : J)
    (apart : ∀ name cp, w.latestClean name = some cp → cp.state ≠ object) :
    Kept maxPerSubsystem { w with objects := w.objects.set object state } where
  sorted := kept.sorted
  keyed := kept.keyed
  stored := kept.stored
  counted := kept.counted
  cached := kept.cached
  window := kept.window
  values name cp found := by
    have other := apart name cp found
    exact (List.getElem?_set_ne other.symm).trans (kept.values name cp found)

/-- The world behind a snapshot that has been written. -/
def snapshotted (maxPerSubsystem : Nat) (w : CheckpointWorld J) (name : Text) (object : Nat) (state : J)
    (isClean : Bool) : CheckpointWorld J where
  objects := w.objects
  cache := Function.update w.cache name
    ((⟨name, w.counters name + 1, object, isClean⟩ :: w.cache name).take maxPerSubsystem)
  counters := Function.update w.counters name (w.counters name + 1)
  files := Json.insert (fileFor name (w.counters name + 1)) ⟨name, w.counters name + 1, state, isClean⟩ w.files
  taken := Function.update w.taken name ((state, isClean) :: w.taken name)

theorem takeSnapshot_eq {writable : Text → Bool} {w : CheckpointWorld J} {name : Text} {object : Nat} {state : J}
    (held : w.objects[object]? = some state) (written : writable (fileFor name (w.counters name + 1)) = true)
    (isClean : Bool) : w.takeSnapshot maxPerSubsystem writable name object isClean =
      snapshotted maxPerSubsystem w name object state isClean := by
  simp only [takeSnapshot, held, written, if_true]
  rfl

section
variable {w : CheckpointWorld J} (kept : Kept maxPerSubsystem w) {name : Text} (object : Nat) (state : J)
  (isClean : Bool)
include kept

/-- No file is there yet under a name that no other subsystem has a file under. -/
theorem fresh_file (own : ∀ f, Json.lookup (fileFor name (w.counters name + 1)) w.files = some f → f.name = name)
    (few : w.counters name + 1 < 10 ^ 10) :
    fileFor name (w.counters name + 1) ∉ w.files.map Prod.fst := by
  intro taken
  obtain ⟨m, member, same⟩ := List.mem_map.mp taken
  have found : Json.lookup (fileFor name (w.counters name + 1)) w.files = some m.2 := by
    rw [Json.lookup_eq_some_iff kept.sorted.distinct, ← same]
    exact member
  obtain ⟨key, _, bound⟩ := kept.keyed m member
  rw [own m.2 found] at key bound
  have less := @fileFor_lt name m.2.seq (w.counters name + 1) (by omega) few
  rw [← key, same] at less
  exact lt_irrefl _ less

theorem keyed_snapshot (few : w.counters name + 1 < 10 ^ 10) :
    ∀ m ∈ (snapshotted maxPerSubsystem w name object state isClean).files, m.1 = fileFor m.2.name m.2.seq ∧
      m.2.seq < 10 ^ 10 ∧
      m.2.seq ≤ (snapshotted maxPerSubsystem w name object state isClean).counters m.2.name := by
  intro m member
  rcases Json.mem_insert member with rfl | earlier
  · exact ⟨rfl, few, by simp [snapshotted]⟩
  · obtain ⟨key, bound, counted⟩ := kept.keyed m earlier
    refine ⟨key, bound, ?_⟩
    by_cases same : m.2.name = name
    · rw [same] at counted ⊢
      simp only [snapshotted, Function.update_self]
      omega
    · simpa [snapshotted, same] using counted

theorem stored_snapshot (own : ∀ f, Json.lookup (fileFor name (w.counters name + 1)) w.files = some f → f.name = name)
    (few : w.counters name + 1 < 10 ^ 10) (other : Text) :
    (((snapshotted maxPerSubsystem w name object state isClean).files.filter
      fun m => decide (m.2.name = other)).map Prod.snd) =
      filesOf other ((snapshotted maxPerSubsystem w name object state isClean).taken other) := by
  have absent := fresh_file kept own few
  by_cases same : other = name
  · subst same
    have behind : ∀ m ∈ w.files, decide (m.2.name = other) = true → m.1 < fileFor other (w.counters other + 1) := by
      intro m member kind
      obtain ⟨key, _, bound⟩ := kept.keyed m member
      rw [of_decide_eq_true kind] at key bound
      rw [key]
      exact fileFor_lt (by omega) few
    simp only [snapshotted, Function.update_self]
    rw [filter_insert_of_pos kept.sorted absent behind (by simp), List.map_append, kept.stored, filesOf,
      kept.counted]
    rfl
  · simp only [snapshotted, Function.update_of_ne same]
    rw [filter_insert_of_neg absent (by simpa using Ne.symm same), kept.stored]

theorem window_snapshot (room : if isClean then 0 < maxPerSubsystem
      else (w.taken name).any Prod.snd = true → (w.taken name).findIdx Prod.snd + 1 < maxPerSubsystem)
    (other : Text) (some_clean : ((snapshotted maxPerSubsystem w name object state isClean).taken other).any Prod.snd =
      true) : ((snapshotted maxPerSubsystem w name object state isClean).taken other).findIdx Prod.snd < maxPerSubsystem := by
  by_cases same : other = name
  · subst same
    simp only [snapshotted, Function.update_self] at some_clean ⊢
    cases isClean with
    | true =>
        rw [if_pos rfl] at room
        simpa [List.findIdx_cons] using room
    | false =>
        rw [if_neg Bool.false_ne_true] at room
        have bound := room (by simpa using some_clean)
        simpa [List.findIdx_cons] using bound
  · simp only [snapshotted, Function.update_of_ne same] at some_clean ⊢
    exact kept.window other some_clean

theorem cached_snapshot (other : Text) :
    ((snapshotted maxPerSubsystem w name object state isClean).cache other).map Checkpoint.isClean =
      (((snapshotted maxPerSubsystem w name object state isClean).taken other).map Prod.snd).take maxPerSubsystem := by
  by_cases same : other = name
  · subst same
    simp only [snapshotted, Function.update_self, List.map_take, List.map_cons, kept.cached other]
    cases maxPerSubsystem with
    | zero => rfl
    | succ n => simp [List.take_take]
  · simp only [snapshotted, Function.update_of_ne same, kept.cached other]

theorem values_snapshot (held : w.objects[object]? = some state) (other : Text) (cp : Checkpoint)
    (found : (snapshotted maxPerSubsystem w name object state isClean).latestClean other = some cp) :
    w.objects[cp.state]? = (snapshotted maxPerSubsystem w name object state isClean).expected other := by
  by_cases same : other = name
  · subst same
    simp only [latestClean, snapshotted, expected, Function.update_self] at found ⊢
    cases maxPerSubsystem with
    | zero => exact nomatch found
    | succ n =>
        rw [List.take_succ_cons] at found
        cases isClean with
        | true =>
            rw [List.find?_cons_of_pos rfl, Option.some.injEq] at found
            rw [← found, List.find?_cons_of_pos rfl]
            exact held
        | false =>
            rw [List.find?_cons_of_neg Bool.false_ne_true] at found
            rw [List.find?_cons_of_neg Bool.false_ne_true]
            -- What is found among the first ones is found in the whole memory.
            have whole : w.latestClean other = some cp := by
              rw [latestClean, ← List.take_append_drop n (w.cache other), List.find?_append, found, Option.some_or]
            exact kept.values other cp whole
  · simp only [latestClean, snapshotted, expected, Function.update_of_ne same] at found ⊢
    exact kept.values other cp found

theorem kept_snapshot {writable : Text → Bool}
    (keeps : Keeps maxPerSubsystem writable w (.takeSnapshot name object isClean)) :
    Kept maxPerSubsystem (w.takeSnapshot maxPerSubsystem writable name object isClean) := by
  obtain ⟨some_object, written, few, own, room⟩ := keeps
  obtain ⟨state, held⟩ := Option.isSome_iff_exists.mp some_object
  rw [takeSnapshot_eq held written]
  exact {
    sorted := Json.sorted_insert _ _ kept.sorted
    keyed := keyed_snapshot kept object state isClean few
    stored := stored_snapshot kept object state isClean own few
    counted := by
      intro other
      by_cases same : other = name
      · subst same
        simp [snapshotted, kept.counted]
      · simp [snapshotted, same, kept.counted]
    cached := cached_snapshot kept object state isClean
    window := window_snapshot kept object state isClean room
    values := values_snapshot kept object state isClean held }

end

/-! ## Restarts -/

/-- The files of a name, newest first. -/
def newest (name : Text) (files : List (CheckpointFile J)) : List (CheckpointFile J) :=
  (files.filter fun f => decide (f.name = name)).reverse

/-- A manager that has read some files: each checkpoint has an object of its own, with the state of its file. -/
structure Loaded (maxPerSubsystem : Nat) (files : List (CheckpointFile J)) (w : CheckpointWorld J) : Prop where
  counters : ∀ name, w.counters name = ((newest name files).map CheckpointFile.seq).foldr max 0
  cache : ∀ name, (w.cache name).map (fun cp => (cp.isClean, w.objects[cp.state]?)) =
    ((newest name files).map fun f => (f.isClean, some f.state)).take maxPerSubsystem

theorem loaded_forget (w : CheckpointWorld J) : Loaded maxPerSubsystem [] w.forget where
  counters _ := rfl
  cache _ := by simp [forget, newest]

theorem newest_concat (name : Text) (files : List (CheckpointFile J)) (f : CheckpointFile J) :
    newest name (files ++ [f]) = if f.name = name then f :: newest name files else newest name files := by
  by_cases same : f.name = name <;> simp [newest, same]

theorem loaded_loadFile {files : List (CheckpointFile J)} {w : CheckpointWorld J}
    (loaded : Loaded maxPerSubsystem files w) (f : CheckpointFile J) :
    Loaded maxPerSubsystem (files ++ [f]) (w.loadFile maxPerSubsystem f) := by
  -- A further object does not change the ones that are there.
  have older : ∀ name, (w.cache name).map (fun cp => (cp.isClean, (w.objects ++ [f.state])[cp.state]?)) =
      (w.cache name).map fun cp => (cp.isClean, w.objects[cp.state]?) := by
    intro name
    apply List.map_congr_left
    intro cp member
    have listed : (cp.isClean, w.objects[cp.state]?) ∈
        ((newest name files).map fun f => (f.isClean, some f.state)).take maxPerSubsystem := by
      rw [← loaded.cache name]
      exact List.mem_map.mpr ⟨cp, member, rfl⟩
    obtain ⟨g, _, same⟩ := List.mem_map.mp (List.mem_of_mem_take listed)
    have value : w.objects[cp.state]? = some g.state := (congrArg Prod.snd same).symm
    obtain ⟨inside, _⟩ := List.getElem?_eq_some_iff.mp value
    rw [List.getElem?_append_left inside]
  constructor
  · intro name
    rw [newest_concat]
    by_cases same : f.name = name
    · subst same
      simp [loadFile, loaded.counters, max_comm]
    · simp [loadFile, same, Ne.symm same, loaded.counters]
  · intro name
    rw [newest_concat]
    by_cases same : f.name = name
    · subst same
      simp only [loadFile, Function.update_self, if_true, List.map_take, List.map_cons, older, loaded.cache,
        List.getElem?_concat_length]
      cases maxPerSubsystem with
      | zero => rfl
      | succ n => simp [List.take_take]
    · simp only [loadFile, same, Function.update_of_ne (Ne.symm same), if_false, older, loaded.cache]

theorem loaded_foldl (w : CheckpointWorld J) (files : List (CheckpointFile J)) :
    Loaded maxPerSubsystem files (files.foldl (loadFile maxPerSubsystem) w.forget) := by
  induction files using List.reverseRecOn with
  | nil => exact loaded_forget w
  | append_singleton files f ih =>
      rw [List.foldl_append, List.foldl_cons, List.foldl_nil]
      exact loaded_loadFile ih f

theorem reverse_filesOf (name : Text) (state : J) (isClean : Bool) (earlier : List (J × Bool)) :
    (filesOf name ((state, isClean) :: earlier)).reverse =
      ⟨name, earlier.length + 1, state, isClean⟩ :: (filesOf name earlier).reverse := by
  simp [filesOf]

theorem seqs_filesOf (name : Text) (snapshots : List (J × Bool)) :
    ((filesOf name snapshots).reverse.map CheckpointFile.seq).foldr max 0 = snapshots.length := by
  induction snapshots with
  | nil => rfl
  | cons snapshot earlier ih =>
      rw [reverse_filesOf, List.map_cons, List.foldr_cons, ih, List.length_cons]
      exact max_eq_left (Nat.le_succ _)

theorem states_filesOf (name : Text) (snapshots : List (J × Bool)) :
    (filesOf name snapshots).reverse.map (fun f => (f.isClean, some f.state)) =
      snapshots.map fun snapshot => (snapshot.2, some snapshot.1) := by
  induction snapshots with
  | nil => rfl
  | cons snapshot earlier ih => rw [reverse_filesOf, List.map_cons, ih, List.map_cons]

theorem foldl_loadFile_disk (files : List (CheckpointFile J)) (w : CheckpointWorld J) :
    (files.foldl (loadFile maxPerSubsystem) w).files = w.files ∧
      (files.foldl (loadFile maxPerSubsystem) w).taken = w.taken := by
  induction files generalizing w with
  | nil => exact ⟨rfl, rfl⟩
  | cons f files ih => exact ih (w.loadFile maxPerSubsystem f)

section
variable {w : CheckpointWorld J} (kept : Kept maxPerSubsystem w)
include kept

theorem newest_files (name : Text) :
    newest name (w.files.map Prod.snd) = (filesOf name (w.taken name)).reverse := by
  rw [newest, List.filter_map, ← kept.stored name]
  rfl

theorem restart_cache (name : Text) :
    ((w.loadAllFromDisk maxPerSubsystem).cache name).map
      (fun cp => (cp.isClean, (w.loadAllFromDisk maxPerSubsystem).objects[cp.state]?)) =
      ((w.taken name).take maxPerSubsystem).map fun snapshot => (snapshot.2, some snapshot.1) := by
  have cache := (@loaded_foldl J maxPerSubsystem w (w.files.map Prod.snd)).cache name
  rw [newest_files kept, states_filesOf] at cache
  rw [loadAllFromDisk, cache, List.map_take]

theorem kept_restart : Kept maxPerSubsystem (w.loadAllFromDisk maxPerSubsystem) := by
  obtain ⟨files, taken⟩ := @foldl_loadFile_disk J maxPerSubsystem (w.files.map Prod.snd) w.forget
  have counters : ∀ name, (w.loadAllFromDisk maxPerSubsystem).counters name = (w.taken name).length := by
    intro name
    have loaded := (@loaded_foldl J maxPerSubsystem w (w.files.map Prod.snd)).counters name
    rwa [newest_files kept, seqs_filesOf] at loaded
  have files_eq : (w.loadAllFromDisk maxPerSubsystem).files = w.files := files
  have taken_eq : (w.loadAllFromDisk maxPerSubsystem).taken = w.taken := taken
  refine ⟨by rw [files_eq]; exact kept.sorted, ?_, ?_, ?_, ?_, ?_, ?_⟩
  · intro m member
    rw [files_eq] at member
    rw [counters, ← kept.counted]
    exact kept.keyed m member
  · intro name
    rw [files_eq, taken_eq]
    exact kept.stored name
  · intro name
    rw [taken_eq]
    exact counters name
  · intro name
    have flags := congrArg (List.map Prod.fst) (restart_cache kept name)
    rw [List.map_map, List.map_map] at flags
    rw [taken_eq, ← List.map_take]
    exact flags
  · intro name some_clean
    rw [taken_eq] at some_clean ⊢
    exact kept.window name some_clean
  · intro name cp found
    have pairs := congrArg (List.find? Prod.fst) (restart_cache kept name)
    rw [List.find?_map, List.find?_map] at pairs
    have clean : ((w.loadAllFromDisk maxPerSubsystem).cache name).find? (fun cp => cp.isClean) = some cp := found
    have first := find?_take (kept.window name)
    rw [Function.comp_def, clean, Option.map_some, Function.comp_def, first] at pairs
    rw [expected, taken_eq]
    cases snapshot : (w.taken name).find? Prod.snd with
    | none =>
        rw [snapshot] at pairs
        exact nomatch pairs
    | some s =>
        rw [snapshot, Option.map_some, Option.some.injEq] at pairs
        exact congrArg Prod.snd pairs

end

theorem kept_initial : Kept maxPerSubsystem (initial : CheckpointWorld J) where
  sorted := List.Pairwise.nil
  keyed m member := nomatch member
  stored _ := rfl
  counted _ := rfl
  cached _ := by simp [initial]
  window name some_clean := nomatch some_clean
  values name cp found := nomatch found

theorem kept_step {writable : Text → Bool} (w : CheckpointWorld J) (a : CheckpointStep J)
    (kept : Kept maxPerSubsystem w) (keeps : Keeps maxPerSubsystem writable w a) :
    Kept maxPerSubsystem (w.step maxPerSubsystem writable a) := by
  cases a with
  | newObject state => exact kept_newObject kept state
  | mutate object state => exact kept_mutate kept state keeps
  | takeSnapshot name object isClean => exact kept_snapshot kept object isClean keeps
  | restart => exact kept_restart kept

end

/-- Whatever the snapshots, changes and restarts, a restore is right while they take no checkpoint's state away. -/
theorem restores_of_keeps (maxPerSubsystem : Nat) (writable : Text → Bool) (steps : List (CheckpointStep J))
    (keeps : Allowed (step maxPerSubsystem writable) (Keeps maxPerSubsystem writable) initial steps) :
    Restores (run (step maxPerSubsystem writable) initial steps) :=
  restores_of_kept (run_invariant kept_step kept_initial keeps)

/-- A clean snapshot, a dirty one, and a restart. -/
def cleanThenDirty : List (CheckpointStep Json) :=
  [.newObject (.str (txt "first")), .takeSnapshot (txt "engine") 0 true, .newObject (.str (txt "second")),
    .takeSnapshot (txt "engine") 1 false, .restart]

theorem restores_of_keeps_cleanThenDirty :
    Restores (run (step 20 fun _ => true) (initial : CheckpointWorld Json) cleanThenDirty) := by
  refine restores_of_keeps 20 (fun _ => true) cleanThenDirty ⟨trivial, ⟨rfl, rfl, ?_, ?_, ?_⟩, trivial,
    ⟨rfl, rfl, ?_, ?_, ?_⟩, trivial, trivial⟩
  · decide
  · exact fun f found => nomatch found
  · decide
  · decide
  · intro f found
    have absent : Json.lookup (fileFor (txt "engine") 2)
        (run (step 20 fun _ => true) (initial : CheckpointWorld Json) (cleanThenDirty.take 3)).files = none := by
      decide +kernel
    exact nomatch absent.symm.trans found
  · decide

/-- A state that changes after its snapshot. -/
def changedLater : List (CheckpointStep Json) :=
  [.newObject (.str (txt "first")), .takeSnapshot (txt "engine") 0 true, .mutate 0 (.str (txt "second"))]

/-- A clean snapshot and then twenty dirty ones. -/
def twentyDirty : List (CheckpointStep Json) :=
  [.newObject (.str (txt "first")), .takeSnapshot (txt "engine") 0 true] ++
    List.replicate 20 (.takeSnapshot (txt "engine") 0 false)

/-- Two subsystems whose names are one file name. -/
def oneFileName : List (CheckpointStep Json) :=
  [.newObject (.str (txt "first")), .takeSnapshot (txt "risk/btc") 0 true, .takeSnapshot (txt "risk:btc") 0 true, .restart]

/-- The changed state is restored, and the others are lost. -/
theorem not_restores :
    ¬ Restores (run (step 20 fun _ => true) (initial : CheckpointWorld Json) changedLater) ∧
    ¬ Restores (run (step 20 fun _ => true) (initial : CheckpointWorld Json) twentyDirty) ∧
    ¬ Restores (run (step 20 fun _ => true) (initial : CheckpointWorld Json) oneFileName) := by
  refine ⟨?_, ?_, ?_⟩
  · intro restores
    exact absurd (restores (txt "engine")) (by decide +kernel)
  · intro restores
    exact absurd (restores (txt "engine")) (by decide +kernel)
  · intro restores
    exact absurd (restores (txt "risk/btc")) (by decide +kernel)

end CheckpointWorld

end Senex.Antifragility
