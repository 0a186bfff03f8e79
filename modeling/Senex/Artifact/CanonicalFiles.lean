import Mathlib.Data.List.Nodup
import Senex.Artifact.BuildDigest

/-! # The files of a build

In a tree of regular files and directories the walk finds each file that counts once (`IsTree.walk`), and
two trees have one digest just if they have the same of these files (`canonicalBuildDigest_iff`).
-/

namespace Senex.Artifact

open Text Framing

/-! ## Steps one after another -/

section

variable {α β : Type} {step : α → Except Failure (List β)}

/-- What a step gives, nothing where it fails. -/
def given : Except Failure (List β) → List β
  | .ok out => out
  | .error _ => []

theorem bind_eq_ok {γ δ : Type} {x : Except Failure γ} {next : γ → Except Failure δ} {out : δ} :
    x >>= next = .ok out ↔ ∃ c, x = .ok c ∧ next c = .ok out := by
  cases x with
  | error failure => simp [bind, Except.bind]
  | ok c => simp [bind, Except.bind]

theorem refuseIf_eq_ok {failed : Bool} {message : Text} {u : Unit} : refuseIf failed message = .ok u ↔ failed = false := by
  cases failed <;> simp [refuseIf, refuse]

theorem gather_eq_ok {give : α → List β} {items : List α} (each : ∀ a ∈ items, step a = .ok (give a)) :
    gather step items = .ok (items.flatMap give) := by
  induction items with
  | nil => rfl
  | cons a items ih =>
      have rest := ih fun b member => each b (.tail _ member)
      rw [gather, each a (.head _), rest]
      rfl

theorem gather_cases {items : List α} {out : List β} (done : gather step items = .ok out) :
    (∀ a ∈ items, step a = .ok (given (step a))) ∧ out = items.flatMap fun a => given (step a) := by
  induction items generalizing out with
  | nil =>
      cases done
      exact ⟨by simp, rfl⟩
  | cons a items ih =>
      obtain ⟨here, first, done⟩ := bind_eq_ok.mp done
      obtain ⟨rest, later, done⟩ := bind_eq_ok.mp done
      cases done
      obtain ⟨each, rfl⟩ := ih later
      refine ⟨?_, by simp [first, given]⟩
      intro b member
      rcases List.mem_cons.mp member with rfl | inside
      · rw [first, given]
      · exact each b inside

end

/-! ## Trees -/

/-- A name that a directory can hold. -/
structure IsName (name : Text) : Prop where
  some : name ≠ []
  notSelf : name ≠ txt "."
  notParent : name ≠ txt ".."
  noSlash : 47 ∉ name

instance (name : Text) : Decidable (IsName name) :=
  decidable_of_iff (name ≠ [] ∧ name ≠ txt "." ∧ name ≠ txt ".." ∧ 47 ∉ name)
    ⟨fun h => ⟨h.1, h.2.1, h.2.2.1, h.2.2.2⟩, fun h => ⟨h.some, h.notSelf, h.notParent, h.noSlash⟩⟩

/-- Regular files and directories. -/
inductive IsTree : Item → Prop
  | file (data : Bytes) : IsTree (.file data)
  | directory {children : List (Text × Item)} (distinct : (children.map Prod.fst).Nodup)
      (named : ∀ c ∈ children, IsName c.1) (below : ∀ c ∈ children, IsTree c.2) : IsTree (.directory children)

theorem IsTree.child {item next : Item} {name : Text} (tree : IsTree item) (there : item.child? name = some next) :
    IsName name ∧ IsTree next := by
  cases tree with
  | file data => cases there
  | directory distinct named below =>
      have member := Dict.mem_of_lookup there
      exact ⟨named _ member, below _ member⟩

theorem IsTree.at? {item next : Item} {path : List Text} (tree : IsTree item) (there : item.at? path = some next) :
    (∀ name ∈ path, IsName name) ∧ IsTree next := by
  induction path generalizing item with
  | nil =>
      cases there
      exact ⟨by simp, tree⟩
  | cons name path ih =>
      obtain ⟨child, here, rest⟩ := Option.bind_eq_some_iff.mp there
      obtain ⟨named, below⟩ := tree.child here
      obtain ⟨others, found⟩ := ih below rest
      refine ⟨?_, found⟩
      intro other member
      rcases List.mem_cons.mp member with rfl | inside
      · exact named
      · exact others other inside

/-- In a tree the check goes down to what stands there. -/
theorem assertNoSymlinkChain_iff {relative : Text} {item next : Item} {path : List Text} (tree : IsTree item)
    (named : ∀ name ∈ path, IsName name) :
    assertNoSymlinkChain relative item path = .ok next ↔ item.at? path = some next := by
  induction path generalizing item with
  | nil => simp [assertNoSymlinkChain, Item.at?]
  | cons name path ih =>
      have isName := named name (.head _)
      have plain : [[], txt ".", txt ".."].contains name = false := by
        simp [isName.some, isName.notSelf, isName.notParent]
      rw [assertNoSymlinkChain, plain, Item.at?]
      cases here : item.child? name with
      | none => simp [refuse]
      | some child =>
          have below := (tree.child here).2
          cases below with
          | file data => exact ih (.file data) fun n inside => named n (.tail _ inside)
          | directory distinct valid deeper =>
              exact ih (.directory distinct valid deeper) fun n inside => named n (.tail _ inside)

theorem readRegularFile_iff {base : Item} {path : List Text} {data : Bytes} (tree : IsTree base)
    (named : ∀ name ∈ path, IsName name) :
    readRegularFile base path = .ok data ↔ base.at? path = some (.file data) := by
  have chain (next : Item) : assertNoSymlinkChain (posix path) base path = .ok next ↔ base.at? path = some next :=
    assertNoSymlinkChain_iff tree named
  rw [readRegularFile]
  cases checked : assertNoSymlinkChain (posix path) base path with
  | error e =>
      constructor
      · intro read
        cases read
      · intro there
        cases checked.symm.trans ((chain _).mpr there)
  | ok next =>
      rw [(chain next).mp checked, Option.some.injEq]
      cases next with
      | file own => simp [bind, Except.bind, pure, Except.pure]
      | _ => simp [bind, Except.bind, refuse]

/-! ## The walk -/

/-- No path on the way down is excluded. -/
def Clear (above : List Text) : List Text → Prop
  | [] => True
  | name :: path => excluded (above ++ [name]) = false ∧ Clear (above ++ [name]) path

/-- A file below an item, that is not excluded. -/
def Below (above : List Text) (item : Item) (path : List Text) : Prop :=
  ∃ below, below ≠ [] ∧ path = above ++ below ∧ Clear above below ∧ ∃ data, item.at? below = some (.file data)

/-- What an entry contributes to the walk. -/
def Found.gives (above : List Text) (entry : Found) : List (List Text) :=
  if excluded (above ++ [entry.name]) then []
  else if entry.inDirnames then given entry.below
  else [above ++ [entry.name]]

theorem screen_eq_ok {above : List Text} {entries : List Found} (plain : ∀ entry ∈ entries, entry.isLink = false) :
    screen above entries = .ok ((sortedBy Found.name entries).flatMap fun entry =>
      if excluded (above ++ [entry.name]) then [] else [entry]) := by
  apply gather_eq_ok
  intro entry member
  have noLink := plain entry ((mem_sortedBy _).mp member)
  dsimp only
  split
  · rfl
  · rw [noLink]
    rfl

/-- The order of a directory's entries, and that files come first, changes the order of the files only. -/
theorem visit_perm {above : List Text} {entries : List Found} (plain : ∀ entry ∈ entries, entry.isLink = false)
    (done : ∀ entry ∈ entries, entry.below = .ok (given entry.below)) :
    ∃ files, visit above entries = .ok files ∧ files.Perm (entries.flatMap (Found.gives above)) := by
  let among (p : Found → Bool) := sortedBy Found.name (entries.filter p)
  let admitted (entry : Found) := if excluded (above ++ [entry.name]) then [] else [entry]
  have of_among {p : Found → Bool} {entry : Found} (inside : entry ∈ among p) : entry ∈ entries ∧ p entry = true :=
    List.mem_filter.mp ((mem_sortedBy _).mp inside)
  have admits (p : Found → Bool) : screen above (entries.filter p) = .ok ((among p).flatMap admitted) :=
    screen_eq_ok fun entry inside => plain entry (List.mem_of_mem_filter inside)
  have below : gather Found.below ((among (·.inDirnames)).flatMap admitted) =
      .ok (((among (·.inDirnames)).flatMap admitted).flatMap fun entry => given entry.below) := by
    apply gather_eq_ok
    intro entry inside
    obtain ⟨own, member, same⟩ := List.mem_flatMap.mp inside
    have itself : entry = own := by
      simp only [admitted] at same
      split at same
      · cases same
      · exact List.mem_singleton.mp same
    exact done entry (itself ▸ (of_among member).1)
  have files : ((among (!·.inDirnames)).flatMap admitted).map (fun entry => above ++ [entry.name]) =
      (among (!·.inDirnames)).flatMap (Found.gives above) := by
    rw [List.map_flatMap]
    apply List.flatMap_congr
    intro entry inside
    have notDir : entry.inDirnames = false := by simpa using (of_among inside).2
    simp only [admitted, Found.gives, notDir]
    split <;> rfl
  have dirs : (((among (·.inDirnames)).flatMap admitted).flatMap fun entry => given entry.below) =
      (among (·.inDirnames)).flatMap (Found.gives above) := by
    rw [List.flatMap_assoc]
    apply List.flatMap_congr
    intro entry inside
    have dir : entry.inDirnames = true := (of_among inside).2
    simp only [admitted, Found.gives, dir]
    split <;> simp
  refine ⟨_, by rw [visit, admits, admits]; simp only [bind, Except.bind, below]; rfl, ?_⟩
  rw [files, dirs]
  have unsorted : (among (!·.inDirnames) ++ among (·.inDirnames)).Perm entries := by
    calc (among (!·.inDirnames) ++ among (·.inDirnames)).Perm
          (entries.filter (!·.inDirnames) ++ entries.filter (·.inDirnames)) :=
        (sortedBy_perm _ _).append (sortedBy_perm _ _)
      List.Perm _ (entries.filter (·.inDirnames) ++ entries.filter (!·.inDirnames)) := List.perm_append_comm
      List.Perm _ entries := List.filter_append_perm _ entries
  rw [← List.flatMap_append]
  exact unsorted.flatMap_right _

/-- The entry that the walk makes of a child. -/
def entryOf (above : List Text) (c : Text × Item) : Found :=
  ⟨c.1, c.2.inDirnames, c.2.isLink, walk (above ++ [c.1]) c.2⟩

theorem entriesBelow_eq (above : List Text) (children : List (Text × Item)) :
    entriesBelow above children = children.map (entryOf above) := by
  induction children with
  | nil => simp only [entriesBelow, List.map_nil]
  | cons c rest ih => simp only [entriesBelow, ih, List.map_cons, entryOf]

/-- A file at or below a child that is not excluded. -/
def Reached (above : List Text) (c : Text × Item) (path : List Text) : Prop :=
  ∃ rest, path = above ++ c.1 :: rest ∧ Clear above (c.1 :: rest) ∧ ∃ data, c.2.at? rest = some (.file data)

theorem below_iff {above : List Text} {children : List (Text × Item)} (distinct : (children.map Prod.fst).Nodup)
    (path : List Text) : Below above (.directory children) path ↔ ∃ c ∈ children, Reached above c path := by
  constructor
  · rintro ⟨_ | ⟨name, rest⟩, some, rfl, clear, data, there⟩
    · exact absurd rfl some
    · obtain ⟨child, here, found⟩ := Option.bind_eq_some_iff.mp there
      exact ⟨(name, child), Dict.mem_of_lookup here, rest, rfl, clear, data, found⟩
  · rintro ⟨⟨name, child⟩, member, rest, rfl, clear, data, found⟩
    have here : Dict.lookup name children = some child := Dict.get?_of_mem (d := ⟨children, distinct⟩) member
    exact ⟨name :: rest, List.cons_ne_nil _ _, rfl, clear, data, Option.bind_eq_some_iff.mpr ⟨child, here, found⟩⟩

theorem reached_iff {above : List Text} {name : Text} {child : Item} {path : List Text} :
    Reached above (name, child) path ↔ excluded (above ++ [name]) = false ∧
      (Below (above ++ [name]) child path ∨ path = above ++ [name] ∧ ∃ data, child = .file data) := by
  constructor
  · rintro ⟨_ | ⟨next, rest⟩, rfl, clear, data, there⟩
    · exact ⟨clear.1, .inr ⟨rfl, data, Option.some.inj there⟩⟩
    · exact ⟨clear.1, .inl ⟨next :: rest, List.cons_ne_nil _ _, by simp, clear.2, data, there⟩⟩
  · rintro ⟨kept, ⟨rest, -, rfl, clear, data, there⟩ | ⟨rfl, data, rfl⟩⟩
    · exact ⟨rest, by simp, ⟨kept, clear⟩, data, there⟩
    · exact ⟨[], rfl, ⟨kept, trivial⟩, data, rfl⟩

/-- The walk of a tree finds each file once that is not excluded. -/
theorem IsTree.walk {item : Item} (tree : IsTree item) (above : List Text) :
    ∃ files, walk above item = .ok files ∧ files.Nodup ∧ ∀ path, path ∈ files ↔ Below above item path := by
  induction tree generalizing above with
  | file data =>
      refine ⟨[], by simp only [Artifact.walk], .nil, ?_⟩
      intro path
      constructor
      · intro member
        cases member
      · rintro ⟨_ | ⟨name, rest⟩, some, -, -, data, there⟩
        · exact absurd rfl some
        · cases there
  | @directory children distinct named below ih =>
      have gives (c : Text × Item) (member : c ∈ children) : (entryOf above c).isLink = false ∧
          (entryOf above c).below = .ok (given (entryOf above c).below) ∧ ((entryOf above c).gives above).Nodup ∧
          ∀ path, path ∈ (entryOf above c).gives above ↔ Reached above c path := by
        obtain ⟨files, walked, nodup, members⟩ := ih c member (above ++ [c.1])
        have plain := below c member
        obtain ⟨name, child⟩ := c
        refine ⟨by cases plain <;> rfl, by simp only [entryOf, walked, given], ?_, fun path => ?_⟩
        · simp only [Found.gives, entryOf, walked, given]
          split_ifs
          · exact .nil
          · exact nodup
          · exact List.nodup_singleton _
        · rw [reached_iff, ← members]
          cases plain with
          | file data =>
              simp only [Artifact.walk, Except.ok.injEq] at walked
              by_cases out : excluded (above ++ [name]) = true <;>
                simp [Found.gives, entryOf, Item.inDirnames, out, ← walked]
          | directory =>
              by_cases out : excluded (above ++ [name]) = true <;>
                simp [Found.gives, entryOf, Item.inDirnames, out, walked, given]
      obtain ⟨files, visited, perm⟩ := @visit_perm above (children.map (entryOf above))
        (List.forall_mem_map.mpr fun c member => (gives c member).1)
        (List.forall_mem_map.mpr fun c member => (gives c member).2.1)
      rw [List.flatMap_map] at perm
      refine ⟨files, by rw [Artifact.walk, entriesBelow_eq, visited], perm.nodup_iff.mpr ?_, ?_⟩
      · refine List.nodup_flatMap.mpr ⟨fun c member => (gives c member).2.2.1, ?_⟩
        refine (List.pairwise_map.mp distinct).imp_of_mem fun {c d} first second differ path inC inD => differ ?_
        obtain ⟨rest, rfl, -⟩ := ((gives c first).2.2.2 path).mp inC
        obtain ⟨rest', same, -⟩ := ((gives d second).2.2.2 _).mp inD
        exact (List.cons.inj (List.append_cancel_left same)).1
      · intro path
        rw [perm.mem_iff, List.mem_flatMap, below_iff distinct]
        exact exists_congr fun c => and_congr_right fun member => (gives c member).2.2.2 path

/-! ## The files that count -/

/-- A file of the digest. -/
structure Canonical (base : Item) (path : List Text) (data : Bytes) : Prop where
  there : base.at? path = some (.file data)
  clear : Clear [] path
  placed : path ∈ canonicalFiles.map ([·]) ∨ ∃ dirname ∈ canonicalDirs, ∃ below, below ≠ [] ∧ path = dirname :: below

/-- The four directories are there. -/
def HasDirs (base : Item) : Prop := ∀ dirname ∈ canonicalDirs, ∃ children, base.child? dirname = some (.directory children)

theorem isName_canonical : ∀ name ∈ canonicalDirs ++ canonicalFiles, IsName name := by
  intro name member
  simp only [canonicalDirs, canonicalFiles, List.cons_append, List.nil_append, List.mem_cons, List.not_mem_nil,
    or_false] at member
  rcases member with rfl | rfl | rfl | rfl | rfl | rfl <;> decide

/-- A file of one of the directories. -/
def InDir (base : Item) (dirname : Text) (path : List Text) : Prop :=
  ∃ below, below ≠ [] ∧ path = dirname :: below ∧ Clear [dirname] below ∧ ∃ data, base.at? path = some (.file data)

theorem filesIn_directory {base : Item} {dirname : Text} {children : List (Text × Item)} (tree : IsTree base)
    (there : base.child? dirname = some (.directory children)) :
    ∃ files, filesIn base dirname = .ok files ∧ files.Nodup ∧ ∀ path, path ∈ files ↔ InDir base dirname path := by
  obtain ⟨isName, below⟩ := tree.child there
  have at? : base.at? [dirname] = some (.directory children) := by simp [Item.at?, there]
  have checked : assertNoSymlinkChain dirname base [dirname] = .ok (.directory children) :=
    (assertNoSymlinkChain_iff tree (by simpa using isName)).mpr at?
  obtain ⟨files, walked, nodup, members⟩ := below.walk [dirname]
  refine ⟨files, by simp only [filesIn, checked, bind, Except.bind, walked], nodup, fun path => (members path).trans ?_⟩
  apply exists_congr
  intro rest
  constructor
  · rintro ⟨some, rfl, clear, data, found⟩
    exact ⟨some, rfl, clear, data, by simp [Item.at?, there, found]⟩
  · rintro ⟨some, rfl, clear, data, found⟩
    exact ⟨some, rfl, clear, data, by simpa [Item.at?, there] using found⟩

theorem filesIn_cases {base : Item} {dirname : Text} {files : List (List Text)} (tree : IsTree base)
    (isName : IsName dirname) (done : filesIn base dirname = .ok files) :
    ∃ children, base.child? dirname = some (.directory children) := by
  obtain ⟨next, checked, done⟩ := bind_eq_ok.mp done
  have there := (assertNoSymlinkChain_iff tree (by simpa using isName)).mp checked
  cases next with
  | directory children => exact ⟨children, by simpa [Item.at?] using there⟩
  | _ => cases done

/-- What the walks give: no path twice, in the order of the texts, and the files that count. -/
theorem canonicalRuntimeFiles_cases {base : Item} {files : List (List Text)} (tree : IsTree base)
    (done : canonicalRuntimeFiles base = .ok files) :
    HasDirs base ∧ (∀ name ∈ canonicalFiles, [name] ∈ files) ∧ files.Nodup ∧
      files.Pairwise (fun a b => posix a ≤ posix b) ∧ ∀ path, path ∈ files ↔ ∃ data, Canonical base path data := by
  cases tree with
  | file data => cases done
  | @directory children distinct named below =>
      have tree : IsTree (.directory children) := .directory distinct named below
      obtain ⟨found, gathered, done⟩ := bind_eq_ok.mp done
      obtain ⟨bytes, checked, done⟩ := bind_eq_ok.mp done
      cases done
      obtain ⟨walked, rfl⟩ := gather_cases gathered
      obtain ⟨read, -⟩ := gather_cases checked
      have dirs : HasDirs (.directory children) := fun dirname member =>
        filesIn_cases tree (isName_canonical dirname (List.mem_append_left _ member)) (walked dirname member)
      have inDir (dirname : Text) (member : dirname ∈ canonicalDirs) :
          (given (filesIn (.directory children) dirname)).Nodup ∧
          ∀ path, path ∈ given (filesIn (.directory children) dirname) ↔ InDir (.directory children) dirname path := by
        obtain ⟨_, there⟩ := dirs dirname member
        obtain ⟨files, found, spec⟩ := filesIn_directory tree there
        rw [found]
        exact spec
      have nodup : (canonicalFiles.map ([·]) ++
          canonicalDirs.flatMap fun dirname => given (filesIn (.directory children) dirname)).Nodup := by
        refine List.Nodup.append (by decide) (List.nodup_flatMap.mpr ⟨fun d member => (inDir d member).1, ?_⟩) ?_
        · have apart : canonicalDirs.Pairwise (· ≠ ·) := by decide
          refine apart.imp_of_mem fun {d e} first second differ path inD inE => differ ?_
          obtain ⟨_, -, rfl, -⟩ := ((inDir d first).2 path).mp inD
          obtain ⟨_, -, same, -⟩ := ((inDir e second).2 _).mp inE
          exact (List.cons.inj same).1
        · intro path single among
          obtain ⟨name, -, rfl⟩ := List.mem_map.mp single
          obtain ⟨d, member, inside⟩ := List.mem_flatMap.mp among
          obtain ⟨rest, some, same, -⟩ := ((inDir d member).2 _).mp inside
          exact some (List.cons.inj same).2.symm
      have roots : ∀ name ∈ canonicalFiles, [name] ∈ sortedBy posix (canonicalFiles.map ([·]) ++
          canonicalDirs.flatMap fun dirname => given (filesIn (.directory children) dirname)) := by
        intro name root
        exact (mem_sortedBy _).mpr (List.mem_append_left _ (List.mem_map.mpr ⟨name, root, rfl⟩))
      refine ⟨dirs, roots, (sortedBy_perm posix _).nodup_iff.mpr nodup, sorted_sortedBy _, fun path => ?_⟩
      constructor
      · intro member
        have here := read path member
        rw [mem_sortedBy, List.mem_append] at member
        rcases member with single | among
        · obtain ⟨name, root, rfl⟩ := List.mem_map.mp single
          have isName := isName_canonical name (List.mem_append_right _ root)
          refine ⟨_, (readRegularFile_iff tree (by simpa using isName)).mp here, ⟨?_, trivial⟩, .inl single⟩
          simp only [canonicalFiles, List.mem_cons, List.not_mem_nil, or_false] at root
          rcases root with rfl | rfl <;> decide
        · obtain ⟨d, dir, inside⟩ := List.mem_flatMap.mp among
          obtain ⟨rest, some, rfl, clear, data, there⟩ := ((inDir d dir).2 _).mp inside
          refine ⟨data, there, ⟨?_, clear⟩, .inr ⟨d, dir, rest, some, rfl⟩⟩
          simp only [canonicalDirs, List.mem_cons, List.not_mem_nil, or_false] at dir
          rcases dir with rfl | rfl | rfl | rfl <;> decide
      · rintro ⟨data, canonical⟩
        rw [mem_sortedBy, List.mem_append]
        rcases canonical.placed with single | ⟨d, dir, rest, some, rfl⟩
        · exact .inl single
        · right
          refine List.mem_flatMap.mpr ⟨d, dir, ((inDir d dir).2 _).mpr ?_⟩
          exact ⟨rest, some, rfl, canonical.clear.2, data, canonical.there⟩

/-- Where the directories and the two files are there, nothing is refused. -/
theorem canonicalRuntimeFiles_ok {base : Item} (tree : IsTree base) (dirs : HasDirs base)
    (roots : ∀ name ∈ canonicalFiles, ∃ data, base.at? [name] = some (.file data)) :
    ∃ files, canonicalRuntimeFiles base = .ok files := by
  cases tree with
  | file data =>
      obtain ⟨children, there⟩ := dirs (txt "backend") (by decide)
      cases there
  | @directory children distinct named below =>
      have tree : IsTree (.directory children) := .directory distinct named below
      have walked : ∀ d ∈ canonicalDirs, filesIn (.directory children) d =
          .ok (given (filesIn (.directory children) d)) := by
        intro d member
        obtain ⟨_, there⟩ := dirs d member
        obtain ⟨files, found, -⟩ := filesIn_directory tree there
        rw [found, given]
      have read : ∀ path ∈ sortedBy posix (canonicalFiles.map ([·]) ++
          canonicalDirs.flatMap fun d => given (filesIn (.directory children) d)),
          readRegularFile (.directory children) path = .ok (given (readRegularFile (.directory children) path)) := by
        intro path member
        have there : ∃ data, Item.at? (.directory children) path = some (.file data) := by
          rw [mem_sortedBy, List.mem_append] at member
          rcases member with single | among
          · obtain ⟨name, root, rfl⟩ := List.mem_map.mp single
            exact roots name root
          · obtain ⟨d, dir, inside⟩ := List.mem_flatMap.mp among
            obtain ⟨_, there⟩ := dirs d dir
            obtain ⟨files, found, -, members⟩ := filesIn_directory tree there
            rw [found, given] at inside
            obtain ⟨_, -, -, -, data, at?⟩ := (members path).mp inside
            exact ⟨data, at?⟩
        obtain ⟨data, there⟩ := there
        rw [(readRegularFile_iff tree (tree.at? there).1).mpr there, given]
      refine ⟨sortedBy posix (canonicalFiles.map ([·]) ++
        canonicalDirs.flatMap fun d => given (filesIn (.directory children) d)), ?_⟩
      simp only [canonicalRuntimeFiles, gather_eq_ok walked, bind, Except.bind, gather_eq_ok read]
      rfl

/-! ## One order -/

theorem posix_slash {path : List Text} (some : path ≠ []) : posix path ++ [47] = path.flatMap fun name => name ++ [47] := by
  induction path with
  | nil => exact absurd rfl some
  | cons name path ih =>
      cases path with
      | nil => simp [posix]
      | cons next path =>
          rw [List.flatMap_cons, ← ih (List.cons_ne_nil _ _)]
          simp [posix, List.intercalate_cons_cons]

/-- One text is the text of one path. -/
theorem posix_inj {path other : List Text} (some : path ≠ []) (some' : other ≠ [])
    (named : ∀ name ∈ path, IsName name) (named' : ∀ name ∈ other, IsName name) (same : posix path = posix other) :
    path = other := by
  have separates : Separates IsName fun name : Text => name ++ [47] := by
    intro a b x y isName isName' equal
    simp only [List.append_assoc, List.singleton_append] at equal
    exact terminated_inj isName.noSlash isName'.noSlash equal
  apply separates.flatMap (fun _ _ => by simp) named named'
  rw [← posix_slash some, ← posix_slash some', same]

theorem Canonical.ne_nil {base : Item} {path : List Text} {data : Bytes} (canonical : Canonical base path data) :
    path ≠ [] := by
  rcases canonical.placed with single | ⟨d, -, rest, -, rfl⟩
  · obtain ⟨name, -, rfl⟩ := List.mem_map.mp single
    exact List.cons_ne_nil _ _
  · exact List.cons_ne_nil _ _

/-- The trees have the same files that count. -/
def SameFiles (base other : Item) : Prop := ∀ path data, Canonical base path data ↔ Canonical other path data

theorem SameFiles.files_eq {base other : Item} (same : SameFiles base other) (tree : IsTree base) (tree' : IsTree other)
    {files files' : List (List Text)} (done : canonicalRuntimeFiles base = .ok files)
    (done' : canonicalRuntimeFiles other = .ok files') : files = files' := by
  obtain ⟨-, -, nodup, sorted, members⟩ := canonicalRuntimeFiles_cases tree done
  obtain ⟨-, -, nodup', sorted', members'⟩ := canonicalRuntimeFiles_cases tree' done'
  have perm : files.Perm files' := by
    apply (List.perm_ext_iff_of_nodup nodup nodup').mpr
    intro path
    rw [members, members']
    exact exists_congr fun data => same path data
  refine perm.eq_of_pairwise (fun a b first second le ge => ?_) sorted sorted'
  obtain ⟨data, here⟩ := (members a).mp first
  obtain ⟨data', here'⟩ := (members' b).mp second
  exact posix_inj here.ne_nil here'.ne_nil (tree.at? here.there).1 (tree'.at? here'.there).1 (le_antisymm le ge)

/-! ## What is hashed -/

/-- What is hashed for a path with this data. -/
def framed (e : List Text × Bytes) : Bytes :=
  let pathBytes := (Utf8.encode (posix e.1)).getD []
  bigEndian 4 pathBytes.length ++ (pathBytes ++ (bigEndian 8 e.2.length ++ e.2))

/-- The lengths fit into their fields. -/
structure Fits (e : List Text × Bytes) : Prop where
  coded : ∃ pathBytes, Utf8.encode (posix e.1) = some pathBytes ∧ pathBytes.length < 256 ^ 4
  short : e.2.length < 256 ^ 8

theorem toBytes_cases {width n : Nat} {bytes : Bytes} (done : toBytes width n = .ok bytes) :
    n < 256 ^ width ∧ bytes = bigEndian width n := by
  unfold toBytes at done
  split at done
  · exact ⟨‹_›, (Except.ok.inj done).symm⟩
  · cases done

theorem encoded_cases {t : Text} {bytes : Bytes} (done : encoded t = .ok bytes) : Utf8.encode t = some bytes := by
  unfold encoded at done
  split at done
  · rw [← Except.ok.inj done]
    assumption
  · cases done

theorem frame_cases {base : Item} {path : List Text} {bytes : Bytes} (done : frame base path = .ok bytes) :
    ∃ data, readRegularFile base path = .ok data ∧ Fits (path, data) ∧ bytes = framed (path, data) := by
  obtain ⟨pathBytes, coded, done⟩ := bind_eq_ok.mp done
  obtain ⟨data, read, done⟩ := bind_eq_ok.mp done
  obtain ⟨pathLength, first, done⟩ := bind_eq_ok.mp done
  obtain ⟨dataLength, second, done⟩ := bind_eq_ok.mp done
  cases done
  obtain ⟨short, rfl⟩ := toBytes_cases first
  obtain ⟨short', rfl⟩ := toBytes_cases second
  have own := encoded_cases coded
  exact ⟨data, read, ⟨⟨pathBytes, own, short⟩, short'⟩, by simp [framed, own]⟩

/-- A file can be told from what is hashed for it. -/
theorem separates_framed :
    Separates (fun e => Fits e ∧ e.1 ≠ [] ∧ ∀ name ∈ e.1, IsName name) framed := by
  rintro ⟨path, data⟩ ⟨other, data'⟩ x y ⟨fits, some, named⟩ ⟨fits', some', named'⟩ same
  obtain ⟨pathBytes, coded, short⟩ := fits.coded
  obtain ⟨otherBytes, coded', short'⟩ := fits'.coded
  simp only [framed, coded, coded', Option.getD_some, List.append_assoc] at same
  obtain ⟨paths, rest⟩ := counted_inj short short' same
  obtain ⟨datas, tail⟩ := counted_inj fits.short fits'.short rest
  have texts : posix path = posix other := by
    have decoded := Utf8.decode_encode coded
    rw [paths, Utf8.decode_encode coded'] at decoded
    exact (Option.some.inj decoded).symm
  obtain rfl := posix_inj some some' named named' texts
  obtain rfl : data = data' := datas
  exact ⟨rfl, tail⟩

theorem buildStream_cases {base : Item} {files : List (List Text)} {stream : Bytes}
    (done : buildStream base = .ok (files, stream)) :
    canonicalRuntimeFiles base = .ok files ∧ gather (frame base) files = .ok stream := by
  obtain ⟨own, listed, done⟩ := bind_eq_ok.mp done
  obtain ⟨bytes, hashed, done⟩ := bind_eq_ok.mp done
  cases done
  exact ⟨listed, hashed⟩

/-- What is hashed are the files that count, one after another. -/
theorem exists_entries {base : Item} {files : List (List Text)} {stream : Bytes} (tree : IsTree base)
    (done : buildStream base = .ok (files, stream)) : ∃ entries : List (List Text × Bytes),
      stream = entries.flatMap framed ∧ (∀ e ∈ entries, Fits e ∧ e.1 ≠ [] ∧ ∀ name ∈ e.1, IsName name) ∧
      ∀ path data, (path, data) ∈ entries ↔ Canonical base path data := by
  obtain ⟨listed, hashed⟩ := buildStream_cases done
  obtain ⟨each, rfl⟩ := gather_cases hashed
  obtain ⟨-, -, -, -, members⟩ := canonicalRuntimeFiles_cases tree listed
  have read {path : List Text} {data : Bytes} (canonical : Canonical base path data) :
      given (readRegularFile base path) = data := by
    rw [(readRegularFile_iff tree (tree.at? canonical.there).1).mpr canonical.there, given]
  have framedOf (path : List Text) (member : path ∈ files) :
      Fits (path, given (readRegularFile base path)) ∧
        given (frame base path) = framed (path, given (readRegularFile base path)) := by
    obtain ⟨data, read, fits, same⟩ := frame_cases (each path member)
    rw [read]
    exact ⟨fits, same⟩
  refine ⟨files.map fun path => (path, given (readRegularFile base path)), ?_, ?_, fun path data => ?_⟩
  · rw [List.flatMap_map]
    exact List.flatMap_congr fun path member => (framedOf path member).2
  · intro e member
    obtain ⟨path, inside, rfl⟩ := List.mem_map.mp member
    obtain ⟨data, canonical⟩ := (members path).mp inside
    exact ⟨(framedOf path inside).1, canonical.ne_nil, (tree.at? canonical.there).1⟩
  · constructor
    · intro member
      obtain ⟨own, inside, same⟩ := List.mem_map.mp member
      obtain ⟨rfl, rfl⟩ := Prod.mk.inj same
      obtain ⟨data, canonical⟩ := (members own).mp inside
      exact (read canonical).symm ▸ canonical
    · intro canonical
      exact List.mem_map.mpr ⟨path, (members path).mpr ⟨data, canonical⟩, by rw [read canonical]⟩

/-- With the directories in place, what is hashed follows from the files that count. -/
theorem SameFiles.buildStream_eq {base other : Item} (same : SameFiles base other) (tree : IsTree base)
    (tree' : IsTree other) (dirs : HasDirs other) {files : List (List Text)} {stream : Bytes}
    (done : buildStream base = .ok (files, stream)) : buildStream other = .ok (files, stream) := by
  obtain ⟨listed, hashed⟩ := buildStream_cases done
  obtain ⟨-, roots, -, -, members⟩ := canonicalRuntimeFiles_cases tree listed
  obtain ⟨files', listed'⟩ : ∃ files', canonicalRuntimeFiles other = .ok files' := by
    apply canonicalRuntimeFiles_ok tree' dirs
    intro name root
    obtain ⟨data, canonical⟩ := (members _).mp (roots name root)
    exact ⟨data, ((same _ _).mp canonical).there⟩
  obtain rfl := same.files_eq tree tree' listed listed'
  obtain ⟨each, rfl⟩ := gather_cases hashed
  have again : gather (frame other) files = .ok (files.flatMap fun path => given (frame base path)) := by
    apply gather_eq_ok
    intro path member
    obtain ⟨data, canonical⟩ := (members path).mp member
    have here := (readRegularFile_iff tree (tree.at? canonical.there).1).mpr canonical.there
    have moved := (same path data).mp canonical
    have there := (readRegularFile_iff tree' (tree'.at? moved.there).1).mpr moved.there
    rw [← each path member]
    simp only [frame, here, there]
  simp only [buildStream, listed', again, bind, Except.bind]
  rfl

/-- SHA-256 tells what is hashed for the trees apart. -/
def NoCollision (base other : Item) : Prop :=
  ∀ files stream files' stream', buildStream base = .ok (files, stream) → buildStream other = .ok (files', stream') →
    Sha256.hexdigest stream = Sha256.hexdigest stream' → stream = stream'

theorem canonicalBuildDigest_cases {base : Item} {digest : Text} {inputs : List Text}
    (done : canonicalBuildDigest base = .ok (digest, inputs)) : ∃ files stream, buildStream base = .ok (files, stream) ∧
      digest = txt "sha256:" ++ Sha256.hexdigest stream ∧ inputs = files.map posix := by
  obtain ⟨⟨files, stream⟩, hashed, done⟩ := bind_eq_ok.mp done
  cases done
  exact ⟨files, stream, hashed, rfl, rfl⟩

/-- With the directories in place, the digest follows from the files that count. -/
theorem SameFiles.digest_eq {base other : Item} (same : SameFiles base other) (tree : IsTree base)
    (tree' : IsTree other) (dirs : HasDirs other) {digest : Text} {inputs : List Text}
    (done : canonicalBuildDigest base = .ok (digest, inputs)) : canonicalBuildDigest other = .ok (digest, inputs) := by
  obtain ⟨files, stream, hashed, rfl, rfl⟩ := canonicalBuildDigest_cases done
  simp only [canonicalBuildDigest, same.buildStream_eq tree tree' dirs hashed, bind, Except.bind]
  rfl

/-- Trees have one digest just if they have the same files that count. -/
theorem digest_eq_iff {base other : Item} (tree : IsTree base) (tree' : IsTree other) {digest digest' : Text}
    {inputs inputs' : List Text} (done : canonicalBuildDigest base = .ok (digest, inputs))
    (done' : canonicalBuildDigest other = .ok (digest', inputs')) (apart : NoCollision base other) :
    digest = digest' ↔ SameFiles base other := by
  obtain ⟨files', stream', hashed', shown', -⟩ := canonicalBuildDigest_cases done'
  constructor
  · intro equal
    obtain ⟨files, stream, hashed, rfl, -⟩ := canonicalBuildDigest_cases done
    have streams := apart _ _ _ _ hashed hashed' (List.append_cancel_left (equal.trans shown'))
    obtain ⟨entries, rfl, ready, members⟩ := exists_entries tree hashed
    obtain ⟨entries', rfl, ready', members'⟩ := exists_entries tree' hashed'
    obtain rfl : entries = entries' := by
      refine separates_framed.flatMap (fun e _ => ?_) ready ready' streams
      simp [framed, ← List.length_pos_iff]
    intro path data
    rw [← members, members']
  · intro same
    have dirs := (canonicalRuntimeFiles_cases tree' (buildStream_cases hashed').1).1
    have again := same.digest_eq tree tree' dirs done
    exact (Prod.mk.inj (Except.ok.inj (again.symm.trans done'))).1

end Senex.Artifact
