import Senex.Artifact.Identity

/-! # When the identity is exact

The identity file lies outside the files that count, so writing it changes none of them.  It is exact as long
as these files stay as they are and the four directories are there (`identity_exact`).
-/

namespace Senex.Artifact

open Text

/-! ## The file that is written -/

theorem Item.at?_create (data : Bytes) (path : List Text) : (Item.create data path).at? path = some (.file data) := by
  induction path with
  | nil => rfl
  | cons name path ih => simp [Item.create, Item.at?, Item.child?, Dict.lookup, ih]

theorem isTree_create (data : Bytes) {path : List Text} (named : ∀ name ∈ path, IsName name) :
    IsTree (.create data path) := by
  induction path with
  | nil => exact .file data
  | cons name path ih =>
      have below := ih fun n inside => named n (.tail _ inside)
      refine .directory (List.nodup_singleton _) ?_ ?_ <;> intro c member
      · rw [List.mem_singleton.mp member]
        exact named name (.head _)
      · rw [List.mem_singleton.mp member]
        exact below

/-- A directory behind the assignment of a child. -/
theorem IsTree.assign {children : List (Text × Item)} {name : Text} {item : Item} (tree : IsTree (.directory children))
    (isName : IsName name) (below : IsTree item) : IsTree (.directory (Dict.assign name item children)) := by
  cases tree with
  | directory distinct named deeper =>
      have every : Dict.Every (fun n i => IsName n ∧ IsTree i) (⟨children, distinct⟩ : Dict Text Item) :=
        fun c member => ⟨named c member, deeper c member⟩
      have later : Dict.Every (fun n i => IsName n ∧ IsTree i) (Dict.set ⟨children, distinct⟩ name item) :=
        every.set ⟨isName, below⟩
      exact .directory (Dict.nodup_assign name item distinct) (fun c member => (later c member).1)
        (fun c member => (later c member).2)

theorem child?_assign {children : List (Text × Item)} (distinct : (children.map Prod.fst).Nodup) (name : Text)
    (item : Item) : Item.child? name (.directory (Dict.assign name item children)) = some item :=
  Dict.get?_set_self (d := ⟨children, distinct⟩)

theorem child?_assign_of_ne {children : List (Text × Item)} (distinct : (children.map Prod.fst).Nodup) {name other : Text}
    (item : Item) (different : other ≠ name) : Item.child? other (.directory (Dict.assign name item children)) =
      Item.child? other (.directory children) :=
  Dict.get?_set_of_ne (d := ⟨children, distinct⟩) different

/-- The file stands at its place, and the tree stays a tree. -/
theorem Item.put_spec {item new : Item} {data : Bytes} {path : List Text} (tree : IsTree item)
    (named : ∀ name ∈ path, IsName name) (done : item.put data path = some new) :
    new.at? path = some (.file data) ∧ IsTree new := by
  induction path generalizing item new with
  | nil =>
      cases tree with
      | file own =>
          cases done
          exact ⟨rfl, .file data⟩
      | directory => cases done
  | cons name path ih =>
      have isName := named name (.head _)
      have others := fun n inside => named n (.tail _ inside)
      cases tree with
      | file own => cases done
      | @directory children distinct valid below =>
          have tree : IsTree (.directory children) := .directory distinct valid below
          rw [Item.put] at done
          cases there : Dict.lookup name children with
          | none =>
              rw [there] at done
              cases done
              exact ⟨by rw [Item.at?, child?_assign distinct]; exact Item.at?_create data path,
                tree.assign isName (isTree_create data others)⟩
          | some child =>
              rw [there] at done
              obtain ⟨inner, put, rfl⟩ := Option.map_eq_some_iff.mp done
              obtain ⟨at?, isTree⟩ := ih (tree.child there).2 others put
              exact ⟨by rw [Item.at?, child?_assign distinct]; exact at?, tree.assign isName isTree⟩

/-- What stands under other names of the root stays. -/
theorem Item.put_other {item new : Item} {data : Bytes} {name other : Text} {path : List Text} (tree : IsTree item)
    (done : item.put data (name :: path) = some new) (different : other ≠ name) :
    new.child? other = item.child? other := by
  cases tree with
  | file own => cases done
  | directory distinct valid below =>
      rw [Item.put] at done
      split at done
      · obtain ⟨inner, -, rfl⟩ := Option.map_eq_some_iff.mp done
        exact child?_assign_of_ne distinct inner different
      · cases done
        exact child?_assign_of_ne distinct _ different

/-! ## Outputs that are accepted -/

theorem posix_cons {name : Text} {path : List Text} (filled : path ≠ []) :
    posix (name :: path) = name ++ 47 :: posix path := by
  obtain ⟨next, rest, rfl⟩ := List.exists_cons_of_ne_nil filled
  simp [posix, List.intercalate_cons_cons]

/-- An output that does not overlap begins with none of the six names. -/
theorem head_of_accepted {base new : Item} {name : Text} {path : List Text} {named : ∀ n ∈ name :: path, IsName n}
    {data : Bytes} {digest : Text} {inputs : List Text} (tree : IsTree base)
    (done : canonicalBuildDigest base = .ok (digest, inputs))
    (apart : overlaps (.inside (name :: path) named) inputs = false) (put : base.put data (name :: path) = some new) :
    name ∉ canonicalDirs ++ canonicalFiles := by
  simp only [overlaps, Bool.or_eq_false_iff, List.any_eq_false, Bool.or_eq_true, not_or] at apart
  obtain ⟨notInput, notBelow⟩ := apart
  intro member
  rcases List.mem_append.mp member with dir | root
  · obtain ⟨differs, notPrefix⟩ := notBelow name dir
    by_cases filled : path = []
    · subst filled
      simp [Place.relative, posix] at differs
    · rw [Place.relative, posix_cons filled] at notPrefix
      · exact notPrefix (List.isPrefixOf_iff_prefix.mpr ⟨posix path, by simp⟩)
      · simp
  · obtain ⟨files, stream, hashed, -, rfl⟩ := canonicalBuildDigest_cases done
    obtain ⟨-, roots, -, -, members⟩ := canonicalRuntimeFiles_cases tree (buildStream_cases hashed).1
    obtain ⟨own, canonical⟩ := (members _).mp (roots name root)
    by_cases filled : path = []
    · subst filled
      have inside : posix [name] ∈ files.map posix := List.mem_map.mpr ⟨_, roots name root, rfl⟩
      simp [Place.relative, inside] at notInput
    · obtain ⟨next, rest, rfl⟩ := List.exists_cons_of_ne_nil filled
      cases tree with
      | file => cases put
      | @directory children distinct valid below =>
          have there : Dict.lookup name children = some (.file own) := by
            simpa [Item.at?, Item.child?] using canonical.there
          rw [Item.put, there] at put
          cases put

/-- The first name on the path of a file that counts. -/
theorem Canonical.head {base : Item} {path : List Text} {data : Bytes} (canonical : Canonical base path data) :
    ∃ name rest, path = name :: rest ∧ name ∈ canonicalDirs ++ canonicalFiles := by
  rcases canonical.placed with single | ⟨d, dir, rest, -, rfl⟩
  · obtain ⟨name, root, rfl⟩ := List.mem_map.mp single
    exact ⟨name, [], rfl, List.mem_append_right _ root⟩
  · exact ⟨d, rest, rfl, List.mem_append_left _ dir⟩

/-- Roots that agree under the six names have the same files that count. -/
theorem sameFiles_of_child? {base other : Item}
    (same : ∀ name ∈ canonicalDirs ++ canonicalFiles, other.child? name = base.child? name) : SameFiles base other := by
  have moved {a b : Item} (agree : ∀ name ∈ canonicalDirs ++ canonicalFiles, b.child? name = a.child? name)
      {path : List Text} {data : Bytes} (canonical : Canonical a path data) : Canonical b path data := by
    obtain ⟨name, rest, rfl, member⟩ := canonical.head
    refine ⟨?_, canonical.clear, canonical.placed⟩
    rw [Item.at?, agree name member]
    exact canonical.there
  exact fun path data => ⟨moved same, moved fun name member => (same name member).symm⟩

/-! ## The manifest is read back -/

/-- What `json.loads` makes of a manifest. -/
def Manifest.value (m : Manifest) : PyValue := .dict
  [(txt "build_digest", .str m.buildDigest), (txt "canonical_inputs", .list (m.canonicalInputs.map .str)),
    (txt "contract", .str contract), (txt "digest_format", .str digestFormat),
    (txt "source_commit", .str m.sourceCommit), (txt "source_tree", .str m.sourceTree)]

/-- A manifest that the writer can write. -/
structure Manifest.Valid (m : Manifest) : Prop where
  sourceCommit : isSha40 m.sourceCommit = true
  sourceTree : isSha40 m.sourceTree = true
  buildDigest : isSha256 m.buildDigest = true
  unicode : ∀ t ∈ m.canonicalInputs, IsUnicode t

theorem ascii_of_isLowerHex {c : Nat} (hex : Sha256.isLowerHex c = true) :
    c < 128 ∧ lowerUnit c = c ∧ isPySpace c = false ∧ isSurrogate c = false := by
  simp only [Sha256.isLowerHex, isDigit, Bool.or_eq_true, Bool.and_eq_true, decide_eq_true_eq] at hex
  simp [lowerUnit, isPySpace, isSurrogate]
  omega

/-- Lower-case ASCII without white space. -/
def IsBare (t : Text) : Prop := ∀ c ∈ t, c < 128 ∧ lowerUnit c = c ∧ isPySpace c = false ∧ isSurrogate c = false

theorem IsBare.isUnicode {t : Text} (bare : IsBare t) : IsUnicode t := by
  intro c member
  obtain ⟨small, -, -, plain⟩ := bare c member
  exact ⟨plain, by omega⟩

theorem isBare_of_isSha40 {t : Text} (sha : isSha40 t = true) : IsBare t ∧ 12 ≤ t.length := by
  simp only [isSha40, Bool.and_eq_true, beq_iff_eq, List.all_eq_true] at sha
  exact ⟨fun c member => ascii_of_isLowerHex (sha.2 c member), by omega⟩

theorem isBare_of_isSha256 {t : Text} (sha : isSha256 t = true) : IsBare t ∧ 12 ≤ t.length := by
  simp only [isSha256, Sha256.isHex64, Bool.and_eq_true, beq_iff_eq, List.all_eq_true, List.isPrefixOf_iff_prefix] at sha
  obtain ⟨⟨rest, rfl⟩, long, hex⟩ := sha
  have seven : (txt "sha256:").length = 7 := rfl
  rw [← seven, List.drop_left] at long hex
  refine ⟨fun c member => ?_, by rw [List.length_append]; omega⟩
  rcases List.mem_append.mp member with front | inside
  · have front_bare : ∀ c ∈ txt "sha256:", c < 128 ∧ lowerUnit c = c ∧ isPySpace c = false ∧ isSurrogate c = false := by
      decide
    exact front_bare c front
  · exact ascii_of_isLowerHex (hex c inside)

/-- Such a text is left as it is, if it is long enough not to be one of the words. -/
theorem normalized_str (py : Builtins) {t : Text} (bare : IsBare t) (long : 12 ≤ t.length) :
    normalized py (.str t) = some t := by
  have filled : t ≠ [] := by
    rintro rfl
    simp at long
  have stripped : strip t = t := by
    apply stripBy_eq_self
    · exact fun c first => (bare c (List.mem_of_mem_head? first)).2.2.1
    · exact fun c last => (bare c (List.mem_of_mem_getLast? last)).2.2.1
  have lowered : py.lower t = t := by
    rw [py.lower_ascii t fun c member => (bare c member).1]
    exact (List.map_congr_left fun c member => (bare c member).2.1).trans (List.map_id t)
  have known : unavailable.contains t = false := by
    simp only [unavailable, List.contains_eq_any_beq, List.any_eq_false, beq_iff_eq]
    intro word member same
    have short : ∀ word ∈ unavailable, word.length < 12 := by decide
    have := short word member
    rw [← same] at this
    omega
  simp only [normalized, PyValue.truthy, PyValue.text?, filled, ne_eq, not_false_eq_true, decide_true, if_true,
    Option.getD_some, normalizedText, stripped, lowered, known, Bool.false_eq_true, if_false]

theorem Manifest.Valid.loads_text {m : Manifest} (valid : m.Valid) : PyJson.loads m.text = some m.value := by
  apply PyJson.loads_readsAs _ rfl
  have texts : PyJson.ReadsAs (.arr (m.canonicalInputs.map .str)) (.list (m.canonicalInputs.map .str)) := by
    apply PyJson.readsAs_arr
    rw [List.forall₂_map_left_iff, List.forall₂_map_right_iff, List.forall₂_same]
    exact fun t member => PyJson.readsAs_str (valid.unicode t member)
  have commit := PyJson.readsAs_str (isBare_of_isSha40 valid.sourceCommit).1.isUnicode
  have tree := PyJson.readsAs_str (isBare_of_isSha40 valid.sourceTree).1.isUnicode
  have digest := PyJson.readsAs_str (isBare_of_isSha256 valid.buildDigest).1.isUnicode
  have keys : ∀ key ∈ manifestKeys, IsUnicode key := by decide
  have sorted : manifestKeys.Pairwise (· < ·) := by decide
  refine PyJson.readsAs_obj ?_ (List.pairwise_map.mp ?_)
  · exact .cons ⟨rfl, keys (txt "build_digest") (by decide), digest⟩
      (.cons ⟨rfl, keys (txt "canonical_inputs") (by decide), texts⟩
      (.cons ⟨rfl, keys (txt "contract") (by decide), PyJson.readsAs_str (by decide)⟩
      (.cons ⟨rfl, keys (txt "digest_format") (by decide), PyJson.readsAs_str (by decide)⟩
      (.cons ⟨rfl, keys (txt "source_commit") (by decide), commit⟩
      (.cons ⟨rfl, keys (txt "source_tree") (by decide), tree⟩ .nil)))))
  · exact sorted

/-- A manifest has no carriage return. -/
theorem Manifest.not_mem_text (m : Manifest) : 13 ∉ m.text := by
  have sorted : manifestKeys.Pairwise (· < ·) := by decide
  have wellFormed : Json.WellFormed m.json := by
    refine ⟨List.pairwise_map.mp sorted, (Json.wellFormedMembers_iff _).mpr ?_⟩
    intro member inside
    simp only [List.mem_cons, List.not_mem_nil, or_false] at inside
    rcases inside with rfl | rfl | rfl | rfl | rfl | rfl
    all_goals first
      | exact Json.wellFormed_str _
      | exact (Json.wellFormedItems_iff _).mpr (List.forall_mem_map.mpr fun t _ => Json.wellFormed_str t)
  intro member
  rcases List.mem_append.mp member with inside | last
  · have solid := Json.solid_render Json.solid_asciiQuote m.json wellFormed 13 inside
    omega
  · simp at last

theorem identityFile_written (py : Builtins) {m : Manifest} (valid : m.Valid) {bytes : Bytes}
    (coded : Utf8.encode m.text = some bytes) {place : Place} {disk : Disk}
    (there : disk.at? place = some (.file bytes)) : identityFile py place disk = .ok m.value := by
  simp only [identityFile, there, readText_encode coded m.not_mem_text, valid.loads_text]

theorem texts?_strs (texts : List Text) : texts? (.list (texts.map .str)) = some texts := by
  rw [texts?]
  induction texts with
  | nil => rfl
  | cons t texts ih => simp [List.mapM_cons, ih]

/-- A valid manifest is exact just if the root has its digest and its inputs. -/
theorem exact_iff_digest (py : Builtins) {m : Manifest} (valid : m.Valid) {place : Place} {disk : Disk}
    (file : identityFile py place disk = .ok m.value) : (readArtifactIdentity py place disk).exact = true ↔
      canonicalBuildDigest disk.root = .ok (m.buildDigest, m.canonicalInputs) := by
  obtain ⟨commit_bare, commit_long⟩ := isBare_of_isSha40 valid.sourceCommit
  obtain ⟨tree_bare, tree_long⟩ := isBare_of_isSha40 valid.sourceTree
  obtain ⟨digest_bare, digest_long⟩ := isBare_of_isSha256 valid.buildDigest
  have manifest : manifestExact m.value = true := rfl
  have commit : normalized py (m.value.get (txt "source_commit")) = some m.sourceCommit :=
    normalized_str py commit_bare commit_long
  have tree : normalized py (m.value.get (txt "source_tree")) = some m.sourceTree :=
    normalized_str py tree_bare tree_long
  have digest : normalized py (m.value.get (txt "build_digest")) = some m.buildDigest :=
    normalized_str py digest_bare digest_long
  have inputs : texts? (m.value.get (txt "canonical_inputs")) = some m.canonicalInputs := texts?_strs _
  have isDict : m.value.isDict = true := rfl
  rw [readArtifactIdentity, file]
  simp only [isDict, if_true]
  cases hashed : canonicalBuildDigest disk.root with
  | error failure => simp [empty]
  | ok pair =>
      obtain ⟨computed, current⟩ := pair
      simp only [checksOf, Checks.items, manifest, commit, tree, digest, inputs, Option.any_some, valid.sourceCommit,
        valid.sourceTree, valid.buildDigest, List.all_cons, List.all_nil, Bool.and_true, Bool.true_and,
        Bool.and_eq_true, beq_iff_eq, Option.some.injEq, Except.ok.injEq, Prod.mk.injEq]
      constructor
      · rintro ⟨same, -, equal⟩
        exact ⟨equal.symm, same.symm⟩
      · rintro ⟨equal, same⟩
        exact ⟨same.symm, same.symm, equal.symm⟩

/-- Where the root cannot be hashed, no identity is exact. -/
theorem not_exact_of_error (py : Builtins) (place : Place) {disk : Disk} {failure : Failure}
    (failed : canonicalBuildDigest disk.root = .error failure) : (readArtifactIdentity py place disk).exact = false := by
  rw [readArtifactIdentity]
  split
  · rfl
  · rw [failed]
    split <;> rfl

/-! ## What the writer accepts -/

theorem isSha40_of_sha40? {text : Option Text} {message sha : Text} (done : sha40? text message = .ok sha) :
    isSha40 sha = true := by
  unfold sha40? at done
  split at done
  · split at done
    · rw [← Except.ok.inj done]
      assumption
    · cases done
  · cases done
/-- What is known of a write that was accepted. -/
structure Accepted (call : WriteCall) (disk : Disk) (m : Manifest) (written : Disk) : Prop where
  sourceCommit : isSha40 m.sourceCommit = true
  sourceTree : isSha40 m.sourceTree = true
  hashed : canonicalBuildDigest disk.root = .ok (m.buildDigest, m.canonicalInputs)
  apart : overlaps call.output m.canonicalInputs = false
  stored : ∃ bytes, Utf8.encode m.text = some bytes ∧ disk.put bytes call.output = some written

theorem accepted_of_write {py : Builtins} {call : WriteCall} {disk written : Disk} {m : Manifest}
    (done : writeArtifactIdentity py call disk = .ok (m, written)) : Accepted call disk m written := by
  rw [writeArtifactIdentity] at done
  obtain ⟨-, -, done⟩ := bind_eq_ok.mp done
  obtain ⟨named, -, done⟩ := bind_eq_ok.mp done
  obtain ⟨commit, first, done⟩ := bind_eq_ok.mp done
  obtain ⟨tree, second, done⟩ := bind_eq_ok.mp done
  obtain ⟨⟨digest, inputs⟩, hashed, done⟩ := bind_eq_ok.mp done
  obtain ⟨_, apart, done⟩ := bind_eq_ok.mp done
  obtain ⟨_, stored, done⟩ := bind_eq_ok.mp done
  cases done
  refine ⟨isSha40_of_sha40? first, isSha40_of_sha40? second, hashed, refuseIf_eq_ok.mp apart, ?_⟩
  unfold Disk.store at stored
  split at stored
  · cases stored
  rename_i bytes coded
  split at stored
  · cases stored
  rename_i put
  exact ⟨bytes, coded, put.trans (congrArg some (Except.ok.inj stored))⟩

theorem unicode_inputs {base : Item} {digest : Text} {inputs : List Text}
    (done : canonicalBuildDigest base = .ok (digest, inputs)) : ∀ t ∈ inputs, IsUnicode t := by
  obtain ⟨files, stream, hashed, -, rfl⟩ := canonicalBuildDigest_cases done
  obtain ⟨each, -⟩ := gather_cases (buildStream_cases hashed).2
  intro t member
  obtain ⟨path, inside, rfl⟩ := List.mem_map.mp member
  obtain ⟨data, -, fits, -⟩ := frame_cases (each path inside)
  obtain ⟨bytes, coded, -⟩ := fits.coded
  exact isUnicode_of_encode coded

theorem Accepted.valid {call : WriteCall} {disk written : Disk} {m : Manifest} (accepted : Accepted call disk m written) :
    m.Valid := by
  refine ⟨accepted.sourceCommit, accepted.sourceTree, ?_, unicode_inputs accepted.hashed⟩
  obtain ⟨files, stream, -, shown, -⟩ := canonicalBuildDigest_cases accepted.hashed
  rw [shown, isSha256, Bool.and_eq_true]
  refine ⟨List.isPrefixOf_iff_prefix.mpr ⟨_, rfl⟩, ?_⟩
  exact Sha256.isHex64_hexdigest stream

/-- The write leaves the files that count as they are. -/
theorem Accepted.sameFiles {call : WriteCall} {disk written : Disk} {m : Manifest}
    (accepted : Accepted call disk m written) (tree : IsTree disk.root) :
    IsTree written.root ∧ HasDirs written.root ∧ SameFiles disk.root written.root := by
  obtain ⟨bytes, -, put⟩ := accepted.stored
  have apart := accepted.apart
  obtain ⟨files, stream, hashed, -, -⟩ := canonicalBuildDigest_cases accepted.hashed
  have dirs := (canonicalRuntimeFiles_cases tree (buildStream_cases hashed).1).1
  cases output : call.output with
  | outside =>
      rw [output, Disk.put] at put
      have root : written.root = disk.root := by
        split at put
        · rw [← Option.some.inj put]
        · rw [← Option.some.inj put]
        · cases put
      rw [root]
      exact ⟨tree, dirs, fun path data => Iff.rfl⟩
  | inside path named =>
      rw [output] at put apart
      obtain ⟨root, stored, rfl⟩ := Option.map_eq_some_iff.mp put
      cases path with
      | nil =>
          obtain ⟨children, there⟩ := dirs (txt "backend") (by decide)
          cases own : disk.root with
          | directory => rw [own] at stored; cases stored
          | _ => rw [own] at there; cases there
      | cons name path =>
          have other := head_of_accepted tree accepted.hashed apart stored
          have same : ∀ n ∈ canonicalDirs ++ canonicalFiles, root.child? n = disk.root.child? n := by
            intro n member
            apply Item.put_other tree stored
            rintro rfl
            exact other member
          refine ⟨(Item.put_spec tree named stored).2, fun d dir => ?_, sameFiles_of_child? same⟩
          obtain ⟨children, there⟩ := dirs d dir
          exact ⟨children, (same d (List.mem_append_left _ dir)).trans there⟩

theorem Accepted.at? {call : WriteCall} {disk written : Disk} {m : Manifest} (accepted : Accepted call disk m written)
    (tree : IsTree disk.root) :
    ∃ bytes, Utf8.encode m.text = some bytes ∧ written.at? call.output = some (.file bytes) := by
  obtain ⟨bytes, coded, put⟩ := accepted.stored
  refine ⟨bytes, coded, ?_⟩
  cases output : call.output with
  | outside =>
      rw [output, Disk.put] at put
      split at put
      · rw [← Option.some.inj put]
        rfl
      · rw [← Option.some.inj put]
        rfl
      · cases put
  | inside path named =>
      rw [output] at put
      obtain ⟨root, stored, rfl⟩ := Option.map_eq_some_iff.mp put
      exact (Item.put_spec tree named stored).1

/-! ## Exact identities -/

/-- In trees of regular files and directories, the digest tells the files that count, and an identity that was
    written is exact for just the roots with the four directories and the same of these files. -/
theorem identity_exact (py : Builtins) :
    (∀ {base other : Item} {digest digest' : Text} {inputs inputs' : List Text}, IsTree base → IsTree other →
      canonicalBuildDigest base = .ok (digest, inputs) → canonicalBuildDigest other = .ok (digest', inputs') →
      NoCollision base other → (digest = digest' ↔ SameFiles base other)) ∧
    ∀ {call : WriteCall} {disk written : Disk} {m : Manifest}, IsTree disk.root →
      writeArtifactIdentity py call disk = .ok (m, written) →
      (readArtifactIdentity py call.output written).exact = true ∧
      ∀ {later : Disk}, IsTree later.root → later.at? call.output = written.at? call.output →
        NoCollision disk.root later.root →
        ((readArtifactIdentity py call.output later).exact = true ↔
          HasDirs later.root ∧ SameFiles disk.root later.root) := by
  refine ⟨fun tree tree' done done' apart => digest_eq_iff tree tree' done done' apart, ?_⟩
  intro call disk written m tree wrote
  have accepted := accepted_of_write wrote
  obtain ⟨bytes, coded, there⟩ := accepted.at? tree
  obtain ⟨writtenTree, dirs, same⟩ := accepted.sameFiles tree
  have exact_iff {now : Disk} (kept : now.at? call.output = written.at? call.output) :=
    exact_iff_digest py accepted.valid (identityFile_written py accepted.valid coded (kept.trans there))
  refine ⟨(exact_iff rfl).mpr (same.digest_eq tree writtenTree dirs accepted.hashed), ?_⟩
  intro later laterTree kept apart
  rw [exact_iff kept]
  constructor
  · intro hashed
    obtain ⟨files, stream, streamed, -⟩ := canonicalBuildDigest_cases hashed
    exact ⟨(canonicalRuntimeFiles_cases laterTree (buildStream_cases streamed).1).1,
      (digest_eq_iff tree laterTree accepted.hashed hashed apart).mp rfl⟩
  · rintro ⟨laterDirs, unchanged⟩
    exact unchanged.digest_eq tree laterTree laterDirs accepted.hashed

/-! ## Roots with few files -/

/-- A Python that lowers ASCII letters. -/
def plainBuiltins : Builtins where
  lower := pyLower
  lower_ascii := by
    intro t ascii
    apply List.map_congr_left
    intro c member
    have small := ascii c member
    rw [if_neg (by omega)]
  container _ := [91]
  refusal _ := txt "JSONDecodeError"

/-- A root with these directories and with the two files. -/
def rootWith (dirs : List (Text × Item)) : Item :=
  .directory (dirs ++ canonicalFiles.map fun name => (name, .file (txt "x")))

def emptyDirs : List (Text × Item) := canonicalDirs.map fun dirname => (dirname, .directory [])

/-- The identity is kept outside the root. -/
def outsideCall : WriteCall := ⟨List.replicate 40 97, some (List.replicate 40 98), none, .outside⟩

theorem isTree_emptyDirs {dirs : List (Text × Item)} (part : dirs.Sublist emptyDirs) : IsTree (rootWith dirs) := by
  have whole : ∀ c ∈ emptyDirs ++ canonicalFiles.map fun name => (name, Item.file (txt "x")),
      IsName c.1 ∧ IsTree c.2 := by
    intro c member
    rcases List.mem_append.mp member with dir | root
    · obtain ⟨name, inside, rfl⟩ := List.mem_map.mp dir
      exact ⟨isName_canonical name (List.mem_append_left _ inside), .directory .nil (by simp) (by simp)⟩
    · obtain ⟨name, inside, rfl⟩ := List.mem_map.mp root
      exact ⟨isName_canonical name (List.mem_append_right _ inside), .file _⟩
  have sub := part.append (List.Sublist.refl (canonicalFiles.map fun name => (name, Item.file (txt "x"))))
  have distinct : ((emptyDirs ++ canonicalFiles.map fun name => (name, Item.file (txt "x"))).map Prod.fst).Nodup := by
    decide
  exact .directory ((sub.map _).nodup distinct) (fun c member => (whole c (sub.subset member)).1)
    (fun c member => (whole c (sub.subset member)).2)

theorem identity_exact_emptyDirs :
    (∃ digest inputs, canonicalBuildDigest (rootWith emptyDirs) = .ok (digest, inputs) ∧
      (digest = digest ↔ SameFiles (rootWith emptyDirs) (rootWith emptyDirs))) ∧
    ∃ m written, writeArtifactIdentity plainBuiltins outsideCall ⟨rootWith emptyDirs, none⟩ = .ok (m, written) ∧
      (readArtifactIdentity plainBuiltins .outside written).exact = true ∧
      ((readArtifactIdentity plainBuiltins .outside { written with root := rootWith emptyDirs }).exact = true ↔
        HasDirs (rootWith emptyDirs) ∧ SameFiles (rootWith emptyDirs) (rootWith emptyDirs)) := by
  have tree := isTree_emptyDirs (List.Sublist.refl emptyDirs)
  have apart : NoCollision (rootWith emptyDirs) (rootWith emptyDirs) := by
    intro files stream files' stream' done done' _
    exact (Prod.mk.inj (Except.ok.inj (done.symm.trans done'))).2
  obtain ⟨digest_iff, identity⟩ := identity_exact plainBuiltins
  constructor
  · cases hashed : canonicalBuildDigest (rootWith emptyDirs) with
    | ok pair => exact ⟨pair.1, pair.2, rfl, digest_iff tree tree hashed hashed apart⟩
    | error failure =>
        have fine : (canonicalBuildDigest (rootWith emptyDirs)).isOk = true := by decide +kernel
        rw [hashed] at fine
        cases fine
  · cases wrote : writeArtifactIdentity plainBuiltins outsideCall ⟨rootWith emptyDirs, none⟩ with
    | ok pair =>
        obtain ⟨exactly, later⟩ := identity tree wrote
        exact ⟨pair.1, pair.2, rfl, exactly, later tree rfl apart⟩
    | error failure =>
        have fine : (writeArtifactIdentity plainBuiltins outsideCall ⟨rootWith emptyDirs, none⟩).isOk = true := by
          decide +kernel
        rw [wrote] at fine
        cases fine

/-- A file below the directories that `_excluded` does not name. -/
structure Unexcluded (base : Item) (path : List Text) (data : Bytes) : Prop where
  there : base.at? path = some (.file data)
  kept : excluded path = false
  placed : path ∈ canonicalFiles.map ([·]) ∨ ∃ dirname ∈ canonicalDirs, ∃ below, below ≠ [] ∧ path = dirname :: below

/-- A module in a directory named like byte code. -/
def byteCodeDirs : List (Text × Item) :=
  (txt "backend", .directory [(txt "x.pyc", .directory [(txt "a.py", .file [])])]) :: emptyDirs.tail

/-- In the directories of the root nothing is found. -/
theorem at?_emptyDirs {dirs : List (Text × Item)} (empty : ∀ c ∈ dirs, c.2 = .directory []) {dirname : Text}
    (dir : dirname ∈ canonicalDirs) {below : List Text} (filled : below ≠ []) :
    (rootWith dirs).at? (dirname :: below) = none := by
  obtain ⟨name, rest, rfl⟩ := List.exists_cons_of_ne_nil filled
  rw [Item.at?]
  cases there : (rootWith dirs).child? dirname with
  | none => rfl
  | some child =>
      rcases List.mem_append.mp (Dict.mem_of_lookup there) with inside | root
      · obtain rfl : child = .directory [] := empty _ inside
        rfl
      · obtain ⟨file, own, same⟩ := List.mem_map.mp root
        have apart : ∀ d ∈ canonicalDirs, d ∉ canonicalFiles := by decide
        exact absurd ((Prod.mk.inj same).1 ▸ own) (apart dirname dir)

/-- Without the last directory, which is empty, an identity is not exact; and a module in a directory that is
    excluded does not change the digest. -/
theorem not_exact_without_dir :
    (∃ m written, writeArtifactIdentity plainBuiltins outsideCall ⟨rootWith emptyDirs, none⟩ = .ok (m, written) ∧
      (∀ path data, Unexcluded (rootWith emptyDirs.dropLast) path data ↔ Unexcluded (rootWith emptyDirs) path data) ∧
      (readArtifactIdentity plainBuiltins .outside { written with root := rootWith emptyDirs.dropLast }).exact = false) ∧
    (∃ result, canonicalBuildDigest (rootWith emptyDirs) = .ok result ∧
      canonicalBuildDigest (rootWith byteCodeDirs) = .ok result) ∧
    Unexcluded (rootWith byteCodeDirs) [txt "backend", txt "x.pyc", txt "a.py"] [] ∧
    ¬ Unexcluded (rootWith emptyDirs) [txt "backend", txt "x.pyc", txt "a.py"] [] := by
  have noChild : ∀ c ∈ emptyDirs, c.2 = .directory [] := by
    intro c member
    obtain ⟨name, -, rfl⟩ := List.mem_map.mp member
    rfl
  have noChild' : ∀ c ∈ emptyDirs.dropLast, c.2 = .directory [] :=
    fun c member => noChild c (List.dropLast_subset _ member)
  have same {base other : Item} (roots : ∀ name ∈ canonicalFiles, base.child? name = other.child? name)
      (none_below : ∀ d ∈ canonicalDirs, ∀ below, below ≠ [] → base.at? (d :: below) = none) {path : List Text}
      {data : Bytes} (here : Unexcluded base path data) : Unexcluded other path data := by
    refine ⟨?_, here.kept, here.placed⟩
    rcases here.placed with single | ⟨d, dir, below, filled, rfl⟩
    · obtain ⟨name, root, rfl⟩ := List.mem_map.mp single
      rw [Item.at?, ← roots name root]
      exact here.there
    · have absent := none_below d dir below filled
      rw [here.there] at absent
      cases absent
  have roots : ∀ name ∈ canonicalFiles,
      (rootWith emptyDirs.dropLast).child? name = (rootWith emptyDirs).child? name := by
    intro name root
    simp only [canonicalFiles, List.mem_cons, List.not_mem_nil, or_false] at root
    rcases root with rfl | rfl <;> rfl
  refine ⟨?_, ?_, ⟨rfl, by decide, .inr ⟨txt "backend", by decide, _, List.cons_ne_nil _ _, rfl⟩⟩, ?_⟩
  · have fine : (writeArtifactIdentity plainBuiltins outsideCall ⟨rootWith emptyDirs, none⟩).isOk = true := by
      decide +kernel
    have failed : canonicalBuildDigest (rootWith emptyDirs.dropLast) =
        refuse (txt "CANONICAL_INPUT_UNREADABLE:oracle_runtime") := by
      decide +kernel
    cases wrote : writeArtifactIdentity plainBuiltins outsideCall ⟨rootWith emptyDirs, none⟩ with
    | error failure =>
        rw [wrote] at fine
        cases fine
    | ok pair =>
        refine ⟨pair.1, pair.2, rfl, fun path data => ⟨?_, ?_⟩, not_exact_of_error _ _ failed⟩
        · exact same roots fun d dir below filled => at?_emptyDirs noChild' dir filled
        · exact same (fun name root => (roots name root).symm) fun d dir below filled => at?_emptyDirs noChild dir filled
  · have streams : buildStream (rootWith emptyDirs) = buildStream (rootWith byteCodeDirs) := by decide +kernel
    have fine : (canonicalBuildDigest (rootWith emptyDirs)).isOk = true := by decide +kernel
    have equal : canonicalBuildDigest (rootWith byteCodeDirs) = canonicalBuildDigest (rootWith emptyDirs) := by
      rw [canonicalBuildDigest, canonicalBuildDigest, streams]
    rw [equal]
    cases hashed : canonicalBuildDigest (rootWith emptyDirs) with
    | error failure =>
        rw [hashed] at fine
        cases fine
    | ok result => exact ⟨result, rfl, rfl⟩
  · intro here
    have absent : (rootWith emptyDirs).at? [txt "backend", txt "x.pyc", txt "a.py"] = none :=
      at?_emptyDirs noChild (by decide) (List.cons_ne_nil _ _)
    rw [here.there] at absent
    cases absent

end Senex.Artifact
