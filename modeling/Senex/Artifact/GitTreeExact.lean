import Mathlib.Data.Set.Function
import Senex.Artifact.GitTree
import Senex.Foundation.Digits
import Senex.Foundation.Framing

/-! # Where the tree id is that of Git

The code makes an entry of every directory, Git of those that hold a file.  `gitTreeSha_iff` says that
the ids agree just if every directory below the root holds a file at some depth.
-/

namespace Senex.Artifact

open Text

/-! ## Trees -/

/-- The names of a directory. -/
structure Names (children : List (Bytes × Node Bytes)) : Prop where
  distinct : (children.map Prod.fst).Nodup
  valid : ∀ c ∈ children, invalidName c.1 = false

mutual
/-- A node without devices and without repositories in it. -/
def Plain : Node Bytes → Prop
  | .directory children => Names children ∧ (∀ c ∈ children, c.1 ≠ txt ".git") ∧ PlainAll children
  | .file .. | .symlink _ => True
  | .special => False

def PlainAll : List (Bytes × Node Bytes) → Prop
  | [] => True
  | (_, child) :: rest => Plain child ∧ PlainAll rest
end

mutual
/-- Every directory of a node holds a file at some depth. -/
def filled : Node Bytes → Bool
  | .directory children => Git.anyHoldsFile children && allFilled children
  | _ => true

def allFilled : List (Bytes × Node Bytes) → Bool
  | [] => true
  | (_, child) :: rest => filled child && allFilled rest
end

theorem plainAll_iff {children : List (Bytes × Node Bytes)} : PlainAll children ↔ ∀ c ∈ children, Plain c.2 := by
  induction children with
  | nil => simp [PlainAll]
  | cons c rest ih => simp [PlainAll, ih]

theorem allFilled_iff {children : List (Bytes × Node Bytes)} :
    allFilled children = true ↔ ∀ c ∈ children, filled c.2 = true := by
  induction children with
  | nil => simp [allFilled]
  | cons c rest ih => simp [allFilled, ih]

/-- A filled node is one that Git records. -/
theorem holdsFile_of_filled {node : Node Bytes} (plain : Plain node) (full : filled node = true) :
    Git.holdsFile node = true := by
  cases node with
  | file | symlink => simp only [Git.holdsFile]
  | directory children =>
      simp only [filled, Bool.and_eq_true] at full
      simp only [Git.holdsFile, full.1]
  | special => simp only [Plain] at plain

variable {sha1 : Bytes → Bytes}

/-! ## Entries -/

/-- An entry of Git as the code holds it. -/
def TreeEntry.ofGit (e : Git.Entry) : TreeEntry := ⟨e.name, decide (e.mode = .tree), e.encode⟩

theorem treePayload_ofGit (entries : List Git.Entry) : treePayload (entries.map TreeEntry.ofGit) =
    (sortedBy Git.Entry.sortName entries).flatMap Git.Entry.encode := by
  have key (e : Git.Entry) : (TreeEntry.ofGit e).sortKey = e.sortName := by
    simp [TreeEntry.ofGit, TreeEntry.sortKey, Git.Entry.sortName]
  have sorted : sortedBy TreeEntry.sortKey (entries.map TreeEntry.ofGit) =
      (sortedBy Git.Entry.sortName entries).map TreeEntry.ofGit := by
    apply (List.map_insertionSort _ _ _ entries _).symm
    intro a _ b _
    rw [key, key]
  rw [treePayload, sorted, List.flatMap_map]
  rfl

/-- The entry that the code makes of a child. -/
def IsEntry (sha1 : Bytes → Bytes) (c : Bytes × Node Bytes) (e : Git.Entry) : Prop :=
  e.name = c.1 ∧ childOf sha1 c.2 = .ok ⟨e.mode.octal, e.oid, decide (e.mode = .tree)⟩

theorem childOf_mode {node : Node Bytes} {c : Child} (made : childOf sha1 node = .ok c) :
    ∃ mode : Git.Mode, c.modeText = mode.octal ∧ c.isDir = decide (mode = .tree) := by
  cases node with
  | file executable data =>
      simp only [childOf, Except.ok.injEq] at made
      subst made
      cases executable
      · exact ⟨.regular, rfl, rfl⟩
      · exact ⟨.executable, rfl, rfl⟩
  | symlink target =>
      simp only [childOf, Except.ok.injEq] at made
      subst made
      exact ⟨.symlink, rfl, rfl⟩
  | directory children =>
      simp only [childOf, bind, Except.bind] at made
      split at made
      · cases made
      · cases made
        exact ⟨.tree, rfl, rfl⟩
  | special => simp only [childOf, reduceCtorEq] at made

/-- The entries that the code makes of a directory are those of its children. -/
theorem entriesOf_cases {children : List (Bytes × Node Bytes)} {entries : List TreeEntry}
    (made : entriesOf sha1 children = .ok entries) :
    ∃ own, entries = own.map TreeEntry.ofGit ∧ List.Forall₂ (IsEntry sha1) children own := by
  induction children generalizing entries with
  | nil =>
      simp only [entriesOf, Except.ok.injEq] at made
      exact ⟨[], made.symm, .nil⟩
  | cons c rest ih =>
      obtain ⟨name, child⟩ := c
      simp only [entriesOf, bind, Except.bind] at made
      split at made
      · cases made
      · split at made
        · cases made
        · rename_i c child_ok
          split at made
          · cases made
          · rename_i others rest_ok
            obtain ⟨own, rfl, each⟩ := ih rest_ok
            obtain ⟨mode, text, isDir⟩ := childOf_mode child_ok
            obtain ⟨modeText, oid, dir⟩ := c
            simp only at text isDir
            subst text isDir
            refine ⟨⟨mode, name, oid⟩ :: own, ?_, .cons ⟨rfl, child_ok⟩ each⟩
            exact (Except.ok.inj made).symm

/-! ## Filled trees -/

mutual
theorem childOf_filled {node : Node Bytes} (plain : Plain node) (full : filled node = true) :
    childOf sha1 node = .ok ⟨(Git.stored sha1 node).1.octal, (Git.stored sha1 node).2,
      decide ((Git.stored sha1 node).1 = .tree)⟩ := by
  cases node with
  | file executable data => cases executable <;> simp only [childOf, Git.stored] <;> rfl
  | symlink target =>
      simp only [childOf, Git.stored]
      rfl
  | directory children =>
      simp only [Plain] at plain
      simp only [filled, Bool.and_eq_true] at full
      have made := entriesOf_filled plain.1.valid plain.2.2 full.2
      simp only [childOf, made, bind, Except.bind, treePayload_ofGit, Git.stored]
      rfl
  | special => simp only [Plain] at plain

/-- Of a filled directory the code makes the entries that Git records. -/
theorem entriesOf_filled {children : List (Bytes × Node Bytes)}
    (valid : ∀ c ∈ children, invalidName c.1 = false) (plain : PlainAll children)
    (full : allFilled children = true) :
    entriesOf sha1 children = .ok ((Git.recorded sha1 children).map TreeEntry.ofGit) := by
  match children with
  | [] => simp only [entriesOf, Git.recorded, List.map_nil]
  | (name, child) :: rest =>
      simp only [PlainAll] at plain
      simp only [allFilled, Bool.and_eq_true] at full
      have named : invalidName name = false := valid (name, child) (.head _)
      have first := childOf_filled plain.1 full.1
      have others := entriesOf_filled (fun c inside => valid c (.tail _ inside)) plain.2 full.2
      simp only [entriesOf, named, first, others, Git.recorded, holdsFile_of_filled plain.1 full.1, if_true]
      rfl
end

/-! ## Reading a tree back -/

/-- What SHA-1 gives: twenty bytes. -/
structure IsDigest (sha1 : Bytes → Bytes) : Prop where
  length : ∀ message, (sha1 message).length = 20
  bytes : ∀ message, ∀ b ∈ sha1 message, b < 256

/-- An entry that can be read back from its bytes. -/
def Readable (e : Git.Entry) : Prop := 0 ∉ e.name ∧ e.oid.length = 20

theorem octal_injective : Function.Injective Git.Mode.octal := by
  intro a b same
  cases a <;> cases b <;> first | rfl | exact absurd same (by decide)

theorem space_not_mem_octal (mode : Git.Mode) : 32 ∉ mode.octal := by
  cases mode <;> decide

theorem separates_encode : Framing.Separates Readable Git.Entry.encode := by
  intro a b x y okA okB same
  obtain ⟨mode, name, oid⟩ := a
  obtain ⟨mode', name', oid'⟩ := b
  simp only [Git.Entry.encode, List.append_assoc, List.cons_append] at same
  obtain ⟨modes, rest⟩ := Framing.terminated_inj (space_not_mem_octal mode) (space_not_mem_octal mode') same
  obtain ⟨names, rest⟩ := Framing.terminated_inj okA.1 okB.1 rest
  obtain ⟨oids, tail⟩ := List.append_inj rest (okA.2.trans okB.2.symm)
  obtain rfl := octal_injective modes
  obtain rfl : name = name' := names
  obtain rfl : oid = oid' := oids
  exact ⟨rfl, tail⟩

theorem encode_ne_nil (e : Git.Entry) : e.encode ≠ [] := by
  simp [Git.Entry.encode]

/-- Two objects of one kind are the same only with the same payload. -/
theorem gitObject_inj {kind a b : Bytes} (same : gitObject kind a = gitObject kind b) : a = b := by
  have rest := (List.cons.inj (List.append_cancel_left same)).2
  have digits (n : Nat) : 0 ∉ ofNat n := fun inside => absurd (isDigit_of_mem_ofNat inside) (by decide)
  exact (Framing.terminated_inj (digits _) (digits _) rest).2

/-- One tree object holds one set of entries. -/
theorem perm_of_treeObject {entries others : List Git.Entry} (readable : ∀ e ∈ entries, Readable e)
    (readable' : ∀ e ∈ others, Readable e) (same : Git.treeObject entries = Git.treeObject others) :
    entries.Perm others := by
  have sorted := separates_encode.flatMap (fun e _ => encode_ne_nil e)
    (fun e inside => readable e ((mem_sortedBy _).mp inside)) (fun e inside => readable' e ((mem_sortedBy _).mp inside))
    (gitObject_inj same)
  exact (sortedBy_perm _ entries).symm.trans (sorted ▸ sortedBy_perm _ others)

/-! ## Trees with the same objects -/

/-- The tree object that the code hashes for a directory. -/
def codeObject (sha1 : Bytes → Bytes) (children : List (Bytes × Node Bytes)) : Bytes :=
  match entriesOf sha1 children with
  | .ok entries => gitObject (txt "tree") (treePayload entries)
  | .error _ => []

mutual
/-- The tree objects of a node, those of the code and those of Git. -/
def treeObjects (sha1 : Bytes → Bytes) : Node Bytes → List Bytes
  | .directory children =>
      codeObject sha1 children :: Git.treeObject (Git.recorded sha1 children) :: objectsIn sha1 children
  | _ => []

def objectsIn (sha1 : Bytes → Bytes) : List (Bytes × Node Bytes) → List Bytes
  | [] => []
  | (_, child) :: rest => treeObjects sha1 child ++ objectsIn sha1 rest
end

theorem treeObjects_subset (sha1 : Bytes → Bytes) {children : List (Bytes × Node Bytes)} {c : Bytes × Node Bytes}
    (member : c ∈ children) :
    ∀ x ∈ treeObjects sha1 c.2, x ∈ objectsIn sha1 children := by
  induction children with
  | nil => cases member
  | cons d rest ih =>
      intro x inside
      rw [objectsIn, List.mem_append]
      rcases List.mem_cons.mp member with rfl | later
      · exact .inl inside
      · exact .inr (ih later x inside)

theorem mem_recorded {children : List (Bytes × Node Bytes)} {e : Git.Entry}
    (member : e ∈ Git.recorded sha1 children) : ∃ c ∈ children, Git.holdsFile c.2 = true ∧
      e = ⟨(Git.stored sha1 c.2).1, c.1, (Git.stored sha1 c.2).2⟩ := by
  induction children with
  | nil => simp only [Git.recorded, List.not_mem_nil] at member
  | cons c rest ih =>
      simp only [Git.recorded] at member
      split at member
      · rename_i holds
        rcases List.mem_cons.mp member with rfl | later
        · exact ⟨c, .head _, holds, rfl⟩
        · obtain ⟨d, inside, found⟩ := ih later
          exact ⟨d, .tail _ inside, found⟩
      · obtain ⟨d, inside, found⟩ := ih member
        exact ⟨d, .tail _ inside, found⟩

theorem length_stored (digest : IsDigest sha1) {node : Node Bytes} (plain : Plain node) :
    (Git.stored sha1 node).2.length = 20 := by
  cases node with
  | special => simp only [Plain] at plain
  | _ => simp only [Git.stored, digest.length]

theorem length_childOf (digest : IsDigest sha1) {node : Node Bytes} {c : Child} (made : childOf sha1 node = .ok c) :
    c.oid.length = 20 := by
  cases node with
  | file | symlink =>
      simp only [childOf, Except.ok.injEq] at made
      rw [← made, gitObjectId, digest.length]
  | directory children =>
      simp only [childOf, bind, Except.bind] at made
      split at made
      · cases made
      · rw [← Except.ok.inj made, gitObjectId, digest.length]
  | special => simp only [childOf, reduceCtorEq] at made

theorem exists_child {children : List (Bytes × Node Bytes)} {own : List Git.Entry}
    (each : List.Forall₂ (IsEntry sha1) children own) {e : Git.Entry} (member : e ∈ own) :
    ∃ c ∈ children, IsEntry sha1 c e := by
  induction each with
  | nil => cases member
  | cons first _ ih =>
      rcases List.mem_cons.mp member with rfl | later
      · exact ⟨_, .head _, first⟩
      · obtain ⟨c, inside, found⟩ := ih later
        exact ⟨c, .tail _ inside, found⟩

theorem exists_entry {children : List (Bytes × Node Bytes)} {own : List Git.Entry}
    (each : List.Forall₂ (IsEntry sha1) children own) {c : Bytes × Node Bytes} (member : c ∈ children) :
    ∃ e ∈ own, IsEntry sha1 c e := by
  induction each with
  | nil => cases member
  | cons first _ ih =>
      rcases List.mem_cons.mp member with rfl | later
      · exact ⟨_, .head _, first⟩
      · obtain ⟨e, inside, found⟩ := ih later
        exact ⟨e, .tail _ inside, found⟩

/-- Where the code and Git hash one object for a directory, all directories in it are filled. -/
theorem allFilled_of_object (digest : IsDigest sha1) (children : List (Bytes × Node Bytes)) (names : Names children)
    (plain : PlainAll children) (apart : Set.InjOn sha1 {x | x ∈ objectsIn sha1 children})
    {entries : List TreeEntry} (made : entriesOf sha1 children = .ok entries)
    (same : gitObject (txt "tree") (treePayload entries) = Git.treeObject (Git.recorded sha1 children)) :
    allFilled children = true := by
  obtain ⟨own, rfl, each⟩ := entriesOf_cases made
  rw [treePayload_ofGit] at same
  have plainOf := plainAll_iff.mp plain
  have noNul {name : Bytes} (valid : invalidName name = false) : 0 ∉ name := by
    simp only [invalidName, Bool.or_eq_false_iff, decide_eq_false_iff_not] at valid
    exact valid.2
  have perm : own.Perm (Git.recorded sha1 children) := by
    apply perm_of_treeObject _ _ same
    · intro e inside
      obtain ⟨c, member, name, childMade⟩ := exists_child each inside
      exact ⟨name ▸ noNul (names.valid c member), length_childOf digest childMade⟩
    · intro e inside
      obtain ⟨c, member, -, rfl⟩ := mem_recorded inside
      exact ⟨noNul (names.valid c member), length_stored digest (plainOf c member)⟩
  apply allFilled_iff.mpr
  intro c member
  obtain ⟨e, inOwn, name, childMade⟩ := exists_entry each member
  obtain ⟨d, member', holds, rfl⟩ := mem_recorded (perm.mem_iff.mp inOwn)
  obtain rfl : c = d := List.inj_on_of_nodup_map names.distinct member member' name.symm
  have objects := treeObjects_subset sha1 member
  have plainHere := plainOf c member
  obtain ⟨own_name, node⟩ := c
  cases node with
  | file | symlink => simp only [filled]
  | special => simp only [Plain] at plainHere
  | directory grandchildren =>
      simp only [Plain] at plainHere
      simp only [Git.holdsFile] at holds
      simp only [childOf, bind, Except.bind] at childMade
      split at childMade
      · cases childMade
      · rename_i inner innerMade
        have ids := congrArg Child.oid (Except.ok.inj childMade)
        simp only [Git.stored, gitObjectId] at ids
        have code : codeObject sha1 grandchildren = gitObject (txt "tree") (treePayload inner) := by
          simp only [codeObject, innerMade]
        simp only [treeObjects] at objects
        have inCode := objects _ (.head _)
        rw [code] at inCode
        have equal := apart inCode (objects _ (.tail _ (.head _))) ids
        have deeper : Set.InjOn sha1 {x | x ∈ objectsIn sha1 grandchildren} := by
          apply apart.mono
          intro x inside
          exact objects x (.tail _ (.tail _ inside))
        have full := allFilled_of_object digest grandchildren plainHere.1 plainHere.2.2 deeper innerMade equal
        simp only [filled, holds, full, Bool.and_self]
termination_by sizeOf children
decreasing_by
  have smaller := List.sizeOf_lt_of_mem member
  simp only [Prod.mk.sizeOf_spec, Node.directory.sizeOf_spec] at smaller
  omega

/-! ## The id of a source tree -/

theorem hexDigit_inj {m n : Nat} (small : m < 16) (small' : n < 16)
    (same : Sha256.hexDigit m = Sha256.hexDigit n) : m = n := by
  unfold Sha256.hexDigit at same
  split at same <;> split at same <;> omega

theorem hex_inj {a b : Bytes} (bytes : ∀ x ∈ a, x < 256) (bytes' : ∀ x ∈ b, x < 256)
    (same : Sha1.hex a = Sha1.hex b) : a = b := by
  have separates : Framing.Separates (· < 256) fun b => [Sha256.hexDigit (b / 16), Sha256.hexDigit (b % 16)] := by
    intro m n x y small small' equal
    obtain ⟨high, rest⟩ := List.cons.inj equal
    obtain ⟨low, tail⟩ := List.cons.inj rest
    have upper := hexDigit_inj (by omega) (by omega) high
    have lower := hexDigit_inj (by omega) (by omega) low
    exact ⟨by omega, tail⟩
  exact separates.flatMap (fun _ _ => List.cons_ne_nil _ _) bytes bytes' same

/-- A source tree without empty directories has the id that Git gives it. -/
theorem gitTreeSha_of_filled {children : List (Bytes × Node Bytes)} (names : Names (kept children))
    (plain : PlainAll (kept children)) (full : allFilled (kept children) = true) :
    gitTreeSha sha1 (some (.directory children)) = .ok (Git.treeSha sha1 children) := by
  rw [gitTreeSha, entriesOf_filled names.valid plain full]
  have payload := treePayload_ofGit (Git.recorded sha1 (kept children))
  simp only [bind, Except.bind, gitObjectId, payload, Git.treeSha, Git.treeObject]
  rfl

/-- The id is that of Git just if every directory below the root holds a file, at some depth. -/
theorem gitTreeSha_iff (digest : IsDigest sha1) {children : List (Bytes × Node Bytes)} (names : Names (kept children))
    (plain : PlainAll (kept children))
    (apart : Set.InjOn sha1 {x | x ∈ treeObjects sha1 (.directory (kept children))}) :
    gitTreeSha sha1 (some (.directory children)) = .ok (Git.treeSha sha1 children) ↔
      allFilled (kept children) = true := by
  constructor
  · intro same
    simp only [gitTreeSha, bind, Except.bind] at same
    split at same
    · cases same
    · rename_i entries made
      have code : codeObject sha1 (kept children) = gitObject (txt "tree") (treePayload entries) := by
        simp only [codeObject, made]
      have ids := hex_inj (digest.bytes _) (digest.bytes _) (Except.ok.inj same)
      simp only [treeObjects] at apart
      have objects := apart (code ▸ .head _) (.tail _ (.head _)) ids
      have deeper : Set.InjOn sha1 {x | x ∈ objectsIn sha1 (kept children)} := by
        apply apart.mono
        intro x inside
        exact .tail _ (.tail _ inside)
      exact allFilled_of_object digest (kept children) names plain deeper made objects
  · exact gitTreeSha_of_filled names plain

/-- Of a filled directory the code hashes the object that Git stores. -/
theorem codeObject_of_filled {children : List (Bytes × Node Bytes)} (names : Names children)
    (plain : PlainAll children) (full : allFilled children = true) :
    codeObject sha1 children = Git.treeObject (Git.recorded sha1 children) := by
  simp only [codeObject, entriesOf_filled names.valid plain full, treePayload_ofGit, Git.treeObject]

def binTree : List (Bytes × Node Bytes) := [(txt "run", .file true (txt "go"))]

/-- A file beside a directory whose name is the front of its own. -/
def besideTree : List (Bytes × Node Bytes) :=
  [(txt ".git", .directory []), (txt "a", .directory binTree), (txt "a.txt", .file false [])]

theorem gitTreeSha_iff_besideTree :
    gitTreeSha Sha1.digest (some (.directory besideTree)) = .ok (Git.treeSha Sha1.digest besideTree) := by
  have digest : IsDigest Sha1.digest := ⟨Sha1.length_digest, Sha1.digest_lt⟩
  have names : Names (kept besideTree) := ⟨by decide, by decide⟩
  have inside : Names binTree := ⟨by decide, by decide⟩
  have plain : PlainAll (kept besideTree) := ⟨⟨inside, by decide, trivial, trivial⟩, trivial, trivial⟩
  have objects : treeObjects Sha1.digest (.directory (kept besideTree)) =
      [codeObject Sha1.digest (kept besideTree), Git.treeObject (Git.recorded Sha1.digest (kept besideTree)),
        codeObject Sha1.digest binTree, Git.treeObject (Git.recorded Sha1.digest binTree)] := rfl
  rw [codeObject_of_filled names plain (by decide), codeObject_of_filled inside ⟨trivial, trivial⟩ (by decide)]
    at objects
  have differ : Sha1.digest (Git.treeObject (Git.recorded Sha1.digest (kept besideTree))) ≠
      Sha1.digest (Git.treeObject (Git.recorded Sha1.digest binTree)) := by
    decide +kernel
  refine (gitTreeSha_iff digest names plain ?_).mpr (by decide)
  rw [objects]
  intro x first y second same
  simp only [Set.mem_ofPred_eq, List.mem_cons, List.not_mem_nil, or_false, or_self_left, or_self] at first second
  rcases first with rfl | rfl
  · rcases second with rfl | rfl
    · rfl
    · exact absurd same differ
  · rcases second with rfl | rfl
    · exact absurd same.symm differ
    · rfl

/-- Git stores nothing for an empty directory, and the code an entry. -/
theorem not_gitTreeSha_empty : ¬ gitTreeSha Sha1.digest (some (.directory [(txt "empty", .directory [])])) =
    .ok (Git.treeSha Sha1.digest [(txt "empty", .directory [])]) := by
  decide +kernel

end Senex.Artifact
