import Mathlib.Data.List.Lex
import Senex.Foundation.Sha1
import Senex.Foundation.Sorting

/-! # The tree of a source directory

`artifact_identity.py` gives a source directory the id of a Git tree.  `Git` is what Git itself stores for
a directory: it keeps files and links, and a directory only for the sake of a file in it.
-/

namespace Senex.Artifact

open Text

/-- What stands in a file system, under names of some kind. -/
inductive Node (ν : Type) where
  | file (executable : Bool) (data : Bytes)
  | symlink (target : Bytes)
  | directory (children : List (ν × Node ν))
  /-- A device, a socket or a pipe. -/
  | special

/-! ## `_git_tree_id` -/

/-- What is hashed for an object. -/
def gitObject (kind payload : Bytes) : Bytes := kind ++ 32 :: (ofNat payload.length ++ 0 :: payload)

section

variable (sha1 : Bytes → Bytes)

/-- `_git_object_id` -/
def gitObjectId (kind payload : Bytes) : Bytes := sha1 (gitObject kind payload)

/-- An entry of a tree before it is sorted. -/
structure TreeEntry where
  name : Bytes
  isDir : Bool
  entryBytes : Bytes

def TreeEntry.sortKey (entry : TreeEntry) : Bytes := entry.name ++ if entry.isDir then [47] else []

def treePayload (entries : List TreeEntry) : Bytes := (sortedBy TreeEntry.sortKey entries).flatMap TreeEntry.entryBytes

/-- `not name or b"/" in name or b"\0" in name` -/
def invalidName (name : Bytes) : Bool := name.isEmpty || decide (47 ∈ name) || decide (0 ∈ name)

/-- The mode of a child, its id, and whether it is a directory. -/
structure Child where
  modeText : Text
  oid : Bytes
  isDir : Bool

mutual
def childOf : Node Bytes → Except Text Child
  | .directory children => do
      let entries ← entriesOf children
      return ⟨txt "40000", gitObjectId sha1 (txt "tree") (treePayload entries), true⟩
  | .file executable data =>
      .ok ⟨if executable then txt "100755" else txt "100644", gitObjectId sha1 (txt "blob") data, false⟩
  | .symlink target => .ok ⟨txt "120000", gitObjectId sha1 (txt "blob") target, false⟩
  | .special => .error (txt "SOURCE_TREE_UNSUPPORTED_ENTRY")

def entriesOf : List (Bytes × Node Bytes) → Except Text (List TreeEntry)
  | [] => .ok []
  | (name, child) :: rest => do
      if invalidName name then throw (txt "SOURCE_TREE_NAME_INVALID")
      let c ← childOf child
      let entries ← entriesOf rest
      return ⟨name, c.isDir, c.modeText ++ 32 :: (name ++ 0 :: c.oid)⟩ :: entries
end

/-- The children of the root that count: `.git` is skipped. -/
def kept (children : List (Bytes × Node Bytes)) : List (Bytes × Node Bytes) :=
  children.filter fun c => c.1 != txt ".git"

/-- `git_tree_sha` of what its path leads to. -/
def gitTreeSha : Option (Node Bytes) → Except Text Text
  | some (.directory children) => do
      let entries ← entriesOf sha1 (kept children)
      return Sha1.hex (gitObjectId sha1 (txt "tree") (treePayload entries))
  | _ => .error (txt "SOURCE_ROOT_INVALID")

end

/-! ## Git -/

namespace Git

inductive Mode where
  | regular
  | executable
  | symlink
  | tree
  deriving DecidableEq

def Mode.octal : Mode → Text
  | .regular => txt "100644"
  | .executable => txt "100755"
  | .symlink => txt "120000"
  | .tree => txt "40000"

structure Entry where
  mode : Mode
  name : Bytes
  oid : Bytes

/-- Trees are sorted as if the name of a directory ended with a slash. -/
def Entry.sortName (e : Entry) : Bytes := e.name ++ if e.mode = .tree then [47] else []

def Entry.encode (e : Entry) : Bytes := e.mode.octal ++ 32 :: (e.name ++ 0 :: e.oid)

/-- The tree object of some entries. -/
def treeObject (entries : List Entry) : Bytes :=
  gitObject (txt "tree") ((sortedBy Entry.sortName entries).flatMap Entry.encode)

mutual
/-- A node is recorded if it is a file or a link, or has one in it. -/
def holdsFile : Node Bytes → Bool
  | .file .. | .symlink _ => true
  | .directory children => anyHoldsFile children
  | .special => false

def anyHoldsFile : List (Bytes × Node Bytes) → Bool
  | [] => false
  | (_, child) :: rest => holdsFile child || anyHoldsFile rest
end

variable (sha1 : Bytes → Bytes)

mutual
/-- The mode and the id of a node that is recorded. -/
def stored : Node Bytes → Mode × Bytes
  | .file executable data =>
      (if executable then .executable else .regular, sha1 (gitObject (txt "blob") data))
  | .symlink target => (.symlink, sha1 (gitObject (txt "blob") target))
  | .directory children => (.tree, sha1 (treeObject (recorded children)))
  | .special => (.regular, [])

/-- The entries of a directory. -/
def recorded : List (Bytes × Node Bytes) → List Entry
  | [] => []
  | (name, child) :: rest =>
      if holdsFile child then ⟨(stored child).1, name, (stored child).2⟩ :: recorded rest else recorded rest
end

/-- The id of the tree that Git stores for a directory, whose `.git` is not part of it. -/
def treeSha (children : List (Bytes × Node Bytes)) : Text := Sha1.hex (sha1 (treeObject (recorded sha1 (kept children))))

end Git

end Senex.Artifact
