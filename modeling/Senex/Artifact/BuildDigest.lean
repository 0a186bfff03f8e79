import Mathlib.Data.List.Lex
import Senex.Foundation.Dict
import Senex.Foundation.Framing
import Senex.Foundation.Sha256
import Senex.Foundation.Sorting

/-! # The build digest

`canonical_build_digest` of `artifact_identity.py` hashes the files of a runtime root.  It walks four
directories below the root, leaves out caches, byte code and the oracle's output, adds two files of the root,
and hashes path and bytes of each file behind their lengths, in the order of the paths.
-/

namespace Senex.Artifact

open Text Framing

/-! ## What stands below a root -/

inductive Item where
  | file (data : Bytes)
  /-- A link, and whether it leads to a directory. -/
  | link (toDirectory : Bool)
  | directory (children : List (Text × Item))
  /-- A device, a socket or a pipe. -/
  | special

namespace Item

def isLink : Item → Bool
  | .link _ => true
  | _ => false

/-- `os.walk` lists a link to a directory among the directories. -/
def inDirnames : Item → Bool
  | .link toDirectory => toDirectory
  | .directory _ => true
  | _ => false

def child? (name : Text) : Item → Option Item
  | .directory children => Dict.lookup name children
  | _ => none

/-- What stands at a path below an item, the names on it one by one. -/
def at? (item : Item) : List Text → Option Item
  | [] => some item
  | name :: path => (item.child? name).bind (·.at? path)

end Item

/-- What the functions raise. -/
inductive Failure where
  /-- `ArtifactIdentityError` -/
  | identity (message : Text)
  | unicodeEncode
  | overflow
  | os
  deriving DecidableEq

/-- `type(exc).__name__` -/
def Failure.typeName : Failure → Text
  | .identity _ => txt "ArtifactIdentityError"
  | .unicodeEncode => txt "UnicodeEncodeError"
  | .overflow => txt "OverflowError"
  | .os => txt "OSError"

/-- `raise ArtifactIdentityError(message)` -/
def refuse {α : Type} (message : Text) : Except Failure α := .error (.identity message)

/-- `if failed: raise ArtifactIdentityError(message)` -/
def refuseIf (failed : Bool) (message : Text) : Except Failure Unit := if failed then refuse message else .ok ()

/-- What a step gives for each item, one after another. -/
def gather {α β : Type} (step : α → Except Failure (List β)) : List α → Except Failure (List β)
  | [] => .ok []
  | a :: items => do return (← step a) ++ (← gather step items)

/-! ## Paths

A path below the root is the list of its names.
-/

/-- `CANONICAL_DIRS` -/
def canonicalDirs : List Text := [txt "backend", txt "frontend", txt "oracle", txt "oracle_runtime"]

/-- `CANONICAL_FILES` -/
def canonicalFiles : List Text := [txt "requirements.lock", txt "start_single_authority.sh"]

/-- `path.as_posix()` -/
def posix (path : List Text) : Text := [47].intercalate path

/-- `path.suffix` of a name: what begins at its last dot, unless that is the first or the last character. -/
def suffix (name : Text) : Text :=
  let ext := (name.reverse.takeWhile (· ≠ 46)).reverse
  if ext.length + 1 < name.length ∧ ext ≠ [] then 46 :: ext else []

/-- `_excluded` -/
def excluded (path : List Text) : Bool :=
  path.contains (txt "__pycache__") || [txt ".pyc", txt ".pyo"].contains (suffix (path.getLastD [])) ||
    match path with
    | first :: second :: _ => first == txt "oracle" && second == txt "senecio_output"
    | _ => false

/-- `_assert_no_symlink_chain`, from an item on; `relative` is the whole path. -/
def assertNoSymlinkChain (relative : Text) (item : Item) : List Text → Except Failure Item
  | [] => .ok item
  | part :: path =>
      if [[], txt ".", txt ".."].contains part then refuse (txt "CANONICAL_PATH_INVALID")
      else
        match item.child? part with
        | none => refuse (txt "CANONICAL_INPUT_UNREADABLE:" ++ relative)
        | some (.link _) => refuse (txt "CANONICAL_SYMLINK_REJECTED:" ++ relative)
        | some next => assertNoSymlinkChain relative next path

/-- `_read_regular_file`.  A path without links on it resolves to a path below the root. -/
def readRegularFile (base : Item) (path : List Text) : Except Failure Bytes := do
  match ← assertNoSymlinkChain (posix path) base path with
  | .file data => return data
  | _ => refuse (txt "CANONICAL_INPUT_NOT_REGULAR:" ++ posix path)

/-! ## The walk -/

/-- An entry of a directory, with the files that the walk finds below it. -/
structure Found where
  name : Text
  inDirnames : Bool
  isLink : Bool
  below : Except Failure (List (List Text))

/-- The entries that are not excluded, in the order of their names; a link among them is refused. -/
def screen (above : List Text) (entries : List Found) : Except Failure (List Found) :=
  gather (fun entry =>
      let path := above ++ [entry.name]
      if excluded path then .ok []
      else if entry.isLink then refuse (txt "CANONICAL_SYMLINK_REJECTED:" ++ posix path)
      else .ok [entry])
    (sortedBy Found.name entries)

/-- One directory of the walk: its directories and its files are checked before what is below. -/
def visit (above : List Text) (entries : List Found) : Except Failure (List (List Text)) := do
  let dirs ← screen above (entries.filter (·.inDirnames))
  let files ← screen above (entries.filter (!·.inDirnames))
  let below ← gather Found.below dirs
  return files.map (fun entry => above ++ [entry.name]) ++ below

mutual
/-- The files that `os.walk` finds in a directory at `above`. -/
def walk (above : List Text) : Item → Except Failure (List (List Text))
  | .directory children => visit above (entriesBelow above children)
  | _ => .ok []

def entriesBelow (above : List Text) : List (Text × Item) → List Found
  | [] => []
  | (name, item) :: rest =>
      ⟨name, item.inDirnames, item.isLink, walk (above ++ [name]) item⟩ :: entriesBelow above rest
end

/-- The files of one canonical directory. -/
def filesIn (base : Item) (dirname : Text) : Except Failure (List (List Text)) := do
  match ← assertNoSymlinkChain dirname base [dirname] with
  | .directory children => walk [dirname] (.directory children)
  | _ => refuse (txt "CANONICAL_DIR_MISSING:" ++ dirname)

/-- `canonical_runtime_files` -/
def canonicalRuntimeFiles : Item → Except Failure (List (List Text))
  | .directory children => do
      let found ← gather (filesIn (.directory children)) canonicalDirs
      let ordered := sortedBy posix (canonicalFiles.map ([·]) ++ found)
      let _ ← gather (readRegularFile (.directory children)) ordered
      return ordered
  | _ => refuse (txt "RUNTIME_ROOT_INVALID")

/-! ## The digest -/

/-- `n.to_bytes(width, "big")` -/
def toBytes (width n : Nat) : Except Failure Bytes :=
  if n < 256 ^ width then .ok (bigEndian width n) else .error .overflow

/-- `text.encode("utf-8")` -/
def encoded (t : Text) : Except Failure Bytes :=
  match Utf8.encode t with
  | some bytes => .ok bytes
  | none => .error .unicodeEncode

/-- What is hashed for a file. -/
def frame (base : Item) (path : List Text) : Except Failure Bytes := do
  let pathBytes ← encoded (posix path)
  let data ← readRegularFile base path
  let pathLength ← toBytes 4 pathBytes.length
  let dataLength ← toBytes 8 data.length
  return pathLength ++ (pathBytes ++ (dataLength ++ data))

/-- The files of the digest, and all that is hashed. -/
def buildStream (base : Item) : Except Failure (List (List Text) × Bytes) := do
  let files ← canonicalRuntimeFiles base
  let stream ← gather (frame base) files
  return (files, stream)

/-- `canonical_build_digest`, with the relative paths of its files. -/
def canonicalBuildDigest (base : Item) : Except Failure (Text × List Text) := do
  let (files, stream) ← buildStream base
  return (txt "sha256:" ++ Sha256.hexdigest stream, files.map posix)

end Senex.Artifact
