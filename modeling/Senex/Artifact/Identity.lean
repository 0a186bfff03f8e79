import Senex.Artifact.CanonicalFiles
import Senex.Artifact.GitTree
import Senex.Foundation.PyJsonAscii
import Senex.Foundation.TextLines

/-! # The artifact identity

`write_artifact_identity` stores commit, source tree and build digest of a runtime root in a file, often below
the root.  `read_artifact_identity` reads the file and hashes the root again: the identity is exact if the
file is what the writer writes, for the files that are there now.
-/

namespace Senex.Artifact

open Text

/-! ## Places -/

/-- The place of the identity file behind `resolve()`: below the root, or elsewhere. -/
inductive Place where
  | inside (path : List Text) (named : ∀ name ∈ path, IsName name)
  | outside

/-- `path.relative_to(base).as_posix()`, nothing for a place elsewhere. -/
def Place.relative : Place → Text
  | .inside [] _ => txt "."
  | .inside path _ => posix path
  | .outside => []

/-- What stands at the runtime root, and what at the place elsewhere. -/
structure Disk where
  root : Item
  outside : Option Item

def Disk.at? (disk : Disk) : Place → Option Item
  | .inside path _ => disk.root.at? path
  | .outside => disk.outside

/-- A new file in new directories. -/
def Item.create (data : Bytes) : List Text → Item
  | [] => .file data
  | name :: path => .directory [(name, Item.create data path)]

/-- `path.parent.mkdir(parents=True, exist_ok=True)` and `path.write_text(...)`; nothing is an `OSError`. -/
def Item.put (data : Bytes) : Item → List Text → Option Item
  | .file _, [] => some (.file data)
  | .directory children, name :: path =>
      match Dict.lookup name children with
      | some child => (child.put data path).map fun new => .directory (Dict.assign name new children)
      | none => some (.directory (Dict.assign name (.create data path) children))
  | _, _ => none

def Disk.put (disk : Disk) (data : Bytes) : Place → Option Disk
  | .inside path _ => (disk.root.put data path).map fun root => { disk with root }
  | .outside =>
      match disk.outside with
      | none | some (.file _) => some { disk with outside := some (.file data) }
      | _ => none

/-! ## The manifest -/

/-- `CONTRACT` -/
def contract : Text := txt "senex-internal-artifact-identity-v1"

/-- `DIGEST_FORMAT` -/
def digestFormat : Text := txt "sha256:path-len+path+byte-len+bytes:v1"

/-- `MANIFEST_KEYS` -/
def manifestKeys : List Text := [txt "build_digest", txt "canonical_inputs", txt "contract", txt "digest_format",
  txt "source_commit", txt "source_tree"]

structure Manifest where
  sourceCommit : Text
  sourceTree : Text
  buildDigest : Text
  canonicalInputs : List Text

/-- The payload, its keys in order. -/
def Manifest.json (m : Manifest) : Json := .obj
  [(txt "build_digest", .str m.buildDigest), (txt "canonical_inputs", .arr (m.canonicalInputs.map .str)),
    (txt "contract", .str contract), (txt "digest_format", .str digestFormat),
    (txt "source_commit", .str m.sourceCommit), (txt "source_tree", .str m.sourceTree)]

/-- `json.dumps(payload, sort_keys=True, separators=(",", ":")) + "\n"` -/
def Manifest.text (m : Manifest) : Text := m.json.render Json.asciiQuote ++ [10]

/-! ## Texts -/

/-- What Python makes of texts and documents beyond what the identity depends on. -/
structure Builtins where
  /-- `text.lower()` -/
  lower : Text → Text
  lower_ascii : ∀ t : Text, (∀ c ∈ t, c < 128) → lower t = Text.lower t
  /-- `str(value)` of a list or a dictionary. -/
  container : PyValue → Text
  /-- The class of the exception by which `json.loads` refuses a text. -/
  refusal : Text → Text

variable (py : Builtins)

/-- `_UNAVAILABLE` -/
def unavailable : List Text := [[], txt "unknown", txt "stale", txt "none", txt "null", txt "unavailable"]

/-- `_normalized` of a text -/
def normalizedText (t : Text) : Option Text :=
  let text := py.lower (strip t)
  if unavailable.contains text then none else some text

/-- `_normalized` -/
def normalized (value : PyValue) : Option Text :=
  normalizedText py (if value.truthy then value.text?.getD (py.container value) else [])

/-- `_SHA40.fullmatch` -/
def isSha40 (t : Text) : Bool := t.length == 40 && t.all Sha256.isLowerHex

/-- `_SHA256.fullmatch` -/
def isSha256 (t : Text) : Bool := (txt "sha256:").isPrefixOf t && Sha256.isHex64 (t.drop 7)

/-! ## Writing -/

/-- The arguments of `write_artifact_identity`: a source root with what its path leads to, and the output. -/
structure WriteCall where
  sourceCommit : Text
  sourceTree : Option Text
  sourceRoot : Option (Option (Node Bytes))
  output : Place

/-- The output when none is given. -/
def defaultOutput : Place := .inside [txt ".senex-provenance", txt "artifact-identity.json"] (by decide)

/-- Whether the output is one of the inputs or lies in a directory of theirs. -/
def overlaps (output : Place) (inputs : List Text) : Bool :=
  inputs.contains output.relative || canonicalDirs.any fun dirname =>
    output.relative == dirname || (dirname ++ [47]).isPrefixOf output.relative

/-- The tree to be recorded, before it is checked. -/
def WriteCall.tree (call : WriteCall) : Except Failure (Option Text) :=
  match call.sourceRoot with
  | some root =>
      match gitTreeSha Sha1.digest root with
      | .ok sha => .ok (some sha)
      | .error message => refuse message
  | none => .ok (call.sourceTree.bind (normalizedText py))

/-- A normalized text that is a SHA-1. -/
def sha40? (text : Option Text) (message : Text) : Except Failure Text :=
  match text with
  | some sha => if isSha40 sha then .ok sha else refuse message
  | none => refuse message

/-- The identity file is written. -/
def Disk.store (disk : Disk) (m : Manifest) (output : Place) : Except Failure Disk :=
  match Utf8.encode m.text with
  | none => .error .unicodeEncode
  | some bytes =>
      match disk.put bytes output with
      | none => .error .os
      | some written => .ok written

/-- `write_artifact_identity`, with the disk behind it. -/
def writeArtifactIdentity (call : WriteCall) (disk : Disk) : Except Failure (Manifest × Disk) := do
  refuseIf (call.sourceTree.isSome && call.sourceRoot.isSome) (txt "SOURCE_TREE_AMBIGUOUS")
  let tree ← call.tree py
  let commit ← sha40? (normalizedText py call.sourceCommit) (txt "SOURCE_COMMIT_INVALID")
  let tree ← sha40? tree (txt "SOURCE_TREE_INVALID")
  let (digest, inputs) ← canonicalBuildDigest disk.root
  refuseIf (overlaps call.output inputs) (txt "IDENTITY_OUTPUT_OVERLAPS_CANONICAL_INPUT")
  let manifest := ⟨commit, tree, digest, inputs⟩
  let written ← disk.store manifest call.output
  return (manifest, written)

/-! ## Reading -/

structure Checks where
  manifestExact : Bool
  commitExact : Bool
  treeExact : Bool
  canonicalInputsExact : Bool
  buildDigestExact : Bool
  buildDigestMatchesRuntimeFiles : Bool
  deriving DecidableEq

/-- `checks.items()` -/
def Checks.items (c : Checks) : List (Text × Bool) :=
  [(txt "manifest_exact", c.manifestExact), (txt "commit_exact", c.commitExact), (txt "tree_exact", c.treeExact),
    (txt "canonical_inputs_exact", c.canonicalInputsExact), (txt "build_digest_exact", c.buildDigestExact),
    (txt "build_digest_matches_runtime_files", c.buildDigestMatchesRuntimeFiles)]

structure Identity where
  contract : Text
  digestFormat : Text
  sourceCommit : Option Text
  sourceTree : Option Text
  buildDigest : Option Text
  declaredBuildDigest : Option Text
  computedBuildDigest : Option Text
  canonicalInputs : List Text
  checks : Checks
  exact : Bool
  error : Option Text
  deriving DecidableEq

/-- `_empty` -/
def empty (reason : Text) : Identity where
  contract := contract
  digestFormat := digestFormat
  sourceCommit := none
  sourceTree := none
  buildDigest := none
  declaredBuildDigest := none
  computedBuildDigest := none
  canonicalInputs := []
  checks := ⟨false, false, false, false, false, false⟩
  exact := false
  error := some reason

/-- The document in the identity file, or the class of the exception. -/
def identityFile (place : Place) (disk : Disk) : Except Text PyValue :=
  match disk.at? place with
  | some (.file data) =>
      match readText data with
      | none => .error (txt "UnicodeDecodeError")
      | some text =>
          match PyJson.loads text with
          | none => .error (py.refusal text)
          | some payload => .ok payload
  | _ => .error (txt "ArtifactIdentityError")

/-- The keys of a dictionary. -/
def keysOf : PyValue → List Text
  | .dict members => members.map Prod.fst
  | _ => []

/-- A list of texts. -/
def texts? : PyValue → Option (List Text)
  | .list items => items.mapM fun
      | .str t => some t
      | _ => none
  | _ => none

/-- `set(payload) == MANIFEST_KEYS and ...` -/
def manifestExact (payload : PyValue) : Bool :=
  (keysOf payload).all manifestKeys.contains && manifestKeys.all (keysOf payload).contains &&
    (payload.get (txt "contract")).eqText contract && (payload.get (txt "digest_format")).eqText digestFormat

/-- The checks of a payload against the digest and the inputs that were computed. -/
def checksOf (payload : PyValue) (computed : Text) (current : List Text) : Checks :=
  let commitExact := (normalized py (payload.get (txt "source_commit"))).any isSha40
  let treeExact := (normalized py (payload.get (txt "source_tree"))).any isSha40
  let declared := normalized py (payload.get (txt "build_digest"))
  let inputsExact := texts? (payload.get (txt "canonical_inputs")) == some current
  let structural := manifestExact payload && commitExact && treeExact && declared.any isSha256 && inputsExact
  { manifestExact := manifestExact payload
    commitExact
    treeExact
    canonicalInputsExact := inputsExact
    buildDigestExact := declared.any isSha256
    buildDigestMatchesRuntimeFiles := structural && declared == some computed }

/-- `read_artifact_identity` -/
def readArtifactIdentity (place : Place) (disk : Disk) : Identity :=
  match identityFile py place disk with
  | .error name => empty (txt "IDENTITY_FILE_UNAVAILABLE:" ++ name)
  | .ok payload =>
      if payload.isDict then
        let declared := normalized py (payload.get (txt "build_digest"))
        match canonicalBuildDigest disk.root with
        | .error failure =>
            { empty (txt "BUILD_DIGEST_RECOMPUTE_FAILED:" ++ failure.typeName) with
              sourceCommit := normalized py (payload.get (txt "source_commit"))
              sourceTree := normalized py (payload.get (txt "source_tree"))
              buildDigest := declared
              declaredBuildDigest := declared }
        | .ok (computed, current) =>
            let checks := checksOf py payload computed current
            let exact := checks.items.all Prod.snd
            let failed := (checks.items.filter fun item => !item.2).map Prod.fst
            { contract := contract
              digestFormat := digestFormat
              sourceCommit := normalized py (payload.get (txt "source_commit"))
              sourceTree := normalized py (payload.get (txt "source_tree"))
              buildDigest := declared
              declaredBuildDigest := declared
              computedBuildDigest := some computed
              canonicalInputs := current
              checks
              exact
              error := if exact then none else some (txt "IDENTITY_VALIDATION_FAILED:" ++ [44].intercalate failed) }
      else empty (txt "IDENTITY_MANIFEST_NOT_OBJECT")

end Senex.Artifact
