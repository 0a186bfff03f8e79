import Senex.Foundation.Json
import Senex.Foundation.Transition
import Mathlib

/-! # Checkpoints

`CheckpointManager` keeps the latest checkpoints of each subsystem in memory and writes each one to a file
of its own.  A checkpoint in memory refers to the state object that the subsystem goes on changing; a file
has the state as it was.  A new manager reads the files in the order of their names.
-/

namespace Senex.Antifragility

open Text

/-- A checkpoint in memory; the state is a reference to an object. -/
structure Checkpoint where
  name : Text
  seq : Nat
  state : Nat
  isClean : Bool
deriving DecidableEq, Repr

/-- What a file says of a checkpoint, `to_dict` as JSON. -/
structure CheckpointFile (J : Type) where
  name : Text
  seq : Nat
  state : J
  isClean : Bool
deriving DecidableEq, Repr

/-- `name.replace("/", "_").replace(":", "_")` -/
def safeName (name : Text) : Text := name.map fun c => if c = 47 ∨ c = 58 then 95 else c

/-- `f"{seq:010d}"` -/
def seqText (seq : Nat) : Text := if seq < 10 ^ 10 then padded 10 seq else ofNat seq

/-- `_file_for` -/
def fileFor (name : Text) (seq : Nat) : Text := safeName name ++ (txt "__seq" ++ (seqText seq ++ txt ".json"))

/-- The objects of the process, the manager, its directory, and the snapshots that have been taken of each
    subsystem: the state at that time and whether it was clean.  Checkpoints and snapshots stand newest first,
    files in the order of their names. -/
structure CheckpointWorld (J : Type) where
  objects : List J
  cache : Text → List Checkpoint
  counters : Text → Nat
  files : List (Text × CheckpointFile J)
  taken : Text → List (J × Bool)

inductive CheckpointStep (J : Type) where
  /-- A subsystem makes an object. -/
  | newObject (state : J)
  /-- A subsystem changes an object. -/
  | mutate (object : Nat) (state : J)
  | takeSnapshot (name : Text) (object : Nat) (isClean : Bool)
  /-- A new manager on the same directory. -/
  | restart
deriving Repr

namespace CheckpointWorld

variable {J : Type}

def initial : CheckpointWorld J where
  objects := []
  cache _ := []
  counters _ := 0
  files := []
  taken _ := []

section
variable (maxPerSubsystem : Nat)

/-- A file in `_load_all_from_disk`. -/
def loadFile (w : CheckpointWorld J) (f : CheckpointFile J) : CheckpointWorld J :=
  { w with
    objects := w.objects ++ [f.state]
    cache := Function.update w.cache f.name
      ((⟨f.name, f.seq, w.objects.length, f.isClean⟩ :: w.cache f.name).take maxPerSubsystem)
    counters := Function.update w.counters f.name (max (w.counters f.name) f.seq) }

/-- A manager without checkpoints. -/
def forget (w : CheckpointWorld J) : CheckpointWorld J := { w with cache := fun _ => [], counters := fun _ => 0 }

def loadAllFromDisk (w : CheckpointWorld J) : CheckpointWorld J :=
  (w.files.map Prod.snd).foldl (loadFile maxPerSubsystem) w.forget

/-- `take_snapshot`; `writable` says which file names the system takes, and the write of another one raises when
    the checkpoint is already in memory. -/
def takeSnapshot (writable : Text → Bool) (w : CheckpointWorld J) (name : Text) (object : Nat) (isClean : Bool) :
    CheckpointWorld J :=
  match w.objects[object]? with
  | none => w
  | some state =>
      let seq := w.counters name + 1
      let w := { w with
        counters := Function.update w.counters name seq
        cache := Function.update w.cache name ((⟨name, seq, object, isClean⟩ :: w.cache name).take maxPerSubsystem) }
      if writable (fileFor name seq) then
        { w with
          files := Json.insert (fileFor name seq) ⟨name, seq, state, isClean⟩ w.files
          taken := Function.update w.taken name ((state, isClean) :: w.taken name) }
      else w

def step (writable : Text → Bool) (w : CheckpointWorld J) : CheckpointStep J → CheckpointWorld J
  | .newObject state => { w with objects := w.objects ++ [state] }
  | .mutate object state => { w with objects := w.objects.set object state }
  | .takeSnapshot name object isClean => w.takeSnapshot maxPerSubsystem writable name object isClean
  | .restart => w.loadAllFromDisk maxPerSubsystem

end

def latestClean (w : CheckpointWorld J) (name : Text) : Option Checkpoint := (w.cache name).find? (·.isClean)

/-- `restore`: the state object of the latest clean checkpoint, as it is now. -/
def restore (w : CheckpointWorld J) (name : Text) : Option J :=
  (w.latestClean name).bind fun cp => w.objects[cp.state]?

/-- The state as it was at the most recent clean snapshot of a name, if it ever had one. -/
def expected (w : CheckpointWorld J) (name : Text) : Option J := ((w.taken name).find? Prod.snd).map Prod.fst

/-- What a restore is for. -/
def Restores (w : CheckpointWorld J) : Prop := ∀ name, w.restore name = w.expected name

end CheckpointWorld

end Senex.Antifragility
