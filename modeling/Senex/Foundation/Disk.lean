import Senex.Foundation.Python
import Senex.Foundation.Utf8

/-! # Calls that write to disk

A call reads the disk and writes to it, one write after another.  An interruption lets the first
writes stand and cuts the next one.
-/

namespace Senex

/-- What a write does to a disk, and what is left of it when it is cut behind `n` bytes. -/
class Disk (D : Type) (W : outParam Type) where
  write : D → W → D
  cut : D → W → Nat → D

/-- A call: its writes, in order, and its result. -/
def DiskCall (D : Type) {W : Type} [Disk D W] (α : Type) : Type := D → List W × Py α

namespace DiskCall

variable {D W : Type} [Disk D W] {α β : Type}

/-- The disk behind some writes. -/
def written (disk : D) (writes : List W) : D := writes.foldl Disk.write disk

instance : Monad (DiskCall D) where
  pure a := fun _ => ([], .ok a)
  bind call next := fun disk =>
    match call disk with
    | (writes, .error raised) => (writes, .error raised)
    | (writes, .ok a) =>
        let rest := next a (written disk writes)
        (writes ++ rest.1, rest.2)

/-- A call that leaves the disk alone. -/
def lift (call : Py α) : DiskCall D α := fun _ => ([], call)

def read : DiskCall D D := fun disk => ([], .ok disk)

def write (w : W) : DiskCall D Unit := fun _ => ([w], .ok ())

/-- The disk after a call that was not interrupted. -/
def after (call : DiskCall D α) (disk : D) : D := written disk (call disk).1

/-- The disk after a call that was interrupted in its write `k`, behind `n` bytes of it. -/
def interrupted (call : DiskCall D α) (disk : D) (k n : Nat) : D :=
  match (call disk).1[k]? with
  | some w => Disk.cut (written disk ((call disk).1.take k)) w n
  | none => call.after disk

@[simp] theorem written_nil (disk : D) : written disk ([] : List W) = disk := rfl

theorem written_append (disk : D) (first second : List W) :
    written disk (first ++ second) = written (written disk first) second :=
  List.foldl_append

/-- The disk when the write `k` of some writes is cut behind `n` bytes. -/
def cutWrites (disk : D) (writes : List W) (k n : Nat) : D :=
  match writes[k]? with
  | some w => Disk.cut (written disk (writes.take k)) w n
  | none => written disk writes

theorem interrupted_eq (call : DiskCall D α) (disk : D) (k n : Nat) :
    call.interrupted disk k n = cutWrites disk (call disk).1 k n := rfl

theorem cutWrites_of_length_le (disk : D) {writes : List W} {k : Nat} (done : writes.length ≤ k) (n : Nat) :
    cutWrites disk writes k n = written disk writes := by
  rw [cutWrites, List.getElem?_eq_none done]

theorem cutWrites_front (disk : D) {front : List W} (back : List W) {k : Nat} (inside : k < front.length)
    (n : Nat) : cutWrites disk (front ++ back) k n = cutWrites disk front k n := by
  simp only [cutWrites, List.getElem?_append_left inside, List.take_append_of_le_length (Nat.le_of_lt inside)]
  cases found : front[k]? with
  | some w => rfl
  | none =>
      rw [List.getElem?_eq_none_iff] at found
      omega

theorem cutWrites_back (disk : D) (front back : List W) (k n : Nat) :
    cutWrites disk (front ++ back) (front.length + k) n = cutWrites (written disk front) back k n := by
  have here : (front ++ back)[front.length + k]? = back[k]? := by
    rw [List.getElem?_append_right (by omega)]
    simp
  simp only [cutWrites, here, List.take_length_add_append, written_append]

@[simp] theorem pure_apply (a : α) (disk : D) : (pure a : DiskCall D α) disk = ([], .ok a) := rfl

@[simp] theorem lift_ok_bind (a : α) (next : α → DiskCall D β) :
    (lift (.ok a) >>= next : DiskCall D β) = next a := by
  funext disk
  rfl

@[simp] theorem lift_raised_bind (raised : Raised) (next : α → DiskCall D β) :
    (lift (.error raised) >>= next : DiskCall D β) = lift (.error raised) := by
  funext disk
  rfl

theorem bind_of_ok {call : DiskCall D α} {disk : D} {writes : List W} {a : α}
    (done : call disk = (writes, .ok a)) (next : α → DiskCall D β) :
    (call >>= next) disk =
      (writes ++ (next a (written disk writes)).1, (next a (written disk writes)).2) := by
  simp only [bind, done]

theorem bind_of_error {call : DiskCall D α} {disk : D} {writes : List W} {raised : Raised}
    (failed : call disk = (writes, .error raised)) (next : α → DiskCall D β) :
    (call >>= next) disk = (writes, .error raised) := by
  simp only [bind, failed]

end DiskCall

/-- A file that calls append to. -/
instance : Disk Bytes Bytes where
  write data appended := data ++ appended
  cut data appended n := data ++ appended.take n

@[simp] theorem written_bytes (data : Bytes) (writes : List Bytes) :
    DiskCall.written data writes = data ++ writes.flatten := by
  induction writes generalizing data with
  | nil => simp [DiskCall.written]
  | cons w writes ih =>
      have step : DiskCall.written data (w :: writes) = DiskCall.written (data ++ w) writes := rfl
      rw [step, ih, List.flatten_cons, List.append_assoc]

end Senex
