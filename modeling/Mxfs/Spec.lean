import Mxfs.Lib.Bytes
import Mxfs.System

/-!
# Mxfs.Spec

What the file system is for, stated without its memory layout: records are
collected per layer, and from time to time the whole collection is put away
as one *batch*.

* `Record` — a timestamp and a payload of the layer's size, by construction;
* `Batch` — the records of all layers, in order of arrival;
* `LogState` — the pending batch and the batches put away, oldest first;
* `LogState.step` — what a call does to them.

No batch is ever lost here (`LogState.history`): whether the device still
holds one is a matter of the levels below.
-/

namespace Mxfs

open Lib

/-! ## records and batches -/

/-- A record of a layer. -/
structure Record (l : Layer) where
  time : UInt64
  payload : List UInt8
  size : payload.length = l.recordSize

/-- The record as it lies in the layer's buffer. -/
def Record.bytes {l : Layer} (r : Record l) : List UInt8 :=
  leBytes timeSize r.time.toNat ++ r.payload

/-- A record is as long in the buffer as its layer's stride. -/
@[simp] theorem Record.length_bytes {l : Layer} (r : Record l) : r.bytes.length = l.stride := by
  simp [Record.bytes, r.size, Layer.stride, Nat.add_comm]

/-- The records of every layer, oldest first. -/
abbrev Batch := (l : Layer) → List (Record l)

/-- Bytes of `count` records of a layer on a page, headers included. -/
def Layer.encodedSize (l : Layer) (count : Nat) : Nat :=
  match l with
  | .antpSpeed | .antpPower | .antpCadence => (headerSize + antpRecordSize) * count
  | .gyro | .accelerometer => if count = 0 then 0 else headerSize + gyroRecordSize * count
  | .temperature => if count = 0 then 0 else headerSize + temperatureRecordSize * count

namespace Batch

/-- No record at all. -/
def empty : Batch := fun _ => []

/-- One more record, at the end of its layer. -/
def push (p : Batch) (l : Layer) (r : Record l) : Batch := Function.update p l (p l ++ [r])

/-- Bytes of the batch on a page. -/
def pageBytes (p : Batch) : Nat := (Layer.all.map fun l => l.encodedSize (p l).length).sum

/-- Nothing to flush. -/
def IsEmpty (p : Batch) : Prop := ∀ l, p l = []

instance (p : Batch) : Decidable p.IsEmpty :=
  decidable_of_iff (∀ l ∈ Layer.all, p l = [])
    ⟨fun h l => h l (by cases l <;> simp [Layer.all]), fun h l _ => h l⟩

/-- The payloads of a layer. -/
def payloads (p : Batch) (l : Layer) : List (List UInt8) := (p l).map Record.payload

/-- The record pushed is the last of its layer. -/
@[simp] theorem push_same (p : Batch) (l : Layer) (r : Record l) : p.push l r l = p l ++ [r] := by
  simp [push]

/-- A push leaves the records of the other layers. -/
theorem push_ne (p : Batch) (r : Record l) (h : k ≠ l) : p.push l r k = p k := by
  simp [push, h]

@[simp] theorem empty_apply (l : Layer) : empty l = [] := rfl

/-- There is only one empty batch. -/
theorem IsEmpty.eq_empty {p : Batch} (h : p.IsEmpty) : p = empty := funext h

/-- The payload pushed is the last of its layer. -/
theorem payloads_push_same (p : Batch) (l : Layer) (r : Record l) :
    (p.push l r).payloads l = p.payloads l ++ [r.payload] := by
  simp [payloads]

/-- A push leaves the payloads of the other layers. -/
theorem payloads_push_ne (p : Batch) (r : Record l) (h : k ≠ l) :
    (p.push l r).payloads k = p.payloads k := by
  rw [payloads, push_ne p r h]; rfl

/-! ### page sizes -/

/-- The page bytes of a batch are the sum over its layers. -/
theorem pageBytes_eq (p : Batch) :
    p.pageBytes = (p .antpSpeed).length * 34 + (p .antpPower).length * 34 +
      (p .antpCadence).length * 34 + Layer.gyro.encodedSize (p .gyro).length +
      Layer.accelerometer.encodedSize (p .accelerometer).length +
      Layer.temperature.encodedSize (p .temperature).length := by
  simp only [pageBytes, Layer.all, List.map_cons, List.map_nil, List.sum_cons, List.sum_nil,
    Layer.encodedSize, headerSize, antpRecordSize]
  omega

@[simp] theorem pageBytes_empty : empty.pageBytes = 0 := by rfl

/-- A record adds its own size and at most one header. -/
theorem encodedSize_succ (l : Layer) (n : Nat) :
    l.encodedSize (n + 1) ≤ l.encodedSize n + l.recordSize + headerSize := by
  cases l <;>
    grind [Layer.encodedSize, Layer.recordSize, headerSize, antpRecordSize, gyroRecordSize,
      temperatureRecordSize]

/-- A layer with records takes bytes. -/
theorem encodedSize_pos (l : Layer) (h : 0 < n) : 0 < l.encodedSize n := by
  cases l <;>
    grind [Layer.encodedSize, headerSize, antpRecordSize, gyroRecordSize, temperatureRecordSize]

/-- The raw size of a layer's payloads is a lower bound of its page size. -/
theorem recordSize_mul_le (l : Layer) (n : Nat) : l.recordSize * n ≤ l.encodedSize n := by
  cases l <;>
    grind [Layer.encodedSize, Layer.recordSize, headerSize, antpRecordSize, gyroRecordSize,
      temperatureRecordSize]

/-- No layer takes more than the page bytes. -/
theorem encodedSize_le_pageBytes (p : Batch) (l : Layer) :
    l.encodedSize (p l).length ≤ p.pageBytes := by
  rw [pageBytes_eq]
  cases l <;> grind [Layer.encodedSize, headerSize, antpRecordSize]

/-- A record takes at most its size and a header more. -/
theorem pageBytes_push_le (p : Batch) (l : Layer) (r : Record l) :
    (p.push l r).pageBytes ≤ p.pageBytes + l.recordSize + headerSize := by
  have h := encodedSize_succ l (p l).length
  rw [pageBytes_eq, pageBytes_eq]
  cases l <;>
    simp only [push, Function.update_self, Function.update_of_ne, ne_eq, reduceCtorEq,
      not_false_eq_true, List.length_append, List.length_singleton] <;>
    simp only [Layer.encodedSize, headerSize, antpRecordSize] at h ⊢ <;> omega

/-- A batch with records takes bytes. -/
theorem pageBytes_pos {p : Batch} (h : ¬ p.IsEmpty) : 0 < p.pageBytes := by
  simp only [IsEmpty, not_forall] at h
  obtain ⟨l, hl⟩ := h
  have := encodedSize_pos l (List.length_pos_of_ne_nil hl)
  have := encodedSize_le_pageBytes p l
  omega

end Batch

/-! ## the abstract log -/

/-- The record an append call carries, when the call is well formed. -/
def record? (layer : UInt8) (tmm : UInt64) (buffer : List UInt8) :
    Option ((l : Layer) × Record l) :=
  match Layer.ofNat? layer.toNat with
  | none => none
  | some l => if h : buffer.length = l.recordSize then some ⟨l, tmm, buffer, h⟩ else none

/-- The append call for a record: valid layer, exact length. -/
def Op.ofRecord (l : Layer) (r : Record l) : Op := .append (UInt8.ofNat l.toNat) r.time r.payload

/-- The call made for a record is read as that record. -/
@[simp] theorem record?_ofRecord (l : Layer) (r : Record l) :
    record? (UInt8.ofNat l.toNat) r.time r.payload = some ⟨l, r⟩ := by
  have hl : (UInt8.ofNat l.toNat).toNat = l.toNat := by cases l <;> rfl
  unfold record?
  rw [hl, Layer.ofNat?_toNat]
  exact dif_pos r.size

/-- The pending records, and the batches put away, oldest first. -/
structure LogState where
  pending : Batch
  batches : List Batch

namespace LogState

def init : LogState := ⟨Batch.empty, []⟩

/-- Put the pending records away, if there are any. -/
def flush (a : LogState) : LogState :=
  if a.pending.IsEmpty then a else ⟨Batch.empty, a.batches ++ [a.pending]⟩

/-- Space for one more record in the layer's buffer. -/
def HasRoom (B : Build) (p : Batch) (l : Layer) : Prop :=
  ((p l).length + 1) * l.stride ≤ B.mxfsBufferSize

instance (B : Build) (p : Batch) (l : Layer) : Decidable (HasRoom B p l) :=
  inferInstanceAs (Decidable (_ ≤ _))

/-- The page would be too full with the record. -/
def Full (p : Batch) (l : Layer) : Prop := pageSize - 64 < p.pageBytes + l.recordSize

instance (p : Batch) (l : Layer) : Decidable (Full p l) := inferInstanceAs (Decidable (_ < _))

/-- Make place on the page for a record of the layer. -/
def makePlace (a : LogState) (l : Layer) : LogState := if Full a.pending l then a.flush else a

/-- Take one record in. -/
def append (B : Build) (a : LogState) (l : Layer) (r : Record l) : Int × LogState :=
  let a := a.makePlace l
  if HasRoom B a.pending l then (OK, { a with pending := a.pending.push l r })
  else (NEED_MORE_BUFFER, a)

/-- What a call does to the log; a remount forgets the pending records. -/
def step (B : Build) (a : LogState) : Op → Int × LogState
  | .append layer tmm buffer =>
    match record? layer tmm buffer with
    | none => (ERR, a)
    | some ⟨l, r⟩ => append B a l r
  | .flush => (OK, a.flush)
  | .remount => (OK, { a with pending := Batch.empty })
  | .erase _ => (OK, a)

def next (B : Build) (a : LogState) (op : Op) : LogState := (a.step B op).2

/-- Everything ever taken in on a layer, oldest first. -/
def history (a : LogState) (l : Layer) : List (List UInt8) :=
  a.batches.flatMap (fun p => p.payloads l) ++ a.pending.payloads l

/-- A flush loses no record. -/
@[simp] theorem history_flush (a : LogState) (l : Layer) : a.flush.history l = a.history l := by
  unfold flush
  split
  · rfl
  · simp [history, Batch.payloads]

end LogState

end Mxfs
