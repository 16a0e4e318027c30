import Mxfs.Flush

/-!
# Mxfs.Append

`mxfs_append` (`mxfs_append.cc`): the call is checked against its layer, the
encoded length of everything buffered is summed, a flush is made when the new
record would not fit the page any more, and the record is copied behind its
timestamp into the layer's buffer.
-/

namespace Mxfs

open Lib

/-- One round of the loop over the layers; each `+=` truncates to 16 bits. -/
def appendLengthAdd (inst : Inst) (len : Nat) (n : Layer) : Nat :=
  match n with
  | .antpSpeed | .antpPower | .antpCadence =>
    u16 (u16 (len + inst.mxfsCount n * antpRecordSize) + headerSize * inst.mxfsCount n)
  | .gyro | .accelerometer =>
    let len := u16 (len + inst.mxfsCount n * layerDimMax * 2)
    if inst.mxfsCount n > 0 then u16 (len + headerSize) else len
  | .temperature =>
    let len := u16 (len + inst.mxfsCount n * 2)
    if inst.mxfsCount n > 0 then u16 (len + headerSize) else len

/-- `current_length` before `bufferlen` is added. -/
def appendLength (inst : Inst) : Nat := Layer.all.foldl (appendLengthAdd inst) 0

/-- `current_length + bufferlen > PAGE_SIZE - 64`: the call flushes first. -/
def needsFlush (inst : Inst) (bufferlen : Nat) : Bool :=
  u16 (appendLength inst + bufferlen) > pageSize - 64

/-- The copy of timestamp and payload behind the records already buffered. -/
def bufferRecord (B : Build) (inst : Inst) (layer : Layer) (tmm : UInt64) (buffer : List UInt8) :
    Int × Inst :=
  let lpos := inst.mxfsLength layer
  if lpos + timeSize + buffer.length > B.mxfsBufferSize then (NEED_MORE_BUFFER, inst)
  else
    let mem := patch (inst.mxfsBuffer layer) lpos (leBytes timeSize tmm.toNat)
    let mem := patch mem (lpos + timeSize) buffer
    (OK, { inst with
      mxfsBuffer := Function.update inst.mxfsBuffer layer mem
      mxfsLength := Function.update inst.mxfsLength layer
        (u16 (u16 (lpos + timeSize) + buffer.length))
      mxfsCount := Function.update inst.mxfsCount layer (u16 (inst.mxfsCount layer + 1)) })

/-- `mxfs_append`; `bufferlen` is the length of `buffer`. -/
def mxfsAppend (B : Build) (D : Driver σ) (inst : Inst) (dev : σ)
    (layer : UInt8) (tmm : UInt64) (buffer : List UInt8) : Int × Inst × σ :=
  match Layer.ofNat? layer.toNat with
  | none => (ERR, inst, dev)
  | some layer =>
    if buffer.length ≠ layer.recordSize then (ERR, inst, dev)
    else
      let (inst, dev) :=
        if needsFlush inst buffer.length then
          let (_, inst, dev) := mxfsFlush B D inst dev
          (inst.reset layer, dev)
        else (inst, dev)
      let (ret, inst) := bufferRecord B inst layer tmm buffer
      (ret, inst, dev)

end Mxfs
