import Mxfs.Compress
import Mxfs.Driver

/-!
# Mxfs.Read

`mxfs_read` (`mxfs_read.cc`): the page is read and its self-delimiting chain
of headers and payloads walked, the payloads of the wanted layer being copied
to the caller one after another.

An access outside the read buffer is undefined behaviour and makes the walk
`none`.  What is copied to the caller is *not* checked against `bufferlen`,
except for a configuration page, so the bytes written are part of the result.
-/

namespace Mxfs

open Lib

/-- `LAYER_CONFIG`, also `LAYER_DIRECT`. -/
def layerConfig : Nat := 6

/-- `count` copies of `size` bytes each from `rbf`, behind what `buffer` holds. -/
def copyRecords (rbf : List UInt8) (size : Nat) : (count src : Nat) → List UInt8 →
    Option (List UInt8)
  | 0, _, out => some out
  | count + 1, src, out =>
    if src + size ≤ rbf.length then
      copyRecords rbf size count (src + size) (out ++ slice rbf src size)
    else none

/-- The payload of one record on the page: how many copies of which size the
branches of the walk make for it, and by how much they advance. -/
structure Stride where
  count : Nat
  size : Nat
  advance : Nat
deriving DecidableEq, Repr

/-- The branch for a record type, if there is one. -/
def strideOf (cp : Compress) : Option Stride :=
  match Layer.ofNat? cp.type with
  | some .antpSpeed | some .antpPower | some .antpCadence =>
    some ⟨1, antpRecordSize, cp.antLength⟩
  | some .gyro | some .accelerometer =>
    some ⟨cp.gyrCount, gyroRecordSize, cp.gyrCount * gyroRecordSize⟩
  | some .temperature =>
    some ⟨cp.tmpCount, temperatureRecordSize, cp.tmpCount * temperatureRecordSize⟩
  | none => none

/-- The walk over the page `rbf` from `offset`, with `out` already copied.
Every round moves `offset` by a header at least, so `PAGE_SIZE` rounds are
more than the walk can take. -/
def readLoop (rbf : List UInt8) (layer bufferlen : Nat) : (fuel offset : Nat) → List UInt8 →
    Option (List UInt8)
  | 0, _, out => some out
  | fuel + 1, offset, out =>
    if pageSize ≤ offset then some out
    -- the magic, the field word and the union are looked at in turn
    else if rbf.length < offset + 4 then none
    else
      let cp := Compress.ofBytes (slice rbf offset headerSize)
      if cp.magic ≠ magic then some out
      else if rbf.length < offset + 12 then none
      else
        match strideOf cp with
        | some st =>
          let src := offset + headerSize
          if rbf.length < src then none
          else if cp.type = layer then
            match copyRecords rbf st.size st.count src out with
            | none => none
            | some out => readLoop rbf layer bufferlen fuel (src + st.advance) out
          else readLoop rbf layer bufferlen fuel (src + st.advance) out
        | none =>
          let src := offset + headerSize
          if cp.type = layerConfig then
            -- one json string to a page: the walk ends behind it
            if rbf.length < src then none
            else if cp.type = layer then copyRecords rbf (min cp.tmpBase bufferlen) 1 src out
            else some out
          else readLoop rbf layer bufferlen fuel src out

/-- `mxfs_read` at `timerange->block`, `timerange->page`: the return code, the
bytes written to the caller's buffer from its start, and the device.  `none`
stands for undefined behaviour. -/
def mxfsRead (D : Driver σ) (dev : σ) (layer : UInt8) (bufferlen : UInt16) (block page : Nat) :
    Option (Int × List UInt8) × σ :=
  if bufferlen = 0 then (some (ERR, []), dev)
  else
    let (ret, rbf, dev) := D.read dev block page pageSize
    if ret ≠ OK then (some (ERR, []), dev)
    else
      ((readLoop rbf layer.toNat bufferlen.toNat pageSize 0 []).map
        fun out => ((out.length : Int), out), dev)

/-- A read the driver makes walks the page it read. -/
theorem mxfsRead_eq {D : Driver σ} {dev : σ} {bufferlen : UInt16} (h : bufferlen ≠ 0)
    (hret : (D.read dev block page pageSize).1 = OK) (layer : UInt8) :
    (mxfsRead D dev layer bufferlen block page).1 =
      (readLoop (D.read dev block page pageSize).2.1 layer.toNat bufferlen.toNat pageSize 0
        []).map fun out => ((out.length : Int), out) := by
  rw [mxfsRead, if_neg h]
  exact congrArg Prod.fst (if_neg (not_not.2 hret))

end Mxfs
