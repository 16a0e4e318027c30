import Mxfs.Lib.Bytes
import Mxfs.Defs

/-!
# Mxfs.Compress

The 16-byte record header `compress_t`, packed little-endian:

```
magic:32  time:32  comp:1 type:5 step:16 msec:10  union:32
```

The union is kept as its 32-bit word; `ant`, `gyr` and `tmp` are the three
views of it.  Reading a header back loses only what does not fit a bit field.
-/

namespace Mxfs

open Lib

/-- `compress_t`, the union as one word. -/
structure Compress where
  magic : Nat
  time : Nat
  comp : Nat
  type : Nat
  step : Nat
  msec : Nat
  union : Nat
deriving DecidableEq, Repr

namespace Compress

/-! ## the union -/

/-- `ant.length` set, the padding zero. -/
def antUnion (length : Nat) : Nat := length % 512

/-- `gyr.dim`, `gyr.count` and `gyr.base` set, the padding zero. -/
def gyrUnion (dim count base : Nat) : Nat :=
  dim % 8 + 8 * (count % 2048) + 16384 * (base % 65536)

/-- `tmp.base` and `tmp.count` set. -/
def tmpUnion (base count : Nat) : Nat := base % 65536 + 65536 * (count % 65536)

/-- `ant.length`. -/
def antLength (cp : Compress) : Nat := field 0 9 cp.union

/-- `gyr.count`. -/
def gyrCount (cp : Compress) : Nat := field 3 11 cp.union

/-- `tmp.base`. -/
def tmpBase (cp : Compress) : Nat := field 0 16 cp.union

/-- `tmp.count`. -/
def tmpCount (cp : Compress) : Nat := field 16 16 cp.union

theorem gyrUnion_lt (d c b : Nat) : gyrUnion d c b < 4294967296 := by unfold gyrUnion; omega

theorem tmpUnion_lt (b c : Nat) : tmpUnion b c < 4294967296 := by unfold tmpUnion; omega

/-! ## the byte image -/

/-- The word of the bit fields `comp`, `type`, `step` and `msec`. -/
def fieldWord (cp : Compress) : Nat :=
  cp.comp % 2 + 2 * (cp.type % 32) + 64 * (cp.step % 65536) + 4194304 * (cp.msec % 1024)

/-- The header as it lies in memory. -/
def bytes (cp : Compress) : List UInt8 :=
  leBytes 4 cp.magic ++ (leBytes 4 cp.time ++ (leBytes 4 cp.fieldWord ++ leBytes 4 cp.union))

/-- The header at the front of `bs`. -/
def ofBytes (bs : List UInt8) : Compress :=
  { magic := leNat (slice bs 0 4)
    time := leNat (slice bs 4 4)
    comp := field 0 1 (leNat (slice bs 8 4))
    type := field 1 5 (leNat (slice bs 8 4))
    step := field 6 16 (leNat (slice bs 8 4))
    msec := field 22 10 (leNat (slice bs 8 4))
    union := leNat (slice bs 12 4) }

@[simp] theorem length_bytes (cp : Compress) : cp.bytes.length = headerSize := by
  simp [bytes, headerSize]

theorem fieldWord_lt (cp : Compress) : cp.fieldWord < 4294967296 := by unfold fieldWord; omega

/-- What a header carries once its fields are stored. -/
def stored (cp : Compress) : Compress :=
  { magic := cp.magic % 4294967296
    time := cp.time % 4294967296
    comp := cp.comp % 2
    type := cp.type % 32
    step := cp.step % 65536
    msec := cp.msec % 1024
    union := cp.union % 4294967296 }

section words

variable (cp : Compress) (rest : List UInt8)

theorem slice_magic : slice (cp.bytes ++ rest) 0 4 = leBytes 4 cp.magic := by
  rw [bytes, List.append_assoc]
  exact take_append_of_length (length_leBytes _ _)

theorem slice_time : slice (cp.bytes ++ rest) 4 4 = leBytes 4 cp.time := by
  simp only [bytes, List.append_assoc]
  exact slice_append_mid (length_leBytes _ _) (length_leBytes _ _)

theorem slice_fields : slice (cp.bytes ++ rest) 8 4 = leBytes 4 cp.fieldWord := by
  simp only [bytes, List.append_assoc]
  rw [← List.append_assoc]
  exact slice_append_mid (by simp) (length_leBytes _ _)

theorem slice_union : slice (cp.bytes ++ rest) 12 4 = leBytes 4 cp.union := by
  simp only [bytes, List.append_assoc]
  rw [← List.append_assoc, ← List.append_assoc]
  exact slice_append_mid (by simp) (length_leBytes _ _)

/-- **Header roundtrip**, over any continuation. -/
theorem ofBytes_append : ofBytes (cp.bytes ++ rest) = cp.stored := by
  have hfields : leNat (leBytes 4 cp.fieldWord) = cp.fieldWord :=
    leNat_leBytes_of_lt (fieldWord_lt cp)
  rw [ofBytes, slice_magic, slice_time, slice_fields, slice_union, hfields]
  simp only [leNat_leBytes, stored, field, fieldWord]
  congr 1 <;> omega

end words

/-- The header read from a longer slice is the one at its front. -/
theorem ofBytes_slice {bs : List UInt8} (h : headerSize ≤ n) :
    ofBytes (slice bs i n) = ofBytes (bs.drop i) := by
  unfold headerSize at h
  have hs : ∀ j, j + 4 ≤ 16 → slice (slice bs i n) j 4 = slice (bs.drop i) j 4 := by
    intro j hj
    rw [slice_slice _ (by omega), slice, slice, List.drop_drop]
  simp only [ofBytes, hs 0 (by omega), hs 4 (by omega), hs 8 (by omega), hs 12 (by omega)]

end Compress

end Mxfs
