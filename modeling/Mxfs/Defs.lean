import Mathlib.Data.List.Basic
import Mathlib.Logic.Function.Basic

/-!
# Mxfs.Defs

Constants, layers and the in-memory instance (`mxfs_def.h`).

The conditional compilation of the source is a value here: `Build` says
which macros are defined.  C integers are naturals; `u16`, `u32` and `u64` mark
the assignments that truncate.
-/

namespace Mxfs

/-! ## builds and integers -/

/-- The macros the sources are compiled under: `__LINUX__`, `__RP2040__` and
`__DRIVER_INFO__`, which every `CMakeLists.txt` defines.  Under the last `PANIC`
prints its message and aborts, without it `PANIC` does nothing. -/
structure Build where
  linux : Bool
  rp2040 : Bool
  driverInfo : Bool := true
deriving DecidableEq, Repr

/-- Assignment to a `uint16_t`. -/
def u16 (n : Nat) : Nat := n % 65536

/-- Assignment to a `uint32_t`. -/
def u32 (n : Nat) : Nat := n % 4294967296

/-- Assignment to a `uint64_t`. -/
def u64 (n : Nat) : Nat := n % 18446744073709551616

/-- Numbers of 16 bits are not truncated. -/
theorem u16_eq (h : n < 65536) : u16 n = n := Nat.mod_eq_of_lt h

/-- Numbers of 32 bits are not truncated. -/
theorem u32_eq (h : n < 4294967296) : u32 n = n := Nat.mod_eq_of_lt h

/-! ## constants -/

/-- Return codes. -/
def OK : Int := 0

def ERR : Int := -1

def NEED_MORE_BUFFER : Int := -2

@[simp] theorem ERR_ne_OK : ERR ≠ OK := by decide

@[simp] theorem NEED_MORE_BUFFER_ne_OK : NEED_MORE_BUFFER ≠ OK := by decide

def magic : Nat := 0xdeadc0de

def pageSize : Nat := 2048

def blockCount : Nat := 1024

def pageCount : Nat := 64

theorem pageCount_pos : 0 < pageCount := by decide

def blockStartDataArea : Nat := 1

/-- `MXFS_BUFFER_SIZE`: eight pages, four under `__RP2040__`. -/
def Build.mxfsBufferSize (B : Build) : Nat := if B.rp2040 then pageSize <<< 2 else pageSize <<< 3

/-- `sizeof(compress_t)`. -/
def headerSize : Nat := 16

/-- `sizeof(uint64_t)`, the timestamp in front of each buffered record. -/
def timeSize : Nat := 8

def antpRecordSize : Nat := 18

def gyroRecordSize : Nat := 6

def temperatureRecordSize : Nat := 2

def layerDimMax : Nat := 3

def blockValid : UInt32 := 0

def blockInvalid : UInt32 := 1

def pageValid : UInt32 := 0

def pageInvalid : UInt32 := 1

/-- The data blocks, in scan order: `BLOCK_START_DATA_AREA` up to `BLOCK_COUNT`. -/
def dataBlocks : List Nat := List.range' blockStartDataArea (blockCount - blockStartDataArea)

/-- A block of the data area. -/
def IsData (b : Nat) : Prop := blockStartDataArea ≤ b ∧ b < blockCount

instance (b : Nat) : Decidable (IsData b) := inferInstanceAs (Decidable (_ ∧ _))

/-- The data area starts at block 1. -/
theorem isData_iff {b : Nat} : IsData b ↔ 1 ≤ b ∧ b < 1024 := Iff.rfl

/-- The blocks scanned are those of the data area. -/
@[simp] theorem mem_dataBlocks {b : Nat} : b ∈ dataBlocks ↔ IsData b := by
  simp [dataBlocks, isData_iff, blockStartDataArea, blockCount]

/-- The data area has 1023 blocks, in order. -/
theorem dataBlocks_eq : dataBlocks = List.range' 1 1023 := rfl

-- the list is long, and no proof should unfold it by accident
attribute [irreducible] dataBlocks

/-! ## layers -/

/-- The layers records are appended to, `LAYER_MIN` up to `LAYER_MAX`. -/
inductive Layer where
  | antpSpeed | antpPower | antpCadence | gyro | accelerometer | temperature
deriving DecidableEq, Repr

namespace Layer

def toNat : Layer → Nat
  | antpSpeed => 0
  | antpPower => 1
  | antpCadence => 2
  | gyro => 3
  | accelerometer => 4
  | temperature => 5

def ofNat? : Nat → Option Layer
  | 0 => some antpSpeed
  | 1 => some antpPower
  | 2 => some antpCadence
  | 3 => some gyro
  | 4 => some accelerometer
  | 5 => some temperature
  | _ => none

/-- The record length the layer's `bufferlen` check asks for. -/
def recordSize : Layer → Nat
  | antpSpeed | antpPower | antpCadence => antpRecordSize
  | gyro | accelerometer => gyroRecordSize
  | temperature => temperatureRecordSize

/-- `for (n = LAYER_MIN; n < LAYER_MAX; n++)`. -/
def all : List Layer := [antpSpeed, antpPower, antpCadence, gyro, accelerometer, temperature]

/-- `for (layer = LAYER_ANTP_SPEED; layer < LAYER_ANTP_MAX; layer++)`. -/
def antp : List Layer := [antpSpeed, antpPower, antpCadence]

/-- `for (layer = LAYER_GYRO; layer < LAYER_DIM3_MAX; layer++)`. -/
def dim3 : List Layer := [gyro, accelerometer]

/-- `page_flags_array`. -/
def pageFlag : Layer → UInt32
  | antpSpeed => 4
  | antpPower => 8
  | antpCadence => 16
  | gyro => 32
  | accelerometer => 64
  | temperature => 128

/-- A layer is found by its number. -/
@[simp] theorem ofNat?_toNat (l : Layer) : ofNat? l.toNat = some l := by cases l <;> rfl

/-- The layer found for a number has it. -/
theorem toNat_of_ofNat? {n : Nat} {l : Layer} (h : ofNat? n = some l) : n = l.toNat := by
  unfold ofNat? at h
  split at h <;> cases h <;> rfl

/-- There are six layers. -/
theorem toNat_lt (l : Layer) : l.toNat < 6 := by cases l <;> decide

/-- No two layers have one number. -/
theorem toNat_inj {k l : Layer} (h : k.toNat = l.toNat) : k = l := by
  have hk := ofNat?_toNat k
  rw [h, ofNat?_toNat] at hk
  exact (Option.some.inj hk).symm

/-- All layers are listed. -/
theorem mem_all (l : Layer) : l ∈ all := by cases l <;> decide

/-- What holds of some layer is found in the list of all. -/
theorem exists_iff {p : Layer → Prop} : (∃ l, p l) ↔ ∃ l ∈ all, p l :=
  ⟨fun ⟨l, h⟩ => ⟨l, mem_all l, h⟩, fun ⟨l, _, h⟩ => ⟨l, h⟩⟩

/-- A record has at least a byte. -/
theorem recordSize_pos (l : Layer) : 0 < l.recordSize := by cases l <;> decide

/-- A record has at most the 18 bytes of an ANTP one. -/
theorem recordSize_le (l : Layer) : l.recordSize ≤ 18 := by cases l <;> decide

end Layer

/-! ## the instance -/

/-- `mxfs_page_status`.  Outside `__LINUX__` a page has only the flag byte; its
times stay zero here. -/
structure PageStatus where
  flags : UInt32
  startTime : Nat
  lastTime : Nat
deriving DecidableEq, Repr

/-- `mxfs_block_status`. -/
structure BlockStatus where
  flags : UInt32
  startTime : Nat
  pages : Nat → PageStatus

/-- `mxfs_inst`, without the bus handles. -/
structure Inst where
  mxfsCurrentBlock : Nat
  mxfsInvalidBlock : Nat
  mxfsCurrentPage : Nat
  mxfsBuffer : Layer → List UInt8
  mxfsLength : Layer → Nat
  mxfsCount : Layer → Nat
  blocks : Nat → BlockStatus

namespace Inst

/-- `mxfs_length[layer] = 0; mxfs_count[layer] = 0`. -/
def reset (inst : Inst) (layer : Layer) : Inst :=
  { inst with
    mxfsLength := Function.update inst.mxfsLength layer 0
    mxfsCount := Function.update inst.mxfsCount layer 0 }

/-- Change the status of one block. -/
def setBlock (inst : Inst) (block : Nat) (f : BlockStatus → BlockStatus) : Inst :=
  { inst with blocks := Function.update inst.blocks block (f (inst.blocks block)) }

/-- `blocks[block].flags & BLOCK_INVALID`. -/
def blockFlagged (inst : Inst) (block : Nat) : Bool :=
  (inst.blocks block).flags &&& blockInvalid != 0

end Inst

/-- `flags |= BLOCK_INVALID`. -/
def BlockStatus.mark (s : BlockStatus) : BlockStatus := { s with flags := s.flags ||| blockInvalid }

/-- `flags &= ~BLOCK_INVALID`. -/
def BlockStatus.unmark (s : BlockStatus) : BlockStatus :=
  { s with flags := s.flags &&& ~~~blockInvalid }

namespace Inst

/-- A block has the status set for it. -/
@[simp] theorem setBlock_blocks_same (inst : Inst) (b : Nat) (f : BlockStatus → BlockStatus) :
    (inst.setBlock b f).blocks b = f (inst.blocks b) := by
  simp [setBlock]

/-- A status set for a block leaves the others as they were. -/
theorem setBlock_blocks_ne (inst : Inst) (f : BlockStatus → BlockStatus) (h : c ≠ b) :
    (inst.setBlock b f).blocks c = inst.blocks c := by
  simp [setBlock, h]

/-- A status set for a block decides its mark, and no other. -/
theorem blockFlagged_setBlock (inst : Inst) (b : Nat) (f : BlockStatus → BlockStatus) :
    (inst.setBlock b f).blockFlagged =
      Function.update inst.blockFlagged b ((f (inst.blocks b)).flags &&& blockInvalid != 0) := by
  funext c
  by_cases h : c = b
  · subst h; simp [blockFlagged]
  · simp [blockFlagged, setBlock_blocks_ne, h]

/-- Marking a block flags it and no other. -/
theorem blockFlagged_mark (inst : Inst) (b : Nat) :
    (inst.setBlock b BlockStatus.mark).blockFlagged =
      Function.update inst.blockFlagged b true := by
  have h : ((inst.blocks b).flags ||| 1) &&& 1 = 1 := by
    apply UInt32.eq_of_toBitVec_eq
    ext i hi
    simp
    omega
  rw [blockFlagged_setBlock]
  simp only [BlockStatus.mark, blockInvalid, h]
  rfl

/-- Unmarking clears its flag and no other. -/
theorem blockFlagged_unmark (inst : Inst) (b : Nat) :
    (inst.setBlock b BlockStatus.unmark).blockFlagged =
      Function.update inst.blockFlagged b false := by
  have h : (~~~1 : UInt32) &&& 1 = 0 := by decide
  rw [blockFlagged_setBlock]
  simp only [BlockStatus.unmark, blockInvalid, UInt32.and_assoc, h, UInt32.and_zero]
  rfl

end Inst

end Mxfs
