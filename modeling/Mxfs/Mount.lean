import Mxfs.Compress
import Mxfs.Driver

/-!
# Mxfs.Mount

`mxfs_create_instance` (`mxfs_instance.cc`) once the lock is taken, the memory
allocated and the bus set up: the fresh instance, the scan of page 0 of every
data block, and the choice of the cursor.  The two builds keep different
per-page tables and choose the cursor by different code.
-/

namespace Mxfs

open Lib

/-- The instance after the `memset`s: empty buffers, cursor on the first data page. -/
def freshInst (B : Build) : Inst where
  mxfsCurrentBlock := blockStartDataArea
  mxfsInvalidBlock := 0
  mxfsCurrentPage := 0
  mxfsBuffer _ := List.replicate B.mxfsBufferSize 0xFF
  mxfsLength _ := 0
  mxfsCount _ := 0
  blocks _ := ⟨0, 0, fun _ => ⟨0, 0, 0⟩⟩

/-- The block status when its page 0 cannot be read. -/
def scanFailed (B : Build) (s : BlockStatus) : BlockStatus where
  flags := blockInvalid
  startTime := 0
  pages :=
    if B.linux then Function.update s.pages 0 { s.pages 0 with flags := pageInvalid }
    else fun _ => ⟨0, 0, 0⟩

/-- The block status from the header of its page 0. -/
def scanRead (B : Build) (s : BlockStatus) (cp : Compress) : BlockStatus where
  flags := if cp.magic = magic then blockInvalid else blockValid
  startTime := cp.time
  pages :=
    if B.linux then Function.update s.pages 0 { s.pages 0 with flags := pageValid }
    else fun _ => ⟨0xFF, 0, 0⟩

/-- One round of the scan. -/
def scanBlock (B : Build) (D : Driver σ) (x : Inst × σ) (block : Nat) : Inst × σ :=
  let (inst, dev) := x
  let (ret, rbf, dev) := D.read dev block 0 headerSize
  if ret ≠ OK then
    let inst := inst.setBlock block (scanFailed B)
    (if B.linux then { inst with mxfsInvalidBlock := u16 (inst.mxfsInvalidBlock + 1) } else inst,
      dev)
  else (inst.setBlock block fun s => scanRead B s (Compress.ofBytes rbf), dev)

/-- "find current block, and page": the loop over the blocks still to look at,
with the largest start time so far. -/
def findCurrent (B : Build) : List Nat → (startTmm : Nat) → Inst → Inst
  | [], _, inst => inst
  | block :: rest, startTmm, inst =>
    let status := inst.blocks block
    if B.linux then
      if (status.pages 0).flags &&& pageValid ≠ 0 then
        if (status.pages 0).startTime > startTmm then
          findCurrent B rest (u32 (status.pages 0).startTime)
            { inst with mxfsCurrentBlock := block, mxfsCurrentPage := 0 }
        else findCurrent B rest startTmm inst
      else findCurrent B rest startTmm inst
    else if inst.blockFlagged block then
      if status.startTime > startTmm then
        findCurrent B rest (u32 status.startTime)
          { inst with mxfsCurrentBlock := block, mxfsCurrentPage := 0 }
      else findCurrent B rest startTmm inst
    else { inst with mxfsCurrentBlock := block, mxfsCurrentPage := 0 }

/-- The mount: scan the data area, then place the cursor. -/
def mount (B : Build) (D : Driver σ) (dev : σ) : Inst × σ :=
  let x := dataBlocks.foldl (scanBlock B D) (freshInst B, dev)
  (findCurrent B dataBlocks 0 x.1, x.2)

theorem mount_inst (B : Build) (D : Driver σ) (dev : σ) :
    (mount B D dev).1 =
      findCurrent B dataBlocks 0 (dataBlocks.foldl (scanBlock B D) (freshInst B, dev)).1 := by
  simp only [mount]

theorem mount_dev (B : Build) (D : Driver σ) (dev : σ) :
    (mount B D dev).2 = (dataBlocks.foldl (scanBlock B D) (freshInst B, dev)).2 := by
  simp only [mount]

end Mxfs
