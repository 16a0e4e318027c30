import Mxfs.Chip

/-!
# Mxfs.Bcm2711

The BCM2711 driver (`drivers/bcm2711/`) over the bus.  Unlike the RP2040's it
sends a program load only the bytes of the buffer, so the rest of the part's
data buffer goes into the page too, and it waits neither for the load nor for
the program or the erase to end.
-/

namespace Mxfs

open Lib Instruction

/-! ## the driver -/

section driver

variable {σ : Type} (S : Spi σ)

/-- `mxfs_driver_write`; nothing is returned when a wait does not end. -/
def bcm2711Write (s : σ) (block page : Nat) (buffer : List UInt8) : Option (Int × σ) := do
  let s ← S.waitReady s
  -- un protect
  let s ← S.waitReady (S.send s [writeStatusRegisterL.code, statusRegister1Addr, 0])
  let s ← S.waitWriteEnabled (S.send s [writeEnable.code])
  -- program load
  if 2112 - 3 < buffer.length then return (ERR, s)
  let s := S.send s (randomPgDataLoad.code :: 0 :: 0 :: buffer)
  let s ← S.waitWriteEnabled (S.send s [writeEnable.code])
  let s := S.send s (pgExecute.code :: pageAddress block page)
  return (OK, s)

/-- `mxfs_driver_read`. -/
def bcm2711Read (s : σ) (block page bufferlen : Nat) : Option (Int × List UInt8 × σ) := do
  let s ← S.waitReady s
  let (flgProtected, s) := S.readRegister statusRegister1Addr s
  -- read mode
  let config := (flgProtected &&& ~~~statusRegister2EccE) ||| statusRegister2Buf
  let s ← S.waitReady (S.send s [writeStatusRegisterL.code, statusRegister2Addr, config])
  let s ← S.waitReady (S.send s (pgDataRead.code :: pageAddress block page))
  let (buffer, s) := S.transfer s [read.code, 0, 0, 0] bufferlen
  return (OK, buffer, s)

/-- `mxfs_driver_erase`. -/
def bcm2711Erase (s : σ) (block : Nat) : Option (Int × σ) := do
  let s ← S.waitReady s
  -- un protect
  let s ← S.waitReady (S.send s [writeStatusRegisterL.code, statusRegister1Addr, 0])
  let s ← S.waitWriteEnabled (S.send s [writeEnable.code])
  let s := S.send s (blockErase.code :: blockAddress block)
  return (OK, s)

/-- The driver; a call that does not return leaves the device as it was. -/
def bcm2711Driver : Driver σ where
  read s block page bufferlen := (bcm2711Read S s block page bufferlen).getD (ERR, [], s)
  write s block page buffer := (bcm2711Write S s block page buffer).getD (ERR, s)
  erase s block := (bcm2711Erase S s block).getD (ERR, s)

end driver

/-! ## the calls, as instructions performed -/

section calls

variable (P : ChipParams) (c : Chip)

/-- The part unlocked and enabled. -/
def Chip.bcm2711Ready : Chip :=
  (c.rested.perform P .writeStatusRegisterL [statusRegister1Addr, 0]).perform P .writeEnable []

theorem bcm2711Erase_chip (block : Nat) :
    bcm2711Erase (w25n01gv P) c block =
      some (OK, (w25n01gv P).send (c.bcm2711Ready P) (blockErase.code :: blockAddress block)) := by
  rw [bcm2711Erase, waitReady_chip]
  simp only [Option.bind_eq_bind, Option.bind_some]
  rw [send_waitReady P rfl _ (by decide) (by decide), Option.bind_some,
    send_waitWriteEnabled P rfl, Option.bind_some]
  rfl

/-- The part with the data loaded, busy or not. -/
def Chip.bcm2711Load (buffer : List UInt8) : Chip :=
  (w25n01gv P).send (c.bcm2711Ready P) (randomPgDataLoad.code :: 0 :: 0 :: buffer)

theorem bcm2711Write_chip (block page : Nat) {buffer : List UInt8} (h : buffer.length ≤ pageSize) :
    bcm2711Write (w25n01gv P) c block page buffer =
      ((w25n01gv P).waitWriteEnabled ((w25n01gv P).send (c.bcm2711Load P buffer)
        [writeEnable.code])).bind fun c' =>
          some (OK, (w25n01gv P).send c' (pgExecute.code :: pageAddress block page)) := by
  have hlen : ¬ 2112 - 3 < buffer.length := by
    unfold pageSize at h
    omega
  rw [bcm2711Write, waitReady_chip]
  simp only [Option.bind_eq_bind, Option.bind_some]
  rw [send_waitReady P rfl _ (by decide) (by decide), Option.bind_some,
    send_waitWriteEnabled P rfl, Option.bind_some, if_neg hlen]
  rfl

theorem bcm2711Read_chip (block page bufferlen : Nat) :
    bcm2711Read (w25n01gv P) c block page bufferlen =
      some (OK, (c.loaded P block page).shiftOut [0, 0, 0] bufferlen, c.loaded P block page) := by
  rw [bcm2711Read, waitReady_chip]
  simp only [Option.bind_eq_bind, Option.bind_some]
  have hread : (w25n01gv P).readRegister statusRegister1Addr c.rested =
      (c.statusRegister1, c.rested) := rfl
  rw [hread]
  dsimp only
  rw [send_waitReady P rfl _ (by decide) (by decide), Option.bind_some,
    send_waitReady P rfl _ (by decide) (by decide), Option.bind_some]
  rfl

end calls

/-! ## what a call does to the array -/

/-- The part, unlocked and enabled. -/
theorem Chip.bcm2711Ready_eq (P : ChipParams) (c : Chip) :
    c.bcm2711Ready P =
      { c with
        statusRegister1 := 0
        writeEnabled := true
        busy := 0
        executed := c.executed + 2 } := by
  rw [bcm2711Ready, perform_unprotect, perform_writeEnable, rested]

/-- The part with its data loaded, before the program is executed. -/
theorem Chip.bcm2711Load_eq (P : ChipParams) (c : Chip) (buffer : List UInt8) :
    c.bcm2711Load P buffer =
      { c with
        buffer := c.buffer.load 0 buffer
        statusRegister1 := 0
        writeEnabled := true
        busy := P.polls .randomPgDataLoad (c.executed + 2)
        executed := c.executed + 3 } := by
  rw [bcm2711Load, bcm2711Ready_eq, send_chip P rfl _ (by decide) (by decide)]
  rfl

section effects

variable (P : ChipParams) {c : Chip} (h : c.Open) {block page : Nat} (hb : block < blockCount)
include h hb

theorem bcm2711Erase_erased :
    ∃ c', bcm2711Erase (w25n01gv P) c block = some (OK, c') ∧ c.Erased c' block := by
  refine ⟨_, bcm2711Erase_chip P c block, ?_⟩
  rw [send_chip P rfl _ (by decide) (by decide), Chip.bcm2711Ready_eq]
  have hopen : Chip.Open { c with
      statusRegister1 := 0, writeEnabled := true, busy := 0, executed := c.executed + 2 } :=
    ⟨rfl, h.otpMode⟩
  exact hopen.erased P c hb rfl rfl rfl _ _

/-- The rest of the part's data buffer is programmed along with the buffer. -/
theorem bcm2711Write_programmed (hp : page < pageCount) {buffer : List UInt8}
    (hlen : buffer.length ≤ pageSize) :
    ∃ c', bcm2711Write (w25n01gv P) c block page buffer = some (OK, c') ∧
      c.Programmed c' block page buffer := by
  obtain ⟨executed, henabled⟩ := send_waitWriteEnabled_again P (c := c.bcm2711Load P buffer)
    (by rw [Chip.bcm2711Load_eq])
  rw [bcm2711Write_chip P c block page hlen, henabled, Option.bind_some, Chip.bcm2711Load_eq,
    send_chip P rfl _ (by decide) (by decide)]
  have hopen : Chip.Open { c with
      buffer := c.buffer.load 0 buffer
      statusRegister1 := 0
      writeEnabled := true
      busy := 0
      executed := executed } := ⟨rfl, h.otpMode⟩
  exact ⟨_, rfl, hopen.programmed P c hb rfl rfl rfl hp _ _⟩

theorem bcm2711Read_didRead (hp : page < pageCount) {bufferlen : Nat}
    (hlen : bufferlen ≤ pageSize) :
    ∃ out c', bcm2711Read (w25n01gv P) c block page bufferlen = some (OK, out, c') ∧
      c.DidRead c' block page bufferlen out :=
  ⟨_, _, bcm2711Read_chip P c block page bufferlen, (h.didRead P hb hp hlen).1⟩

end effects

end Mxfs
