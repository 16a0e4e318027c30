import Mxfs.Lib.Run
import Mxfs.Chip

/-!
# Mxfs.Rp2040

The RP2040 driver (`drivers/rp2040/`) over the bus, and what it makes of the
flash part: each call waits for the part before and after every instruction, so
whatever the part was doing, a call finds it resting, acts on the addressed
page or block and leaves it resting (`rp2040_refines`).
-/

namespace Mxfs

open Lib Instruction

/-! ## the driver -/

section driver

variable {σ : Type} (S : Spi σ)

/-- `sizeof(cmd)` of the write. -/
def rp2040CmdSize : Nat := pageSize + 64

/-- `mxfs_driver_write`; nothing is returned when a wait does not end. -/
def rp2040Write (s : σ) (block page : Nat) (buffer : List UInt8) : Option (Int × σ) :=
  if rp2040CmdSize - 3 < buffer.length then some (ERR, s)
  else do
    let cmd := List.replicate rp2040CmdSize 0
    let s ← S.waitReady s
    -- un protect
    let cmd := patch cmd 0 [writeStatusRegisterL.code, statusRegister1Addr, 0]
    let s ← S.waitReady (S.send s (cmd.take 3))
    let cmd := patch cmd 0 [writeEnable.code]
    let s ← S.waitWriteEnabled (S.send s (cmd.take 1))
    -- program load, of a whole page whatever the length
    let cmd := patch cmd 0 [randomPgDataLoad.code, 0, 0]
    let cmd := patch cmd 3 buffer
    let s ← S.waitReady (S.send s (cmd.take (pageSize + 3)))
    let cmd := patch cmd 0 [writeEnable.code]
    let s ← S.waitWriteEnabled (S.send s (cmd.take 1))
    let cmd := patch cmd 0 (pgExecute.code :: pageAddress block page)
    let s ← S.waitReady (S.send s (cmd.take 4))
    return (OK, s)

/-- `mxfs_driver_read`. -/
def rp2040Read (s : σ) (block page bufferlen : Nat) : Option (Int × List UInt8 × σ) := do
  let s ← S.waitReady s
  let (flgProtected, s) := S.readRegister statusRegister1Addr s
  let s ← S.waitReady s
  -- read mode, ECC-E bit to 0
  let config := (flgProtected &&& ~~~statusRegister2EccE) ||| statusRegister2Buf
  let s ← S.waitReady (S.send s [writeStatusRegisterL.code, statusRegister2Addr, config])
  let s ← S.waitReady (S.send s (pgDataRead.code :: pageAddress block page))
  let (buffer, s) := S.transfer s [read.code, 0, 0, 0] bufferlen
  return (OK, buffer, s)

/-- `mxfs_driver_erase`. -/
def rp2040Erase (s : σ) (block : Nat) : Option (Int × σ) := do
  let s ← S.waitReady s
  let s ← S.waitWriteEnabled (S.send s [writeEnable.code])
  -- un protect
  let s ← S.waitReady (S.send s [writeStatusRegisterL.code, statusRegister1Addr, 0])
  let s ← S.waitWriteEnabled (S.send s [writeEnable.code])
  let s ← S.waitReady (S.send s (blockErase.code :: blockAddress block))
  return (OK, s)

/-- The driver; a call that does not return leaves the device as it was. -/
def rp2040Driver : Driver σ where
  read s block page bufferlen := (rp2040Read S s block page bufferlen).getD (ERR, [], s)
  write s block page buffer := (rp2040Write S s block page buffer).getD (ERR, s)
  erase s block := (rp2040Erase S s block).getD (ERR, s)

end driver

/-! ## the calls, as instructions performed -/

section calls

variable (P : ChipParams) (c : Chip)

/-- The erase before its instruction. -/
def Chip.rp2040EraseReady : Chip :=
  ((c.rested.perform P .writeEnable []).perform P .writeStatusRegisterL
    [statusRegister1Addr, 0]).perform P .writeEnable []

theorem rp2040Erase_chip (block : Nat) :
    rp2040Erase (w25n01gv P) c block =
      some (OK, (c.rp2040EraseReady P).perform P .blockErase (blockAddress block)) := by
  rw [rp2040Erase, waitReady_chip]
  simp only [Option.bind_eq_bind, Option.bind_some]
  rw [send_waitWriteEnabled P rfl, Option.bind_some,
    send_waitReady P rfl _ (by decide) (by decide), Option.bind_some,
    send_waitWriteEnabled P rfl, Option.bind_some,
    send_waitReady P rfl _ (by decide) (by decide), Option.bind_some]
  rfl

/-- The write before its program load. -/
def Chip.rp2040LoadReady : Chip :=
  (c.rested.perform P .writeStatusRegisterL [statusRegister1Addr, 0]).perform P .writeEnable []

/-- What the program load sends: the buffer, then zeros up to a page. -/
theorem take_load {cmd load buffer : List UInt8} (hcmd : cmd.drop 3 = List.replicate 2109 0)
    (hload : load.length = 3) (h : buffer.length ≤ pageSize) :
    (patch (patch cmd 0 load) 3 buffer).take (pageSize + 3) =
      load ++ (Page.image buffer 0).bytes := by
  have hdrop : (patch cmd 0 load).drop (3 + buffer.length) =
      List.replicate (2109 - buffer.length) 0 := by
    rw [← List.drop_drop, drop_patch_zero (Nat.le_of_eq hload), hcmd, List.drop_replicate]
  rw [patch, take_patch_zero hload, hdrop, Page.image_bytes h, List.append_assoc, Nat.add_comm,
    ← hload, List.take_length_add_append, List.take_append, List.take_of_length_le h,
    List.take_replicate]
  unfold pageSize at h ⊢
  congr 3
  omega

theorem rp2040Write_chip (block page : Nat) {buffer : List UInt8} (h : buffer.length ≤ pageSize) :
    rp2040Write (w25n01gv P) c block page buffer =
      some (OK, ((((c.rp2040LoadReady P).perform P .randomPgDataLoad
        (0 :: 0 :: (Page.image buffer 0).bytes)).perform P .writeEnable []).perform P .pgExecute
          (pageAddress block page))) := by
  have hlen : ¬ rp2040CmdSize - 3 < buffer.length := by
    unfold rp2040CmdSize pageSize
    unfold pageSize at h
    omega
  have hcmd : (patch (patch (List.replicate rp2040CmdSize 0) 0
      [writeStatusRegisterL.code, statusRegister1Addr, 0]) 0 [writeEnable.code]).drop 3 =
        List.replicate 2109 0 := by
    rw [drop_patch_zero (by decide), drop_patch_zero (by decide), List.drop_replicate]
    rfl
  rw [rp2040Write, if_neg hlen, waitReady_chip]
  simp only [Option.bind_eq_bind, Option.bind_some]
  rw [take_patch_zero (show [_, _, _].length = 3 from rfl),
    send_waitReady P rfl _ (by decide) (by decide), Option.bind_some,
    take_patch_zero (show [_].length = 1 from rfl), send_waitWriteEnabled P rfl, Option.bind_some,
    take_load hcmd rfl h, List.cons_append, send_waitReady P rfl _ (by decide) (by decide),
    Option.bind_some, take_patch_zero (show [_].length = 1 from rfl),
    send_waitWriteEnabled P rfl, Option.bind_some,
    take_patch_zero (show (_ :: pageAddress block page).length = 4 from rfl),
    send_waitReady P rfl _ (by decide) (by decide), Option.bind_some]
  rfl

theorem rp2040Read_chip (block page bufferlen : Nat) :
    rp2040Read (w25n01gv P) c block page bufferlen =
      some (OK, (c.loaded P block page).shiftOut [0, 0, 0] bufferlen, c.loaded P block page) := by
  rw [rp2040Read, waitReady_chip]
  simp only [Option.bind_eq_bind, Option.bind_some]
  have hread : (w25n01gv P).readRegister statusRegister1Addr c.rested =
      (c.statusRegister1, c.rested) := rfl
  rw [hread]
  dsimp only
  rw [waitReady_chip, Option.bind_some, send_waitReady P rfl _ (by decide) (by decide),
    Option.bind_some, send_waitReady P rfl _ (by decide) (by decide), Option.bind_some]
  rfl

end calls

/-! ## what a call does to the array -/

/-- The data bytes of the page are masked by the buffer, padded with zeros; all
other pages are as before. -/
structure Chip.Wrote (c c' : Chip) (block page : Nat) (buffer : List UInt8) : Prop where
  main : (c'.array block page).main.bytes =
    andBytes (c.array block page).main.bytes (Page.image buffer 0).bytes
  others : ∀ b p, ¬ (b = block ∧ p = page) → c'.array b p = c.array b p

theorem Chip.Programmed.wrote {c c' : Chip} {block page : Nat} {buffer : List UInt8}
    (h : c.Programmed c' block page (Page.image buffer 0).bytes) :
    c.Wrote c' block page buffer := by
  constructor
  · rw [h.array, if_pos ⟨rfl, rfl⟩, ChipPage.main_program, ChipPage.main_load]
  · intro b p hne
    rw [h.array, if_neg hne]

/-- The part of an erase, unlocked and enabled. -/
theorem Chip.rp2040EraseReady_eq (P : ChipParams) (c : Chip) :
    c.rp2040EraseReady P =
      { c with
        statusRegister1 := 0
        writeEnabled := true
        busy := 0
        executed := c.executed + 3 } := by
  rw [rp2040EraseReady, perform_writeEnable, perform_unprotect, perform_writeEnable, rested]

/-- The part of a write, its data loaded, unlocked and enabled. -/
theorem Chip.rp2040LoadReady_load (P : ChipParams) (c : Chip) (data : List UInt8) :
    ((c.rp2040LoadReady P).perform P .randomPgDataLoad (0 :: 0 :: data)).perform P
        .writeEnable [] =
      { c with
        buffer := c.buffer.load 0 data
        statusRegister1 := 0
        writeEnabled := true
        busy := 0
        executed := c.executed + 4 } := by
  rw [rp2040LoadReady, perform_unprotect, perform_writeEnable, perform_load, perform_writeEnable,
    rested]

section effects

variable (P : ChipParams) {c : Chip} (h : c.Open) {block page : Nat} (hb : block < blockCount)
include h hb

theorem rp2040Erase_erased :
    ∃ c', rp2040Erase (w25n01gv P) c block = some (OK, c') ∧ c.Erased c' block ∧ c'.Idle := by
  refine ⟨_, rp2040Erase_chip P c block, ?_⟩
  rw [Chip.rp2040EraseReady_eq]
  have hopen : Chip.Open { c with
      statusRegister1 := 0, writeEnabled := true, busy := 0, executed := c.executed + 3 } :=
    ⟨rfl, h.otpMode⟩
  have herased := hopen.erased P c hb rfl rfl rfl 0 (c.executed + 3 + 1)
  exact ⟨herased, herased.toOpen, rfl⟩

theorem rp2040Write_programmed (hp : page < pageCount) {buffer : List UInt8}
    (hlen : buffer.length ≤ pageSize) :
    ∃ c', rp2040Write (w25n01gv P) c block page buffer = some (OK, c') ∧
      c.Programmed c' block page (Page.image buffer 0).bytes ∧ c'.Idle := by
  refine ⟨_, rp2040Write_chip P c block page hlen, ?_⟩
  rw [Chip.rp2040LoadReady_load]
  have hopen : Chip.Open { c with
      buffer := c.buffer.load 0 (Page.image buffer 0).bytes
      statusRegister1 := 0
      writeEnabled := true
      busy := 0
      executed := c.executed + 4 } := ⟨rfl, h.otpMode⟩
  have hprogrammed := hopen.programmed P c hb rfl rfl rfl hp 0 (c.executed + 4 + 1)
  exact ⟨hprogrammed, hprogrammed.toOpen, rfl⟩

theorem rp2040Read_didRead (hp : page < pageCount) {bufferlen : Nat} (hlen : bufferlen ≤ pageSize) :
    ∃ out c', rp2040Read (w25n01gv P) c block page bufferlen = some (OK, out, c') ∧
      c.DidRead c' block page bufferlen out ∧ c'.Idle := by
  obtain ⟨hread, hbusy⟩ := h.didRead P hb hp hlen
  exact ⟨_, _, rp2040Read_chip P c block page bufferlen, hread, hread.toOpen, hbusy⟩

theorem rp2040Write_wrote (hp : page < pageCount) {buffer : List UInt8}
    (hlen : buffer.length ≤ pageSize) :
    ∃ c', rp2040Write (w25n01gv P) c block page buffer = some (OK, c') ∧
      c.Wrote c' block page buffer ∧ c'.Idle := by
  obtain ⟨c', hwrite, hprogrammed, hidle⟩ := rp2040Write_programmed P h hb hp hlen
  exact ⟨c', hwrite, hprogrammed.wrote, hidle⟩

end effects

/-! ## sequences of calls -/

/-- A call to the driver. -/
inductive DeviceCall where
  | read (block page bufferlen : Nat)
  | write (block page : Nat) (buffer : List UInt8)
  | erase (block : Nat)

/-- The call is for a page or block of the part, and a page at most. -/
def DeviceCall.InRange : DeviceCall → Prop
  | .read block page bufferlen => block < blockCount ∧ page < pageCount ∧ bufferlen ≤ pageSize
  | .write block page buffer => block < blockCount ∧ page < pageCount ∧ buffer.length ≤ pageSize
  | .erase block => block < blockCount

namespace Driver

variable {σ : Type} (D : Driver σ) (s : σ)

/-- What a call returns, the data read included. -/
def answer : DeviceCall → List (Int × List UInt8)
  | .read block page bufferlen =>
    [((D.read s block page bufferlen).1, (D.read s block page bufferlen).2.1)]
  | .write block page buffer => [((D.write s block page buffer).1, [])]
  | .erase block => [((D.erase s block).1, [])]

/-- The device after a call. -/
def after : DeviceCall → σ
  | .read block page bufferlen => (D.read s block page bufferlen).2.2
  | .write block page buffer => (D.write s block page buffer).2
  | .erase block => (D.erase s block).2

end Driver

theorem Chip.Erased.flash {c c' : Chip} {block : Nat} (h : c.Erased c' block) :
    c'.flash = c.flash.eraseBlock block := by
  funext b p
  rw [Chip.flash, h.array, Flash.eraseBlock]
  split
  · exact ChipPage.main_blank
  · rfl

theorem Chip.Wrote.flash {c c' : Chip} {block page : Nat} {buffer : List UInt8}
    (h : c.Wrote c' block page buffer) :
    c'.flash = c.flash.setPage block page ((nandMedium 0).program (c.flash block page) buffer) := by
  funext b p
  by_cases hb : b = block ∧ p = page
  · obtain ⟨rfl, rfl⟩ := hb
    rw [Flash.setPage_same]
    exact Page.ext h.main
  · rw [Flash.setPage_ne _ _ hb, Chip.flash, h.others b p hb]
    rfl

/-- **One call** answers as the array of pages does, and leaves the part idle. -/
theorem rp2040_call (P : ChipParams) {c : Chip} (h : c.Open) {call : DeviceCall}
    (hcall : call.InRange) :
    (rp2040Driver (w25n01gv P)).answer c call = (pageArray (nandMedium 0)).answer c.flash call ∧
      ((rp2040Driver (w25n01gv P)).after c call).Idle ∧
      ((rp2040Driver (w25n01gv P)).after c call).flash =
        (pageArray (nandMedium 0)).after c.flash call := by
  cases call with
  | read block page bufferlen =>
      obtain ⟨hb, hp, hlen⟩ := hcall
      obtain ⟨out, c', hread, hdid, hidle⟩ := rp2040Read_didRead P h hb hp hlen
      have hflash : c'.flash = c.flash := by
        unfold Chip.flash
        rw [hdid.array]
      simp only [Driver.answer, Driver.after, rp2040Driver, hread, Option.getD_some, pageArray]
      exact ⟨by rw [hdid.out]; rfl, hidle, hflash⟩
  | write block page buffer =>
      obtain ⟨hb, hp, hlen⟩ := hcall
      obtain ⟨c', hwrite, hwrote, hidle⟩ := rp2040Write_wrote P h hb hp hlen
      simp only [Driver.answer, Driver.after, rp2040Driver, hwrite, Option.getD_some, pageArray]
      exact ⟨trivial, hidle, hwrote.flash⟩
  | erase block =>
      obtain ⟨c', herase, herased, hidle⟩ := rp2040Erase_erased P h hcall
      simp only [Driver.answer, Driver.after, rp2040Driver, herase, Option.getD_some, pageArray]
      exact ⟨trivial, hidle, herased.flash⟩

/-- **The RP2040 driver refines the array of pages**: from every state of an
unlocked part, busy or not, each call returns and does to the array what it
should, and every sequence of calls answers as the array of pages would. -/
theorem rp2040_refines (P : ChipParams) (c : Chip) (h : c.Open) :
    (∀ block < blockCount, ∃ c', rp2040Erase (w25n01gv P) c block = some (OK, c') ∧
      c.Erased c' block ∧ c'.Idle) ∧
    (∀ block < blockCount, ∀ page < pageCount, ∀ buffer : List UInt8, buffer.length ≤ pageSize →
      ∃ c', rp2040Write (w25n01gv P) c block page buffer = some (OK, c') ∧
        c.Wrote c' block page buffer ∧ c'.Idle) ∧
    (∀ block < blockCount, ∀ page < pageCount, ∀ bufferlen ≤ pageSize,
      ∃ out c', rp2040Read (w25n01gv P) c block page bufferlen = some (OK, out, c') ∧
        c.DidRead c' block page bufferlen out ∧ c'.Idle) ∧
    (∀ calls : List DeviceCall, (∀ call ∈ calls, call.InRange) →
      observe (rp2040Driver (w25n01gv P)).after (rp2040Driver (w25n01gv P)).answer c calls =
        observe (pageArray (nandMedium 0)).after (pageArray (nandMedium 0)).answer c.flash calls ∧
      (run (rp2040Driver (w25n01gv P)).after c calls).flash =
        run (pageArray (nandMedium 0)).after c.flash calls ∧
      (run (rp2040Driver (w25n01gv P)).after c calls).Open) := by
  refine ⟨fun block hb => rp2040Erase_erased P h hb,
    fun block hb page hp buffer hlen => rp2040Write_wrote P h hb hp hlen,
    fun block hb page hp bufferlen hlen => rp2040Read_didRead P h hb hp hlen, ?_⟩
  intro calls hcalls
  have halong : Along (rp2040Driver (w25n01gv P)).after (fun _ call => call.InRange) c calls :=
    along_of_forall hcalls c
  refine ⟨?_, ?_⟩
  · refine observe_simulates (R := fun c f => Chip.Open c ∧ c.flash = f) ?_ ⟨h, rfl⟩ halong
    rintro c _ call ⟨hopen, rfl⟩ hcall
    obtain ⟨hanswer, hidle, hflash⟩ := rp2040_call P hopen hcall
    exact ⟨hanswer, hidle.toOpen, hflash⟩
  · rw [and_comm]
    refine run_simulates (R := fun c f => Chip.Open c ∧ c.flash = f) ?_ ⟨h, rfl⟩ halong
    rintro c _ call ⟨hopen, rfl⟩ hcall
    obtain ⟨-, hidle, hflash⟩ := rp2040_call P hopen hcall
    exact ⟨hidle.toOpen, hflash⟩

/-- A part busy for three status reads after each instruction. -/
def restlessPart : ChipParams where
  polls _ _ := 3
  locked value _ := value != 0
  unlocked _ := rfl

/-- An erased part in the middle of an operation. -/
def busyChip : Chip where
  array _ _ := ChipPage.blank
  otp _ := ChipPage.blank
  buffer := ChipPage.blank
  statusRegister1 := 0
  statusRegister2 := statusRegister2EccE
  writeEnabled := false
  busy := 7
  executed := 0

/-- A page programmed while the part is still busy. -/
theorem rp2040_refines_busy :
    ∃ c', rp2040Write (w25n01gv restlessPart) busyChip 5 9 [1, 2, 3] = some (OK, c') ∧
      busyChip.Wrote c' 5 9 [1, 2, 3] ∧ c'.Idle :=
  (rp2040_refines restlessPart busyChip ⟨rfl, by decide⟩).2.1 5 (by decide) 9 (by decide)
    [1, 2, 3] (by decide)

end Mxfs
