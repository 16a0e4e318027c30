import Mxfs.Formatter
import Mxfs.OnPart

/-!
# Mxfs.PowerOn

How the three programs start: they reset the part, ask it for its id, and the
RP2040 child and the parent unlock it (`mxfs_driver_create_spi` of both drivers,
`main` of `format.cc`).

`startPart` is the part with the two instructions that are used for this only.
A reset turns OTP mode off, and in the middle of an operation it may leave anything
in the pages; the RP2040 driver waits for the operation first.
-/

namespace Mxfs

open Lib Instruction Formatter

/-! ## the part -/

/-- `JEDEC_ID`. -/
def jedecId : UInt8 := 0x9F

/-- What is not fixed of the part besides: what a reset makes of the protection
register, what it sets the configuration to, OTP mode off, the id, what it makes of
an operation it cuts short, and how many status reads find the part busy after it. -/
structure StartParams where
  part : ChipParams
  statusRegister1 : UInt8 → UInt8
  statusRegister2 : UInt8
  otpOff : statusRegister2 &&& statusRegister2OtpE = 0
  id : List UInt8
  aborted : Chip → Chip
  resetPolls : Nat → Nat

/-- `DEVICE_RESET` to the part. -/
def Chip.reset (R : StartParams) (c : Chip) : Chip :=
  { (if c.busy = 0 then c else R.aborted c) with
    statusRegister1 := R.statusRegister1 c.statusRegister1
    statusRegister2 := R.statusRegister2
    writeEnabled := false
    busy := R.resetPolls c.executed
    executed := c.executed + 1 }

/-- The part on the bus, start-up included. -/
def startPart (R : StartParams) : Spi Chip where
  transfer c tx rxlen :=
    if tx = [deviceReset] then (List.replicate rxlen 0xFF, c.reset R)
    else if tx.head? = some jedecId then
      (if c.busy = 0 then R.id.take rxlen else List.replicate rxlen 0xFF, c)
    else c.transfer R.part tx rxlen
  patience c := c.busy + 1

section same

variable (R : StartParams)

/-- The drivers' instructions do to the part what they do to it without resets. -/
theorem transfer_start (i : Instruction) (operands : List UInt8) (c : Chip) (rxlen : Nat) :
    (startPart R).transfer c (i.code :: operands) rxlen =
      (w25n01gv R.part).transfer c (i.code :: operands) rxlen := by
  have hreset : i.code :: operands ≠ [deviceReset] := by
    cases i <;> simp [code, deviceReset]
  have hid : (i.code :: operands).head? ≠ some jedecId := by
    cases i <;> simp [code, jedecId]
  exact (if_neg hreset).trans (if_neg hid)

/-- The part that can be reset takes an instruction as the part without resets does. -/
theorem send_start (i : Instruction) (operands : List UInt8) (c : Chip) :
    (startPart R).send c (i.code :: operands) = (w25n01gv R.part).send c (i.code :: operands) :=
  congrArg Prod.snd (transfer_start R i operands c 0)

/-- The part that can be reset shows its registers as the part without resets. -/
theorem readRegister_start (address : UInt8) :
    (startPart R).readRegister address = (w25n01gv R.part).readRegister address := by
  funext c
  simp only [Spi.readRegister, transfer_start]

/-- The wait for the part is the same with resets. -/
theorem waitReady_start : (startPart R).waitReady = (w25n01gv R.part).waitReady := by
  funext c
  simp only [Spi.waitReady, readRegister_start]
  rfl

/-- The wait for the write enable latch is the same with resets. -/
theorem waitWriteEnabled_start :
    (startPart R).waitWriteEnabled = (w25n01gv R.part).waitWriteEnabled := by
  funext c
  simp only [Spi.waitWriteEnabled, readRegister_start]
  rfl

/-- The RP2040's read resets nothing. -/
theorem rp2040Read_start : rp2040Read (startPart R) = rp2040Read (w25n01gv R.part) := by
  funext c block page bufferlen
  simp only [rp2040Read, waitReady_start, readRegister_start, send_start, transfer_start]

/-- The RP2040's erase resets nothing. -/
theorem rp2040Erase_start : rp2040Erase (startPart R) = rp2040Erase (w25n01gv R.part) := by
  funext c block
  simp only [rp2040Erase, waitReady_start, waitWriteEnabled_start, send_start]

/-- Instructions sent out of a command buffer are the part's as well. -/
theorem send_take_start (i : Instruction) (operands cmd : List UInt8) (n : Nat) (c : Chip) :
    (startPart R).send c ((patch cmd 0 (i.code :: operands)).take (n + 1)) =
      (w25n01gv R.part).send c ((patch cmd 0 (i.code :: operands)).take (n + 1)) := by
  have hcons : (patch cmd 0 (i.code :: operands)).take (n + 1) =
      i.code :: (operands ++ cmd.drop (0 + (i.code :: operands).length)).take n := by
    rw [patch, List.take_zero, List.nil_append, List.cons_append, List.take_succ_cons]
  rw [hcons, send_start]

/-- What is loaded into the data buffer is no reset, whatever the data are. -/
theorem send_load_start (i : Instruction) (operands cmd buffer : List UInt8) (k n : Nat)
    (c : Chip) :
    (startPart R).send c
        ((patch (patch cmd 0 (i.code :: operands)) (k + 1) buffer).take (n + 1)) =
      (w25n01gv R.part).send c
        ((patch (patch cmd 0 (i.code :: operands)) (k + 1) buffer).take (n + 1)) := by
  obtain ⟨rest, hrest⟩ : ∃ rest, patch cmd 0 (i.code :: operands) = i.code :: rest :=
    ⟨_, by rw [patch, List.take_zero, List.nil_append, List.cons_append]⟩
  rw [hrest, patch, List.take_succ_cons, List.cons_append, List.cons_append, List.take_succ_cons,
    send_start]

/-- The RP2040's write resets nothing. -/
theorem rp2040Write_start : rp2040Write (startPart R) = rp2040Write (w25n01gv R.part) := by
  funext c block page buffer
  simp only [rp2040Write, waitReady_start, waitWriteEnabled_start, send_take_start,
    send_load_start]

/-- The RP2040's driver resets nothing between its starts. -/
theorem rp2040Driver_start : rp2040Driver (startPart R) = rp2040Driver (w25n01gv R.part) := by
  rw [rp2040Driver, rp2040Driver, rp2040Read_start, rp2040Write_start, rp2040Erase_start]

/-- The parent's read resets nothing. -/
theorem readByBlockPage_start :
    readByBlockPage (startPart R) = readByBlockPage (w25n01gv R.part) := by
  funext block page rbflen r
  simp only [readByBlockPage, readRegister_start, send_start, transfer_start]

/-- The parent's write resets nothing. -/
theorem writeBlockPage_start :
    writeBlockPage (startPart R) = writeBlockPage (w25n01gv R.part) := by
  funext block page wbf p
  simp only [writeBlockPage, readRegister_start, send_start]

/-- The parent's erase resets nothing. -/
theorem eraseBlock_start : eraseBlock (startPart R) = eraseBlock (w25n01gv R.part) := by
  funext block p
  simp only [eraseBlock, readRegister_start, send_start]

/-- The parent's loops reset nothing. -/
theorem loops_start (fuel : Nat) : loops (startPart R) fuel = loops (w25n01gv R.part) fuel := by
  have hread : readUntil (startPart R) fuel = readUntil (w25n01gv R.part) fuel := by
    funext block page r
    rw [readUntil, readUntil, readByBlockPage_start]
  have hdecode : decodeUntil (startPart R) fuel = decodeUntil (w25n01gv R.part) fuel := by
    funext block page r
    rw [decodeUntil, decodeUntil, parentRead, parentRead, readByBlockPage_start]
  have herase : eraseUntil (startPart R) fuel = eraseUntil (w25n01gv R.part) fuel := by
    funext block r
    rw [eraseUntil, eraseUntil, eraseBlock_start]
  have hwrite : writeUntil (startPart R) fuel = writeUntil (w25n01gv R.part) fuel := by
    funext block page r
    rw [writeUntil, writeUntil, writeBlockPage_start]
  rw [loops, loops, hread, hdecode, herase, hwrite]

end same

/-! ## starting -/

/-- The id all three programs ask for. -/
def w25n01gvId : List UInt8 := [0xEF, 0xAA, 0x21]

section programs

variable {σ : Type} (S : Spi σ)

/-- `JEDEC_ID`: the three bytes of the id. -/
def readId (s : σ) : List UInt8 × σ := S.transfer s [jedecId, 0] 3

/-- `mxfs_driver_create_spi` of the RP2040, from where it talks to the part. -/
def rp2040CreateSpi (s : σ) : Option (Exit × σ) := do
  let s ← S.waitReady s
  let s := S.send s [deviceReset]
  let s ← S.waitReady s
  let (id, s) := readId S s
  if id ≠ w25n01gvId then return (.failed "not supported", s)
  -- un protect
  let s ← S.waitReady (S.send s [writeStatusRegisterL.code, statusRegister1Addr, 0])
  let s ← S.waitWriteEnabled (S.send s [writeEnable.code])
  return (.fin, s)

/-- `main` of the formatter from the reset to the write enable. -/
def parentStart (nap : σ → σ) (s : σ) : Exit × σ :=
  let s := nap (S.send s [deviceReset])
  let (id, s) := readId S s
  if id ≠ w25n01gvId then (.failed "", s)
  else
    let s := nap (S.send s [writeStatusRegisterL.code, statusRegister1Addr, 0])
    let s := nap (S.send s [writeEnable.code])
    (.fin, s)

/-- `read_initialize`: a step of a read of a block's first page, for its magic only. -/
def readInitialize (block : Nat) (p : Polled σ) : Int × Polled σ :=
  let (flgStatus, s) := S.readRegister statusRegister3Addr p.dev
  if flgStatus &&& statusRegister3Busy ≠ 0 then (readNoData, { p with dev := s })
  else if p.status = deviceReset then
    let (flgProtected, s) := S.readRegister statusRegister1Addr s
    -- read mode
    let config := (flgProtected &&& ~~~statusRegister2EccE) ||| statusRegister2Buf
    (readNoData,
      ⟨pgDataRead.code, S.send s [writeStatusRegisterL.code, statusRegister2Addr, config]⟩)
  else if p.status = pgDataRead.code then
    (readNoData, ⟨read.code, S.send s (pgDataRead.code :: pageAddress block 0)⟩)
  else if p.status = read.code then
    let (_, s) := S.transfer s [read.code, 0, 0, 0] 32
    (readWithData, ⟨deviceReset, s⟩)
  else (readNoData, { p with dev := s })

/-- The loop over the blocks at the start. -/
def initializeBlocks (fuel : Nat) : List Nat → Polled σ → Option (Polled σ)
  | [], p => some p
  | block :: blocks, p =>
    (poll (readInitialize S block) (· == readWithData) fuel p).bind
      (initializeBlocks fuel blocks)

end programs

/-! ### the formatter -/

/-- The commands with their options. -/
inductive Command where
  | read (blockS blockE pageS pageE : UInt16)
  | erase (blockS blockE : UInt16)
  | format
  | check
  | config (string : List UInt8)
  | write (blockS blockE pageS pageE : UInt16)
  | csv (blockS blockE pageS pageE : UInt16)
  | search (epochS epochE : UInt32)

/-- What a command prints of the pages: the bytes of those it reads, what it decodes of
them, the times it has found. -/
inductive Shown where
  | nothing
  | pages (dumps : List (List UInt8))
  | csv (outs : List CsvOut)
  | found (timestamps : Timestamps)

namespace Command

/-- The command skips the first reads. -/
def skipsReads : Command → Bool
  | erase _ _ => true
  | _ => false

/-- The branch of `main` for the command. -/
def run {σ : Type} (L : Loops σ) (r : PageRead σ) : Command → Option (Exit × Shown × PageRead σ)
  | read blockS blockE pageS pageE =>
    (Formatter.read L blockS.toNat blockE.toNat pageS.toNat pageE.toNat r).map fun x =>
      (.fin, .pages x.1, x.2)
  | erase blockS blockE =>
    (Formatter.erase L blockS.toNat blockE.toNat r).map fun r => (.fin, .nothing, r)
  | format => (Formatter.format L r).map fun x => (x.1, .nothing, x.2)
  | check => (Formatter.check L r).map fun x => (x.1, .nothing, x.2)
  | config string => (Formatter.config L string r).map fun r => (.fin, .nothing, r)
  | write blockS blockE pageS pageE =>
    (Formatter.write L blockS.toNat blockE.toNat pageS.toNat pageE.toNat r).map fun r =>
      (.fin, .nothing, r)
  | csv blockS blockE pageS pageE =>
    (Formatter.csv L blockS.toNat blockE.toNat pageS.toNat pageE.toNat r).map fun x =>
      (.fin, .csv x.1, x.2)
  | search epochS epochE =>
    (Formatter.search L epochS.toNat epochE.toNat r).map fun x => (.fin, .found x.1, x.2)

end Command

/-- The command buffer after the start. -/
def startCmd : List UInt8 :=
  patch (List.replicate cmdSize 0) 0 [writeEnable.code, statusRegister1Addr, 0]

/-- `main` of the formatter, from where it talks to the part. -/
def formatterMain {σ : Type} (S : Spi σ) (nap : σ → σ) (fuel : Nat) (command : Command) (s : σ) :
    Option (Exit × Shown × σ) :=
  match parentStart S nap s with
  | (.failed message, s) => some (.failed message, .nothing, s)
  | (.fin, s) =>
    (if command.skipsReads then some ⟨deviceReset, s⟩
      else initializeBlocks S fuel (List.range blockCount) ⟨deviceReset, s⟩).bind fun p =>
        (command.run (loops S fuel) ⟨p.status, startCmd, p.dev⟩).map fun x =>
          (x.1, x.2.1, x.2.2.dev)

/-! ## starting the part -/

section starts

variable (R : StartParams) (c : Chip)

/-- A reset in a transaction of its own. -/
theorem send_reset : (startPart R).send c [deviceReset] = c.reset R := rfl

/-- A part at rest shows its id. -/
theorem readId_start (h : c.busy = 0) : readId (startPart R) c = (R.id.take 3, c) := by
  have hid : (startPart R).transfer c [jedecId, 0] 3 =
      (if c.busy = 0 then R.id.take 3 else List.replicate 3 0xFF, c) := rfl
  rw [readId, hid, if_pos h]

/-- The part after a reset, when it has come up. -/
def Chip.cameUp : Chip :=
  { (if c.busy = 0 then c else R.aborted c) with
    statusRegister1 := R.statusRegister1 c.statusRegister1
    statusRegister2 := R.statusRegister2
    writeEnabled := false
    busy := 0
    executed := c.executed + 1 }

/-- A part that was reset comes up when it is waited for. -/
theorem rested_reset : (c.reset R).rested = c.cameUp R := rfl

/-- A part comes up with OTP mode off. -/
theorem otpMode_cameUp : (c.cameUp R).otpMode = false := by
  show (R.statusRegister2 &&& statusRegister2OtpE != 0) = false
  rw [R.otpOff]
  rfl

/-- The part once a program has started that unlocks it. -/
def Chip.started : Chip :=
  ((c.rested.cameUp R).perform R.part .writeStatusRegisterL [statusRegister1Addr, 0]).perform
    R.part .writeEnable []

/-- A part that has started is open and idle, and has the pages it had. -/
theorem started_idle :
    (c.started R).Idle ∧ (c.started R).array = c.array ∧ (c.started R).otp = c.otp := by
  rw [Chip.started, perform_unprotect, perform_writeEnable]
  exact ⟨⟨⟨rfl, otpMode_cameUp R c.rested⟩, rfl⟩, rfl, rfl⟩

/-- A start of the formatter on a part at rest leaves the pages. -/
theorem started_flash : (c.started R).flash = c.flash := flash_of_array (started_idle R c).2.1

/-- **The RP2040 starts** from any state of the part: it ends, with the part
unlocked, enabled and at rest and all pages as they were; a part of another kind
it leaves locked. -/
theorem rp2040CreateSpi_start :
    rp2040CreateSpi (startPart R) c =
      if R.id.take 3 = w25n01gvId then some (.fin, c.started R)
      else some (.failed "not supported", c.rested.cameUp R) := by
  rw [rp2040CreateSpi, waitReady_start, waitWriteEnabled_start, waitReady_chip]
  simp only [Option.bind_eq_bind, Option.bind_some]
  rw [send_reset, waitReady_chip, Option.bind_some, rested_reset, readId_start R _ rfl]
  by_cases hid : R.id.take 3 = w25n01gvId
  · simp only [hid, ne_eq, not_true, if_false, if_true, send_start]
    rw [send_waitReady R.part rfl _ (by decide) (by decide), Option.bind_some,
      send_waitWriteEnabled R.part rfl, Option.bind_some]
    rfl
  · simp only [hid, ne_eq, not_false_eq_true, if_true, if_false]
    rfl

/-- The parent, which does not wait for the part, starts on one at rest. -/
theorem parentStart_start (hid : R.id.take 3 = w25n01gvId) (hrest : c.busy = 0) :
    parentStart (startPart R) Chip.rested c = (.fin, c.started R) := by
  rw [parentStart, Chip.started, Chip.rested_of_rest hrest, send_reset, rested_reset,
    readId_start R _ rfl]
  simp only [hid, ne_eq, not_true, if_false, send_start]
  have hunprotect : ((w25n01gv R.part).send (c.cameUp R)
      [writeStatusRegisterL.code, statusRegister1Addr, 0]).rested =
        (c.cameUp R).perform R.part .writeStatusRegisterL [statusRegister1Addr, 0] := by
    rw [send_chip R.part rfl _ (by decide) (by decide)]
    rfl
  rw [hunprotect, send_chip R.part rfl _ (by decide) (by decide)]
  rfl

end starts

/-! ### the parent's first reads -/

section first

/-- A step of a first read is a step of a read of the block's first page. -/
theorem readInitialize_eq {σ : Type} (S : Spi σ) (block : Nat) (r : PageRead σ) :
    readInitialize S block ⟨r.status, r.dev⟩ =
      ((readByBlockPage S block 0 32 r).1,
        ⟨(readByBlockPage S block 0 32 r).2.status, (readByBlockPage S block 0 32 r).2.dev⟩) := by
  simp only [readInitialize, readByBlockPage]
  split
  · rfl
  · split
    · rfl
    · split
      · rfl
      · split <;> rfl

/-- The parent's first read of a block resets nothing. -/
theorem readInitialize_start (R : StartParams) :
    readInitialize (startPart R) = readInitialize (w25n01gv R.part) := by
  funext block p
  simp only [readInitialize, readRegister_start, send_start, transfer_start]

/-- The parent's loop over the first reads resets nothing. -/
theorem initializeBlocks_start (R : StartParams) (fuel : Nat) (blocks : List Nat)
    (p : Polled Chip) :
    initializeBlocks (startPart R) fuel blocks p =
      initializeBlocks (w25n01gv R.part) fuel blocks p := by
  induction blocks generalizing p with
  | nil => rfl
  | cons block blocks ih =>
      rw [initializeBlocks, initializeBlocks, readInitialize_start]
      exact congrArg _ (funext ih)

/-- The first read of a block ends with the page in the data buffer. -/
theorem readInitialize_ends (P : ChipParams) (block : Nat) (c : Chip) :
    Ends (fun fuel => poll (readInitialize (w25n01gv P) block) (· == readWithData) fuel
        ⟨deviceReset, c⟩)
      ⟨deviceReset, c.loaded P block 0⟩ := by
  refine ⟨(PageRead.mk deviceReset [] c).calls P + 1, fun fuel hfuel => ?_⟩
  have hmap : poll (readInitialize (w25n01gv P) block) (· == readWithData) fuel ⟨deviceReset, c⟩ =
      (poll (readByBlockPage (w25n01gv P) block 0 32) (· == readWithData) fuel
        ⟨deviceReset, [], c⟩).map fun r => Polled.mk r.status r.dev :=
    poll_map (readInitialize_eq (w25n01gv P) block) fuel ⟨deviceReset, [], c⟩
  show poll (readInitialize (w25n01gv P) block) _ fuel _ = _
  rw [hmap, readByBlockPage_poll block 0 32 c [] hfuel]
  rfl

/-- **The first reads** end, and change no page. -/
theorem initializeBlocks_ends (P : ChipParams) (blocks : List Nat)
    (hblocks : ∀ b ∈ blocks, b < blockCount) {c : Chip} (h : c.Open) :
    ∃ c', Ends (fun fuel => initializeBlocks (w25n01gv P) fuel blocks ⟨deviceReset, c⟩)
        ⟨deviceReset, c'⟩ ∧ c'.Open ∧ c'.array = c.array := by
  induction blocks generalizing c with
  | nil => exact ⟨c, ends_some _, h, rfl⟩
  | cons block blocks ih =>
      obtain ⟨hread, _⟩ := h.didRead P (hblocks block List.mem_cons_self) pageCount_pos
        (Nat.le_refl pageSize)
      obtain ⟨c', hrest, hopen, harray⟩ :=
        ih (fun b hb => hblocks b (List.mem_cons_of_mem block hb)) hread.toOpen
      exact ⟨c', (readInitialize_ends P block c).bind hrest, hopen, harray.trans hread.array⟩

/-- The first reads, made or skipped. -/
theorem firstReads_ends (P : ChipParams) {c : Chip} (h : c.Open) (skips : Bool) :
    ∃ c', Ends (fun fuel => if skips then some ⟨deviceReset, c⟩
        else initializeBlocks (w25n01gv P) fuel (List.range blockCount) ⟨deviceReset, c⟩)
        ⟨deviceReset, c'⟩ ∧ c'.Open ∧ c'.array = c.array := by
  cases skips with
  | true => exact ⟨c, ends_some _, h, rfl⟩
  | false =>
      obtain ⟨c', hends, hopen, harray⟩ :=
        initializeBlocks_ends P (List.range blockCount) (fun b => List.mem_range.1) h
      exact ⟨c', hends.congr fun _ => if_neg Bool.false_ne_true, hopen, harray⟩

/-- **The formatter, started on a part at rest**, gets to its command with the part open
and all pages as they were. -/
theorem formatterMain_ends {R : StartParams} (hid : R.id.take 3 = w25n01gvId) {c : Chip}
    (hrest : c.busy = 0) (command : Command) :
    ∃ c₁ : Chip, c₁.Open ∧ c₁.array = c.array ∧ ∀ z,
      Ends (fun fuel => command.run (loops (w25n01gv R.part) fuel) ⟨deviceReset, startCmd, c₁⟩) z →
      Ends (fun fuel => formatterMain (startPart R) Chip.rested fuel command c)
        (z.1, z.2.1, z.2.2.dev) := by
  obtain ⟨hidle, hstarted, -⟩ := started_idle R c
  obtain ⟨c₁, hfirst, hopen, harray⟩ := firstReads_ends R.part hidle.toOpen command.skipsReads
  refine ⟨c₁, hopen, harray.trans hstarted, fun z hrun => ?_⟩
  refine Ends.congr (hfirst.bind (g := fun fuel p =>
    (command.run (loops (w25n01gv R.part) fuel) ⟨p.status, startCmd, p.dev⟩).map fun x =>
      (x.1, x.2.1, x.2.2.dev)) (hrun.map fun x => (x.1, x.2.1, x.2.2.dev))) fun fuel => ?_
  rw [formatterMain, parentStart_start R c hid hrest]
  simp only [initializeBlocks_start, loops_start]

end first

/-! ## the RP2040 child from power on -/

/-- A part that comes up with all blocks protected, and loses its pages when an
operation is cut short. -/
def protectedStart : StartParams where
  part := restlessPart
  statusRegister1 := fun _ => 0x7C
  statusRegister2 := 0x18
  otpOff := by decide
  id := w25n01gvId
  aborted c := { c with array := fun _ _ => ChipPage.blank.load 0 [0] }
  resetPolls n := n % 7

/-- A part in OTP mode, all blocks protected, in the middle of an operation. -/
def otpChip : Chip :=
  { busyChip with
    statusRegister1 := 0x7C
    statusRegister2 := statusRegister2OtpE }

section child

variable (B : Build) {R : StartParams} (hid : R.id.take 3 = w25n01gvId) (c : Chip)
include hid

omit B in
/-- The RP2040 leaves the part unlocked and at rest, with its pages as they were. -/
theorem rp2040CreateSpi_rests :
    ∃ s, rp2040CreateSpi (startPart R) c = some (.fin, s) ∧ s.Rests c.flash := by
  have hstart := rp2040CreateSpi_start R c
  rw [if_pos hid] at hstart
  exact ⟨_, hstart, (started_idle R c).1, started_flash R c⟩

/-- **What a client fetches is its log**, from the power on over an erased data area. -/
theorem fetch_from_power_on (hB : B.linux = false) (hf : ∀ b, IsData b → c.flash.Blank b)
    {ops : List Op} (hops : ∀ op ∈ ops, op.IsLog) (l : Layer) {bufferlen : UInt16}
    (hbuf : bufferlen ≠ 0) {timerange : List TimeRange} {timerangecount : UInt16}
    (hcount : dataPages.length ≤ timerangecount.toNat)
    (hroom : timerangecount.toNat ≤ timerange.length) :
    ∃ s, rp2040CreateSpi (startPart R) c = some (.fin, s) ∧
      let D := rp2040Driver (startPart R)
      let w := session B D s ops
      ∃ out s', fetch B D w (UInt8.ofNat l.toNat) bufferlen timerange timerangecount =
          (some out, s') ∧
        out ++ (buffered w.inst l).flatten =
          ((acceptedBy B D (World.mounted B D s) ops l).drop
            (reclaimedRecords (LogState.init.run B ops).batches l).length).flatten ∧
        s'.Holds w.dev.flash := by
  obtain ⟨s, hstart, hs⟩ := rp2040CreateSpi_rests hid c
  refine ⟨s, hstart, ?_⟩
  rw [← hs.flash] at hf
  rw [rp2040Driver_start]
  exact fetch_on_rp2040 hB R.part hs.toOpen hf hops l hbuf hcount hroom

omit hid in
/-- A part that would not take a write as it is, with a record put away and one that is
still buffered. -/
theorem fetch_from_power_on_protected :
    let B : Build := { linux := false, rp2040 := true }
    let ops : List Op := [.ofRecord .temperature temperatureSample, .flush,
      .ofRecord .temperature temperatureSample]
    ∃ s, rp2040CreateSpi (startPart protectedStart) otpChip = some (.fin, s) ∧
      let D := rp2040Driver (startPart protectedStart)
      let w := session B D s ops
      ∃ out s', fetch B D w (UInt8.ofNat Layer.temperature.toNat) 2048 pageBuffer 65535 =
          (some out, s') ∧
        out ++ (buffered w.inst .temperature).flatten =
          ((acceptedBy B D (World.mounted B D s) ops .temperature).drop
            (reclaimedRecords (LogState.init.run B ops).batches .temperature).length).flatten ∧
        s'.Holds w.dev.flash := by
  intro B ops
  have hcount : dataPages.length ≤ (65535 : UInt16).toNat := by
    rw [length_dataPages]
    decide
  have hroom : (65535 : UInt16).toNat ≤ pageBuffer.length := by
    rw [pageBuffer, List.length_replicate]
    decide
  have hops : ∀ op ∈ ops, op.IsLog := by simp [ops, Op.ofRecord, Op.IsLog]
  exact fetch_from_power_on B (R := protectedStart) rfl otpChip rfl
    (fun _ _ _ _ => ChipPage.main_blank) hops .temperature (show (2048 : UInt16) ≠ 0 by decide)
    hcount hroom

end child

end Mxfs
