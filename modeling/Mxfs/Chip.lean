import Mxfs.Driver
import Mxfs.Spi

/-!
# Mxfs.Chip

The flash part behind the bus, a W25N01GV: 1024 blocks of 64 pages, a data
buffer of one page, the three status registers and the write enable latch.

* Instructions other than a status read are ignored while it is busy; after an
  accepted one it may be busy for any number of status reads.
* Programs and erases need the write enable latch, act on the addressed page or
  block unless it is locked, and clear the latch.
* A program stores the `and` of the old content and the data buffer; a page
  read loads the data buffer.
* In OTP mode the pages are others than the array's.
-/

namespace Mxfs

open Lib

/-! ## pages with their spare bytes -/

/-- `PAGE_SIZE` bytes of data and 64 spare bytes. -/
def chipPageSize : Nat := 2112

structure ChipPage where
  bytes : List UInt8
  size : bytes.length = chipPageSize

namespace ChipPage

@[ext] theorem ext {x y : ChipPage} (h : x.bytes = y.bytes) : x = y := by
  cases x; cases y; cases h; rfl

def blank : ChipPage := ⟨List.replicate chipPageSize 0xFF, List.length_replicate⟩

/-- The data bytes. -/
def main (x : ChipPage) : Page :=
  ⟨x.bytes.take pageSize, by rw [List.length_take, x.size]; rfl⟩

/-- The page after `data` was sent to it from `column` on. -/
def load (x : ChipPage) (column : Nat) (data : List UInt8) : ChipPage :=
  ⟨(patch x.bytes column data).take chipPageSize, by
    have hsize := x.size
    simp only [List.length_take, patch, List.length_append, List.length_drop]
    omega⟩

/-- A program only clears bits. -/
def program (x y : ChipPage) : ChipPage :=
  ⟨andBytes x.bytes y.bytes, by rw [length_andBytes, x.size, y.size, Nat.min_self]⟩

/-- The data bytes of an erased page are erased. -/
theorem main_blank : blank.main = Page.blank := by
  apply Page.ext
  show (List.replicate chipPageSize 0xFF).take pageSize = List.replicate pageSize 0xFF
  rw [List.take_replicate]
  rfl

/-- A program leaves the `and` of a page's data bytes and those programmed. -/
theorem main_program (x y : ChipPage) :
    (x.program y).main.bytes = andBytes x.main.bytes y.main.bytes :=
  take_andBytes _ _ _

/-- An erased page takes what is programmed. -/
theorem main_program_of_blank {x : ChipPage} (h : x.main = Page.blank) (y : ChipPage) :
    (x.program y).main = y.main := by
  apply Page.ext
  have hones := andBytes_ones y.main.bytes
  rw [y.main.size] at hones
  rw [main_program, h]
  exact hones

/-- Data sent from the first byte on is what the page starts with; the rest stays. -/
theorem load_bytes (x : ChipPage) {data : List UInt8} (h : data.length ≤ chipPageSize) :
    (x.load 0 data).bytes = data ++ x.bytes.drop data.length := by
  have hsize := x.size
  show (patch x.bytes 0 data).take chipPageSize = _
  rw [patch, List.take_zero, List.nil_append, Nat.zero_add]
  apply List.take_of_length_le
  rw [List.length_append, List.length_drop]
  omega

/-- A whole page of data replaces the data bytes. -/
theorem main_load (x : ChipPage) (y : Page) : (x.load 0 y.bytes).main = y := by
  apply Page.ext
  have hlen : y.bytes.length ≤ chipPageSize := by
    rw [y.size]
    decide
  show (x.load 0 y.bytes).bytes.take pageSize = y.bytes
  rw [load_bytes x hlen]
  exact take_append_of_length y.size

/-- The first bytes of a page are data bytes. -/
theorem take_main (x : ChipPage) {n : Nat} (h : n ≤ pageSize) :
    x.main.bytes.take n = x.bytes.take n := by
  rw [main, List.take_take, Nat.min_eq_left h]

end ChipPage

/-! ## the part -/

/-- What is not fixed of the part: how many status reads find it busy after the
`n`-th instruction, and which blocks a value of the protection register locks. -/
structure ChipParams where
  polls : Instruction → (n : Nat) → Nat
  locked : UInt8 → (block : Nat) → Bool
  unlocked : ∀ block, locked 0 block = false

/-- `busy` counts the status reads that will still find the part busy. -/
structure Chip where
  array : Nat → Nat → ChipPage
  otp : Nat → ChipPage
  buffer : ChipPage
  statusRegister1 : UInt8
  statusRegister2 : UInt8
  writeEnabled : Bool
  busy : Nat
  executed : Nat

namespace Chip

def otpMode (c : Chip) : Bool := c.statusRegister2 &&& statusRegister2OtpE != 0

/-! ### registers -/

def status (c : Chip) : UInt8 :=
  (if c.busy = 0 then 0 else statusRegister3Busy) |||
    (if c.writeEnabled then statusRegister3Wel else 0)

def register (c : Chip) (address : UInt8) : UInt8 :=
  if address = statusRegister1Addr then c.statusRegister1
  else if address = statusRegister2Addr then c.statusRegister2
  else if address = statusRegister3Addr then c.status
  else 0

/-- A look at the status brings the end of the operation nearer. -/
def looked (c : Chip) (address : UInt8) : Chip :=
  if address = statusRegister3Addr then { c with busy := c.busy - 1 } else c

def writeStatus (c : Chip) (address value : UInt8) : Chip :=
  if address = statusRegister1Addr then { c with statusRegister1 := value }
  else if address = statusRegister2Addr then { c with statusRegister2 := value }
  else c

/-! ### pages -/

/-- The page at an address, 64 pages to a block. -/
def page (c : Chip) (address : Nat) : ChipPage :=
  if c.otpMode then c.otp address else c.array (address / pageCount) (address % pageCount)

def programExecute (P : ChipParams) (c : Chip) (address : Nat) : Chip :=
  if !c.writeEnabled then c
  else if P.locked c.statusRegister1 (address / pageCount) then { c with writeEnabled := false }
  else if c.otpMode then
    { c with
      otp := Function.update c.otp address ((c.page address).program c.buffer)
      writeEnabled := false }
  else
    { c with
      array := fun b p =>
        if b = address / pageCount ∧ p = address % pageCount then
          (c.page address).program c.buffer
        else c.array b p
      writeEnabled := false }

def blockErase (P : ChipParams) (c : Chip) (address : Nat) : Chip :=
  if !c.writeEnabled then c
  else if P.locked c.statusRegister1 (address / pageCount) then { c with writeEnabled := false }
  else if c.otpMode then { c with writeEnabled := false }
  else
    { c with
      array := fun b p =>
        if b = address / pageCount ∧ p < pageCount then ChipPage.blank else c.array b p
      writeEnabled := false }

/-! ### transactions -/

/-- An accepted instruction with its operands, status reads and reads apart. -/
def execute (P : ChipParams) (c : Chip) : Instruction → List UInt8 → Chip
  | .writeStatusRegisterL, [address, value] => c.writeStatus address value
  | .writeEnable, [] => { c with writeEnabled := true }
  | .randomPgDataLoad, high :: low :: data =>
    { c with buffer := c.buffer.load (addressOf high low) data }
  | .pgExecute, [_, high, low] => c.programExecute P (addressOf high low)
  | .pgDataRead, [_, high, low] => { c with buffer := c.page (addressOf high low) }
  | .blockErase, [_, high, low] => c.blockErase P (addressOf high low)
  | _, _ => c

/-- The bytes a read shifts out of the data buffer. -/
def shiftOut (c : Chip) (operands : List UInt8) (rxlen : Nat) : List UInt8 :=
  match operands with
  | [high, low, _] =>
    ((c.buffer.bytes ++ List.replicate rxlen 0xFF).drop (addressOf high low)).take rxlen
  | _ => List.replicate rxlen 0xFF

def transfer (P : ChipParams) (c : Chip) (tx : List UInt8) (rxlen : Nat) : List UInt8 × Chip :=
  match tx with
  | [] => (List.replicate rxlen 0xFF, c)
  | code :: operands =>
    match Instruction.ofCode? code with
    | none => (List.replicate rxlen 0xFF, c)
    | some .readStatusRegisterL =>
      (List.replicate rxlen (c.register (operands.headD 0)), c.looked (operands.headD 0))
    | some i =>
      if c.busy ≠ 0 then (List.replicate rxlen 0xFF, c)
      else if i = .read then (c.shiftOut operands rxlen, c)
      else
        (List.replicate rxlen 0xFF,
          { c.execute P i operands with
            busy := P.polls i c.executed
            executed := c.executed + 1 })

end Chip

/-- The part on the bus. -/
def w25n01gv (P : ChipParams) : Spi Chip where
  transfer := Chip.transfer P
  patience c := c.busy + 1

/-! ## waiting for the part -/

section waiting

variable (P : ChipParams) (c : Chip)

/-- The part when its operation is over. -/
def Chip.rested (c : Chip) : Chip := { c with busy := 0 }

/-- A part at rest need not be waited for. -/
theorem Chip.rested_of_rest {c : Chip} (h : c.busy = 0) : c.rested = c := by
  rw [Chip.rested, ← h]

/-- The part after an instruction and the operation it began. -/
def Chip.perform (P : ChipParams) (c : Chip) (i : Instruction) (operands : List UInt8) : Chip :=
  { c.execute P i operands with
    busy := 0
    executed := c.executed + 1 }

/-- A read of the status shows it, and brings a busy part on. -/
theorem readRegister_status :
    (w25n01gv P).readRegister statusRegister3Addr c =
      (c.status, { c with busy := c.busy - 1 }) := rfl

/-- The busy bit is clear when the part is at rest. -/
theorem Chip.status_ready : (c.status &&& statusRegister3Busy == 0) = decide (c.busy = 0) := by
  unfold Chip.status
  by_cases hb : c.busy = 0 <;> cases hw : c.writeEnabled <;> simp [hb] <;> decide

/-- The bit of the write enable latch shows the latch. -/
theorem Chip.status_writeEnabled : (c.status &&& statusRegister3Wel != 0) = c.writeEnabled := by
  unfold Chip.status
  by_cases hb : c.busy = 0 <;> cases hw : c.writeEnabled <;> simp [hb] <;> decide

/-- **The part's patience is enough**: whatever status is waited for, more looks
than the part is busy for see no other. -/
theorem patience_enough (done : UInt8 → Bool) {n : Nat} (h : c.busy < n) :
    poll ((w25n01gv P).readRegister statusRegister3Addr) done n c =
      poll ((w25n01gv P).readRegister statusRegister3Addr) done ((w25n01gv P).patience c) c := by
  refine poll_adequate (m := Chip.busy) ?_ ?_ h (Nat.lt_succ_self c.busy)
  · intro c hc
    show c.busy - 1 < c.busy
    omega
  · intro c hc
    rw [readRegister_status, hc]
    cases c
    simp_all

/-- The wait for the part ends with the part at rest. -/
theorem waitReady_chip : (w25n01gv P).waitReady c = some c.rested := by
  refine poll_rest Chip.rested (m := Chip.busy) (I := fun _ => True) ?_ ?_ trivial
    (Nat.lt_succ_self c.busy)
  · intro c _ hc
    rw [readRegister_status]
    refine ⟨?_, ?_, rfl, trivial⟩
    · simp [c.status_ready, hc]
    · show c.busy - 1 < c.busy
      omega
  · intro c _ hc
    rw [readRegister_status, hc]
    simp [c.status_ready, hc, Chip.rested]

/-- The wait for the latch ends if the latch is set. -/
theorem waitWriteEnabled_chip (h : c.writeEnabled = true) :
    (w25n01gv P).waitWriteEnabled c = some c.rested := by
  refine poll_rest Chip.rested (m := Chip.busy) (I := fun c => c.writeEnabled = true) ?_ ?_ h
    (Nat.lt_succ_self c.busy)
  · intro c hw hc
    rw [readRegister_status]
    refine ⟨?_, ?_, rfl, hw⟩
    · simp [c.status_ready, hc]
    · show c.busy - 1 < c.busy
      omega
  · intro c hw hc
    rw [readRegister_status, hc]
    simp [c.status_ready, c.status_writeEnabled, hw, hc, Chip.rested]

/-- The part when a read has configured it and loaded the page. -/
def Chip.loaded (P : ChipParams) (block page : Nat) (c : Chip) : Chip :=
  (c.rested.perform P .writeStatusRegisterL [statusRegister2Addr,
    (c.statusRegister1 &&& ~~~statusRegister2EccE) ||| statusRegister2Buf]).perform P
      .pgDataRead (pageAddress block page)

/-! ### what the short instructions leave -/

/-- A write enable and a wait set the latch. -/
theorem perform_writeEnable :
    c.perform P .writeEnable [] =
      { c with writeEnabled := true, busy := 0, executed := c.executed + 1 } := rfl

/-- A write of zero to the protection register and a wait unlock the part. -/
theorem perform_unprotect :
    c.perform P .writeStatusRegisterL [statusRegister1Addr, 0] =
      { c with statusRegister1 := 0, busy := 0, executed := c.executed + 1 } := rfl

/-- A write of the configuration and a wait set it. -/
theorem perform_configure (config : UInt8) :
    c.perform P .writeStatusRegisterL [statusRegister2Addr, config] =
      { c with statusRegister2 := config, busy := 0, executed := c.executed + 1 } := rfl

/-- A load and a wait put the data at the start of the data buffer. -/
theorem perform_load (data : List UInt8) :
    c.perform P .randomPgDataLoad (0 :: 0 :: data) =
      { c with buffer := c.buffer.load 0 data, busy := 0, executed := c.executed + 1 } := rfl

end waiting

/-! ## instructions to a part that rests -/

section sending

variable (P : ChipParams) {c : Chip} (h : c.busy = 0) (operands : List UInt8)
include h

/-- A part at rest executes what is sent, and is busy with it. -/
theorem send_chip {i : Instruction} (hread : i ≠ .readStatusRegisterL) (hdata : i ≠ .read) :
    (w25n01gv P).send c (i.code :: operands) =
      { c.execute P i operands with
        busy := P.polls i c.executed
        executed := c.executed + 1 } := by
  show (c.transfer P (i.code :: operands) 0).2 = _
  cases i <;> simp_all [Chip.transfer]

/-- An instruction, and the wait for its operation. -/
theorem send_waitReady {i : Instruction} (hread : i ≠ .readStatusRegisterL) (hdata : i ≠ .read) :
    (w25n01gv P).waitReady ((w25n01gv P).send c (i.code :: operands)) =
      some (c.perform P i operands) := by
  rw [send_chip P h operands hread hdata, waitReady_chip]
  rfl

/-- The write enable latch is set when the wait for it ends. -/
theorem send_waitWriteEnabled :
    (w25n01gv P).waitWriteEnabled ((w25n01gv P).send c [Instruction.writeEnable.code]) =
      some (c.perform P .writeEnable []) := by
  rw [send_chip P h [] (by decide) (by decide), waitWriteEnabled_chip P _ rfl]
  rfl

end sending

/-- A part that is busy ignores the instruction. -/
theorem send_busy (P : ChipParams) {c : Chip} (h : c.busy ≠ 0) {i : Instruction}
    (hread : i ≠ .readStatusRegisterL) (operands : List UInt8) :
    (w25n01gv P).send c (i.code :: operands) = c := by
  show (c.transfer P (i.code :: operands) 0).2 = c
  cases i <;> simp_all [Chip.transfer]

/-- With the latch already set the wait ends whether the part took the write
enable or was too busy for it. -/
theorem send_waitWriteEnabled_again (P : ChipParams) {c : Chip} (h : c.writeEnabled = true) :
    ∃ executed, (w25n01gv P).waitWriteEnabled
        ((w25n01gv P).send c [Instruction.writeEnable.code]) =
      some { c with busy := 0, executed := executed } := by
  by_cases hbusy : c.busy = 0
  · refine ⟨c.executed + 1, ?_⟩
    rw [send_waitWriteEnabled P hbusy, perform_writeEnable, ← h]
  · refine ⟨c.executed, ?_⟩
    rw [send_busy P hbusy (by decide), waitWriteEnabled_chip P _ h]
    rfl

/-! ## the part unlocked -/

/-- Nothing is protected and OTP mode is off; the part may still be busy. -/
structure Chip.Open (c : Chip) : Prop where
  statusRegister1 : c.statusRegister1 = 0
  otpMode : c.otpMode = false

/-- Open, and not busy. -/
structure Chip.Idle (c : Chip) : Prop extends c.Open where
  busy : c.busy = 0

/-- The data bytes of the array. -/
def Chip.flash (c : Chip) : Flash := fun b p => (c.array b p).main

/-- Parts with the same array have the same data bytes. -/
theorem flash_of_array {c c' : Chip} (h : c'.array = c.array) : c'.flash = c.flash := by
  funext b p
  rw [Chip.flash, Chip.flash, h]

/-- The page at an address of the array. -/
theorem Chip.page_array {c : Chip} (h : c.otpMode = false) {block page : Nat}
    (hp : page < pageCount) : c.page (block * 64 + page) = c.array block page := by
  unfold pageCount at hp
  have hblock : (block * 64 + page) / pageCount = block := by unfold pageCount; omega
  have hpage : (block * 64 + page) % pageCount = page := by unfold pageCount; omega
  rw [Chip.page, h, hblock, hpage]
  rfl

/-- What a read of the whole data buffer returns. -/
theorem Chip.shiftOut_whole (c : Chip) : c.shiftOut [0, 0, 0] chipPageSize = c.buffer.bytes := by
  show ((c.buffer.bytes ++ List.replicate chipPageSize 0xFF).drop 0).take chipPageSize = _
  rw [List.drop_zero, take_append_of_length c.buffer.size]

/-- What a read from the first byte on returns. -/
theorem Chip.shiftOut_front (c : Chip) {n : Nat} (h : n ≤ pageSize) :
    c.shiftOut [0, 0, 0] n = c.buffer.main.bytes.take n := by
  have hlen : n ≤ c.buffer.bytes.length := by
    rw [c.buffer.size]
    exact Nat.le_trans h (by decide)
  show ((c.buffer.bytes ++ List.replicate n 0xFF).drop 0).take n = _
  rw [List.drop_zero, List.take_append_of_le_length hlen, ChipPage.take_main _ h]

section unlocked

variable (P : ChipParams) {c : Chip} (h : c.Open) (hw : c.writeEnabled = true)
variable {block page : Nat} (hb : block < blockCount)
include h hb

/-- A page read of an unlocked part loads the page of the array. -/
theorem Chip.Open.execute_pgDataRead (hp : page < pageCount) :
    c.execute P .pgDataRead (pageAddress block page) =
      { c with buffer := c.array block page } := by
  show { c with buffer := c.page _ } = _
  rw [addressOf_page hb hp, Chip.page_array h.otpMode hp]

include hw

/-- A block erase of an unlocked part with the latch set erases the block. -/
theorem Chip.Open.execute_blockErase :
    c.execute P .blockErase (blockAddress block) =
      { c with
        array := fun b p => if b = block ∧ p < pageCount then ChipPage.blank else c.array b p
        writeEnabled := false } := by
  have haddr : block * 64 / pageCount = block := by unfold pageCount; omega
  show c.blockErase P _ = _
  rw [addressOf_block hb, Chip.blockErase, hw, h.statusRegister1, P.unlocked, h.otpMode, haddr]
  rfl

/-- A program of an unlocked part with the latch set goes to the page of the array. -/
theorem Chip.Open.execute_pgExecute (hp : page < pageCount) :
    c.execute P .pgExecute (pageAddress block page) =
      { c with
        array := fun b p =>
          if b = block ∧ p = page then (c.array block page).program c.buffer else c.array b p
        writeEnabled := false } := by
  have hblock : (block * 64 + page) / pageCount = block := by
    unfold pageCount at hp ⊢
    omega
  have hpage : (block * 64 + page) % pageCount = page := by
    unfold pageCount at hp ⊢
    omega
  show c.programExecute P _ = _
  rw [addressOf_page hb hp, Chip.programExecute, hw, h.statusRegister1, P.unlocked, h.otpMode,
    Chip.page_array h.otpMode hp, hblock, hpage]
  rfl

end unlocked

/-! ## what erases, programs and reads leave -/

/-- The 64 pages of the block are erased, all others and the data buffer as before. -/
structure Chip.Erased (c c' : Chip) (block : Nat) : Prop extends c'.Open where
  array : ∀ b p, c'.array b p =
    if b = block ∧ p < pageCount then ChipPage.blank else c.array b p
  buffer : c'.buffer = c.buffer

/-- The page is masked by the data buffer with `data` loaded, all others are as before. -/
structure Chip.Programmed (c c' : Chip) (block page : Nat) (data : List UInt8) : Prop
    extends c'.Open where
  array : ∀ b p, c'.array b p =
    if b = block ∧ p = page then (c.array block page).program (c.buffer.load 0 data)
    else c.array b p
  buffer : c'.buffer = c.buffer.load 0 data

/-- The first bytes of the page come back, all pages are as before. -/
structure Chip.DidRead (c c' : Chip) (block page bufferlen : Nat) (out : List UInt8) : Prop
    extends c'.Open where
  out : out = (c.array block page).main.bytes.take bufferlen
  array : c'.array = c.array

section outcomes

variable (P : ChipParams) (c : Chip) {r : Chip} {block page : Nat} (hb : block < blockCount)
include hb

/-- An erase of the part `r` that rests, unlocked and enabled, with the pages of `c`. -/
theorem Chip.Open.erased (h : r.Open) (hw : r.writeEnabled = true) (harray : r.array = c.array)
    (hbuffer : r.buffer = c.buffer) (busy executed : Nat) :
    c.Erased { r.execute P .blockErase (blockAddress block) with
      busy := busy, executed := executed } block := by
  rw [h.execute_blockErase P hw hb, harray]
  exact ⟨⟨h.statusRegister1, h.otpMode⟩, fun _ _ => rfl, hbuffer⟩

/-- A program of the part `r`, unlocked, enabled and loaded. -/
theorem Chip.Open.programmed (h : r.Open) (hw : r.writeEnabled = true) (harray : r.array = c.array)
    {data : List UInt8} (hbuffer : r.buffer = c.buffer.load 0 data) (hp : page < pageCount)
    (busy executed : Nat) :
    c.Programmed { r.execute P .pgExecute (pageAddress block page) with
      busy := busy, executed := executed } block page data := by
  rw [h.execute_pgExecute P hw hb hp, harray, hbuffer]
  exact ⟨⟨h.statusRegister1, h.otpMode⟩, fun _ _ => rfl, rfl⟩

variable {c} in
/-- The configuration a read writes keeps OTP mode off. -/
theorem Chip.Open.loaded_eq (h : c.Open) (hp : page < pageCount) :
    c.loaded P block page =
      { c with
        buffer := c.array block page
        statusRegister2 := (c.statusRegister1 &&& ~~~statusRegister2EccE) ||| statusRegister2Buf
        busy := 0
        executed := c.executed + 2 } := by
  have hopen : Chip.Open { c.rested with
      statusRegister2 := (c.statusRegister1 &&& ~~~statusRegister2EccE) ||| statusRegister2Buf
      busy := 0
      executed := c.rested.executed + 1 } := by
    rw [h.statusRegister1]
    refine ⟨h.statusRegister1, ?_⟩
    show (((0 &&& ~~~statusRegister2EccE) ||| statusRegister2Buf) &&& statusRegister2OtpE != 0) =
      false
    decide
  rw [Chip.loaded, perform_configure, Chip.perform, hopen.execute_pgDataRead P hb hp, Chip.rested]

variable {c} in
/-- What a read leaves. -/
theorem Chip.Open.didRead (h : c.Open) (hp : page < pageCount) {bufferlen : Nat}
    (hlen : bufferlen ≤ pageSize) :
    c.DidRead (c.loaded P block page) block page bufferlen
        ((c.loaded P block page).shiftOut [0, 0, 0] bufferlen) ∧
      (c.loaded P block page).busy = 0 := by
  have hmode : (((0 &&& ~~~statusRegister2EccE) ||| statusRegister2Buf) &&&
      statusRegister2OtpE != 0) = false := by decide
  rw [h.loaded_eq P hb hp]
  refine ⟨⟨⟨h.statusRegister1, ?_⟩, Chip.shiftOut_front _ hlen, rfl⟩, rfl⟩
  rw [h.statusRegister1]
  exact hmode

end outcomes

end Mxfs
