import Mxfs.Lib.Bytes
import Mxfs.Lib.Poll
import Mxfs.Defs

/-!
# Mxfs.Spi

The bus the drivers speak to the flash part over: the instructions and status
registers (`rp2040_def.h`, `bcm2711_def.h`), one transaction of the bus, and
what both drivers build from transactions: reading a status register, waiting
for a status, and the bytes of a page address.
-/

namespace Mxfs

open Lib

/-! ## instructions and registers -/

/-- The instructions the drivers use. -/
inductive Instruction where
  | readStatusRegisterL | writeStatusRegisterL | writeEnable | blockErase
  | randomPgDataLoad | pgExecute | pgDataRead | read
  deriving DecidableEq

namespace Instruction

def code : Instruction → UInt8
  | readStatusRegisterL => 0x0F
  | writeStatusRegisterL => 0x1F
  | writeEnable => 0x06
  | blockErase => 0xD8
  | randomPgDataLoad => 0x84
  | pgExecute => 0x10
  | pgDataRead => 0x13
  | read => 0x03

def all : List Instruction :=
  [readStatusRegisterL, writeStatusRegisterL, writeEnable, blockErase, randomPgDataLoad,
    pgExecute, pgDataRead, read]

def ofCode? (c : UInt8) : Option Instruction := all.find? (fun i => i.code == c)

@[simp] theorem ofCode?_code (i : Instruction) : ofCode? i.code = some i := by
  cases i <;> rfl

end Instruction

def statusRegister1Addr : UInt8 := 0xA0

def statusRegister2Addr : UInt8 := 0xB0

def statusRegister2EccE : UInt8 := 0x10

def statusRegister2Buf : UInt8 := 0x08

def statusRegister2OtpE : UInt8 := 0x40

def statusRegister3Addr : UInt8 := 0xC0

def statusRegister3Busy : UInt8 := 0x01

def statusRegister3Wel : UInt8 := 0x02

/-! ## the bus -/

/-- A device on the bus: a transaction sends `tx` and then reads `rxlen` bytes.
After `patience` looks at a device that stays as it is, a status that has not
come never comes. -/
structure Spi (σ : Type) where
  transfer : σ → (tx : List UInt8) → (rxlen : Nat) → List UInt8 × σ
  patience : σ → Nat

namespace Spi

variable {σ : Type} (S : Spi σ)

/-- `spi_write_blocking`, chip select around it. -/
def send (s : σ) (tx : List UInt8) : σ := (S.transfer s tx 0).2

/-- `spi_read_registers` for the one register it is given a pointer for. -/
def readRegister (address : UInt8) (s : σ) : UInt8 × σ :=
  let r := S.transfer s [Instruction.readStatusRegisterL.code, address] 1
  (r.1.headD 0, r.2)

/-- The loop that waits for `STATUS_REGISTER_3_BUSY` to clear. -/
def waitReady (s : σ) : Option σ :=
  poll (S.readRegister statusRegister3Addr) (fun flg => flg &&& statusRegister3Busy == 0)
    (S.patience s) s

/-- The loop that waits besides for `STATUS_REGISTER_3_WEL`. -/
def waitWriteEnabled (s : σ) : Option σ :=
  poll (S.readRegister statusRegister3Addr)
    (fun flg => flg &&& statusRegister3Busy == 0 && flg &&& statusRegister3Wel != 0)
    (S.patience s) s

end Spi

/-! ## page addresses -/

/-- The byte that holds the low bits of the block, and none of the page's. -/
def blockLow (block : Nat) : UInt8 := UInt8.ofNat ((block <<< 6) &&& 0x00C0)

/-- `cmd[1]` to `cmd[3]` for a page. -/
def pageAddress (block page : Nat) : List UInt8 :=
  [0, UInt8.ofNat ((block >>> 2) &&& 0x00FF), blockLow block ||| UInt8.ofNat (page &&& 0x003F)]

/-- `cmd[1]` to `cmd[3]` for a block. -/
def blockAddress (block : Nat) : List UInt8 :=
  [0, UInt8.ofNat ((block >>> 2) &&& 0x00FF), blockLow block]

/-- The page address two bytes of a command denote. -/
def addressOf (high low : UInt8) : Nat := high.toNat * 256 + low.toNat

theorem toNat_blockHigh (block : Nat) :
    (UInt8.ofNat ((block >>> 2) &&& 0x00FF)).toNat = block / 4 % 256 := by
  have hmask : (block >>> 2) &&& 0x00FF = block / 4 % 256 := by
    rw [show (0x00FF : Nat) = 2 ^ 8 - 1 from rfl, Nat.and_two_pow_sub_one_eq_mod,
      Nat.shiftRight_eq_div_pow]
  simp [hmask]

theorem toNat_blockLow (block : Nat) : (blockLow block).toNat = block % 4 * 64 := by
  have hmask : (block <<< 6) &&& 0x00C0 = block % 4 * 64 := by
    rw [show (0x00C0 : Nat) = 3 <<< 6 from rfl, ← Nat.shiftLeft_and_distrib,
      show (3 : Nat) = 2 ^ 2 - 1 from rfl, Nat.and_two_pow_sub_one_eq_mod, Nat.shiftLeft_eq]
  rw [blockLow, hmask]
  simp only [UInt8.toNat_ofNat']
  omega

theorem toNat_pageLow (block page : Nat) :
    (blockLow block ||| UInt8.ofNat (page &&& 0x003F)).toNat = block % 4 * 64 + page % 64 := by
  have hmask : page &&& 0x003F = page % 64 := by
    rw [show (0x003F : Nat) = 2 ^ 6 - 1 from rfl, Nat.and_two_pow_sub_one_eq_mod]
  have hpage : (UInt8.ofNat (page &&& 0x003F)).toNat = page % 64 := by
    rw [hmask]
    simp only [UInt8.toNat_ofNat']
    omega
  rw [UInt8.toNat_or, toNat_blockLow, hpage]
  have hor := Nat.shiftLeft_add_eq_or_of_lt (show page % 64 < 2 ^ 6 by omega) (block % 4)
  rw [Nat.shiftLeft_eq] at hor
  exact hor.symm

/-- A page's address bytes hold its numbers modulo the part's. -/
theorem addressOf_page_mod (block page : Nat) :
    addressOf (UInt8.ofNat ((block >>> 2) &&& 0x00FF))
      (blockLow block ||| UInt8.ofNat (page &&& 0x003F)) =
        block % blockCount * 64 + page % pageCount := by
  rw [addressOf, toNat_blockHigh, toNat_pageLow]
  unfold blockCount pageCount
  omega

/-- A block's address bytes hold its number modulo the part's. -/
theorem addressOf_block_mod (block : Nat) :
    addressOf (UInt8.ofNat ((block >>> 2) &&& 0x00FF)) (blockLow block) =
      block % blockCount * 64 := by
  rw [addressOf, toNat_blockHigh, toNat_blockLow]
  unfold blockCount
  omega

/-- Within the part, a page's address bytes denote the page. -/
theorem addressOf_page {block page : Nat} (hb : block < blockCount) (hp : page < pageCount) :
    addressOf (UInt8.ofNat ((block >>> 2) &&& 0x00FF))
      (blockLow block ||| UInt8.ofNat (page &&& 0x003F)) = block * 64 + page := by
  rw [addressOf_page_mod, Nat.mod_eq_of_lt hb, Nat.mod_eq_of_lt hp]

/-- Within the part, a block's address bytes denote its first page. -/
theorem addressOf_block {block : Nat} (hb : block < blockCount) :
    addressOf (UInt8.ofNat ((block >>> 2) &&& 0x00FF)) (blockLow block) = block * 64 := by
  rw [addressOf_block_mod, Nat.mod_eq_of_lt hb]

end Mxfs
