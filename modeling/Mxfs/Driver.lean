import Mxfs.Lib.Bytes
import Mxfs.Defs

/-!
# Mxfs.Driver

The driver interface (`drivers_def.h`) and the devices behind it.

* `Driver` — `mxfs_driver_read`, `mxfs_driver_write` and `mxfs_driver_erase`
  over an arbitrary device state, so that every outcome the hardware can give
  is some `Driver`;
* `Driver.logged` — the same driver, with each program and erase recorded
  together with the device state it met;
* `pageArray` — the erasable array of pages, over any `Medium`, i.e. any way
  a page takes data that agrees on erased pages.
-/

namespace Mxfs

open Lib

/-! ## the interface -/

/-- A driver over the device state `σ`.  Calls return the C code, the data if
any, and the device afterwards. -/
structure Driver (σ : Type) where
  read : σ → (block page bufferlen : Nat) → Int × List UInt8 × σ
  write : σ → (block page : Nat) → (buffer : List UInt8) → Int × σ
  erase : σ → (block : Nat) → Int × σ

/-- A program or erase request. -/
inductive Request where
  | write (block page : Nat) (buffer : List UInt8)
  | erase (block : Nat)
deriving DecidableEq, Repr

/-- A request, the device state it met and the code it returned. -/
structure Call (σ : Type) where
  request : Request
  before : σ
  ret : Int

/-- A device with the record of the requests made to it, oldest first. -/
structure Logged (σ : Type) where
  dev : σ
  calls : List (Call σ)

namespace Driver

variable {σ : Type} (D : Driver σ)

/-- The driver `D`, recording its programs and erases. -/
def logged : Driver (Logged σ) where
  read d block page bufferlen :=
    let r := D.read d.dev block page bufferlen
    (r.1, r.2.1, { d with dev := r.2.2 })
  write d block page buffer :=
    let r := D.write d.dev block page buffer
    (r.1, { dev := r.2, calls := d.calls ++ [⟨.write block page buffer, d.dev, r.1⟩] })
  erase d block :=
    let r := D.erase d.dev block
    (r.1, { dev := r.2, calls := d.calls ++ [⟨.erase block, d.dev, r.1⟩] })

end Driver

/-- Block, page and data of a program request. -/
def Request.write? : Request → Option (Nat × Nat × List UInt8)
  | .write block page buffer => some (block, page, buffer)
  | .erase _ => none

/-- The programs among the calls, oldest first. -/
def writes {σ : Type} (calls : List (Call σ)) : List (Nat × Nat × List UInt8) :=
  calls.filterMap (fun c => c.request.write?)

@[simp] theorem writes_append {σ : Type} (xs ys : List (Call σ)) :
    writes (xs ++ ys) = writes xs ++ writes ys := List.filterMap_append

/-! ## pages -/

/-- A page: `PAGE_SIZE` bytes. -/
structure Page where
  bytes : List UInt8
  size : bytes.length = pageSize

namespace Page

@[ext] theorem ext {x y : Page} (h : x.bytes = y.bytes) : x = y := by
  cases x; cases y; cases h; rfl

/-- The erased page. -/
def blank : Page := ⟨List.replicate pageSize 0xFF, List.length_replicate⟩

/-- The page that starts with `data` and goes on with `fill`. -/
def image (data : List UInt8) (fill : UInt8) : Page :=
  ⟨(data ++ List.replicate pageSize fill).take pageSize, by simp⟩

theorem image_bytes (h : data.length ≤ pageSize) (fill : UInt8) :
    (image data fill).bytes = data ++ List.replicate (pageSize - data.length) fill := by
  simp [image, List.take_append, List.take_of_length_le h]

/-- The header word that the scans test against `MAGIC`. -/
def HasMagic (x : Page) : Prop := leNat (slice x.bytes 0 4) = magic

instance (x : Page) : Decidable x.HasMagic := inferInstanceAs (Decidable (_ = _))

/-- The time in the header word at the front of the page. -/
def time (x : Page) : Nat := leNat (slice x.bytes 4 4)

theorem time_lt (x : Page) : x.time < 4294967296 := by
  have hlen : (slice x.bytes 4 4).length = 4 :=
    length_slice_of_le (by rw [x.size]; unfold pageSize; omega)
  have := leNat_lt (slice x.bytes 4 4)
  rw [hlen] at this
  exact this

theorem not_hasMagic_blank : ¬ blank.HasMagic := by
  have hs : slice blank.bytes 0 4 = List.replicate 4 0xFF := by
    rw [slice, List.drop_zero, blank, List.take_replicate]; rfl
  rw [HasMagic, hs]
  decide

end Page

/-! ## the page array -/

/-- How a page takes data.  Program operations differ between parts and
drivers; on an erased page they all leave the data followed by a filler. -/
structure Medium where
  program : Page → List UInt8 → Page
  fill : UInt8
  program_blank : ∀ data : List UInt8, data.length ≤ pageSize →
    program Page.blank data = Page.image data fill

/-- The macOS driver: `memcpy` over the front of the page. -/
def fakeMedium : Medium where
  program old data :=
    ⟨patch old.bytes 0 (data.take pageSize), by
      have hle : (data.take pageSize).length ≤ old.bytes.length := by
        rw [List.length_take, old.size]; exact Nat.min_le_left _ _
      rw [length_patch (by omega), old.size]⟩
  fill := 0xFF
  program_blank data h := by
    apply Page.ext
    rw [Page.image_bytes h]
    simp [patch, Page.blank, List.take_of_length_le h]

/-- A NAND part that can only clear bits: the old content `and` the data,
which the driver pads with `fill`. -/
def nandMedium (fill : UInt8) : Medium where
  program old data := ⟨andBytes old.bytes (Page.image data fill).bytes, by
    simp [old.size, (Page.image data fill).size]⟩
  fill := fill
  program_blank data _ := by
    apply Page.ext
    have := andBytes_ones (Page.image data fill).bytes
    rwa [(Page.image data fill).size] at this

/-- The content of the device, by block and page. -/
abbrev Flash := Nat → Nat → Page

namespace Flash

/-- The erased device. -/
def erased : Flash := fun _ _ => Page.blank

def setPage (f : Flash) (block page : Nat) (x : Page) : Flash :=
  fun b p => if b = block ∧ p = page then x else f b p

/-- `for (page = 0; page < PAGE_COUNT; page++)` sets the page to all ones. -/
def eraseBlock (f : Flash) (block : Nat) : Flash :=
  fun b p => if b = block ∧ p < pageCount then Page.blank else f b p

/-- Every page of the block is erased. -/
def Blank (f : Flash) (block : Nat) : Prop := ∀ p < pageCount, f block p = Page.blank

theorem blank_erased (b : Nat) : erased.Blank b := fun _ _ => rfl

@[simp] theorem setPage_same (f : Flash) (b p : Nat) (x : Page) : f.setPage b p x b p = x := by
  simp [setPage]

theorem setPage_ne (f : Flash) (x : Page) (h : ¬ (b = c ∧ p = q)) :
    f.setPage c q x b p = f b p := by
  simp [setPage, h]

theorem eraseBlock_same (f : Flash) (b : Nat) (h : p < pageCount) :
    f.eraseBlock b b p = Page.blank := by
  simp [eraseBlock, h]

theorem eraseBlock_ne (f : Flash) (h : b ≠ c) : f.eraseBlock c b p = f b p := by
  simp [eraseBlock, h]

theorem Blank.eraseBlock {f : Flash} (h : f.Blank b) (c : Nat) : (f.eraseBlock c).Blank b := by
  intro p hp
  by_cases hb : b = c
  · subst hb; exact eraseBlock_same f b hp
  · rw [eraseBlock_ne f hb]; exact h p hp

end Flash

/-- The device whose calls always succeed and act on an array of pages. -/
def pageArray (M : Medium) : Driver Flash where
  read f block page bufferlen := (OK, (f block page).bytes.take bufferlen, f)
  write f block page buffer := (OK, f.setPage block page (M.program (f block page) buffer))
  erase f block := (OK, f.eraseBlock block)

end Mxfs
