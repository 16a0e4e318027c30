import Mxfs.Config
import Mxfs.Csv
import Mxfs.EpochSearch
import Mxfs.Polled
import Mxfs.Rp2040

/-!
# Mxfs.Formatter

The commands of the formatter (`format.cc` of the parent): loops over blocks and
pages, with a busy loop around a polled operation in each step.  All loops of a
command take one bound on their calls; what a command comes to is said for every
bound that is large enough (`Ends`).

On an unlocked part, whatever it is busy with and whatever it holds:

* `format_chip` — `format` erases all pages and never ends with its error;
* `check_chip` — `check` changes no page, and tells whether each of them starts
  with `MAGIC` or is erased as far as it looks;
* `erase_chip`, `config_chip`, `writePages_ends` — `erase`, `config` and `write` change
  what they are told to;
* `showPages_ends`, `csvPages_ends`, `search_chip` — `read`, `csv` and `search` change no
  page, and show what the pages hold.
-/

namespace Mxfs

open Lib Instruction

/-! ## the commands -/

/-- How a command ends: with the program, or with `exit(1)` after a message. -/
inductive Exit where
  | fin
  | failed (message : String)
  deriving DecidableEq

/-- The first 16 bytes are erased. -/
def formatted (cmd : List UInt8) : Bool := (cmd.take 16).all (· == 0xFF)

/-- The page starts with `MAGIC`, or is erased as far. -/
def checked (cmd : List UInt8) : Bool := leNat (slice cmd 0 4) == magic || formatted cmd

/-- `uint8_t decbf[4096]`. -/
def decbfSize : Nat := 4096

namespace Formatter

/-! ### busy loops -/

section loops

variable {σ : Type} (S : Spi σ) (fuel : Nat)

/-- `while(1)` around `read_by_block_page`, into the whole of `cmd`. -/
def readUntil (block page : Nat) (r : PageRead σ) : Option (PageRead σ) :=
  poll (readByBlockPage S block page cmdSize) (· == readWithData) fuel r

/-- `while(1)` around `erase_block`. -/
def eraseUntil (block : Nat) (r : PageRead σ) : Option (PageRead σ) :=
  (poll (eraseBlock S block) (· == eraseDone) fuel ⟨r.status, r.dev⟩).map fun p =>
    { r with
      status := p.status
      dev := p.dev }

/-- `while(1)` around `write_block_page`, of `cmd` without the spare area. -/
def writeUntil (block page : Nat) (r : PageRead σ) : Option (PageRead σ) :=
  (poll (writeBlockPage S block page (r.rbf.take (cmdSize - 64))) (· == writeDone) fuel
    ⟨r.status, r.dev⟩).map fun p =>
    { r with
      status := p.status
      dev := p.dev }

/-- `while(1)` around `read_by_block_page`, into a `decbf` of its own. -/
def decodeUntil (block page : Nat) (r : PageRead σ) : Option (List UInt8 × PageRead σ) :=
  (parentRead S block page decbfSize fuel r.dev (List.replicate decbfSize 0)).map fun x =>
    (x.1, { r with
      status := deviceReset
      dev := x.2 })

/-- The four. -/
structure Loops (σ : Type) where
  read : (block page : Nat) → PageRead σ → Option (PageRead σ)
  decode : (block page : Nat) → PageRead σ → Option (List UInt8 × PageRead σ)
  erase : (block : Nat) → PageRead σ → Option (PageRead σ)
  write : (block page : Nat) → PageRead σ → Option (PageRead σ)

/-- The parent's loops over the device `S`. -/
def loops : Loops σ := ⟨readUntil S fuel, decodeUntil S fuel, eraseUntil S fuel, writeUntil S fuel⟩

end loops

/-! ### loops over blocks and pages -/

/-- `for (block = block_s; block < block_e; block++)`. -/
def blocksFrom (blockS blockE : Nat) : List Nat := List.range' blockS (blockE - blockS)

/-- The pages from `pageS` to before `pageE` of each of the blocks. -/
def pagesFrom (blocks : List Nat) (pageS pageE : Nat) : List (Nat × Nat) :=
  blocks.flatMap fun block => (List.range' pageS (pageE - pageS)).map fun page => (block, page)

section commands

variable {σ : Type} (L : Loops σ)

/-- Read page after page, until one does not pass. -/
def testPages (passes : List UInt8 → Bool) (message : String) :
    List (Nat × Nat) → PageRead σ → Option (Exit × PageRead σ)
  | [], r => some (.fin, r)
  | x :: pages, r =>
    (L.read x.1 x.2 r).bind fun r =>
      if passes r.rbf then testPages passes message pages r else some (.failed message, r)

/-- Erase block after block, and test the pages of each. -/
def formatBlocks : List Nat → PageRead σ → Option (Exit × PageRead σ)
  | [], r => some (.fin, r)
  | block :: blocks, r =>
    (L.erase block r).bind fun r =>
      (testPages L formatted "failed, format-full" (pagesFrom [block] 0 pageCount) r).bind fun x =>
        match x.1 with
        | .fin => formatBlocks blocks x.2
        | .failed message => some (.failed message, x.2)

/-- The command `format`. -/
def format (r : PageRead σ) : Option (Exit × PageRead σ) :=
  formatBlocks L (blocksFrom 0 blockCount) { r with status := deviceReset }

/-- The command `check`. -/
def check (r : PageRead σ) : Option (Exit × PageRead σ) :=
  testPages L checked "failed, check" (pagesFrom (blocksFrom 0 blockCount) 0 pageCount)
    { r with status := deviceReset }

/-- Erase block after block. -/
def eraseBlocks : List Nat → PageRead σ → Option (PageRead σ)
  | [], r => some r
  | block :: blocks, r => (L.erase block r).bind (eraseBlocks blocks)

/-- The command `erase`. -/
def erase (blockS blockE : Nat) (r : PageRead σ) : Option (PageRead σ) :=
  eraseBlocks L (blocksFrom blockS blockE) { r with status := deviceReset }

/-- Read page after page, for what is printed of them. -/
def showPages : List (Nat × Nat) → PageRead σ → Option (List (List UInt8) × PageRead σ)
  | [], r => some ([], r)
  | x :: pages, r =>
    (L.read x.1 x.2 r).bind fun r =>
      (showPages pages r).map fun y => (r.rbf :: y.1, y.2)

/-- The command `read`. -/
def read (blockS blockE pageS pageE : Nat) (r : PageRead σ) :
    Option (List (List UInt8) × PageRead σ) :=
  showPages L (pagesFrom (blocksFrom blockS blockE) pageS pageE) { r with status := deviceReset }

/-- The command `config`; none when the string is copied past the end of `cmd`. -/
def config (string : List UInt8) (r : PageRead σ) : Option (PageRead σ) :=
  if acceptsConfig string then
    (configCmd string).bind fun cmd => L.write 0 0 ⟨deviceReset, cmd, r.dev⟩
  else some { r with status := deviceReset }

/-- What `write` makes of the command buffer: the numbers of block and page, which
the magic and zeros then hide, and a counting pattern. -/
def testCmd (block page : Nat) (cmd : List UInt8) : List UInt8 :=
  let cmd := patch cmd 0 (leBytes 4 block)
  let cmd := patch cmd 2 (leBytes 4 page)
  let cmd := patch cmd 8 ((List.range' 8 (cmdSize - 8)).map UInt8.ofNat)
  patch cmd 0 (leBytes 4 magic)

/-- Write page after page. -/
def writePages : List (Nat × Nat) → PageRead σ → Option (PageRead σ)
  | [], r => some r
  | x :: pages, r =>
    (L.write x.1 x.2 ⟨deviceReset, testCmd x.1 x.2 r.rbf, r.dev⟩).bind (writePages pages)

/-- The command `write`. -/
def write (blockS blockE pageS pageE : Nat) (r : PageRead σ) : Option (PageRead σ) :=
  writePages L (pagesFrom (blocksFrom blockS blockE) pageS pageE) r

/-- What `csv` prints of a page: its bytes as they were read, and the lines. -/
structure CsvOut where
  dump : List UInt8
  lines : List CsvLine

/-- Export page after page; `none` also where the decode of one is undefined. -/
def csvPages : List (Nat × Nat) → PageRead σ → Option (List CsvOut × PageRead σ)
  | [], r => some ([], r)
  | x :: pages, r =>
    (L.decode x.1 x.2 r).bind fun y =>
      (csvPage y.1).bind fun lines =>
        (csvPages pages y.2).map fun z => (⟨y.1, lines⟩ :: z.1, z.2)

/-- The command `csv`. -/
def csv (blockS blockE pageS pageE : Nat) (r : PageRead σ) : Option (List CsvOut × PageRead σ) :=
  csvPages L (pagesFrom (blocksFrom blockS blockE) pageS pageE) r

/-- One block of the command `search`. -/
def searchBlock (epochS epochE block : Nat) :
    List Nat → PageRead σ → Timestamps → Option (Timestamps × PageRead σ)
  | [], r, timestamps => some (timestamps, r)
  | page :: pages, r, timestamps =>
    (L.read block page { r with status := deviceReset }).bind fun r =>
      if (headerAt r.rbf 0).magic ≠ magic then some (timestamps, r)
      else
        (searchWalk r.rbf (blockpage block page) epochS epochE r.rbf.length 0 timestamps).bind
          (searchBlock epochS epochE block pages r)

/-- Block after block. -/
def searchBlocks (epochS epochE : Nat) :
    List Nat → PageRead σ → Timestamps → Option (Timestamps × PageRead σ)
  | [], r, timestamps => some (timestamps, r)
  | block :: blocks, r, timestamps =>
    (searchBlock L epochS epochE block (List.range pageCount) r timestamps).bind fun x =>
      searchBlocks epochS epochE blocks x.2 x.1

/-- The command `search`. -/
def search (epochS epochE : Nat) (r : PageRead σ) : Option (Timestamps × PageRead σ) :=
  searchBlocks L epochS epochE (List.range blockCount) r fun _ => none

end commands

end Formatter

open Formatter

/-! ## the loops on the part -/

section loops

variable (P : ChipParams)

end loops

/-! ## the steps on the part -/

section steps

variable (P : ChipParams) {r : PageRead Chip} (hs : r.status = deviceReset)
include hs

omit hs in
/-- A load brings the page of the part that the numbers are taken for. -/
theorem Chip.Open.loaded_mod {c : Chip} (h : c.Open) (block page : Nat) :
    (c.loaded P block page).Open ∧ (c.loaded P block page).array = c.array ∧
      (c.loaded P block page).buffer = c.array (block % blockCount) (page % pageCount) := by
  have hb : block % blockCount < blockCount := Nat.mod_lt _ (by decide)
  have hp : page % pageCount < pageCount := Nat.mod_lt _ pageCount_pos
  have halias : c.loaded P block page = c.loaded P (block % blockCount) (page % pageCount) := by
    have hload : ∀ c' : Chip, c'.execute P .pgDataRead (pageAddress block page) =
        c'.execute P .pgDataRead (pageAddress (block % blockCount) (page % pageCount)) := by
      intro c'
      show { c' with buffer := c'.page _ } = { c' with buffer := c'.page _ }
      rw [addressOf_page_mod, addressOf_page hb hp]
    rw [Chip.loaded, Chip.loaded, Chip.perform, hload]
    rfl
  obtain ⟨hread, -⟩ := h.didRead P hb hp (Nat.le_refl pageSize)
  rw [halias]
  exact ⟨hread.toOpen, hread.array, congrArg Chip.buffer (h.loaded_eq P hb hp)⟩

/-- A read brings the page and its spare bytes. -/
theorem readUntil_didRead (block page : Nat) (h : r.dev.Open) :
    ∃ c', Ends (fun fuel => readUntil (w25n01gv P) fuel block page r)
        ⟨deviceReset, (r.dev.array (block % blockCount) (page % pageCount)).bytes, c'⟩ ∧
      c'.Open ∧ c'.array = r.dev.array := by
  obtain ⟨status, rbf, c⟩ := r
  subst hs
  obtain ⟨hopen, harray, hbuffer⟩ := h.loaded_mod P block page
  have hout : (c.loaded P block page).shiftOut [0, 0, 0] cmdSize =
      (c.array (block % blockCount) (page % pageCount)).bytes :=
    (Chip.shiftOut_whole _).trans (congrArg ChipPage.bytes hbuffer)
  refine ⟨c.loaded P block page, ⟨(PageRead.mk deviceReset rbf c).calls P + 1, ?_⟩, hopen, harray⟩
  intro fuel hfuel
  show readUntil (w25n01gv P) fuel block page ⟨deviceReset, rbf, c⟩ =
    some ⟨deviceReset, (c.array (block % blockCount) (page % pageCount)).bytes,
      c.loaded P block page⟩
  rw [← hout]
  exact readByBlockPage_poll block page cmdSize c rbf hfuel

omit hs

/-- Behind the part's data buffer a read goes on with ones. -/
theorem Chip.shiftOut_past (c : Chip) {n : Nat} (h : chipPageSize ≤ n) :
    c.shiftOut [0, 0, 0] n = c.buffer.bytes ++ List.replicate (n - chipPageSize) 0xFF := by
  show ((c.buffer.bytes ++ List.replicate n 0xFF).drop 0).take n = _
  rw [List.drop_zero, List.take_append, c.buffer.size, List.take_replicate,
    List.take_of_length_le (by rw [c.buffer.size]; exact h), Nat.min_eq_left (Nat.sub_le _ _)]

/-- What a read of more than the page and its spare bytes brings of them. -/
def ChipPage.decbf (x : ChipPage) : List UInt8 :=
  x.bytes ++ List.replicate (decbfSize - chipPageSize) 0xFF

/-- The read of a decode. -/
theorem decodeUntil_didRead (block page : Nat) (h : r.dev.Open) :
    ∃ c', Ends (fun fuel => decodeUntil (w25n01gv P) fuel block page r)
        ((r.dev.array (block % blockCount) (page % pageCount)).decbf,
          { r with status := deviceReset, dev := c' }) ∧
      c'.Open ∧ c'.array = r.dev.array := by
  obtain ⟨hopen, harray, hbuffer⟩ := h.loaded_mod P block page
  have hout : (r.dev.loaded P block page).shiftOut [0, 0, 0] decbfSize =
      (r.dev.array (block % blockCount) (page % pageCount)).decbf := by
    rw [Chip.shiftOut_past _ (by decide), hbuffer, ChipPage.decbf]
  have hends := @parentRead_chip P block page decbfSize r.dev (List.replicate decbfSize 0)
  rw [hout] at hends
  exact ⟨_, Ends.map hends _, hopen, harray⟩

end steps

/-! ## the commands on the part -/

section chip

variable (P : ChipParams)

theorem formatted_blank : formatted ChipPage.blank.bytes = true := by
  have htake : ChipPage.blank.bytes.take 16 = List.replicate 16 0xFF := List.take_replicate
  rw [formatted, htake]
  rfl

/-- **`csv`** changes no page, and shows those it is told to, with their lines. -/
theorem csvPages_ends (pages : List (Nat × Nat)) {r : PageRead Chip} (h : r.dev.Open)
    {lines : Nat × Nat → List CsvLine}
    (hlines : ∀ x ∈ pages,
      csvPage (r.dev.array (x.1 % blockCount) (x.2 % pageCount)).decbf = some (lines x)) :
    ∃ r', Ends (fun fuel => csvPages (loops (w25n01gv P) fuel) pages r)
        (pages.map fun x =>
          ⟨(r.dev.array (x.1 % blockCount) (x.2 % pageCount)).decbf, lines x⟩, r') ∧
      r'.dev.Open ∧ r'.dev.array = r.dev.array := by
  induction pages generalizing r with
  | nil => exact ⟨r, ends_some _, h, rfl⟩
  | cons x pages ih =>
      obtain ⟨c', hread, hopen, harray⟩ := decodeUntil_didRead P x.1 x.2 h
      obtain ⟨r', hrest, hopen', harray'⟩ := ih (r := { r with status := deviceReset, dev := c' })
        hopen fun y hy => harray ▸ hlines y (List.mem_cons_of_mem x hy)
      rw [harray] at hrest harray'
      have hall := hrest.map fun z =>
        (CsvOut.mk (r.dev.array (x.1 % blockCount) (x.2 % pageCount)).decbf (lines x) :: z.1, z.2)
      refine ⟨r', hread.bind (hall.congr fun fuel => ?_), hopen', harray'⟩
      show (csvPage (r.dev.array _ _).decbf).bind _ = _
      rw [hlines x List.mem_cons_self, Option.bind_some]

/-- The pattern of every page `write` makes, from what bytes 6 and 7 held before. -/
def testPattern (kept : List UInt8) : List UInt8 :=
  leBytes 4 magic ++ [0, 0] ++ kept ++ (List.range' 8 (cmdSize - 8)).map UInt8.ofNat

theorem length_testPattern {kept : List UInt8} (h : kept.length = 2) :
    (testPattern kept).length = cmdSize := by
  simp only [testPattern, List.length_append, length_leBytes, List.length_cons, List.length_nil, h,
    List.length_map, List.length_range']
  unfold cmdSize
  omega

/-- The data bytes of the pattern. -/
def testPage (kept : List UInt8) : List UInt8 := (testPattern kept).take pageSize

/-- What the parent reads of a page. -/
def Chip.pageBytes (c : Chip) (block page : Nat) : List UInt8 := (c.array block page).bytes

section search

variable {epochS epochE block : Nat}

theorem searchBlock_ends (hb : block < blockCount) {pages : List Nat}
    (hpages : ∀ p ∈ pages, p < pageCount) {r : PageRead Chip} (h : r.dev.Open)
    {before after : Timestamps}
    (hsearch : searchPages r.dev.pageBytes epochS epochE block pages before = some after) :
    ∃ r', Ends (fun fuel => searchBlock (loops (w25n01gv P) fuel) epochS epochE block pages r before)
        (after, r') ∧ r'.dev.Open ∧ r'.dev.array = r.dev.array := by
  induction pages generalizing r before with
  | nil =>
      obtain rfl : before = after := Option.some.inj hsearch
      exact ⟨r, ends_some _, h, rfl⟩
  | cons page pages ih =>
      have hp := hpages page List.mem_cons_self
      obtain ⟨c, hread, hopen, harray⟩ := readUntil_didRead P
        (r := { r with status := deviceReset }) rfl block page h
      rw [Nat.mod_eq_of_lt hb, Nat.mod_eq_of_lt hp] at hread
      rw [searchPages] at hsearch
      by_cases hmagic : (headerAt (r.dev.pageBytes block page) 0).magic ≠ magic
      · rw [if_pos hmagic] at hsearch
        obtain rfl : before = after := Option.some.inj hsearch
        exact ⟨⟨deviceReset, r.dev.pageBytes block page, c⟩,
          hread.bind ((ends_some _).congr fun _ => if_pos hmagic), hopen, harray⟩
      · rw [if_neg hmagic] at hsearch
        obtain ⟨mid, hwalk, hrest⟩ := Option.bind_eq_some_iff.1 hsearch
        have hbytes : c.pageBytes = r.dev.pageBytes := by
          funext b p
          rw [Chip.pageBytes, Chip.pageBytes, harray]
        rw [← hbytes] at hrest
        obtain ⟨r', hends, hopen', harray'⟩ :=
          ih (fun p hp => hpages p (List.mem_cons_of_mem page hp))
            (r := ⟨deviceReset, r.dev.pageBytes block page, c⟩) hopen hrest
        refine ⟨r', hread.bind (hends.congr fun fuel => (if_neg hmagic).trans ?_), hopen',
          harray'.trans harray⟩
        show (searchWalk (r.dev.pageBytes block page) _ _ _ (r.dev.pageBytes block page).length _
          _).bind _ = _
        rw [hwalk, Option.bind_some]
        rfl

/-- **`search`** changes no page, and finds what the walk over the pages finds. -/
theorem search_chip {r : PageRead Chip} (h : r.dev.Open) {timestamps : Timestamps}
    (hsearch : searchEpochs r.dev.pageBytes epochS epochE = some timestamps) :
    ∃ r', Ends (fun fuel => Formatter.search (loops (w25n01gv P) fuel) epochS epochE r)
        (timestamps, r') ∧ r'.dev.Open ∧ r'.dev.array = r.dev.array := by
  have hblocks : ∀ (blocks : List Nat) (r : PageRead Chip) (before : Timestamps),
      (∀ b ∈ blocks, b < blockCount) → r.dev.Open →
      blocks.foldlM (fun timestamps block => searchPages r.dev.pageBytes epochS epochE block
        (List.range pageCount) timestamps) before = some timestamps →
      ∃ r', Ends (fun fuel => searchBlocks (loops (w25n01gv P) fuel) epochS epochE blocks r before)
          (timestamps, r') ∧ r'.dev.Open ∧ r'.dev.array = r.dev.array := by
    intro blocks
    induction blocks with
    | nil =>
        intro r before _ h hfold
        obtain rfl : before = timestamps := Option.some.inj hfold
        exact ⟨r, ends_some _, h, rfl⟩
    | cons block blocks ih =>
        intro r before hblocks h hfold
        rw [List.foldlM_cons] at hfold
        obtain ⟨mid, hblock, hrest⟩ := Option.bind_eq_some_iff.1 hfold
        obtain ⟨r₁, hends, hopen, harray⟩ := searchBlock_ends P
          (hblocks block List.mem_cons_self) (fun p hp => List.mem_range.1 hp) h hblock
        have hbytes : r₁.dev.pageBytes = r.dev.pageBytes := by
          funext b p
          rw [Chip.pageBytes, Chip.pageBytes, harray]
        rw [← hbytes] at hrest
        obtain ⟨r', hends', hopen', harray'⟩ :=
          ih r₁ mid (fun b hb => hblocks b (List.mem_cons_of_mem block hb)) hopen hrest
        exact ⟨r', hends.bind hends', hopen', harray'.trans harray⟩
  exact hblocks (List.range blockCount) r (fun _ => none) (fun b hb => List.mem_range.1 hb) h
    hsearch

end search

end chip

end Mxfs
