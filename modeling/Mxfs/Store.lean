import Mxfs.Refine

/-!
# Mxfs.Store

The file system over a page array, without its memory layout: a cursor, the
erase marks of the blocks, the pages, and the requests made so far.

* `Store.put` — what a flush does with the data it is given;
* `Store.mount` — where a mount puts the cursor, and the marks it finds;
* `shows_commit`, `shows_mounted` — the driver calls of a flush and of a mount
  do just that.
-/

namespace Mxfs

open Lib

/-! ## the cursor -/

/-- A page of the data area. -/
structure Cursor where
  block : Nat
  page : Nat
  isData : IsData block
  page_lt : page < pageCount

namespace Cursor

@[ext] theorem ext {c d : Cursor} (hb : c.block = d.block) (hp : c.page = d.page) : c = d := by
  cases c; cases d; cases hb; cases hp; rfl

/-- The first page of a block. -/
def ofBlock (b : Nat) (h : IsData b) : Cursor := ⟨b, 0, h, by decide⟩

/-- The block after `b`, around the data area. -/
def nextBlock (b : Nat) : Nat := if blockCount ≤ b + 1 then blockStartDataArea else b + 1

/-- The block after a block of data is one. -/
theorem isData_nextBlock {b : Nat} (h : IsData b) : IsData (nextBlock b) := by
  unfold nextBlock
  rw [isData_iff] at h ⊢
  unfold blockCount blockStartDataArea
  split <;> omega

/-- The page after the cursor. -/
def next (c : Cursor) : Cursor :=
  if h : c.page + 1 < pageCount then ⟨c.block, c.page + 1, c.isData, h⟩
  else ofBlock (nextBlock c.block) (isData_nextBlock c.isData)

/-- Within its block the cursor goes on to the next page. -/
theorem next_of_lt {c : Cursor} (h : c.page + 1 < pageCount) :
    c.next.block = c.block ∧ c.next.page = c.page + 1 := by
  rw [next, dif_pos h]; exact ⟨rfl, rfl⟩

/-- At the end of its block the cursor goes on to the next block. -/
theorem next_of_last {c : Cursor} (h : ¬ c.page + 1 < pageCount) :
    c.next.block = nextBlock c.block ∧ c.next.page = 0 := by
  rw [next, dif_neg h]; exact ⟨rfl, rfl⟩

end Cursor

/-! ## the store -/

/-- The cursor, the erase marks, the pages and the requests made. -/
structure Store where
  cursor : Cursor
  marked : Nat → Bool
  flash : Flash
  calls : List (Call Flash)

namespace Store

/-- The page under the cursor. -/
def page (st : Store) : Page := st.flash st.cursor.block st.cursor.page

/-- The page at the start of the current block. -/
def front (st : Store) : Page := st.flash st.cursor.block 0

/-- The current block is erased first if it is marked. -/
def clean (st : Store) : Store :=
  if st.marked st.cursor.block then
    { st with
      marked := Function.update st.marked st.cursor.block false
      flash := st.flash.eraseBlock st.cursor.block
      calls := st.calls ++ [⟨.erase st.cursor.block, st.flash, OK⟩] }
  else st

/-- The page under the cursor takes the data. -/
def write (M : Medium) (st : Store) (data : List UInt8) : Store :=
  { st with
    flash := st.flash.setPage st.cursor.block st.cursor.page (M.program st.page data)
    calls := st.calls ++ [⟨.write st.cursor.block st.cursor.page data, st.flash, OK⟩] }

/-- The cursor moves on; a block it enters is marked. -/
def advance (st : Store) : Store :=
  if st.cursor.page + 1 < pageCount then { st with cursor := st.cursor.next }
  else { st with
    cursor := st.cursor.next
    marked := Function.update st.marked st.cursor.next.block true }

/-- What a flush does to the store. -/
def put (M : Medium) (st : Store) (data : List UInt8) : Store := (st.clean.write M data).advance

/-- An erase the client asks for. -/
def erase (st : Store) (b : Nat) : Store :=
  { st with
    flash := st.flash.eraseBlock b
    calls := st.calls ++ [⟨.erase b, st.flash, OK⟩] }

/-! ### what a put changes -/

@[simp] theorem clean_cursor (st : Store) : st.clean.cursor = st.cursor := by
  unfold clean; split <;> rfl

@[simp] theorem advance_cursor (st : Store) : st.advance.cursor = st.cursor.next := by
  unfold advance; split <;> rfl

@[simp] theorem advance_flash (st : Store) : st.advance.flash = st.flash := by
  unfold advance; split <;> rfl

@[simp] theorem advance_calls (st : Store) : st.advance.calls = st.calls := by
  unfold advance; split <;> rfl

/-- A clean erases a marked block. -/
theorem clean_of_marked {st : Store} (h : st.marked st.cursor.block = true) :
    st.clean.flash = st.flash.eraseBlock st.cursor.block ∧
      st.clean.calls = st.calls ++ [⟨.erase st.cursor.block, st.flash, OK⟩] := by
  rw [clean, if_pos h]; exact ⟨rfl, rfl⟩

/-- A clean leaves a block that is not marked alone. -/
theorem clean_of_not_marked {st : Store} (h : st.marked st.cursor.block = false) :
    st.clean = st := by
  rw [clean, if_neg (by rw [h]; decide)]

/-- Once clean, the current block is not marked. -/
theorem clean_marked (st : Store) : st.clean.marked st.cursor.block = false := by
  unfold clean
  split
  · exact Function.update_self _ _ _
  · next h => simpa using h

/-- A clean leaves the other blocks alone. -/
theorem clean_flash_ne (st : Store) (h : b ≠ st.cursor.block) (p : Nat) :
    st.clean.flash b p = st.flash b p := by
  cases hm : st.marked st.cursor.block with
  | false => rw [clean_of_not_marked hm]
  | true => rw [(clean_of_marked hm).1, Flash.eraseBlock_ne _ h]

section put

variable (M : Medium) (st : Store) (data : List UInt8)

@[simp] theorem put_cursor : (st.put M data).cursor = st.cursor.next := by
  rw [put, advance_cursor, write, clean_cursor]

/-- What a put programs is the page under the cursor, in its block as cleaned. -/
theorem put_flash : (st.put M data).flash =
    st.clean.flash.setPage st.cursor.block st.cursor.page (M.program st.clean.page data) := by
  rw [put, advance_flash, write, clean_cursor]

/-- A put cleans and then programs. -/
theorem put_calls : (st.put M data).calls = st.clean.calls ++
    [⟨.write st.cursor.block st.cursor.page data, st.clean.flash, OK⟩] := by
  rw [put, advance_calls, write, clean_cursor]

/-- A put programs the page under the cursor. -/
theorem put_flash_self : (st.put M data).flash st.cursor.block st.cursor.page =
    M.program st.clean.page data := by
  rw [put_flash, Flash.setPage_same]

/-- A put leaves the rest of the block as the erase, if any, left it. -/
theorem put_flash_block (h : q ≠ st.cursor.page) :
    (st.put M data).flash st.cursor.block q = st.clean.flash st.cursor.block q := by
  rw [put_flash, Flash.setPage_ne _ _ (fun hc => h hc.2)]

/-- A put leaves the other blocks untouched. -/
theorem put_flash_ne (h : b ≠ st.cursor.block) (p : Nat) :
    (st.put M data).flash b p = st.flash b p := by
  rw [put_flash, Flash.setPage_ne _ _ (fun hc => h hc.1), clean_flash_ne st h]

/-- Inside a block a put leaves the marks as the erase left them. -/
theorem put_marked_of_lt (h : st.cursor.page + 1 < pageCount) :
    (st.put M data).marked = st.clean.marked := by
  have hc : (st.clean.write M data).cursor.page + 1 < pageCount := by
    show st.clean.cursor.page + 1 < pageCount
    rw [clean_cursor]; exact h
  rw [put, advance, if_pos hc]; rfl

/-- A put that enters a block marks it. -/
theorem put_marked_of_last (h : ¬ st.cursor.page + 1 < pageCount) :
    (st.put M data).marked = Function.update st.clean.marked st.cursor.next.block true := by
  have hc : ¬ (st.clean.write M data).cursor.page + 1 < pageCount := by
    show ¬ st.clean.cursor.page + 1 < pageCount
    rw [clean_cursor]; exact h
  rw [put, advance, if_neg hc]
  show Function.update st.clean.marked st.clean.cursor.next.block true = _
  rw [clean_cursor]

end put

/-- The erase before a program programs nothing. -/
theorem writes_clean (st : Store) : writes st.clean.calls = writes st.calls := by
  cases hm : st.marked st.cursor.block with
  | false => rw [clean_of_not_marked hm]
  | true => rw [(clean_of_marked hm).2, writes_append]; exact List.append_nil _

/-- A put asks for a program of the page under the cursor. -/
theorem writes_put (M : Medium) (st : Store) (data : List UInt8) :
    writes (st.put M data).calls =
      writes st.calls ++ [(st.cursor.block, st.cursor.page, data)] := by
  rw [put_calls, writes_append, writes_clean]; rfl

/-! ### the mount -/

/-- The block a mount goes to: the first one without magic, the one with the
latest time if there is none such. -/
def pickBlock (f : Flash) : List Nat → (startTmm current : Nat) → Nat
  | [], _, current => current
  | b :: rest, startTmm, current =>
    if (f b 0).HasMagic then
      if startTmm < (f b 0).time then pickBlock f rest (f b 0).time b
      else pickBlock f rest startTmm current
    else b

/-- `__LINUX__` never looks past the first block. -/
def mountBlock (B : Build) (f : Flash) : Nat :=
  if B.linux then blockStartDataArea else pickBlock f dataBlocks 0 blockStartDataArea

/-- The block picked is the candidate or one of those scanned. -/
theorem pickBlock_mem (f : Flash) (bs : List Nat) (t c : Nat) : pickBlock f bs t c ∈ c :: bs := by
  induction bs generalizing t c with
  | nil => exact List.mem_cons_self
  | cons b bs ih =>
      rw [pickBlock]
      split
      · split
        · exact List.mem_cons_of_mem c (ih _ _)
        · have := ih t c
          simp only [List.mem_cons] at this ⊢
          tauto
      · simp

/-- A mount goes to a block of data. -/
theorem isData_mountBlock (B : Build) (f : Flash) : IsData (mountBlock B f) := by
  have hone : IsData blockStartDataArea := by decide
  unfold mountBlock
  split
  · exact hone
  · have hmem := pickBlock_mem f dataBlocks 0 blockStartDataArea
    cases List.mem_cons.1 hmem with
    | inl h => rw [h]; exact hone
    | inr h => exact mem_dataBlocks.1 h

/-- A first data block without magic is the one mounted, in every build. -/
theorem mountBlock_of_first (B : Build) {f : Flash} (h : ¬ (f 1 0).HasMagic) :
    mountBlock B f = 1 := by
  have hcons : dataBlocks = 1 :: List.range' 2 1022 := by
    rw [dataBlocks_eq]; exact List.range'_succ
  unfold mountBlock
  split
  · rfl
  · rw [hcons, pickBlock, if_neg h]

/-- A mount of the store's pages. -/
def mount (B : Build) (st : Store) : Store :=
  { st with
    cursor := Cursor.ofBlock (mountBlock B st.flash) (isData_mountBlock B st.flash)
    marked := fun b => decide (IsData b) && decide (st.flash b 0).HasMagic }

/-- The cursor after a mount is at the block it goes to. -/
theorem mount_block (B : Build) (st : Store) :
    (st.mount B).cursor.block = mountBlock B st.flash := rfl

/-- A mount again changes nothing about a mounted device. -/
theorem mount_mount (B : Build) (st : Store) : (st.mount B).mount B = st.mount B := rfl

/-- The pages before anything is mounted. -/
def start (f : Flash) : Store :=
  ⟨Cursor.ofBlock blockStartDataArea (by decide), fun _ => false, f, []⟩

end Store

/-! ## the store of a world -/

/-- `w` is the store `st`, as far as device and block table go. -/
structure World.Shows (w : World (Logged Flash)) (st : Store) : Prop where
  block : w.inst.mxfsCurrentBlock = st.cursor.block
  page : w.inst.mxfsCurrentPage = st.cursor.page
  marked : w.inst.blockFlagged = st.marked
  flash : w.dev.dev = st.flash
  calls : w.dev.calls = st.calls

/-- The store shows in nothing but device and block table. -/
theorem World.Shows.congr {w w' : World (Logged Flash)} {st : Store} (h : w.Shows st)
    (hd : w'.dev = w.dev) (ht : SameTable w.inst w'.inst) : w'.Shows st :=
  ⟨ht.block.trans h.block, ht.page.trans h.page,
    (funext fun b => ht.flagged b).trans h.marked, by rw [hd]; exact h.flash,
    by rw [hd]; exact h.calls⟩

/-- What is buffered does not matter. -/
theorem World.Shows.clear {w : World (Logged Flash)} {st : Store} (h : w.Shows st) :
    (World.mk w.inst.clear w.dev).Shows st :=
  ⟨h.block, h.page, h.marked, h.flash, h.calls⟩

/-! ### a commit is a put -/

/-- The cursor of the instance moves as that of the store. -/
theorem shows_advance {i : Inst} {d : Logged Flash} {st : Store} (h : (World.mk i d).Shows st) :
    (World.mk (advance i) d).Shows st.advance := by
  have hdata := isData_iff.1 st.cursor.isData
  have hlt := st.cursor.page_lt
  have hb := h.block
  have hp := h.page
  unfold pageCount at hlt
  dsimp only at hb hp
  have hpage : u16 (i.mxfsCurrentPage + 1) = st.cursor.page + 1 := by rw [hp, u16_eq (by omega)]
  have hblock : u16 (i.mxfsCurrentBlock + 1) = st.cursor.block + 1 := by
    rw [hb, u16_eq (by omega)]
  unfold advance Store.advance
  by_cases hlast : st.cursor.page + 1 < pageCount
  · obtain ⟨hnb, hnp⟩ := Cursor.next_of_lt hlast
    simp only [hpage, hlast, Nat.not_le.2 hlast, if_true, if_false]
    exact ⟨hb.trans hnb.symm, hnp.symm, h.marked, h.flash, h.calls⟩
  · obtain ⟨hnb, hnp⟩ := Cursor.next_of_last hlast
    have hge : pageCount ≤ st.cursor.page + 1 := Nat.not_lt.1 hlast
    have hnext : (if blockCount ≤ st.cursor.block + 1 then blockStartDataArea
        else st.cursor.block + 1) = st.cursor.next.block := hnb.symm
    simp only [hpage, hblock, hlast, hge, if_true, if_false, hnext]
    refine ⟨rfl, hnp.symm, ?_, h.flash, h.calls⟩
    rw [Inst.blockFlagged_mark]
    exact congrArg (fun m => Function.update m st.cursor.next.block true) h.marked

/-- Noting a page changes no flag. -/
theorem blockFlagged_notePage (B : Build) (i : Inst) (s : FlushState) :
    (notePage B i s).blockFlagged = i.blockFlagged := by
  rw [notePage, Inst.blockFlagged_setBlock]
  exact Function.update_eq_self i.mxfsCurrentBlock i.blockFlagged

/-- A program over the page array succeeds and sets the page under the cursor. -/
theorem program_pageArray (M : Medium) (B : Build) (i : Inst) (s : FlushState)
    (d : Logged Flash) :
    program B (pageArray M).logged i s d =
      (OK, advance (notePage B i s),
        ⟨d.dev.setPage i.mxfsCurrentBlock i.mxfsCurrentPage
            (M.program (d.dev i.mxfsCurrentBlock i.mxfsCurrentPage) (s.work.take s.workLen)),
          d.calls ++ [⟨.write i.mxfsCurrentBlock i.mxfsCurrentPage (s.work.take s.workLen),
            d.dev, OK⟩]⟩) := by
  rw [program]; exact if_pos rfl

/-- A program is a write of the store, and an advance. -/
theorem shows_program {M : Medium} (B : Build) {i : Inst} {d : Logged Flash} {st : Store}
    (h : (World.mk i d).Shows st) (s : FlushState) :
    (World.mk (program B (pageArray M).logged i s d).2.1
      (program B (pageArray M).logged i s d).2.2).Shows
        (st.write M (s.work.take s.workLen)).advance := by
  obtain ⟨hb, hp, hm, hf, hc⟩ := h
  dsimp only at hb hp hm hf hc
  rw [program_pageArray]
  apply shows_advance
  constructor
  · exact hb
  · exact hp
  · exact (blockFlagged_notePage B i s).trans hm
  · rw [hb, hp, hf]; rfl
  · rw [hb, hp, hf, hc]; rfl

/-- **A commit over the page array is a put.** -/
theorem shows_commit {M : Medium} (B : Build) {i : Inst} {d : Logged Flash} {st : Store}
    (h : (World.mk i d).Shows st) (s : FlushState) :
    (World.mk (commit B (pageArray M).logged i s d).2.1
      (commit B (pageArray M).logged i s d).2.2).Shows (st.put M (s.work.take s.workLen)) := by
  have hflag : i.blockFlagged i.mxfsCurrentBlock = st.marked st.cursor.block := by
    rw [← h.marked, ← h.block]
  rw [Store.put, Store.clean]
  cases hm : st.marked st.cursor.block with
  | false =>
      rw [hm] at hflag
      rw [commit_of_not_flagged B _ s hflag]
      exact shows_program B h s
  | true =>
      rw [hm] at hflag
      rw [commit_of_erased B (pageArray M).logged s hflag rfl]
      apply shows_program
      obtain ⟨hb, hp, hm, hf, hc⟩ := h
      dsimp only at hb hp hm hf hc
      constructor
      · exact hb
      · exact hp
      · rw [← hm, ← hb]; exact Inst.blockFlagged_unmark i _
      · rw [← hb, ← hf]; rfl
      · rw [← hb, ← hc, ← hf]; rfl

/-! ### a mount is a mount -/

/-- The header a scan reads. -/
theorem ofBytes_front (x : Page) :
    (Compress.ofBytes (x.bytes.take headerSize)).magic = leNat (slice x.bytes 0 4) ∧
      (Compress.ofBytes (x.bytes.take headerSize)).time = x.time := by
  constructor
  · show leNat (slice (x.bytes.take headerSize) 0 4) = _
    rw [slice_take (by decide)]
  · show leNat (slice (x.bytes.take headerSize) 4 4) = leNat (slice x.bytes 4 4)
    rw [slice_take (by decide)]

/-- `i` after the scan of the blocks `bs` of the pages `f`. -/
structure Scanned (f : Flash) (i : Inst) (bs : List Nat) (i' : Inst) : Prop where
  block : i'.mxfsCurrentBlock = i.mxfsCurrentBlock
  page : i'.mxfsCurrentPage = i.mxfsCurrentPage
  flagged : ∀ b ∈ bs, i'.blockFlagged b = decide (f b 0).HasMagic
  startTime : ∀ b ∈ bs, (i'.blocks b).startTime = (f b 0).time
  other : ∀ b, b ∉ bs → i'.blocks b = i.blocks b

/-- One round of the scan over the page array reads the first page of the block. -/
theorem scanBlock_eq (M : Medium) (B : Build) (i : Inst) (d : Logged Flash) (b : Nat) :
    scanBlock B (pageArray M).logged (i, d) b =
      (i.setBlock b fun s => scanRead B s (Compress.ofBytes ((d.dev b 0).bytes.take headerSize)),
        d) := by
  rw [scanBlock]; exact if_neg (not_not.2 rfl)

/-- One round of the scan notes the block's first header, and leaves the pages. -/
theorem scanBlock_pageArray (M : Medium) (B : Build) (i : Inst) (d : Logged Flash) (b : Nat) :
    (scanBlock B (pageArray M).logged (i, d) b).2 = d ∧
      Scanned d.dev i [b] (scanBlock B (pageArray M).logged (i, d) b).1 := by
  obtain ⟨hmagic, htime⟩ := ofBytes_front (d.dev b 0)
  rw [scanBlock_eq]
  refine ⟨rfl, rfl, rfl, ?_, ?_, ?_⟩
  · intro c hc
    rw [List.mem_singleton.1 hc, Inst.blockFlagged_setBlock, Function.update_self, scanRead, hmagic]
    by_cases h : (d.dev b 0).HasMagic
    · rw [decide_eq_true h]; unfold Page.HasMagic at h; simp [h, blockInvalid]
    · rw [decide_eq_false h]; unfold Page.HasMagic at h; simp [h, blockValid]
  · intro c hc
    rw [List.mem_singleton.1 hc, Inst.setBlock_blocks_same]
    exact htime
  · intro c hc
    dsimp only
    exact Inst.setBlock_blocks_ne _ _ (fun h => hc (List.mem_singleton.2 h))

/-- The scan of a block and of those after it is that of all. -/
theorem Scanned.cons {f : Flash} {i j k : Inst} (h : Scanned f i [b] j) (h' : Scanned f j bs k) :
    Scanned f i (b :: bs) k := by
  refine ⟨h'.block.trans h.block, h'.page.trans h.page, ?_, ?_, ?_⟩
  · intro c hc
    by_cases hin : c ∈ bs
    · exact h'.flagged c hin
    · have hcb : c ∈ [b] := by simpa [hin] using hc
      rw [Inst.blockFlagged, h'.other c hin]
      exact h.flagged c hcb
  · intro c hc
    by_cases hin : c ∈ bs
    · exact h'.startTime c hin
    · have hcb : c ∈ [b] := by simpa [hin] using hc
      rw [h'.other c hin]
      exact h.startTime c hcb
  · intro c hc
    rw [List.mem_cons, not_or] at hc
    rw [h'.other c hc.2]
    exact h.other c (by simpa using hc.1)

/-- **The scan** leaves the device alone and flags the blocks with magic. -/
theorem scan_pageArray (M : Medium) (B : Build) (bs : List Nat) (i : Inst) (d : Logged Flash) :
    (bs.foldl (scanBlock B (pageArray M).logged) (i, d)).2 = d ∧
      Scanned d.dev i bs (bs.foldl (scanBlock B (pageArray M).logged) (i, d)).1 := by
  induction bs generalizing i with
  | nil => exact ⟨rfl, rfl, rfl, by simp, by simp, fun _ _ => rfl⟩
  | cons b bs ih =>
      obtain ⟨hd, hs⟩ := scanBlock_pageArray M B i d b
      have hpair : scanBlock B (pageArray M).logged (i, d) b =
          ((scanBlock B (pageArray M).logged (i, d) b).1, d) := Prod.ext rfl hd
      rw [List.foldl_cons, hpair]
      obtain ⟨hd', hs'⟩ := ih (scanBlock B (pageArray M).logged (i, d) b).1
      exact ⟨hd', hs.cons hs'⟩

/-- Under `__LINUX__` the page flag test never holds, so the cursor stays. -/
theorem findCurrent_linux {B : Build} (hB : B.linux = true) (bs : List Nat) (t : Nat) (i : Inst) :
    findCurrent B bs t i = i := by
  induction bs generalizing t with
  | nil => rfl
  | cons b bs ih =>
      have hzero : ((i.blocks b).pages 0).flags &&& pageValid = 0 := UInt32.and_zero
      rw [findCurrent]
      simp only [hB, if_true, hzero, ne_eq, not_true_eq_false, if_false]
      exact ih t

/-- Elsewhere the choice of the cursor is `pickBlock`. -/
theorem findCurrent_pick {B : Build} (hB : B.linux = false) {f : Flash} {bs : List Nat} {i : Inst}
    (hflag : ∀ b ∈ bs, i.blockFlagged b = decide (f b 0).HasMagic)
    (htime : ∀ b ∈ bs, (i.blocks b).startTime = (f b 0).time) (hpage : i.mxfsCurrentPage = 0)
    (t : Nat) :
    findCurrent B bs t i =
      { i with mxfsCurrentBlock := Store.pickBlock f bs t i.mxfsCurrentBlock } := by
  induction bs generalizing t i with
  | nil => rfl
  | cons b bs ih =>
      have hb := hflag b List.mem_cons_self
      have ht := htime b List.mem_cons_self
      have hu : u32 (f b 0).time = (f b 0).time := u32_eq (f b 0).time_lt
      have hflag' : ∀ c ∈ bs, i.blockFlagged c = decide (f c 0).HasMagic :=
        fun c hc => hflag c (List.mem_cons_of_mem b hc)
      have htime' : ∀ c ∈ bs, (i.blocks c).startTime = (f c 0).time :=
        fun c hc => htime c (List.mem_cons_of_mem b hc)
      rw [findCurrent, Store.pickBlock]
      simp only [hB, hb, ht, hu, Bool.false_eq_true, if_false, decide_eq_true_eq]
      by_cases hm : (f b 0).HasMagic
      · simp only [hm, if_true]
        by_cases hlt : t < (f b 0).time
        · simp only [hlt, if_true]
          rw [ih (i := { i with mxfsCurrentBlock := b, mxfsCurrentPage := 0 }) hflag' htime' rfl,
            ← hpage]
        · simp only [hlt, if_false]
          exact ih hflag' htime' hpage t
      · simp only [hm, if_false]
        rw [← hpage]

/-- Blocks outside the data area are never scanned. -/
theorem freshInst_blocks (B : Build) (b : Nat) : (freshInst B).blockFlagged b = false := by
  show ((0 : UInt32) &&& 1 != 0) = false
  decide

/-- After the scan the cursor goes to the block of the store's mount. -/
theorem findCurrent_scanned {B : Build} {f : Flash} {i : Inst}
    (hs : Scanned f (freshInst B) dataBlocks i) :
    findCurrent B dataBlocks 0 i = { i with mxfsCurrentBlock := Store.mountBlock B f } := by
  have hblock : i.mxfsCurrentBlock = blockStartDataArea := hs.block
  have hpage : i.mxfsCurrentPage = 0 := hs.page
  by_cases hB : B.linux = true
  · rw [findCurrent_linux hB, Store.mountBlock, if_pos hB, ← hblock]
  · have hpick := findCurrent_pick (Bool.not_eq_true _ ▸ hB) hs.flagged hs.startTime hpage 0
    rw [hpick, Store.mountBlock, if_neg hB, hblock]

/-- The marks after the scan are those of the store's mount. -/
theorem marked_scanned {B : Build} {st : Store} {i : Inst}
    (hs : Scanned st.flash (freshInst B) dataBlocks i) : i.blockFlagged = (st.mount B).marked := by
  funext b
  show _ = (decide (IsData b) && decide (st.flash b 0).HasMagic)
  by_cases hb : IsData b
  · rw [hs.flagged b (mem_dataBlocks.2 hb), decide_eq_true hb, Bool.true_and]
  · rw [Inst.blockFlagged, hs.other b (fun h => hb (mem_dataBlocks.1 h)), decide_eq_false hb,
      Bool.false_and]
    exact freshInst_blocks B b

/-- **A mount over the page array is a mount of the store.** -/
theorem shows_mounted (M : Medium) (B : Build) {d : Logged Flash} {st : Store}
    (hf : d.dev = st.flash) (hc : d.calls = st.calls) :
    (World.mounted B (pageArray M).logged d).Shows (st.mount B) := by
  obtain ⟨hd, hs⟩ := scan_pageArray M B dataBlocks (freshInst B) d
  rw [hf] at hs
  have hdev : (World.mounted B (pageArray M).logged d).dev = d := by
    rw [World.mounted_dev, mount_dev, hd]
  have hinst := World.mounted_inst B (pageArray M).logged d
  rw [mount_inst, findCurrent_scanned hs] at hinst
  have hpage := hs.page
  have hmarked := marked_scanned hs
  generalize (dataBlocks.foldl (scanBlock B (pageArray M).logged) (freshInst B, d)).1 = i
    at hinst hpage hmarked
  constructor
  · rw [hinst]; rfl
  · rw [hinst]; exact hpage
  · rw [hinst]; exact hmarked
  · rw [hdev]; exact hf
  · rw [hdev]; exact hc

end Mxfs
