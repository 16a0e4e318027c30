import Mxfs.Rp2040
import Mxfs.Bcm2711
import Mxfs.Leftover
import Mxfs.Failure

/-!
# Mxfs.OwnPage

What a page holds after a flush through a real driver.  The RP2040 driver fills
the part's data buffer with a whole page, so nothing of earlier traffic is
programmed along with the data.  The BCM2711 driver loads the data only, and
the rest of the data buffer follows it onto the page, where `mxfs_read` may take
it for records (`page_own_data`).
-/

namespace Mxfs

open Lib

/-! ## what both drivers do -/

/-- A driver that reads and erases the pages of the part as they are, and loads
`sent buffer`, which starts with the buffer, for a program of it. -/
structure DrivesPart (D : Driver Chip) (sent : List UInt8 → List UInt8) : Prop where
  front : ∀ buffer : List UInt8, buffer.length ≤ pageSize →
    buffer <+: sent buffer ∧ (sent buffer).length ≤ chipPageSize
  read : ∀ c : Chip, c.Open → ∀ block < blockCount, ∀ page < pageCount, ∀ bufferlen ≤ pageSize,
    (D.read c block page bufferlen).1 = OK ∧
      c.DidRead (D.read c block page bufferlen).2.2 block page bufferlen
        (D.read c block page bufferlen).2.1
  write : ∀ c : Chip, c.Open → ∀ block < blockCount, ∀ page < pageCount,
    ∀ buffer : List UInt8, buffer.length ≤ pageSize →
      (D.write c block page buffer).1 = OK ∧
        c.Programmed (D.write c block page buffer).2 block page (sent buffer)
  erase : ∀ c : Chip, c.Open → ∀ block < blockCount,
    (D.erase c block).1 = OK ∧ c.Erased (D.erase c block).2 block

/-- The RP2040 driver loads a whole page, with zeros behind the buffer. -/
theorem rp2040_drivesPart (P : ChipParams) :
    DrivesPart (rp2040Driver (w25n01gv P)) fun buffer => (Page.image buffer 0).bytes where
  front buffer h := by
    refine ⟨?_, ?_⟩
    · rw [Page.image_bytes h]
      exact List.prefix_append _ _
    · rw [(Page.image buffer 0).size]
      decide
  read c hc block hb page hp bufferlen hlen := by
    obtain ⟨out, c', hread, hdid, -⟩ := rp2040Read_didRead P hc hb hp hlen
    simp only [rp2040Driver, hread, Option.getD_some]
    exact ⟨trivial, hdid⟩
  write c hc block hb page hp buffer hlen := by
    obtain ⟨c', hwrite, hprogrammed, -⟩ := rp2040Write_programmed P hc hb hp hlen
    simp only [rp2040Driver, hwrite, Option.getD_some]
    exact ⟨trivial, hprogrammed⟩
  erase c hc block hb := by
    obtain ⟨c', herase, herased, -⟩ := rp2040Erase_erased P hc hb
    simp only [rp2040Driver, herase, Option.getD_some]
    exact ⟨trivial, herased⟩

/-- The BCM2711 driver loads the buffer and nothing else. -/
theorem bcm2711_drivesPart (P : ChipParams) :
    DrivesPart (bcm2711Driver (w25n01gv P)) fun buffer => buffer where
  front buffer h := ⟨List.prefix_refl _, Nat.le_trans h (by decide)⟩
  read c hc block hb page hp bufferlen hlen := by
    obtain ⟨out, c', hread, hdid⟩ := bcm2711Read_didRead P hc hb hp hlen
    simp only [bcm2711Driver, hread, Option.getD_some]
    exact ⟨trivial, hdid⟩
  write c hc block hb page hp buffer hlen := by
    obtain ⟨c', hwrite, hprogrammed⟩ := bcm2711Write_programmed P hc hb hp hlen
    simp only [bcm2711Driver, hwrite, Option.getD_some]
    exact ⟨trivial, hprogrammed⟩
  erase c hc block hb := by
    obtain ⟨c', herase, herased⟩ := bcm2711Erase_erased P hc hb
    simp only [bcm2711Driver, herase, Option.getD_some]
    exact ⟨trivial, herased⟩

/-! ## flushes -/

/-- A flush of something, at a place of the part. -/
structure Flushing (B : Build) where
  inst : Inst
  batch : Batch
  holds : Buffers B inst batch
  nonempty : ¬ batch.IsEmpty
  block_lt : inst.mxfsCurrentBlock < blockCount
  page_lt : inst.mxfsCurrentPage < pageCount

namespace Flushing

variable {B : Build} (f : Flushing B)

def block : Nat := f.inst.mxfsCurrentBlock

def page : Nat := f.inst.mxfsCurrentPage

/-- The block is erased first. -/
def Erases : Prop := f.inst.blockFlagged f.block = true

instance : Decidable f.Erases := inferInstanceAs (Decidable (_ = _))

theorem length_image_le : f.batch.image.length ≤ 2000 := by
  rw [f.batch.length_image]
  exact f.holds.fits

end Flushing

theorem program_dev (B : Build) (D : Driver σ) (inst : Inst) (s : FlushState) (dev : σ) :
    (program B D inst s dev).2.2 =
      (D.write dev inst.mxfsCurrentBlock inst.mxfsCurrentPage (s.work.take s.workLen)).2 := by
  unfold program
  by_cases hret : (D.write dev inst.mxfsCurrentBlock inst.mxfsCurrentPage
      (s.work.take s.workLen)).1 = OK
  · simp [hret]
  · simp [hret]

/-- **A flush** programs its image over the part `r`, which is the part with the
block erased if need be. -/
theorem DrivesPart.flush {B : Build} {D : Driver Chip} {sent : List UInt8 → List UInt8}
    (h : DrivesPart D sent) {c : Chip} (hc : c.Open) (f : Flushing B) :
    ∃ r : Chip, r.Programmed (mxfsFlush B D f.inst c).2.2 f.block f.page (sent f.batch.image) ∧
      r.buffer = c.buffer ∧
      ∀ b, ∀ p < pageCount,
        r.array b p = if f.Erases ∧ b = f.block then ChipPage.blank else c.array b p := by
  have hlen : f.batch.image.length ≤ pageSize := Nat.le_trans f.length_image_le (by decide)
  have hdata := prepare_data f.holds
  rw [mxfsFlush_eq f.holds, if_neg f.nonempty]
  by_cases herases : f.Erases
  · obtain ⟨hret, herased⟩ := h.erase c hc f.block f.block_lt
    have hflag : f.inst.clear.blockFlagged f.inst.clear.mxfsCurrentBlock = true := herases
    rw [commit_of_erased B D _ hflag hret, program_dev, hdata]
    refine ⟨(D.erase c f.block).2, (h.write _ herased.toOpen _ f.block_lt _ f.page_lt _ hlen).2,
      herased.buffer, fun b p hp => ?_⟩
    rw [herased.array]
    simp [herases, hp]
  · have hflag : f.inst.clear.blockFlagged f.inst.clear.mxfsCurrentBlock = false :=
      Bool.eq_false_of_not_eq_true herases
    rw [commit_of_not_flagged B D _ hflag, program_dev, hdata]
    refine ⟨c, (h.write c hc _ f.block_lt _ f.page_lt _ hlen).2, rfl, fun b p _ => ?_⟩
    simp [herases]

/-! ## pages written -/

/-- A flush and what the part's data buffer held before it. -/
structure Written (B : Build) extends Flushing B where
  left : ChipPage

namespace Written

variable {B : Build} (x : Written B) {D : Driver Chip} {sent : List UInt8 → List UInt8}

/-- The data bytes programmed. -/
def loaded (sent : List UInt8 → List UInt8) : Page := (x.left.load 0 (sent x.batch.image)).main

/-- A read of the page returns the records of the flush, and nothing else. -/
def ReadsBack (D : Driver Chip) (part : Chip) (layer : UInt8) (bufferlen : UInt16) : Prop :=
  (mxfsRead D part layer bufferlen x.block x.page).1 =
    some (((x.batch.recordsOf layer.toNat).length : Int), x.batch.recordsOf layer.toNat)

/-- What is programmed starts with the data of the flush. -/
theorem loaded_bytes (h : DrivesPart D sent) :
    ∃ rest, (x.loaded sent).bytes = x.batch.image ++ rest := by
  have hlen : x.batch.image.length ≤ pageSize := Nat.le_trans x.length_image_le (by decide)
  obtain ⟨⟨tail, htail⟩, hsent⟩ := h.front _ hlen
  refine ⟨(tail ++ x.left.bytes.drop (sent x.batch.image).length).take
    (pageSize - x.batch.image.length), ?_⟩
  show (x.left.load 0 (sent x.batch.image)).bytes.take pageSize = _
  rw [ChipPage.load_bytes _ hsent]
  nth_rewrite 1 [← htail]
  rw [List.append_assoc, List.take_append, List.take_of_length_le hlen]

theorem hasMagic_loaded (h : DrivesPart D sent) : (x.loaded sent).HasMagic := by
  obtain ⟨rest, hrest⟩ := x.loaded_bytes h
  rw [Page.HasMagic, hrest]
  exact x.batch.slice_image_magic x.holds.fits x.nonempty rest

/-- **A read of a page as programmed**: right exactly if there is no phantom
behind the data. -/
theorem readsBack_iff (h : DrivesPart D sent) {part : Chip} (hpart : part.Open)
    (hpage : part.flash x.block x.page = x.loaded sent) (layer : UInt8) {bufferlen : UInt16}
    (hlen : bufferlen ≠ 0) :
    x.ReadsBack D part layer bufferlen ↔
      ¬ Phantom layer.toNat bufferlen.toNat (x.loaded sent).bytes x.batch.image.length := by
  obtain ⟨rest, hrest⟩ := x.loaded_bytes h
  obtain ⟨hret, hread⟩ := h.read part hpart x.block x.block_lt x.page x.page_lt
    pageSize (Nat.le_refl _)
  have hout := hread.out
  have hfull : (x.loaded sent).bytes.take pageSize = (x.loaded sent).bytes := by
    rw [← (x.loaded sent).size, List.take_length]
  change _ = (part.flash x.block x.page).bytes.take pageSize at hout
  rw [hpage, hfull] at hout
  rw [ReadsBack, mxfsRead_eq hlen hret, hout,
    ← readLoop_image_iff x.holds.fits hrest (x.loaded sent).size]
  simp

/-! ### either driver -/

/-- The RP2040 driver programs the data and zeros. -/
theorem loaded_rp2040 : x.loaded (fun buffer => (Page.image buffer 0).bytes) =
    Page.image x.batch.image 0 := ChipPage.main_load _ _

theorem not_phantom_rp2040 (layer bufferlen : Nat) :
    ¬ Phantom layer bufferlen (x.loaded fun buffer => (Page.image buffer 0).bytes).bytes
      x.batch.image.length := by
  have hlen := x.length_image_le
  rw [loaded_rp2040, Page.image_bytes (Nat.le_trans hlen (by decide))]
  apply not_phantom_of_not_magic
  · rw [List.length_append, List.length_replicate]
    unfold pageSize
    omega
  · rw [headerAt, Compress.ofBytes_slice (Nat.le_refl _), drop_append_of_length rfl]
    exact leNat_replicate_ne_magic 0 _

/-- The BCM2711 driver programs what the data buffer held behind the data. -/
theorem drop_loaded_bcm2711 : (x.loaded fun buffer => buffer).bytes.drop x.batch.image.length =
    x.left.main.bytes.drop x.batch.image.length := by
  have hlen : x.batch.image.length ≤ chipPageSize := Nat.le_trans x.length_image_le (by decide)
  show ((x.left.load 0 x.batch.image).bytes.take pageSize).drop _ =
    (x.left.bytes.take pageSize).drop _
  rw [ChipPage.load_bytes _ hlen, List.drop_take, drop_append_of_length rfl, List.drop_take]

theorem phantom_bcm2711_iff (layer bufferlen : Nat) :
    Phantom layer bufferlen (x.loaded fun buffer => buffer).bytes x.batch.image.length ↔
      Phantom layer bufferlen x.left.main.bytes x.batch.image.length :=
  phantom_congr (by rw [(x.loaded _).size, x.left.main.size]) x.drop_loaded_bcm2711 _ _

end Written

/-! ## runs -/

/-- What happens to the part: anything on it and its data buffer, the erase of a
block, a flush. -/
inductive PartEvent (B : Build) where
  | traffic (part : Chip)
  | erase (block : Nat)
  | flush (f : Flushing B)

/-- The part, and the pages flushes have written that were not erased since. -/
structure PartState (B : Build) where
  part : Chip
  pages : List (Written B)

namespace PartState

variable {B : Build}

/-- The pages of the block are gone. -/
def forget (s : PartState B) (block : Nat) : List (Written B) :=
  s.pages.filter fun x => x.block ≠ block

def step (D : Driver Chip) (s : PartState B) : PartEvent B → PartState B
  | .traffic part => ⟨part, s.pages⟩
  | .erase block => ⟨(D.erase s.part block).2, s.forget block⟩
  | .flush f =>
    ⟨(mxfsFlush B D f.inst s.part).2.2,
      (if f.Erases then s.forget f.block else s.pages) ++ [⟨f, s.part.buffer⟩]⟩

/-- A flush adds its page. -/
theorem mem_flush (D : Driver Chip) (s : PartState B) (f : Flushing B) :
    ⟨f, s.part.buffer⟩ ∈ (s.step D (.flush f)).pages :=
  List.mem_append.2 (Or.inr (List.mem_singleton_self _))

/-- Traffic leaves the part open and the pages written as they are; a flush
erases its block first or finds its page erased. -/
def Allows (s : PartState B) : PartEvent B → Prop
  | .traffic part =>
    part.Open ∧ ∀ x ∈ s.pages, part.flash x.block x.page = s.part.flash x.block x.page
  | .erase block => block < blockCount
  | .flush f => f.Erases ∨ s.part.flash f.block f.page = Page.blank

/-- The pages hold what was programmed. -/
structure Intact (sent : List UInt8 → List UInt8) (s : PartState B) : Prop where
  opened : s.part.Open
  pages : ∀ x ∈ s.pages, s.part.flash x.block x.page = x.loaded sent

variable {D : Driver Chip} {sent : List UInt8 → List UInt8} (h : DrivesPart D sent)
variable {s : PartState B} (hs : s.Intact sent)
include h hs

theorem Intact.erase {block : Nat} (hblock : block < blockCount) :
    (s.step D (.erase block)).Intact sent := by
  have herased := (h.erase s.part hs.opened block hblock).2
  refine ⟨herased.toOpen, fun x hx => ?_⟩
  obtain ⟨hmem, hne⟩ := List.mem_filter.1 hx
  have hother : x.block ≠ block := of_decide_eq_true hne
  rw [← hs.pages x hmem]
  show ((D.erase s.part block).2.array x.block x.page).main = _
  rw [herased.array, if_neg fun hb => hother hb.1]
  rfl

theorem Intact.flush {f : Flushing B} (hf : s.Allows (.flush f)) :
    (s.step D (.flush f)).Intact sent := by
  obtain ⟨r, hprogrammed, hbuffer, harray⟩ := h.flush hs.opened f
  refine ⟨hprogrammed.toOpen, fun x hx => ?_⟩
  show ((mxfsFlush B D f.inst s.part).2.2.array x.block x.page).main = _
  rw [hprogrammed.array]
  rcases List.mem_append.1 hx with hx | hx
  · have hold : x ∈ s.pages ∧ (f.Erases → x.block ≠ f.block) := by
      by_cases herases : f.Erases
      · rw [if_pos herases] at hx
        obtain ⟨hmem, hne⟩ := List.mem_filter.1 hx
        exact ⟨hmem, fun _ => of_decide_eq_true hne⟩
      · rw [if_neg herases] at hx
        exact ⟨hx, fun he => absurd he herases⟩
    obtain ⟨hmem, hkept⟩ := hold
    -- a page in use shows its magic, so the flush found another one erased
    have hother : ¬ (x.block = f.block ∧ x.page = f.page) := by
      rintro ⟨hb, hp⟩
      have hblank := hf.resolve_left fun he => hkept he hb
      rw [← hb, ← hp, hs.pages x hmem] at hblank
      exact Page.not_hasMagic_blank (hblank ▸ x.hasMagic_loaded h)
    rw [if_neg hother, harray x.block x.page x.page_lt, if_neg fun he => hkept he.1 he.2]
    exact hs.pages x hmem
  · obtain rfl := List.mem_singleton.1 hx
    have hblank : (r.array f.block f.page).main = Page.blank := by
      rw [harray f.block f.page f.page_lt]
      split
      · exact ChipPage.main_blank
      · next hnot => exact hf.resolve_left fun he => hnot ⟨he, rfl⟩
    show (if f.block = f.block ∧ f.page = f.page then _ else _ : ChipPage).main = _
    rw [if_pos ⟨rfl, rfl⟩, ChipPage.main_program_of_blank hblank, hbuffer]
    rfl

/-- **One event** leaves the pages written as they were programmed. -/
theorem Intact.step {e : PartEvent B} (he : s.Allows e) : (s.step D e).Intact sent := by
  cases e with
  | traffic part => exact ⟨he.1, fun x hx => (he.2 x hx).trans (hs.pages x hx)⟩
  | erase block => exact Intact.erase h hs he
  | flush f => exact Intact.flush h hs he

omit hs in
/-- **A run**, from any state of the part. -/
theorem intact_run {c : Chip} (hc : c.Open) {events : List (PartEvent B)}
    (hallows : Along (PartState.step D) PartState.Allows ⟨c, []⟩ events) :
    (run (PartState.step D) ⟨c, []⟩ events).Intact sent :=
  run_invariant (fun _ _ hs he => Intact.step h hs he)
    ⟨hc, fun _ hx => absurd hx List.not_mem_nil⟩ hallows

end PartState

/-- **A page holds its own data only**, through any flushes on erased pages and
any other traffic.  With the RP2040 driver a page always reads as the records of
its flush; with the BCM2711 driver exactly if the data buffer showed no phantom
behind the data when the page was programmed. -/
theorem page_own_data (B : Build) (P : ChipParams) {c : Chip} (hc : c.Open)
    (events : List (PartEvent B)) :
    (Along (PartState.step (rp2040Driver (w25n01gv P))) PartState.Allows ⟨c, []⟩ events →
      let s := run (PartState.step (rp2040Driver (w25n01gv P))) ⟨c, []⟩ events
      ∀ x ∈ s.pages, ∀ (layer : UInt8) (bufferlen : UInt16), bufferlen ≠ 0 →
        x.ReadsBack (rp2040Driver (w25n01gv P)) s.part layer bufferlen) ∧
    (Along (PartState.step (bcm2711Driver (w25n01gv P))) PartState.Allows ⟨c, []⟩ events →
      let s := run (PartState.step (bcm2711Driver (w25n01gv P))) ⟨c, []⟩ events
      ∀ x ∈ s.pages, ∀ (layer : UInt8) (bufferlen : UInt16), bufferlen ≠ 0 →
        (x.ReadsBack (bcm2711Driver (w25n01gv P)) s.part layer bufferlen ↔
          ¬ Phantom layer.toNat bufferlen.toNat x.left.main.bytes x.batch.image.length)) := by
  constructor
  · intro hallows s x hx layer bufferlen hlen
    have hdrives := rp2040_drivesPart P
    have hintact := PartState.intact_run hdrives hc hallows
    rw [x.readsBack_iff hdrives hintact.opened (hintact.pages x hx) layer hlen]
    exact x.not_phantom_rp2040 _ _
  · intro hallows s x hx layer bufferlen hlen
    have hdrives := bcm2711_drivesPart P
    have hintact := PartState.intact_run hdrives hc hallows
    rw [x.readsBack_iff hdrives hintact.opened (hintact.pages x hx) layer hlen,
      x.phantom_bcm2711_iff]

/-! ## two flushes -/

/-- `n` speed records buffered, the cursor on a page of the first data block. -/
def speedInst (B : Build) (page : Nat) : (n : Nat) → Inst
  | 0 => { freshInst B with mxfsCurrentPage := page }
  | n + 1 =>
    (bufferRecord B (speedInst B page n) .antpSpeed speedSample.time speedSample.payload).2

theorem speedInst_holds (B : Build) (page : Nat) (h : n ≤ 58) :
    Buffers B (speedInst B page n) (Batch.copies .antpSpeed speedSample n) ∧
      SameTable (speedInst B page 0) (speedInst B page n) := by
  induction n with
  | zero =>
      have hzero : Batch.copies .antpSpeed speedSample 0 = Batch.empty :=
        Function.update_eq_self Layer.antpSpeed Batch.empty
      rw [hzero]
      exact ⟨(buffers_fresh B).congr ⟨rfl, rfl, rfl⟩, SameTable.refl _⟩
  | succ n ih =>
      obtain ⟨hbuf, htable⟩ := ih (by omega)
      have hfull : ¬ LogState.Full (Batch.copies .antpSpeed speedSample n) .antpSpeed := by
        rw [LogState.Full, Batch.pageBytes_copies]
        simp only [Layer.encodedSize, Layer.recordSize, headerSize, antpRecordSize, pageSize]
        omega
      have hroom : LogState.HasRoom B (Batch.copies .antpSpeed speedSample n) .antpSpeed := by
        rw [LogState.hasRoom_iff hfull]
        simp
      obtain ⟨-, hnext, hsame⟩ := (buffers_bufferRecord hbuf .antpSpeed speedSample hfull).1 hroom
      rw [Batch.copies_push] at hnext
      exact ⟨hnext, htable.trans hsame⟩

/-- The flush of so many speed records. -/
def speedFlush (B : Build) (n page : Nat) (hn : 0 < n) (hle : n ≤ 58) (hp : page < pageCount) :
    Flushing B where
  inst := speedInst B page n
  batch := Batch.copies .antpSpeed speedSample n
  holds := (speedInst_holds B page hle).1
  nonempty h := by
    have hnone := h .antpSpeed
    rw [Batch.copies_same, List.replicate_eq_nil_iff] at hnone
    omega
  block_lt := by
    rw [(speedInst_holds B page hle).2.block]
    show blockStartDataArea < blockCount
    decide
  page_lt := by
    rw [(speedInst_holds B page hle).2.page]
    exact hp

/-- Two speed records are flushed, and then one. -/
def speedFlushes (B : Build) : List (PartEvent B) :=
  [.flush (speedFlush B 2 0 (by decide) (by decide) pageCount_pos),
    .flush (speedFlush B 1 1 (by decide) (by decide) (by decide))]

theorem speedFlush_place (B : Build) (n page : Nat) (hn : 0 < n) (hle : n ≤ 58)
    (hp : page < pageCount) :
    (speedFlush B n page hn hle hp).block = 1 ∧ (speedFlush B n page hn hle hp).page = page ∧
      ¬ (speedFlush B n page hn hle hp).Erases := by
  have htable := (speedInst_holds B page hle).2
  have hblock : (speedFlush B n page hn hle hp).block = 1 := htable.block
  refine ⟨hblock, htable.page, ?_⟩
  rw [Flushing.Erases, hblock]
  show ¬ (speedInst B page n).blockFlagged 1 = true
  have hfresh : ((speedInst B page 0).blocks 1).flags = 0 := rfl
  rw [Inst.blockFlagged, htable.blocks, hfresh]
  decide

section twice

variable {D : Driver Chip} {sent : List UInt8 → List UInt8} (h : DrivesPart D sent)
variable {c : Chip} (hc : c.Open) (hblank : c.flash.Blank 1)
include h hc

/-- The part after the first of the two. -/
theorem speedFlush_first (B : Build) :
    let c' := (mxfsFlush B D (speedInst B 0 2) c).2.2
    (∃ rest, c'.buffer.main.bytes = (Batch.copies .antpSpeed speedSample 2).image ++ rest) ∧
      c'.array 1 1 = c.array 1 1 := by
  obtain ⟨r, hprogrammed, -, harray⟩ :=
    h.flush hc (speedFlush B 2 0 (by decide) (by decide) (by decide))
  obtain ⟨hb, hp, herases⟩ := speedFlush_place B 2 0 (by decide) (by decide) (by decide)
  have hother := hprogrammed.array 1 1
  rw [hb, hp, if_neg (by decide), harray 1 1 (by decide), if_neg fun he => herases he.1] at hother
  refine ⟨?_, hother⟩
  obtain ⟨rest, hrest⟩ :=
    Written.loaded_bytes ⟨speedFlush B 2 0 (by decide) (by decide) (by decide), r.buffer⟩ h
  exact ⟨rest, (congrArg (fun y => y.main.bytes) hprogrammed.buffer).trans hrest⟩

include hblank

/-- Both find their page erased. -/
theorem speedFlushes_allowed (B : Build) :
    Along (PartState.step D) PartState.Allows ⟨c, []⟩ (speedFlushes B) := by
  obtain ⟨hb, hp, -⟩ := speedFlush_place B 2 0 (by decide) (by decide) (by decide)
  obtain ⟨hb', hp', -⟩ := speedFlush_place B 1 1 (by decide) (by decide) (by decide)
  refine ⟨Or.inr ?_, Or.inr ?_, trivial⟩
  · rw [hb, hp]
    exact hblank 0 (by decide)
  · rw [hb', hp']
    show ((mxfsFlush B D (speedInst B 0 2) c).2.2.array 1 1).main = _
    rw [(speedFlush_first h hc B).2]
    exact hblank 1 (by decide)

end twice

/-- An erased part. -/
theorem busyChip_blank : busyChip.flash.Blank 1 := fun _ _ => ChipPage.main_blank

theorem busyChip_open : busyChip.Open := ⟨rfl, by decide⟩

/-- A Linux build. -/
def linuxBuild : Build := { linux := true, rp2040 := false }

/-- With the RP2040 driver the second page shows its own record only. -/
theorem page_own_data_twice :
    ∃ x ∈ (run (PartState.step (rp2040Driver (w25n01gv restlessPart))) ⟨busyChip, []⟩
        (speedFlushes linuxBuild)).pages,
      x.page = 1 ∧ x.ReadsBack (rp2040Driver (w25n01gv restlessPart))
        (run (PartState.step (rp2040Driver (w25n01gv restlessPart))) ⟨busyChip, []⟩
          (speedFlushes linuxBuild)).part 0 2048 := by
  have hallowed := speedFlushes_allowed (rp2040_drivesPart restlessPart) busyChip_open
    busyChip_blank linuxBuild
  have hmem := PartState.mem_flush (rp2040Driver (w25n01gv restlessPart))
    (PartState.step (rp2040Driver (w25n01gv restlessPart)) ⟨busyChip, []⟩
      (.flush (speedFlush linuxBuild 2 0 (by decide) (by decide) (by decide))))
    (speedFlush linuxBuild 1 1 (by decide) (by decide) (by decide))
  exact ⟨_, hmem, (speedFlush_place linuxBuild 1 1 (by decide) (by decide) (by decide)).2.1,
    (page_own_data linuxBuild restlessPart busyChip_open (speedFlushes linuxBuild)).1 hallowed _
      hmem 0 2048 (by decide)⟩

/-- The frames of two speed records, the first as long as all of one record. -/
theorem frames_copies : ∃ f : Frame, f.layer = .antpSpeed ∧ 0 < f.payload.length ∧
    (Batch.copies .antpSpeed speedSample 1).frames = [f] ∧
    (Batch.copies .antpSpeed speedSample 2).frames = [f, f] :=
  ⟨⟨.antpSpeed, antpHeader .antpSpeed 1000, List.replicate 18 7⟩, rfl, by decide, rfl, rfl⟩

/-- With the BCM2711 driver the second page shows the second record of the first. -/
theorem bcm2711_reads_leftover (B : Build) (P : ChipParams) {c : Chip} (hc : c.Open)
    (hblank : c.flash.Blank 1) :
    ∃ x ∈ (run (PartState.step (bcm2711Driver (w25n01gv P))) ⟨c, []⟩ (speedFlushes B)).pages,
      ¬ x.ReadsBack (bcm2711Driver (w25n01gv P))
        (run (PartState.step (bcm2711Driver (w25n01gv P))) ⟨c, []⟩ (speedFlushes B)).part
        0 2048 := by
  have hdrives := bcm2711_drivesPart P
  have hintact := PartState.intact_run hdrives hc (speedFlushes_allowed hdrives hc hblank B)
  obtain ⟨⟨rest, hrest⟩, -⟩ := speedFlush_first hdrives hc B
  obtain ⟨f, hlayer, hpayload, hone, htwo⟩ := frames_copies
  have hwell : f.WellFormed := by
    apply Batch.frames_wellFormed (Batch.copies .antpSpeed speedSample 1)
    · rw [Batch.pageBytes_copies]
      decide
    · rw [hone]
      exact List.mem_singleton_self f
  have hmem := PartState.mem_flush (bcm2711Driver (w25n01gv P))
    (PartState.step (bcm2711Driver (w25n01gv P)) ⟨c, []⟩
      (.flush (speedFlush B 2 0 (by decide) (by decide) (by decide))))
    (speedFlush B 1 1 (by decide) (by decide) (by decide))
  refine ⟨_, hmem, ?_⟩
  rw [Written.readsBack_iff _ hdrives hintact.opened (hintact.pages _ hmem) 0 (by decide),
    Written.phantom_bcm2711_iff, not_not]
  have hphantom := phantom_of_frames hwell hpayload [f] [] rest 2048
  rw [hlayer] at hphantom
  have hleft : (Batch.copies .antpSpeed speedSample 2).image = ([f] ++ [f]).flatMap Frame.bytes :=
    congrArg (fun fs : List Frame => fs.flatMap Frame.bytes) htwo
  have hdata : (Batch.copies .antpSpeed speedSample 1).image = [f].flatMap Frame.bytes :=
    congrArg (fun fs : List Frame => fs.flatMap Frame.bytes) hone
  rw [← hleft, ← hrest, ← hdata] at hphantom
  exact hphantom

theorem bcm2711_reads_leftover_busy :
    Along (PartState.step (bcm2711Driver (w25n01gv restlessPart))) PartState.Allows
        ⟨busyChip, []⟩ (speedFlushes linuxBuild) ∧
      ∃ x ∈ (run (PartState.step (bcm2711Driver (w25n01gv restlessPart))) ⟨busyChip, []⟩
          (speedFlushes linuxBuild)).pages,
        ¬ x.ReadsBack (bcm2711Driver (w25n01gv restlessPart))
          (run (PartState.step (bcm2711Driver (w25n01gv restlessPart))) ⟨busyChip, []⟩
            (speedFlushes linuxBuild)).part 0 2048 :=
  ⟨speedFlushes_allowed (bcm2711_drivesPart restlessPart) busyChip_open busyChip_blank linuxBuild,
    bcm2711_reads_leftover linuxBuild restlessPart busyChip_open busyChip_blank⟩

end Mxfs
