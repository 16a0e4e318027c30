import Mxfs.Leftover
import Mxfs.ReadBack
import Mxfs.Step

/-!
# Mxfs.BlockTimes

What `mxfs_timerange_by_block` reports of a block whose pages were written by
flushes.

* `mxfsTimerangeByBlock_eq` — the entries are the pages with records of the
  layer, in page order, with the times of the walk over each;
* `decoders_agree` — the pages and record counts are those of `mxfs_read`;
* `times_right_iff` — the times are those of the records exactly if the build
  does not abort, the first time of each series is less than `2 ^ 32`, and a
  single temperature record matches the time before it.

Under `__LINUX__` the search is not implemented, and says so by `PANIC`: in a
build where that aborts it reports nothing.
-/

namespace Mxfs

open Lib

/-! ## the loop over the pages -/

/-- The entries a search has filled in. -/
def entriesOf : Option (Int × List TimeRange) → List TimeRange
  | some (ret, timerange) => timerange.take ret.toNat
  | none => []

/-- What is filled in for the pages with records. -/
def blockEntries (block : Nat) (ts : Nat → PageTimes) (pages : List Nat) : List TimeRange :=
  (pages.filter fun page => 0 < (ts page).recordCount).map fun page =>
    ⟨(ts page).startTime, (ts page).lastTime, block, page, (ts page).recordCount⟩

section loop

variable {σ : Type} {B : Build} {D : Driver σ} {I : σ → Prop} {inst : Inst} {layer : UInt8}
variable {block : Nat} {ts : Nat → PageTimes}

/-- **The loop** fills in the pages with records, as far as they fit. -/
theorem blockLoop_eq {pages : List Nat}
    (h : ∀ page ∈ pages, ∀ d, I d → ∃ d', I d' ∧
      pageTimes B D inst layer d block page = (some (some (ts page)), d'))
    {dev : σ} (hdev : I dev) (filled rest : List TimeRange) {count : Nat}
    (hcnt : filled.length ≤ count) (hroom : count ≤ filled.length + rest.length) :
    (blockLoop B D inst layer block count pages filled.length (filled ++ rest) dev).1 =
      some (if filled.length + (blockEntries block ts pages).length ≤ count then
            ((filled.length + (blockEntries block ts pages).length : Nat) : Int)
          else NEED_MORE_BUFFER,
        filled ++ (blockEntries block ts pages).take (count - filled.length) ++
          rest.drop ((blockEntries block ts pages).take (count - filled.length)).length) := by
  induction pages generalizing dev filled rest with
  | nil => simp [blockLoop, blockEntries, hcnt]
  | cons page pages ih =>
      obtain ⟨d', hd', hpage⟩ := h page List.mem_cons_self dev hdev
      have ih := ih (fun p hp => h p (List.mem_cons_of_mem page hp)) hd'
      rw [blockLoop, hpage]
      dsimp only
      by_cases hpos : 0 < (ts page).recordCount
      · have hentries : blockEntries block ts (page :: pages) =
            ⟨(ts page).startTime, (ts page).lastTime, block, page, (ts page).recordCount⟩ ::
              blockEntries block ts pages := by
          simp [blockEntries, hpos]
        rw [if_pos hpos, hentries]
        generalize hentry : TimeRange.mk (ts page).startTime (ts page).lastTime block page
          (ts page).recordCount = entry
        by_cases hlt : filled.length < count
        · rw [if_pos hlt]
          cases rest with
          | nil => simp at hroom; omega
          | cons t rest =>
              have hmodify : (filled ++ t :: rest).modify filled.length
                  (TimeRange.ofTimes block page (ts page)) = (filled ++ [entry]) ++ rest := by
                rw [modify_length_append, ← hentry, TimeRange.ofTimes]
              have hlen : (filled ++ [entry]).length = filled.length + 1 := by simp
              have htake : count - filled.length = count - (filled.length + 1) + 1 := by omega
              have := ih (filled ++ [entry]) rest (by omega) (by simp at hroom ⊢; omega)
              rw [hmodify, ← hlen, this, hlen, htake, List.take_succ_cons, List.length_cons,
                List.length_cons, List.drop_succ_cons]
              simp [Nat.add_comm, Nat.add_left_comm]
        · rw [if_neg hlt, if_neg (by rw [List.length_cons]; omega)]
          have hz : count - filled.length = 0 := by omega
          simp [hz]
      · have hentries : blockEntries block ts (page :: pages) = blockEntries block ts pages := by
          simp [blockEntries, hpos]
        rw [if_neg hpos, hentries]
        exact ih filled rest hcnt hroom

/-- **The search over a block** fills in the pages with records. -/
theorem mxfsTimerangeByBlock_eq (hB : ¬ B.ByBlockPanics) (hblock : IsData block)
    (h : ∀ page < pageCount, ∀ d, I d → ∃ d', I d' ∧
      pageTimes B D inst layer d block page = (some (some (ts page)), d'))
    {dev : σ} (hdev : I dev) {timerange : List TimeRange} {timerangecount : UInt16}
    (hpos : timerangecount ≠ 0) (hroom : timerangecount.toNat ≤ timerange.length) :
    (mxfsTimerangeByBlock B D inst dev layer block timerange timerangecount).1 =
      some (if (blockEntries block ts (List.range pageCount)).length ≤ timerangecount.toNat then
            ((blockEntries block ts (List.range pageCount)).length : Int)
          else NEED_MORE_BUFFER,
        (blockEntries block ts (List.range pageCount)).take timerangecount.toNat ++
          timerange.drop ((blockEntries block ts (List.range pageCount)).take
            timerangecount.toNat).length) := by
  have hloop := blockLoop_eq (fun page hp => h page (List.mem_range.1 hp)) hdev [] timerange
    (Nat.zero_le timerangecount.toNat) (by simpa using hroom)
  have hlow : ¬ block < blockStartDataArea := Nat.not_lt.2 hblock.1
  have hhigh : ¬ blockCount ≤ block := Nat.not_le.2 hblock.2
  simp only [List.nil_append, List.length_nil, Nat.zero_add, Nat.sub_zero] at hloop
  rw [mxfsTimerangeByBlock, if_neg hpos, if_neg hlow, if_neg hB, if_neg hhigh]
  exact hloop

/-- With room for all of them, the entries filled in are the pages with records. -/
theorem entriesOf_byBlock (hB : ¬ B.ByBlockPanics) (hblock : IsData block)
    (h : ∀ page < pageCount, ∀ d, I d → ∃ d', I d' ∧
      pageTimes B D inst layer d block page = (some (some (ts page)), d'))
    {dev : σ} (hdev : I dev) {timerange : List TimeRange} {timerangecount : UInt16}
    (hcount : pageCount ≤ timerangecount.toNat)
    (hroom : timerangecount.toNat ≤ timerange.length) :
    entriesOf (mxfsTimerangeByBlock B D inst dev layer block timerange timerangecount).1 =
      blockEntries block ts (List.range pageCount) := by
  have hpos : timerangecount ≠ 0 := by
    rintro rfl
    exact absurd hcount (by decide)
  have hlen : (blockEntries block ts (List.range pageCount)).length ≤ timerangecount.toNat := by
    rw [blockEntries, List.length_map]
    have := List.length_filter_le (fun page => decide (0 < (ts page).recordCount))
      (List.range pageCount)
    rw [List.length_range] at this
    omega
  rw [mxfsTimerangeByBlock_eq hB hblock h hdev hpos hroom, if_pos hlen, entriesOf]
  simp [List.take_of_length_le hlen]

end loop

/-- An entry is there for each page with records. -/
theorem mem_blockEntries {block : Nat} {ts : Nat → PageTimes} {e : TimeRange} :
    e ∈ blockEntries block ts (List.range pageCount) ↔
      ∃ page < pageCount, 0 < (ts page).recordCount ∧
        e = ⟨(ts page).startTime, (ts page).lastTime, block, page, (ts page).recordCount⟩ := by
  simp [blockEntries, and_assoc, eq_comm]

/-! ## a block written by flushes -/

/-- Each page of the block reads as the image of its batch, followed by bytes
that do not form the magic; reads keep `I`. -/
structure BlockShows {σ : Type} (D : Driver σ) (I : σ → Prop) (block : Nat) (ps : Nat → Batch) :
    Prop where
  fits : ∀ page < pageCount, (ps page).pageBytes ≤ 2000
  read : ∀ page < pageCount, ∀ d, I d → ∃ data d', I d' ∧ data.length = pageSize ∧
    Shows data (ps page) ∧ D.read d block page pageSize = (OK, data, d')
  readSpare : ∀ page < pageCount, ∀ d, I d → ∃ data d', I d' ∧ data.length ≤ pageBufferSize ∧
    Shows data (ps page) ∧ D.read d block page pageBufferSize = (OK, data, d')

/-- A block of a page array. -/
theorem blockShows_pageArray (M : Medium) {f : Flash} {block : Nat} {ps : Nat → Batch}
    (hfits : ∀ page < pageCount, (ps page).pageBytes ≤ 2000)
    (hshows : ∀ page < pageCount, Shows (f block page).bytes (ps page)) :
    BlockShows (pageArray M) (fun d => d = f) block ps := by
  have hread : ∀ n, pageSize ≤ n → ∀ page d, d = f →
      (pageArray M).read d block page n = (OK, (f block page).bytes, f) := by
    intro n hn page d hd
    rw [hd]
    show (OK, (f block page).bytes.take n, f) = _
    rw [List.take_of_length_le (by rw [Page.size]; exact hn)]
  refine ⟨hfits, ?_, ?_⟩
  · intro page hpage d hd
    exact ⟨_, f, rfl, (f block page).size, hshows page hpage, hread _ (Nat.le_refl _) page d hd⟩
  · intro page hpage d hd
    refine ⟨_, f, rfl, ?_, hshows page hpage, hread _ (by decide) page d hd⟩
    rw [(f block page).size]
    decide

/-- The record of the requests does not matter. -/
theorem BlockShows.logged {σ : Type} {D : Driver σ} {I : σ → Prop} {block : Nat} {ps : Nat → Batch}
    (h : BlockShows D I block ps) : BlockShows D.logged (fun d => I d.dev) block ps := by
  refine ⟨h.fits, ?_, ?_⟩
  · intro page hpage d hd
    obtain ⟨data, d', hd', hlen, hshows, hread⟩ := h.read page hpage d.dev hd
    exact ⟨data, { d with dev := d' }, hd', hlen, hshows, by simp [Driver.logged, hread]⟩
  · intro page hpage d hd
    obtain ⟨data, d', hd', hlen, hshows, hread⟩ := h.readSpare page hpage d.dev hd
    exact ⟨data, { d with dev := d' }, hd', hlen, hshows, by simp [Driver.logged, hread]⟩

/-! ### a block with one page -/

/-- The block whose first page holds `p`. -/
def onePage (p : Batch) : Nat → Batch := fun page => if page = 0 then p else Batch.empty

/-- An erased device but for the image of the batch on the first page of its data area. -/
def onePageFlash (p : Batch) : Flash := Flash.erased.setPage 1 0 (Page.image p.image 0xFF)

theorem blockShows_onePage {p : Batch} (hfits : p.pageBytes ≤ 2000) :
    BlockShows (pageArray fakeMedium) (fun d => d = onePageFlash p) 1 (onePage p) := by
  refine blockShows_pageArray fakeMedium ?_ ?_
  · intro page _
    rw [onePage]
    split
    · exact hfits
    · exact Nat.zero_le _
  · intro page _
    by_cases hz : page = 0
    · rw [onePageFlash, onePage, if_pos hz, hz, Flash.setPage_same]
      exact shows_image hfits 0xFF
    · rw [onePageFlash, onePage, if_neg hz, Flash.setPage_ne _ _ (by simp [hz])]
      exact shows_blank

/-- The fresh instance with block 1 marked used. -/
def usedInst : Inst := (freshInst { linux := false, rp2040 := false }).setBlock 1 BlockStatus.mark

theorem usedInst_flagged : usedInst.blockFlagged 1 = true := by
  rw [usedInst, Inst.blockFlagged_mark, Function.update_self]

/-- What the search over the block lists, in an array of 64 entries. -/
def onePageEntries (B : Build) (p : Batch) (l : Layer) : List TimeRange :=
  entriesOf (mxfsTimerangeByBlock B (pageArray fakeMedium) usedInst (onePageFlash p)
    (UInt8.ofNat l.toNat) 1 (List.replicate 64 ⟨0, 0, 0, 0, 0⟩) 64).1

theorem onePageEntries_panics {B : Build} (h : B.ByBlockPanics) (p : Batch) (l : Layer) :
    onePageEntries B p l = [] := by
  rw [onePageEntries, mxfsTimerangeByBlock_panics h _ _ _ _ (by decide) _ (by decide)]
  rfl

/-! ## the times of a batch -/

/-- The times of a batch's records of the layer, as the walk computes them. -/
def Batch.pageTimes (p : Batch) (l : Layer) : PageTimes :=
  (l.frames (p.lastBefore l) (p l)).foldl
    (fun t f => t.add (UInt8.ofNat l.toNat) f.header.stored) PageTimes.init

/-- An ANTP layer is walked record by record. -/
theorem Batch.pageTimes_antp (p : Batch) {l : Layer} (hl : l ∈ Layer.antp) :
    p.pageTimes l = ((p l).map fun r => stamp r.time.toNat).foldl
      (fun t s => t.note s s 1) PageTimes.init := by
  have hframes : l.frames (p.lastBefore l) (p l) =
      (p l).map fun r => ⟨l, antpHeader l r.time.toNat, r.payload⟩ := by
    simp only [Layer.antp, List.mem_cons, List.not_mem_nil, or_false] at hl
    rcases hl with rfl | rfl | rfl <;> rfl
  rw [pageTimes, hframes, List.foldl_map, List.foldl_map]
  exact List.foldl_ext _ _ _ fun t r _ => PageTimes.add_antp t hl r.time.toNat

/-- A series has one header. -/
theorem Batch.pageTimes_series {p : Batch} (hfits : p.pageBytes ≤ 2000) {l : Layer}
    (hl : l ∉ Layer.antp) (hne : p l ≠ []) :
    p.pageTimes l = ⟨u32 (firstTime (p l)),
      u32 (firstTime (p l)) + (p l).length * p.storedStep l, (p l).length⟩ := by
  have hcount := p.count_lt hfits l
  obtain ⟨r, rest, hcons⟩ := List.exists_cons_of_ne_nil hne
  have hnote : ∀ start last, PageTimes.init.note start last (p l).length =
      ⟨start, last, (p l).length⟩ := by
    intro start last
    have hlen : u16 (p l).length = (p l).length := u16_eq (by omega)
    simp [PageTimes.note, PageTimes.init, hlen]
  rw [← hnote, pageTimes, storedStep]
  rw [hcons] at hcount ⊢
  cases l
  case antpSpeed | antpPower | antpCadence => simp [Layer.antp] at hl
  case gyro | accelerometer =>
      simp only [Layer.frames, List.foldl_cons, List.foldl_nil]
      exact PageTimes.add_dim3 _ (by simp [Layer.dim3]) _ _ hcount
  case temperature =>
      simp only [Layer.frames, List.foldl_cons, List.foldl_nil]
      exact PageTimes.add_temperature _ _ _ (Nat.lt_trans hcount (by decide))

/-- The first time stays, the last one and the count follow. -/
theorem PageTimes.foldl_note (s : Nat) (ss : List Nat) {t : PageTimes}
    (hpos : ∀ x ∈ s :: ss, 0 < x) (hcount : t.recordCount + (s :: ss).length < 65536) :
    (s :: ss).foldl (fun t s => t.note s s 1) t =
      ⟨if t.startTime = 0 then s else t.startTime, ss.getLastD s,
        t.recordCount + (s :: ss).length⟩ := by
  have hlen : u16 (t.recordCount + 1) = t.recordCount + 1 := by
    rw [List.length_cons] at hcount
    exact u16_eq (by omega)
  induction ss generalizing s t with
  | nil => simp [note, hlen]
  | cons s' ss ih =>
      have hs : 0 < s := hpos s List.mem_cons_self
      have hstart : ¬ (if t.startTime = 0 then s else t.startTime) = 0 := by
        split <;> omega
      simp only [List.length_cons] at hcount
      rw [List.foldl_cons, ih s' (fun x hx => hpos x (List.mem_cons_of_mem s hx))
        (by simp only [note, hlen, List.length_cons]; omega)
        (by simp only [note, hlen]; exact u16_eq (by omega)), List.getLastD_cons]
      simp only [note, hlen, hstart, if_false, PageTimes.mk.injEq, true_and, List.length_cons]
      omega

/-- The walk counts the records. -/
theorem Batch.recordCount_pageTimes {p : Batch} (hfits : p.pageBytes ≤ 2000) (l : Layer) :
    (p.pageTimes l).recordCount = (p l).length := by
  have hcount := p.count_lt hfits l
  by_cases hl : l ∈ Layer.antp
  · have hfold : ∀ (ss : List Nat) (t : PageTimes), t.recordCount + ss.length < 65536 →
        (ss.foldl (fun t s => t.note s s 1) t).recordCount = t.recordCount + ss.length := by
      intro ss
      induction ss with
      | nil => simp
      | cons s ss ih =>
          intro t ht
          rw [List.length_cons] at ht
          have hnote : (t.note s s 1).recordCount = t.recordCount + 1 := u16_eq (by omega)
          rw [List.foldl_cons, ih _ (by omega), hnote, List.length_cons]
          omega
    rw [p.pageTimes_antp hl, hfold _ _ (by simp [PageTimes.init]; omega)]
    simp [PageTimes.init]
  · cases hrs : p l with
    | nil => cases l <;> simp [pageTimes, hrs, Layer.frames, PageTimes.init]
    | cons r rest => rw [pageTimes_series hfits hl (by simp [hrs]), hrs]

theorem toNat_ofNat_layer (l : Layer) : (UInt8.ofNat l.toNat).toNat = l.toNat := by
  cases l <;> rfl

section shows

variable {σ : Type} {B : Build} {D : Driver σ} {I : σ → Prop} {inst : Inst} {block : Nat}
variable {ps : Nat → Batch}

/-- **One page**: the times of its batch. -/
theorem pageTimes_shows (h : BlockShows D I block ps) (hflag : inst.blockFlagged block = true)
    (l : Layer) {page : Nat} (hpage : page < pageCount) {d : σ} (hd : I d) :
    ∃ d', I d' ∧ pageTimes B D inst (UInt8.ofNat l.toNat) d block page =
      (some (some ((ps page).pageTimes l)), d') := by
  obtain ⟨data, d', hd', hlen, hshows, hread⟩ := h.readSpare page hpage d hd
  refine ⟨d', hd', ?_⟩
  have hrbf : patch (List.replicate pageBufferSize 0) 0 (data.take pageBufferSize) =
      data ++ List.replicate (pageBufferSize - data.length) 0 := by
    rw [List.take_of_length_le hlen, patch]
    simp
  have htimes : (ps page).frames.foldl
      (fun t f => t.add (UInt8.ofNat l.toNat) f.header.stored) PageTimes.init =
        (ps page).pageTimes l := by
    refine (ps page).foldl_frames (fun f hf hne t => PageTimes.add_ne t _ ?_) PageTimes.init
    rw [((ps page).frames_wellFormed (h.fits page hpage) f hf).type, toNat_ofNat_layer]
    exact fun he => hne (Layer.toNat_inj he)
  rw [pageTimes, if_pos hflag, hread]
  simp only [ne_eq, not_true_eq_false, if_false, hrbf]
  rw [timesLoop_shows (hshows.append _) (h.fits page hpage), htimes]
  rfl

/-- The entries of the block: one for each page with records of the layer. -/
theorem entriesOf_shows (hB : ¬ B.ByBlockPanics) (h : BlockShows D I block ps)
    (hblock : IsData block) (hflag : inst.blockFlagged block = true) (l : Layer) {dev : σ} (hdev : I dev)
    {timerange : List TimeRange} {timerangecount : UInt16}
    (hcount : pageCount ≤ timerangecount.toNat)
    (hroom : timerangecount.toNat ≤ timerange.length) :
    entriesOf (mxfsTimerangeByBlock B D inst dev (UInt8.ofNat l.toNat) block timerange
        timerangecount).1 =
      blockEntries block (fun page => (ps page).pageTimes l) (List.range pageCount) :=
  entriesOf_byBlock hB hblock (fun _ hpage _ hd => pageTimes_shows h hflag l hpage hd) hdev hcount
    hroom

/-- `mxfs_read` returns the payloads of the page's batch. -/
theorem mxfsRead_shows (h : BlockShows D I block ps) (l : Layer) {page : Nat}
    (hpage : page < pageCount) {d : σ} (hd : I d) {bufferlen : UInt16} (hpos : bufferlen ≠ 0) :
    (mxfsRead D d (UInt8.ofNat l.toNat) bufferlen block page).1 =
      some (((((ps page).payloads l).flatten.length : Nat) : Int),
        ((ps page).payloads l).flatten) := by
  obtain ⟨data, d', _, hlen, hshows, hread⟩ := h.read page hpage d hd
  have hfits := h.fits page hpage
  obtain ⟨rest, hdata, _⟩ := id hshows
  have hwalk := (readLoop_image_iff hfits hdata hlen l.toNat bufferlen.toNat).2
    (not_phantom_of_not_magic hshows.not_magic.1 hshows.not_magic.2 _ _)
  rw [mxfsRead_eq hpos (by rw [hread]), hread, toNat_ofNat_layer, hwalk, Batch.recordsOf,
    Layer.ofNat?_toNat]
  rfl

/-- **The two decoders agree** in the builds that do not abort:
`mxfs_timerange_by_block` reports the pages where `mxfs_read` returns something,
with as many records as it returns. -/
theorem decoders_agree (hB : ¬ B.ByBlockPanics) (h : BlockShows D I block ps)
    (hblock : IsData block) (hflag : inst.blockFlagged block = true) (l : Layer) {dev : σ}
    (hdev : I dev) {timerange : List TimeRange} {timerangecount : UInt16}
    (hcount : pageCount ≤ timerangecount.toNat)
    (hroom : timerangecount.toNat ≤ timerange.length) {page : Nat} (hpage : page < pageCount)
    {bufferlen : UInt16} (hpos : bufferlen ≠ 0) :
    ∃ length out, (mxfsRead D dev (UInt8.ofNat l.toNat) bufferlen block page).1 =
        some (length, out) ∧
      ((∃ e ∈ entriesOf (mxfsTimerangeByBlock B D inst dev (UInt8.ofNat l.toNat) block timerange
          timerangecount).1, e.page = page) ↔ 0 < length) ∧
      ∀ e ∈ entriesOf (mxfsTimerangeByBlock B D inst dev (UInt8.ofNat l.toNat) block timerange
          timerangecount).1, e.page = page →
        ((e.recordCount * l.recordSize : Nat) : Int) = length := by
  have hrecords := Batch.recordCount_pageTimes (h.fits page hpage) l
  have hlength := (ps page).length_payloads l
  have hsize := l.recordSize_pos
  rw [entriesOf_shows hB h hblock hflag l hdev hcount hroom]
  refine ⟨_, _, mxfsRead_shows h l hpage hdev hpos, ?_, ?_⟩
  · rw [hlength]
    constructor
    · rintro ⟨e, he, rfl⟩
      obtain ⟨page, _, hcount, rfl⟩ := mem_blockEntries.1 he
      dsimp only at hrecords hcount ⊢
      rw [hrecords] at hcount
      exact_mod_cast Nat.mul_pos hcount hsize
    · intro hlt
      have hlt : 0 < (ps page l).length * l.recordSize := by exact_mod_cast hlt
      refine ⟨_, mem_blockEntries.2 ⟨page, hpage, ?_, rfl⟩, rfl⟩
      rw [hrecords]
      exact Nat.pos_of_mul_pos_right hlt
  · intro e he hpageof
    obtain ⟨page', _, _, rfl⟩ := mem_blockEntries.1 he
    obtain rfl : page' = page := hpageof
    rw [hrecords, hlength]

end shows

/-- A page of one gyro record. -/
theorem decoders_agree_onePage :
    ∃ length out, (mxfsRead (pageArray fakeMedium) (onePageFlash (Batch.copies .gyro gyroSample 1))
        (UInt8.ofNat Layer.gyro.toNat) 6 1 0).1 = some (length, out) ∧
      ((∃ e ∈ onePageEntries { linux := false, rp2040 := false }
          (Batch.copies .gyro gyroSample 1) .gyro, e.page = 0) ↔ 0 < length) ∧
      ∀ e ∈ onePageEntries { linux := false, rp2040 := false }
          (Batch.copies .gyro gyroSample 1) .gyro, e.page = 0 →
        ((e.recordCount * Layer.gyro.recordSize : Nat) : Int) = length :=
  decoders_agree (Build.not_byBlockPanics rfl)
    (blockShows_onePage (by rw [Batch.pageBytes_copies]; decide)) (by decide)
    usedInst_flagged .gyro rfl (by decide) (by decide) pageCount_pos (by decide)

/-- Under `__LINUX__`, as the repository builds it, `mxfs_read` returns the record
and the search over the block aborts. -/
theorem decoders_disagree_linux :
    ¬ ∃ length out, (mxfsRead (pageArray fakeMedium)
        (onePageFlash (Batch.copies .gyro gyroSample 1)) (UInt8.ofNat Layer.gyro.toNat) 6 1 0).1 =
          some (length, out) ∧
      ((∃ e ∈ onePageEntries { linux := true, rp2040 := false }
          (Batch.copies .gyro gyroSample 1) .gyro, e.page = 0) ↔ 0 < length) := by
  have hfits : (Batch.copies .gyro gyroSample 1).pageBytes ≤ 2000 := by
    rw [Batch.pageBytes_copies]; decide
  rintro ⟨length, out, hread, hlisted⟩
  rw [mxfsRead_shows (blockShows_onePage hfits) .gyro pageCount_pos rfl (by decide)] at hread
  obtain ⟨rfl, -⟩ : _ = length ∧ _ = out := by simpa using hread
  rw [onePageEntries_panics ⟨rfl, rfl⟩] at hlisted
  obtain ⟨e, he, -⟩ := hlisted.2 (by decide)
  cases he

/-! ## the times -/

/-- Positive timestamps in order, of less than `2 ^ 32` seconds, at most 65535 ms
apart on average. -/
structure Timely {l : Layer} (rs : List (Record l)) : Prop where
  positive : ∀ r ∈ rs, 0 < r.time.toNat
  ordered : Ordered rs
  seconds : ∀ r ∈ rs, r.time.toNat / 1000 < 4294967296
  gap : lastTime 0 rs - firstTime rs ≤ 65535 * rs.length

/-- The entry has the times of the records: exactly for the ANTP layers, and to
less than a millisecond a record for the others. -/
def TimesRight {l : Layer} (rs : List (Record l)) (e : TimeRange) : Prop :=
  e.startTime = firstTime rs ∧ e.recordCount = rs.length ∧
    if l ∈ Layer.antp then e.lastTime = lastTime 0 rs
    else lastTime 0 rs < e.lastTime + rs.length ∧ e.lastTime ≤ lastTime 0 rs

section timely

variable {p : Batch} {l : Layer}

/-- The times of an ANTP layer are right. -/
theorem timesRight_antp (hfits : p.pageBytes ≤ 2000) (hl : l ∈ Layer.antp) (hne : p l ≠ [])
    (ht : Timely (p l)) (block page : Nat) :
    TimesRight (p l) ⟨(p.pageTimes l).startTime, (p.pageTimes l).lastTime, block, page,
      (p.pageTimes l).recordCount⟩ := by
  have hcount := p.count_lt hfits l
  have hstamps : ((p l).map fun r => stamp r.time.toNat) = (p l).map fun r => r.time.toNat :=
    List.map_congr_left fun r hr => stamp_eq (ht.seconds r hr)
  have hpos : ∀ x ∈ (p l).map fun r => r.time.toNat, 0 < x := by
    simpa using ht.positive
  rw [p.pageTimes_antp hl, hstamps]
  obtain ⟨r, rest, hcons⟩ := List.exists_cons_of_ne_nil hne
  rw [hcons] at hcount hpos ⊢
  rw [List.map_cons] at hpos ⊢
  rw [PageTimes.foldl_note _ _ hpos (by simp [PageTimes.init] at hcount ⊢; omega)]
  refine ⟨rfl, by simp [PageTimes.init], ?_⟩
  rw [if_pos hl, lastTime_eq, List.map_cons, List.getLastD_cons]

/-- The last time of a series is right exactly if its step is. -/
theorem lastTime_right_iff {rs : List (Record l)} (ht : Timely rs) (hne : rs ≠ []) (step : Nat) :
    lastTime 0 rs < firstTime rs + rs.length * step + rs.length ∧
        firstTime rs + rs.length * step ≤ lastTime 0 rs ↔ step = ownStep rs := by
  have hle := ht.ordered.firstTime_le
  have hpos : 0 < rs.length := List.length_pos_of_ne_nil hne
  have hgap : (lastTime 0 rs - firstTime rs) / rs.length ≤ 65535 :=
    Nat.div_le_of_le_mul (by rw [Nat.mul_comm]; exact ht.gap)
  rw [ownStep, Nat.min_eq_right hgap, @eq_comm _ step, Nat.div_eq_iff hpos, Nat.mul_comm step]
  omega

/-- **The times of a series** are right exactly if its first time fits 32 bits and
its step is its own. -/
theorem timesRight_series_iff (hfits : p.pageBytes ≤ 2000) (hl : l ∉ Layer.antp) (hne : p l ≠ [])
    (ht : Timely (p l)) (block page : Nat) :
    TimesRight (p l) ⟨(p.pageTimes l).startTime, (p.pageTimes l).lastTime, block, page,
        (p.pageTimes l).recordCount⟩ ↔
      firstTime (p l) < 4294967296 ∧ (l = .temperature → p.SingleMatches) := by
  have hpos : 0 < (p l).length := List.length_pos_of_ne_nil hne
  have hgap : (lastTime 0 (p l) - firstTime (p l)) / (p l).length ≤ 65535 :=
    Nat.div_le_of_le_mul (by rw [Nat.mul_comm]; exact ht.gap)
  have hfitsStep : StepFits (p l) := Or.inl (by omega)
  have hstep := storedStep_own_iff hl hne ht.ordered
  rw [and_iff_right hfitsStep, ← lastTime_right_iff ht hne] at hstep
  rw [Batch.pageTimes_series hfits hl hne, TimesRight, if_neg hl, ← hstep]
  simp only [true_and]
  constructor
  · rintro ⟨hstart, hlast⟩
    rw [hstart] at hlast
    refine ⟨?_, hlast⟩
    unfold u32 at hstart
    omega
  · rintro ⟨hlt, hlast⟩
    rw [u32_eq hlt]
    exact ⟨rfl, hlast⟩

end timely

section timely

variable {σ : Type} {B : Build} {D : Driver σ} {I : σ → Prop} {inst : Inst} {block : Nat}
variable {ps : Nat → Batch}

/-- The entry of a page with records of the layer. -/
theorem exists_entry_iff (hB : ¬ B.ByBlockPanics) (h : BlockShows D I block ps)
    (hblock : IsData block) (hflag : inst.blockFlagged block = true) {dev : σ} (hdev : I dev)
    {timerange : List TimeRange} {timerangecount : UInt16}
    (hcount : pageCount ≤ timerangecount.toNat)
    (hroom : timerangecount.toNat ≤ timerange.length) {page : Nat} (hpage : page < pageCount)
    {l : Layer} (hne : ps page l ≠ []) (P : TimeRange → Prop) :
    (∃ e ∈ entriesOf (mxfsTimerangeByBlock B D inst dev (UInt8.ofNat l.toNat) block timerange
        timerangecount).1, e.page = page ∧ P e) ↔
      P ⟨((ps page).pageTimes l).startTime, ((ps page).pageTimes l).lastTime, block, page,
        ((ps page).pageTimes l).recordCount⟩ := by
  rw [entriesOf_shows hB h hblock hflag l hdev hcount hroom]
  constructor
  · rintro ⟨e, he, hpageof, hP⟩
    obtain ⟨page', _, _, rfl⟩ := mem_blockEntries.1 he
    obtain rfl : page' = page := hpageof
    exact hP
  · intro hP
    refine ⟨_, mem_blockEntries.2 ⟨page, hpage, ?_, rfl⟩, rfl, hP⟩
    rw [Batch.recordCount_pageTimes (h.fits page hpage)]
    exact List.length_pos_of_ne_nil hne

/-- **The reported times match the recorded timestamps**, on a page of timely
records in a block marked used, exactly if the build does not abort, the first time
of each series is less than `2 ^ 32` ms, and a single temperature record matches the
last timestamp encoded before it. -/
theorem times_right_iff (h : BlockShows D I block ps) (hblock : IsData block)
    (hflag : inst.blockFlagged block = true) {dev : σ} (hdev : I dev)
    {timerange : List TimeRange} {timerangecount : UInt16}
    (hcount : pageCount ≤ timerangecount.toNat)
    (hroom : timerangecount.toNat ≤ timerange.length) {page : Nat} (hpage : page < pageCount)
    (ht : ∀ l, Timely (ps page l)) :
    (∀ l, ps page l ≠ [] → ∃ e ∈ entriesOf (mxfsTimerangeByBlock B D inst dev
        (UInt8.ofNat l.toNat) block timerange timerangecount).1,
        e.page = page ∧ TimesRight (ps page l) e) ↔
      ∀ l, ps page l ≠ [] → ¬ B.ByBlockPanics ∧ (l ∉ Layer.antp →
        firstTime (ps page l) < 4294967296 ∧ (l = .temperature → (ps page).SingleMatches)) := by
  have hfits := h.fits page hpage
  refine forall_congr' fun l => forall_congr' fun hne => ?_
  by_cases hB : B.ByBlockPanics
  · -- the search aborts before it looks at the page
    have hpos : timerangecount ≠ 0 := by
      rintro rfl
      exact absurd hcount (by decide)
    refine iff_of_false ?_ fun hcond => hcond.1 hB
    rw [mxfsTimerangeByBlock_panics hB _ _ _ _ hblock.1 _ hpos]
    rintro ⟨e, he, -⟩
    cases he
  · rw [exists_entry_iff hB h hblock hflag hdev hcount hroom hpage hne (TimesRight (ps page l)),
      and_iff_right hB]
    by_cases hl : l ∈ Layer.antp
    · exact iff_of_true (timesRight_antp hfits hl hne (ht l) block page)
        fun hnot => absurd hl hnot
    · rw [timesRight_series_iff hfits hl hne (ht l) block page]
      exact ⟨fun hright _ => hright, fun hcond => hcond hl⟩

end timely

/-- A page of one gyro record, one second after the epoch. -/
theorem times_right_onePage :
    ∃ e ∈ onePageEntries { linux := false, rp2040 := false } (Batch.copies .gyro gyroSample 1)
        .gyro, e.page = 0 ∧ TimesRight [gyroSample] e := by
  have htimely : ∀ l, Timely (Batch.copies .gyro gyroSample 1 l) := by
    intro l
    cases l
    case gyro => exact ⟨by decide, List.pairwise_singleton _ _, by decide, by decide⟩
    all_goals exact ⟨by decide, List.Pairwise.nil, by decide, by decide⟩
  refine (times_right_iff (blockShows_onePage (p := Batch.copies .gyro gyroSample 1)
    (by rw [Batch.pageBytes_copies]; decide)) (by decide) usedInst_flagged rfl (by decide)
    (by decide) pageCount_pos htimely).2 ?_ .gyro (by decide)
  intro l hne
  refine ⟨by decide, fun hl => ?_⟩
  cases l
  case gyro => exact ⟨by decide, by simp⟩
  all_goals exact absurd rfl hne

/-- A gyro record of November 2023. -/
def lateSample : Record .gyro := ⟨1700000000000, [1, 0, 2, 0, 3, 0], by decide⟩

/-- A page of one gyro record of November 2023 is reported with a time of 1970. -/
theorem times_wrong_onePage :
    ¬ ∃ e ∈ onePageEntries { linux := false, rp2040 := false } (Batch.copies .gyro lateSample 1)
        .gyro, e.page = 0 ∧ TimesRight [lateSample] e := by
  have hfits : (Batch.copies .gyro lateSample 1).pageBytes ≤ 2000 := by
    rw [Batch.pageBytes_copies]; decide
  intro h
  have hright := (exists_entry_iff (Build.not_byBlockPanics rfl) (blockShows_onePage hfits)
    (by decide) usedInst_flagged rfl (by decide) (by decide) pageCount_pos (l := .gyro) (by decide)
    (TimesRight [lateSample])).1 h
  have hcond := (timesRight_series_iff hfits (l := .gyro) (by decide) (by decide)
    ⟨by decide, List.pairwise_singleton _ _, by decide, by decide⟩ 1 0).1 hright
  exact absurd hcond.1 (by decide)

end Mxfs
