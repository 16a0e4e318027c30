import Mxfs.BlockSearch
import Mxfs.Export

/-!
# Mxfs.Listing

What a client lists of a layer block by block (`mxfs_timerange_by_block`), and reads of
the pages listed.

In the mount that writes it a block is not looked at.  After the next one each block
with records is, and `listing_from_power_on` says that the pages listed then hold the
log, on the RP2040 as well, where the search reads the spare bytes of a page with it.
-/

namespace Mxfs

open Lib

/-! ## listing -/

/-- `mxfs_timerange_by_block` of each block; the entries of all of them. -/
def listing (B : Build) (D : Driver σ) (inst : Inst) (layer : UInt8)
    (timerange : List TimeRange) (timerangecount : UInt16) : List Nat → σ → List TimeRange × σ
  | [], dev => ([], dev)
  | block :: blocks, dev =>
    let (r, dev) := mxfsTimerangeByBlock B D inst dev layer block timerange timerangecount
    let (rest, dev) := listing B D inst layer timerange timerangecount blocks dev
    (entriesOf r ++ rest, dev)

section listing

variable {B : Build} {D : Driver σ} {I : σ → Prop} {inst : Inst} {layer : UInt8} {block : Nat}
variable {timerange : List TimeRange} {timerangecount : UInt16} {dev : σ}

section keeps

variable (h : ∀ page < pageCount, ∀ d, I d → I (D.read d block page pageBufferSize).2.2)
variable (hdev : I dev)
include h hdev

theorem pageTimes_keeps {page : Nat} (hpage : page < pageCount) :
    I (pageTimes B D inst layer dev block page).2 := by
  have hread := h page hpage dev hdev
  rw [pageTimes]
  cases inst.blockFlagged block with
  | false => exact hdev
  | true =>
      rw [if_pos rfl]
      dsimp only
      split
      · exact hread
      · exact hread

theorem blockLoop_keeps (count : Nat) {pages : List Nat} (hpages : ∀ page ∈ pages, page < pageCount)
    (cnt : Nat) (ranges : List TimeRange) :
    I (blockLoop B D inst layer block count pages cnt ranges dev).2 := by
  induction pages generalizing dev cnt ranges with
  | nil => exact hdev
  | cons page pages ih =>
      have htimes : I (pageTimes B D inst layer dev block page).2 :=
        pageTimes_keeps h hdev (hpages page List.mem_cons_self)
      have hrest := fun cnt ranges => ih htimes (fun p hp => hpages p (List.mem_cons_of_mem page hp))
        cnt ranges
      rw [blockLoop]
      generalize pageTimes B D inst layer dev block page = r at htimes hrest
      obtain ⟨times, dev'⟩ := r
      cases times with
      | none => exact htimes
      | some times =>
          cases times with
          | none => exact htimes
          | some t =>
              dsimp only
              split
              · split
                · exact hrest _ _
                · exact htimes
              · exact hrest _ _

/-- The search over a block reads its pages only. -/
theorem mxfsTimerangeByBlock_keeps :
    I (mxfsTimerangeByBlock B D inst dev layer block timerange timerangecount).2 := by
  rw [mxfsTimerangeByBlock]
  split
  · exact hdev
  · split
    · exact hdev
    · split
      · exact hdev
      · split
        · exact hdev
        · exact blockLoop_keeps h hdev _ (fun _ => List.mem_range.1) 0 timerange

end keeps

/-- **The listing** is that of the blocks, one after another. -/
theorem listing_eq {entries : Nat → List TimeRange} {blocks : List Nat}
    (h : ∀ block ∈ blocks, ∀ d, I d →
      entriesOf (mxfsTimerangeByBlock B D inst d layer block timerange timerangecount).1 =
          entries block ∧
        I (mxfsTimerangeByBlock B D inst d layer block timerange timerangecount).2)
    (hdev : I dev) :
    ∃ dev', listing B D inst layer timerange timerangecount blocks dev =
      (blocks.flatMap entries, dev') ∧ I dev' := by
  induction blocks generalizing dev with
  | nil => exact ⟨dev, rfl, hdev⟩
  | cons block blocks ih =>
      obtain ⟨hentries, hkept⟩ := h block List.mem_cons_self dev hdev
      obtain ⟨dev', hrest, hdev'⟩ := ih (fun b hb => h b (List.mem_cons_of_mem block hb)) hkept
      refine ⟨dev', ?_, hdev'⟩
      rw [listing]
      simp only [hrest, hentries, List.flatMap_cons]

end listing

/-! ## pages of the part, with their spare bytes -/

section part

variable (P : ChipParams) {c : Chip} {block : Nat} (hb : block < blockCount)
include hb

/-- A read of more than a page goes on with the spare bytes. -/
theorem rp2040_readSpare (h : c.Open) {page : Nat} (hp : page < pageCount) :
    ∃ c', (rp2040Driver (w25n01gv P)).read c block page pageBufferSize =
      (OK, (c.array block page).bytes, c') ∧ c'.Open ∧ c'.array = c.array := by
  obtain ⟨hread, -⟩ := h.didRead P hb hp (Nat.le_refl pageSize)
  have hout : (c.loaded P block page).shiftOut [0, 0, 0] pageBufferSize =
      (c.array block page).bytes := by
    rw [show pageBufferSize = chipPageSize from rfl, Chip.shiftOut_whole, h.loaded_eq P hb hp]
  refine ⟨_, ?_, hread.toOpen, hread.array⟩
  simp only [rp2040Driver, rp2040Read_chip, Option.getD_some, hout]

/-- A block of the part whose pages show batches. -/
theorem blockShows_rp2040 {f : Flash} {ps : Nat → Batch}
    (hfits : ∀ page < pageCount, (ps page).pageBytes ≤ 2000)
    (hshows : ∀ page < pageCount, Shows (f block page).bytes (ps page)) :
    BlockShows (rp2040Driver (w25n01gv P)) (fun c => c.Holds f) block ps := by
  refine ⟨hfits, ?_, ?_⟩
  · intro page hp c hc
    obtain ⟨hopen, rfl⟩ := hc
    obtain ⟨out, c', hread, hdid, -⟩ := rp2040Read_didRead P hopen hb hp (Nat.le_refl pageSize)
    have hout : out = (c.flash block page).bytes := by
      rw [hdid.out]
      exact List.take_of_length_le (by rw [Page.size])
    refine ⟨out, c', ⟨hdid.toOpen, flash_of_array hdid.array⟩, ?_, ?_, ?_⟩
    · rw [hout, Page.size]
    · rw [hout]
      exact hshows page hp
    · simp only [rp2040Driver, hread, Option.getD_some]
  · intro page hp c hc
    obtain ⟨hopen, rfl⟩ := hc
    obtain ⟨c', hread, hopen', harray⟩ := rp2040_readSpare P hb hopen hp
    have hsplit : (c.array block page).bytes =
        (c.flash block page).bytes ++ (c.array block page).bytes.drop pageSize :=
      (List.take_append_drop pageSize _).symm
    refine ⟨_, c', ⟨hopen', flash_of_array harray⟩, Nat.le_of_eq (c.array block page).size, ?_,
      hread⟩
    rw [hsplit]
    exact (hshows page hp).append _

end part

/-! ## what the next mount looks at -/

section session

variable {B : Build} (M : Medium) {f : Flash} {ops : List Op}

/-- A mount flags the blocks with the magic on their first page, and changes no page. -/
theorem remount_session :
    let w := pageSession B M f ops
    let v := pageSession B M f (ops ++ [.remount])
    v.dev = w.dev ∧
      ∀ b, v.inst.blockFlagged b = (decide (IsData b) && decide (w.dev.dev b 0).HasMagic) := by
  intro w v
  have hlast : v = World.mounted B (pageArray M).logged w.dev := run_append _ _ _
  have hshows := (Model.abstracts_run B M f ops).shows
  rw [hlast]
  refine ⟨world_mounted_dev M w.dev, fun b => ?_⟩
  rw [(shows_mounted M B hshows.flash hshows.calls).marked, hshows.flash]
  rfl

variable (hf : ∀ b, IsData b → f.Blank b) (hops : ∀ op ∈ ops, op.IsLog)
include hf hops

/-- A block that is not flagged then has no records. -/
theorem flashBatch_of_not_flagged {block : Nat} (hb : IsData block)
    (hflag : (pageSession B M f (ops ++ [.remount])).inst.blockFlagged block = false) (page : Nat) :
    flashBatch (LogState.init.run B ops).batches block page = Batch.empty := by
  rw [(remount_session M).2, decide_eq_true hb, Bool.true_and, decide_eq_false_iff_not] at hflag
  have hfirst : (flashBatch (LogState.init.run B ops).batches block 0).IsEmpty :=
    not_not.1 fun hne => hflag ((ofBytes_front _).1.symm.trans
      ((magic_iff (shows_flashBatch B hops M hf hb pageCount_pos)
        (flashBatch_fits B hops block 0)).2 hne))
  by_cases hzero : page = 0
  · exact hzero ▸ hfirst.eq_empty
  · exact (flashBatch_front B hops (Nat.pos_of_ne_zero hzero) hfirst).eq_empty

/-- **The search over a block, after the next mount**, lists the pages with records. -/
theorem entriesOf_remount {σ : Type} {D : Driver σ} {I : σ → Prop} {block : Nat}
    (hB : ¬ B.ByBlockPanics) (hb : IsData block)
    (h : BlockShows D I block (flashBatch (LogState.init.run B ops).batches block)) (l : Layer)
    {dev : σ} (hdev : I dev) {timerange : List TimeRange} {timerangecount : UInt16}
    (hcount : pageCount ≤ timerangecount.toNat)
    (hroom : timerangecount.toNat ≤ timerange.length) :
    entriesOf (mxfsTimerangeByBlock B D (pageSession B M f (ops ++ [.remount])).inst dev
        (UInt8.ofNat l.toNat) block timerange timerangecount).1 =
      blockEntries block (fun page => (flashBatch (LogState.init.run B ops).batches block
        page).pageTimes l) (List.range pageCount) := by
  cases hflag : (pageSession B M f (ops ++ [.remount])).inst.blockFlagged block with
  | true => exact entriesOf_shows hB h hb hflag l hdev hcount hroom
  | false =>
      rw [entriesOf_byBlock hB hb (fun page _ d hd => ⟨d, hd, pageTimes_of_not_flagged hflag d page⟩)
        hdev hcount hroom]
      have hnone : ∀ page ∈ List.range pageCount, ((flashBatch (LogState.init.run B ops).batches
          block page).pageTimes l).recordCount = 0 := by
        intro page _
        rw [flashBatch_of_not_flagged M hf hops hb hflag page]
        exact Batch.recordCount_pageTimes (Nat.zero_le _) l
      rw [blockEntries, blockEntries, List.filter_eq_nil_iff.2, List.filter_eq_nil_iff.2]
      · rfl
      · intro page hp
        rw [hnone page hp]
        decide
      · intro page _
        decide

end session

/-! ## the log of a layer, as listed -/

section listed

variable (bs : List Batch) (l : Layer)

/-- The entries of all blocks. -/
def listedEntries : List TimeRange :=
  dataBlocks.flatMap fun block => blockEntries block (fun page => (flashBatch bs block
    page).pageTimes l) (List.range pageCount)

/-- The records on the page of an entry. -/
def listedRecords (e : TimeRange) : List (List UInt8) := (flashBatch bs e.block e.page).payloads l

variable {bs l} (hfits : ∀ b p, (flashBatch bs b p).pageBytes ≤ 2000)
include hfits

theorem mem_listedEntries {e : TimeRange} (he : e ∈ listedEntries bs l) :
    e.addr ∈ dataPages ∧ e.recordCount = (listedRecords bs l e).length := by
  obtain ⟨block, hb, he⟩ := List.mem_flatMap.1 he
  obtain ⟨page, hp, -, rfl⟩ := mem_blockEntries.1 he
  refine ⟨mem_dataPages.2 ⟨mem_dataBlocks.1 hb, hp⟩, ?_⟩
  show ((flashBatch bs block page).pageTimes l).recordCount = _
  rw [Batch.recordCount_pageTimes (hfits block page), listedRecords, Batch.payloads, List.length_map]

/-- The pages listed, in page order. -/
theorem addr_listedEntries : (listedEntries bs l).map TimeRange.addr =
    dataPages.filter fun x => decide (0 < (flashBatch bs x.1 x.2 l).length) := by
  rw [listedEntries, dataPages, List.map_flatMap, List.filter_flatMap]
  refine List.flatMap_congr fun block _ => ?_
  rw [addr_blockEntries, List.filter_map]
  refine congrArg _ (List.filter_congr fun page _ => ?_)
  rw [Batch.recordCount_pageTimes (hfits block page)]
  rfl

/-- **The records listed** are those of the kept batches, in another order. -/
theorem listedRecords_perm : ((listedEntries bs l).flatMap (listedRecords bs l)).Perm
    ((bs.drop (oldestKept bs)).flatMap fun q => q.payloads l) := by
  have haddr : (listedEntries bs l).flatMap (listedRecords bs l) =
      ((listedEntries bs l).map TimeRange.addr).flatMap
        fun x => (flashBatch bs x.1 x.2).payloads l := by
    rw [List.flatMap_map]
    rfl
  have hheld : ∀ x ∈ dataPages, (flashBatch bs x.1 x.2).payloads l =
      (heldBatch bs x.1 x.2).elim [] fun q => q.payloads l := by
    intro x hx
    have hzero : ¬ x.1 = 0 := by
      have := (isData_iff.1 (mem_dataPages.1 hx).1).1
      omega
    rw [flashBatch, if_neg hzero]
    cases heldBatch bs x.1 x.2 <;> rfl
  rw [haddr, addr_listedEntries hfits, flatMap_filter, List.flatMap_congr hheld, ← around_held,
    ← rotate_dataPages]
  · exact (List.rotate_perm dataPages bs.length).symm.flatMap_right _
  · intro x _ hx
    rw [decide_eq_false_iff_not, Nat.not_lt, Nat.le_zero, List.length_eq_zero_iff] at hx
    rw [Batch.payloads, hx]
    rfl

end listed

/-! ## from power on -/

section power

variable (B : Build) {R : StartParams} (hid : R.id.take 3 = w25n01gvId) (c : Chip)
variable (hf : ∀ b, IsData b → c.flash.Blank b) {ops : List Op} (hops : ∀ op ∈ ops, op.IsLog)
include hid hf hops

/-- **What is listed after the next mount is the log.**  After any appends and flushes
from the power on over an erased data area, and a mount that starts the part again,
`mxfs_timerange_by_block` of each block lists pages of the data area, each once and in
order.  Each has as many records as the search says and `mxfs_read` returns, and with
what was still buffered before the mount they are the records taken in, but those that
the ring has reclaimed. -/
theorem listing_from_power_on (hB : ¬ B.ByBlockPanics) (l : Layer) {timerange : List TimeRange}
    {timerangecount : UInt16} (hcount : pageCount ≤ timerangecount.toNat)
    (hroom : timerangecount.toNat ≤ timerange.length) {bufferlen : UInt16}
    (hbuf : bufferlen ≠ 0) :
    ∃ s, rp2040CreateSpi (startPart R) c = some (.fin, s) ∧
      let D := rp2040Driver (startPart R)
      let before := session B D s ops
      ∃ s₂, rp2040CreateSpi (startPart R) before.dev = some (.fin, s₂) ∧
      let w := World.mounted B D s₂
      ∃ entries s', listing B D w.inst (UInt8.ofNat l.toNat) timerange timerangecount dataBlocks
          w.dev = (entries, s') ∧
        s'.flash = before.dev.flash ∧
        (entries.map TimeRange.addr).Sublist dataPages ∧
        ∃ records : TimeRange → List (List UInt8),
          (∀ e ∈ entries, e.recordCount = (records e).length ∧
            (mxfsRead D s' (UInt8.ofNat l.toNat) bufferlen e.block e.page).1 =
              some (((records e).flatten.length : Int), (records e).flatten)) ∧
          (entries.flatMap records ++ buffered before.inst l).Perm
            ((acceptedBy B D (World.mounted B D s) ops l).drop
              (reclaimedRecords (LogState.init.run B ops).batches l).length) := by
  obtain ⟨s, hstart, hs⟩ := rp2040CreateSpi_rests hid c
  refine ⟨s, hstart, ?_⟩
  rw [rp2040Driver_start]
  intro D before
  -- the session and the next mount, over the page array
  have hpart : ∀ op ∈ ops, op.OnPart := fun op hop => (hops op hop).onPart
  obtain ⟨hbefore, haccepted⟩ := session_on_rp2040 B (rp2040_simulates R.part) hs.holds hpart
  obtain ⟨s₂, hagain, hs₂⟩ := rp2040CreateSpi_rests hid before.dev
  refine ⟨s₂, hagain, ?_⟩
  intro w
  have hstarted : (⟨before.inst, s₂⟩ : World Chip).Looks B Chip.Holds
      (pageSession B (nandMedium 0) c.flash ops) :=
    ⟨hbefore.inst, hbefore.dev.flash ▸ hs₂.holds, hbefore.reached⟩
  have hw : w.Looks B Chip.Holds (pageSession B (nandMedium 0) c.flash (ops ++ [.remount])) := by
    have hasks : Op.remount.Asks DeviceCall.InRange := scans_inRange
    have hnext := (call_simulates (rp2040_simulates R.part)
      (fun _ => DeviceCall.OfFlush.inRange) hstarted hasks).2
    rw [pageSession, session_concat]
    exact hnext
  have hinst : w.inst = (pageSession B (nandMedium 0) c.flash (ops ++ [.remount])).inst := hw.inst
  have hsame : (pageSession B (nandMedium 0) c.flash (ops ++ [.remount])).dev =
      (pageSession B (nandMedium 0) c.flash ops).dev := (remount_session (nandMedium 0)).1
  have hdev : w.dev.Holds (pageSession B (nandMedium 0) c.flash ops).dev.dev := hsame ▸ hw.dev
  -- the search over each block
  let bs := (LogState.init.run B ops).batches
  let holds : Chip → Prop :=
    fun c' => c'.Holds (pageSession B (nandMedium 0) c.flash ops).dev.dev
  have hblock : ∀ block, IsData block → BlockShows D holds block (flashBatch bs block) :=
    fun block hb => blockShows_rp2040 R.part hb.2 (fun page _ => flashBatch_fits B hops block page)
      fun page hp => shows_flashBatch B hops (nandMedium 0) hf hb hp
  have hsearch : ∀ block ∈ dataBlocks, ∀ d, holds d →
      entriesOf (mxfsTimerangeByBlock B D w.inst d (UInt8.ofNat l.toNat) block timerange
          timerangecount).1 =
        blockEntries block (fun page => (flashBatch bs block page).pageTimes l)
          (List.range pageCount) ∧
      holds (mxfsTimerangeByBlock B D w.inst d (UInt8.ofNat l.toNat) block timerange
        timerangecount).2 := by
    intro block hmem d hd
    have hb := mem_dataBlocks.1 hmem
    refine ⟨?_, mxfsTimerangeByBlock_keeps (I := holds) (fun page hp d hd => ?_) hd⟩
    · rw [hinst]
      exact entriesOf_remount (nandMedium 0) hf hops hB hb (hblock block hb) l hd hcount hroom
    · obtain ⟨data, d', hd', -, -, hread⟩ := (hblock block hb).readSpare page hp d hd
      rw [hread]
      exact hd'
  obtain ⟨s', hlisting, hs'⟩ := listing_eq hsearch hdev
  have hfits := flashBatch_fits B hops
  refine ⟨_, s', hlisting, hs'.flash.trans hbefore.dev.flash.symm, ?_,
    listedRecords (LogState.init.run B ops).batches l, fun e he => ?_, ?_⟩
  · exact (addr_listedEntries hfits).symm ▸ List.filter_sublist
  · obtain ⟨hpage, hlen⟩ := mem_listedEntries hfits he
    obtain ⟨hb, hp⟩ := mem_dataPages.1 hpage
    exact ⟨hlen, mxfsRead_shows (hblock e.block hb) l hp hs' hbuf⟩
  · rw [haccepted, ← kept_records (nandMedium 0) hf hops l]
    have hbuffered : buffered before.inst l =
        buffered (pageSession B (nandMedium 0) c.flash ops).inst l :=
      congrArg (buffered · l) hbefore.inst
    rw [hbuffered]
    exact (listedRecords_perm hfits).append_right _

omit hid hf hops in
/-- Two pages of records and one that is still buffered, on a part that comes up locked
and would not take a write as the child finds it. -/
theorem listing_from_power_on_protected :
    let B : Build := { linux := false, rp2040 := true }
    let R := protectedStart
    let ops : List Op := [.ofRecord .gyro gyroSample, .flush, .ofRecord .gyro gyroSample, .flush,
      .ofRecord .gyro gyroSample]
    let timerange : List TimeRange := List.replicate 64 ⟨0, 0, 0, 0, 0⟩
    ∃ s, rp2040CreateSpi (startPart R) otpChip = some (.fin, s) ∧
      let D := rp2040Driver (startPart R)
      let before := session B D s ops
      ∃ s₂, rp2040CreateSpi (startPart R) before.dev = some (.fin, s₂) ∧
      let w := World.mounted B D s₂
      ∃ entries s', listing B D w.inst (UInt8.ofNat Layer.gyro.toNat) timerange 64 dataBlocks
          w.dev = (entries, s') ∧
        s'.flash = before.dev.flash ∧
        (entries.map TimeRange.addr).Sublist dataPages ∧
        ∃ records : TimeRange → List (List UInt8),
          (∀ e ∈ entries, e.recordCount = (records e).length ∧
            (mxfsRead D s' (UInt8.ofNat Layer.gyro.toNat) 2048 e.block e.page).1 =
              some (((records e).flatten.length : Int), (records e).flatten)) ∧
          (entries.flatMap records ++ buffered before.inst .gyro).Perm
            ((acceptedBy B D (World.mounted B D s) ops .gyro).drop
              (reclaimedRecords (LogState.init.run B ops).batches .gyro).length) := by
  intro B R ops timerange
  have hops : ∀ op ∈ ops, op.IsLog := by simp [ops, Op.ofRecord, Op.IsLog]
  exact listing_from_power_on B (R := R) rfl otpChip (fun _ _ _ _ => ChipPage.main_blank) hops
    (Build.not_byBlockPanics rfl) .gyro (show pageCount ≤ (64 : UInt16).toNat by decide)
    (show (64 : UInt16).toNat ≤ timerange.length by decide) (show (2048 : UInt16) ≠ 0 by decide)

end power

end Mxfs
