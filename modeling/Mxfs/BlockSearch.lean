import Mxfs.BlockTimes
import Mxfs.Search

/-!
# Mxfs.BlockSearch

`mxfs_timerange_by_block` beside `mxfs_timerange`, in the builds without
`__LINUX__`.

The search over a block looks at no page unless the block is flagged, and the
flag it tests is the pending-erase mark, which the first flush into a block
clears.  `block_search_iff` says that the two searches agree on a block exactly
if the block is flagged or has no record of the layer, and
`flagged_only_at_start` that no block is flagged but the one the cursor has
just entered.
-/

namespace Mxfs

open Lib

/-! ## what a search reports -/

/-- The search ends with the pages, in this order. -/
def Returned (r : Option (Int × List TimeRange)) (pages : List (Nat × Nat)) : Prop :=
  ∃ after, r = some ((pages.length : Int), after) ∧
    (after.take pages.length).map TimeRange.addr = pages

/-- The array was not large enough. -/
def NeedsMore (r : Option (Int × List TimeRange)) : Prop :=
  ∃ after, r = some (NEED_MORE_BUFFER, after)

/-- With large enough arrays the search over the block reports the pages of the
block that the search over the data area reports, in the same order. -/
def SearchesAgree {σ : Type} (B : Build) (D : Driver σ) (inst : Inst) (dev : σ) (layer : UInt8)
    (block : Nat) : Prop :=
  ∀ (ts ts' : List TimeRange) (n n' : UInt16), n ≠ 0 → n' ≠ 0 → n.toNat ≤ ts.length →
    n'.toNat ≤ ts'.length → ¬ NeedsMore (mxfsTimerange B D inst dev layer ts n).1 →
    ¬ NeedsMore (mxfsTimerangeByBlock B D inst dev layer block ts' n').1 →
    ∃ pages, Returned (mxfsTimerange B D inst dev layer ts n).1 pages ∧
      Returned (mxfsTimerangeByBlock B D inst dev layer block ts' n').1
        (pages.filter fun x => x.1 = block)

theorem Returned.inj {r : Option (Int × List TimeRange)} {ps qs : List (Nat × Nat)}
    (h : Returned r ps) (h' : Returned r qs) : ps = qs := by
  obtain ⟨after, rfl, hps⟩ := h
  obtain ⟨after', heq, hqs⟩ := h'
  simp only [Option.some.injEq, Prod.mk.injEq, Int.natCast_inj] at heq
  obtain ⟨hlen, rfl⟩ := heq
  rw [← hps, ← hqs, hlen]

/-- A search that reports `pages` and needs no more room ends with them. -/
theorem Reports.returned {pages : List (Nat × Nat)} {n : Nat} {before : List TimeRange}
    {r : Option (Int × List TimeRange)} (h : Reports pages n before r) (hmore : ¬ NeedsMore r) :
    Returned r pages := by
  cases r with
  | none => exact h.elim
  | some x =>
      obtain ⟨ret, after⟩ := x
      obtain ⟨hret, htake, _⟩ := h
      by_cases hlen : pages.length ≤ n
      · rw [if_pos hlen] at hret
        rw [List.take_of_length_le hlen] at htake
        exact ⟨after, by rw [hret], htake⟩
      · rw [if_neg hlen] at hret
        exact absurd ⟨after, by rw [hret]⟩ hmore

theorem Reports.not_needsMore {pages : List (Nat × Nat)} {n : Nat} {before : List TimeRange}
    {r : Option (Int × List TimeRange)} (h : Reports pages n before r) (hlen : pages.length ≤ n) :
    ¬ NeedsMore r := by
  rintro ⟨after, rfl⟩
  have hret := h.1
  rw [if_pos hlen] at hret
  exact absurd hret (by unfold NEED_MORE_BUFFER; omega)

section agree

variable {σ : Type} {B : Build} {D : Driver σ} {inst : Inst} {dev : σ} {layer : UInt8}
variable {block : Nat} {P Q : List (Nat × Nat)}

/-- Two searches that report `P` and `Q` agree exactly if `Q` is the block's share
of `P`. -/
theorem searchesAgree_iff_filter (hP : P.length ≤ 65535) (hQ : Q.length ≤ 65535)
    (hwhole : ∀ ts n, n ≠ 0 → n.toNat ≤ ts.length →
      Reports P n.toNat ts (mxfsTimerange B D inst dev layer ts n).1)
    (hblock : ∀ ts n, n ≠ 0 → n.toNat ≤ ts.length →
      Reports Q n.toNat ts (mxfsTimerangeByBlock B D inst dev layer block ts n).1) :
    SearchesAgree B D inst dev layer block ↔ Q = P.filter fun x => x.1 = block := by
  constructor
  · intro h
    have hroom : (0xFFFF : UInt16).toNat ≤
        (List.replicate 65535 (⟨0, 0, 0, 0, 0⟩ : TimeRange)).length := by
      rw [List.length_replicate]; decide
    have hw := hwhole _ 0xFFFF (by decide) hroom
    have hb := hblock _ 0xFFFF (by decide) hroom
    obtain ⟨pages, hpages, hshare⟩ := h _ _ 0xFFFF 0xFFFF (by decide) (by decide) hroom hroom
      (hw.not_needsMore hP) (hb.not_needsMore hQ)
    rw [(hw.returned (hw.not_needsMore hP)).inj hpages]
    exact (hb.returned (hb.not_needsMore hQ)).inj hshare
  · rintro rfl ts ts' n n' hn hn' hroom hroom' hmore hmore'
    exact ⟨P, (hwhole ts n hn hroom).returned hmore, (hblock ts' n' hn' hroom').returned hmore'⟩

end agree

/-! ## the search over a block -/

/-- The pages of the entries. -/
theorem addr_blockEntries (block : Nat) (ts : Nat → PageTimes) (pages : List Nat) :
    (blockEntries block ts pages).map TimeRange.addr =
      (pages.filter fun page => 0 < (ts page).recordCount).map fun page => (block, page) := by
  rw [blockEntries, List.map_map]
  rfl

section block

variable {σ : Type} {B : Build} {D : Driver σ} {I : σ → Prop} {inst : Inst} {layer : UInt8}
variable {block : Nat}

/-- **The search over a block** reports the pages with records. -/
theorem mxfsTimerangeByBlock_reports {ts : Nat → PageTimes} (hB : ¬ B.ByBlockPanics)
    (hblock : IsData block)
    (h : ∀ page < pageCount, ∀ d, I d → ∃ d', I d' ∧
      pageTimes B D inst layer d block page = (some (some (ts page)), d'))
    {dev : σ} (hdev : I dev) {timerange : List TimeRange} {timerangecount : UInt16}
    (hpos : timerangecount ≠ 0) (hroom : timerangecount.toNat ≤ timerange.length) :
    Reports (((List.range pageCount).filter fun page => 0 < (ts page).recordCount).map
        fun page => (block, page)) timerangecount.toNat timerange
      (mxfsTimerangeByBlock B D inst dev layer block timerange timerangecount).1 := by
  rw [mxfsTimerangeByBlock_eq hB hblock h hdev hpos hroom, ← addr_blockEntries]
  refine ⟨by rw [List.length_map], ?_, ?_⟩
  · rw [← List.map_take, List.length_map, List.take_left]
  · rw [← List.map_take, List.length_map, List.drop_left]

/-- A block that is not flagged is not looked at. -/
theorem pageTimes_of_not_flagged (h : inst.blockFlagged block = false) (d : σ) (page : Nat) :
    pageTimes B D inst layer d block page = (some (some PageTimes.init), d) := by
  rw [pageTimes, if_neg (by rw [h]; decide)]

end block

/-! ## the pages of a block -/

/-- The data pages of one block. -/
theorem filter_dataPages {block : Nat} (h : IsData block) (p : Nat × Nat → Bool) :
    (dataPages.filter p).filter (fun x => x.1 = block) =
      ((List.range pageCount).filter fun page => p (block, page)).map
        fun page => (block, page) := by
  obtain ⟨hlow, hhigh⟩ := isData_iff.1 h
  have hsplit : dataBlocks = List.range' 1 (block - 1) ++
      block :: List.range' (block + 1) (1023 - block) := by
    rw [dataBlocks_eq]
    have h1 : List.range' 1 (block - 1) ++ List.range' (1 + (block - 1)) (1024 - block) =
        List.range' 1 (block - 1 + (1024 - block)) := List.range'_append_1
    have h2 : 1024 - block = (1023 - block) + 1 := by omega
    rw [show block - 1 + (1024 - block) = 1023 by omega,
      show 1 + (block - 1) = block by omega, h2, List.range'_succ] at h1
    exact h1.symm
  have hother : ∀ bs : List Nat, block ∉ bs →
      (bs.flatMap fun b => (List.range pageCount).map fun page => (b, page)).filter
        (fun x => x.1 = block) = [] := by
    intro bs hnot
    rw [List.filter_eq_nil_iff]
    intro x hx
    obtain ⟨b, hb, hx⟩ := List.mem_flatMap.1 hx
    obtain ⟨page, _, rfl⟩ := List.mem_map.1 hx
    simpa using fun he : b = block => hnot (he ▸ hb)
  have hown : ((List.range pageCount).map fun page => (block, page)).filter
      (fun x => x.1 = block) = (List.range pageCount).map fun page => (block, page) := by
    rw [List.filter_eq_self]
    intro x hx
    obtain ⟨page, _, rfl⟩ := List.mem_map.1 hx
    simp
  have hblock : dataPages.filter (fun x => x.1 = block) =
      (List.range pageCount).map fun page => (block, page) := by
    rw [dataPages, hsplit, List.flatMap_append, List.flatMap_cons, List.filter_append,
      List.filter_append, hother _ (by simp; omega), hother _ (by simp), hown]
    simp
  rw [List.filter_comm, hblock, List.filter_map]
  rfl

/-! ## the flags of the blocks -/

/-- Only the block the cursor has just entered is marked. -/
def Store.MarkedAtStart (st : Store) : Prop :=
  ∀ b, st.marked b = true → b = st.cursor.block ∧ st.cursor.page = 0

theorem Store.MarkedAtStart.put {st : Store} (h : st.MarkedAtStart) (M : Medium)
    (data : List UInt8) : (st.put M data).MarkedAtStart := by
  have hclean : ∀ b, st.clean.marked b = false := by
    intro b
    by_cases hb : b = st.cursor.block
    · rw [hb, clean_marked]
    · cases hm : st.clean.marked b with
      | false => rfl
      | true =>
          have hold : st.marked b = true := by
            unfold clean at hm
            split at hm
            · simpa [hb] using hm
            · exact hm
          exact absurd (h b hold).1 hb
  intro b hb
  rw [put_cursor]
  by_cases hpage : st.cursor.page + 1 < pageCount
  · rw [put_marked_of_lt M st data hpage, hclean] at hb
    cases hb
  · rw [put_marked_of_last M st data hpage] at hb
    by_cases hnext : b = st.cursor.next.block
    · exact ⟨hnext, (Cursor.next_of_last hpage).2⟩
    · rw [Function.update_of_ne hnext, hclean] at hb
      cases hb

section session

variable {B : Build} (M : Medium) {f : Flash}
variable (hf : ∀ b, IsData b → f.Blank b) {ops : List Op} (hops : ∀ op ∈ ops, op ≠ .remount)
include hf hops

/-- **No block is flagged but the one the cursor has just entered**, from an erased
data area and as long as nothing mounts. -/
theorem flagged_only_at_start {b : Nat}
    (hflag : (pageSession B M f ops).inst.blockFlagged b = true) :
    b = (pageSession B M f ops).inst.mxfsCurrentBlock ∧
      (pageSession B M f ops).inst.mxfsCurrentPage = 0 := by
  have hinit : (Model.init B f).store.MarkedAtStart := by
    intro b hb
    have hmark : (decide (IsData b) && decide (f b 0).HasMagic) = true := hb
    rw [Bool.and_eq_true, decide_eq_true_iff, decide_eq_true_iff] at hmark
    rw [hf b hmark.1 0 (by decide)] at hmark
    exact absurd hmark.2 Page.not_hasMagic_blank
  have hinv : ((Model.init B f).run B M ops).store.MarkedAtStart := by
    refine run_invariant (I := fun m : Model => m.store.MarkedAtStart) ?_ hinit
      (along_of_forall (p := fun op => op ≠ Op.remount) hops _)
    intro m op hm hop
    refine Model.next_store_cases (motive := Store.MarkedAtStart) B M ?_ ?_ ?_ ?_
    · exact fun _ => hm.put M _
    · exact fun _ => hm
    · exact fun hremount => absurd hremount hop
    · exact fun _ _ => hm
  have hshows := (Model.abstracts_run B M f ops).shows
  rw [hshows.marked] at hflag
  rw [hshows.block, hshows.page]
  exact hinv b hflag

end session

/-! ## the two searches -/

section agree

variable {B : Build} {M : Medium} {m : Model} {w : World (Logged Flash)}

/-- Where the table is right, a data page shows some batch, whose layers `mxfs_read`
finds. -/
theorem exists_shows (hm : m.Abstracts B w) (h : m.store.Noted M w.inst.pageFlags)
    {block page : Nat} (hblock : IsData block) (hpage : page < pageCount) :
    ∃ q : Batch, q.pageBytes ≤ 2000 ∧ Shows (w.dev.dev block page).bytes q ∧
      ∀ l : Layer, hasRecord (pageArray M).logged w.dev (UInt8.ofNat l.toNat) block page = true ↔
        q l ≠ [] := by
  have hflash := congrFun (congrFun hm.shows.flash block) page
  cases h block page hblock hpage with
  | inl hblank =>
      rw [← hflash] at hblank
      refine ⟨Batch.empty, Nat.zero_le _, ?_, fun l => ?_⟩
      · rw [hblank]
        exact shows_blank
      · have hno : ¬ (w.dev.dev block page).HasMagic := by
          rw [hblank]; exact Page.not_hasMagic_blank
        simp [hasRecord_of_not_hasMagic M w.dev l block page hno]
  | inr hbatch =>
      obtain ⟨q, hfits, _, himage, _⟩ := hbatch
      rw [← hflash] at himage
      refine ⟨q, hfits, ?_, fun l => hasRecord_image M w.dev l block page hfits himage⟩
      rw [himage]
      exact shows_image hfits M.fill

/-- **The search over a flagged block** reports the pages where `mxfs_read` finds
records; over another block it reports none. -/
theorem byBlock_reports (hB : B.linux = false) (hm : m.Abstracts B w) (h : m.store.Noted M w.inst.pageFlags) (l : Layer)
    {block : Nat} (hblock : IsData block) {ts : List TimeRange} {n : UInt16} (hpos : n ≠ 0)
    (hroom : n.toNat ≤ ts.length) :
    Reports (((List.range pageCount).filter fun page => w.inst.blockFlagged block &&
        hasRecord (pageArray M).logged w.dev (UInt8.ofNat l.toNat) block page).map
          fun page => (block, page)) n.toNat ts
      (mxfsTimerangeByBlock B (pageArray M).logged w.inst w.dev (UInt8.ofNat l.toNat) block ts
        n).1 := by
  have hex : ∀ page, ∃ q : Batch, page < pageCount → q.pageBytes ≤ 2000 ∧
      Shows (w.dev.dev block page).bytes q ∧
        ∀ l : Layer, hasRecord (pageArray M).logged w.dev (UInt8.ofNat l.toNat) block page = true ↔
          q l ≠ [] := by
    intro page
    by_cases hpage : page < pageCount
    · obtain ⟨q, hq⟩ := exists_shows hm h hblock hpage
      exact ⟨q, fun _ => hq⟩
    · exact ⟨Batch.empty, fun hlt => absurd hlt hpage⟩
  choose ps hps using hex
  cases hflag : w.inst.blockFlagged block with
  | false =>
      have hdev : w.dev = w.dev := rfl
      have htimes : ∀ page < pageCount, ∀ d, d = w.dev → ∃ d', d' = w.dev ∧
          pageTimes B (pageArray M).logged w.inst (UInt8.ofNat l.toNat) d block page =
            (some (some PageTimes.init), d') :=
        fun page _ d hd => ⟨d, hd, pageTimes_of_not_flagged hflag d page⟩
      have hreports := mxfsTimerangeByBlock_reports (Build.not_byBlockPanics hB) hblock htimes hdev hpos hroom
      simpa [PageTimes.init] using hreports
  | true =>
      have hshows := (blockShows_pageArray M (fun page hpage => (hps page hpage).1)
        fun page hpage => (hps page hpage).2.1).logged
      have hreports := mxfsTimerangeByBlock_reports (Build.not_byBlockPanics hB) hblock
        (fun _ hpage _ hd => pageTimes_shows hshows hflag l hpage hd) rfl hpos hroom
      have hpages : (List.range pageCount).filter (fun page => true &&
            hasRecord (pageArray M).logged w.dev (UInt8.ofNat l.toNat) block page) =
          (List.range pageCount).filter fun page => 0 < ((ps page).pageTimes l).recordCount := by
        refine List.filter_congr fun page hpage => ?_
        obtain ⟨hfits, _, hrec⟩ := hps page (List.mem_range.1 hpage)
        rw [Bool.true_and, Bool.eq_iff_iff, hrec l, Batch.recordCount_pageTimes hfits,
          decide_eq_true_iff, List.length_pos_iff]
      rw [hpages]
      exact hreports

/-- **The two searches agree** on a block exactly if it is flagged or has no record
of the layer. -/
theorem searchesAgree_iff (hB : B.linux = false) (hm : m.Abstracts B w)
    (h : m.store.Noted M w.inst.pageFlags) (l : Layer) {block : Nat} (hblock : IsData block) :
    SearchesAgree B (pageArray M).logged w.inst w.dev (UInt8.ofNat l.toNat) block ↔
      w.inst.blockFlagged block = true ∨ ∀ page < pageCount,
        hasRecord (pageArray M).logged w.dev (UInt8.ofNat l.toNat) block page = false := by
  have hlen : dataPages.length ≤ 65535 := by
    rw [length_dataPages]
    decide
  have hP := List.length_filter_le
    (fun x => hasRecord (pageArray M).logged w.dev (UInt8.ofNat l.toNat) x.1 x.2) dataPages
  have hQ : (((List.range pageCount).filter fun page => w.inst.blockFlagged block &&
      hasRecord (pageArray M).logged w.dev (UInt8.ofNat l.toNat) block page).map
        fun page => (block, page)).length ≤ 65535 := by
    rw [List.length_map]
    refine Nat.le_trans (List.length_filter_le _ _) ?_
    rw [List.length_range]
    decide
  have hpages : (dataPages.filter fun x =>
      hasRecord (pageArray M).logged w.dev (UInt8.ofNat l.toNat) x.1 x.2) =
      dataPages.filter fun x => decide (w.dev.dev x.1 x.2).HasMagic &&
        (w.inst.pageFlags x.1 x.2 &&& l.pageFlag != 0) :=
    List.filter_congr fun x hx => (listed_iff hm h l hx).symm
  rw [searchesAgree_iff_filter (Nat.le_trans hP hlen) hQ (fun ts n hpos hroom => by
      rw [hpages]
      exact mxfsTimerange_reports (fun x _ => pageListed_pageArray hB M _ _ l x.1 x.2) hpos hroom)
    (fun ts n hpos hroom => byBlock_reports hB hm h l hblock hpos hroom), filter_dataPages hblock]
  cases hflag : w.inst.blockFlagged block with
  | false =>
      simp only [Bool.false_and, List.filter_false, List.map_nil]
      rw [eq_comm, List.map_eq_nil_iff, List.filter_eq_nil_iff]
      simp
  | true => exact iff_of_true (by simp only [Bool.true_and]) (Or.inl rfl)

end agree

/-- **Block search agrees with the search over the data area**, in every state
appends and flushes reach from an erased data area, exactly on the blocks that are
flagged for erase and those without a record of the layer. -/
theorem block_search_iff {B : Build} (hB : B.linux = false) (M : Medium) {f : Flash}
    (hf : ∀ b, IsData b → f.Blank b) {ops : List Op} (hops : ∀ op ∈ ops, op ≠ .remount) (l : Layer)
    {block : Nat} (hblock : IsData block) :
    SearchesAgree B (pageArray M).logged (pageSession B M f ops).inst (pageSession B M f ops).dev
        (UInt8.ofNat l.toNat) block ↔
      (pageSession B M f ops).inst.blockFlagged block = true ∨ ∀ page < pageCount,
        hasRecord (pageArray M).logged (pageSession B M f ops).dev (UInt8.ofNat l.toNat) block
          page = false := by
  obtain ⟨hm, _, hnoted⟩ := noted_session hB M hf hops
  exact searchesAgree_iff hB hm hnoted l hblock

/-- The block of the first flush, which is a temperature record, for the gyro layer. -/
theorem block_search_gyro :
    SearchesAgree { linux := false, rp2040 := false } (pageArray fakeMedium).logged
      (pageSession { linux := false, rp2040 := false } fakeMedium Flash.erased
        [.ofRecord .temperature temperatureSample, .flush]).inst
      (pageSession { linux := false, rp2040 := false } fakeMedium Flash.erased
        [.ofRecord .temperature temperatureSample, .flush]).dev
      (UInt8.ofNat Layer.gyro.toNat) 1 := by
  refine (block_search_iff rfl fakeMedium (fun b _ => Flash.blank_erased b) (by simp [Op.ofRecord])
    .gyro (by decide)).2 (.inr fun page _ => ?_)
  by_cases hzero : page = 0
  · have hrecord := hasRecord_image (l := .gyro) fakeMedium _ 1 0
      (Batch.pageBytes_single_le .temperature temperatureSample)
      (page_append_flush { linux := false, rp2040 := false } fakeMedium .temperature
        temperatureSample)
    rw [hzero, ← Bool.not_eq_true, hrecord, not_not]
    exact Batch.push_ne _ _ (by decide)
  · refine hasRecord_of_not_hasMagic fakeMedium _ .gyro 1 page ?_
    rw [page_append_flush_ne _ _ _ _ fun hself => hzero hself.2]
    exact Page.not_hasMagic_blank

/-- The block of the first flush is not flagged, and the search over it finds
nothing. -/
theorem searches_disagree :
    ¬ SearchesAgree { linux := false, rp2040 := false } (pageArray fakeMedium).logged
        (pageSession { linux := false, rp2040 := false } fakeMedium Flash.erased
          [.ofRecord .temperature temperatureSample, .flush]).inst
        (pageSession { linux := false, rp2040 := false } fakeMedium Flash.erased
          [.ofRecord .temperature temperatureSample, .flush]).dev
        (UInt8.ofNat Layer.temperature.toNat) 1 := by
  have hops : ∀ op ∈ [Op.ofRecord .temperature temperatureSample, .flush], op ≠ .remount := by
    simp [Op.ofRecord]
  obtain ⟨hm, _, hnoted⟩ := noted_session (B := { linux := false, rp2040 := false }) rfl fakeMedium
    (fun b _ => Flash.blank_erased b) hops
  have hstore : ((Model.init { linux := false, rp2040 := false } Flash.erased).run
      { linux := false, rp2040 := false } fakeMedium
      [.ofRecord .temperature temperatureSample, .flush]).store =
        ((Store.start Flash.erased).mount { linux := false, rp2040 := false }).put fakeMedium
          (Batch.single .temperature temperatureSample).image := by
    rw [Model.run_append_flush _ _ rfl]
    rfl
  rw [searchesAgree_iff rfl hm hnoted .temperature (by decide)]
  rintro (hflag | hnone)
  · have hpage := (flagged_only_at_start fakeMedium (fun b _ => Flash.blank_erased b) hops hflag).2
    rw [hm.shows.page, hstore, Store.put_cursor,
      (Cursor.next_of_lt (c := ((Store.start Flash.erased).mount _).cursor) (by decide)).2] at hpage
    cases hpage
  · have hpage := page_append_flush { linux := false, rp2040 := false } fakeMedium .temperature
      temperatureSample
    have hrecord := (hasRecord_image fakeMedium _ .temperature 1 0
      (Batch.pageBytes_single_le .temperature temperatureSample) hpage).2
      (by rw [Batch.single_same]; simp)
    rw [hnone 0 (by decide)] at hrecord
    cases hrecord

end Mxfs
