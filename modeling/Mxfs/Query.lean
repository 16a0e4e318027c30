import Mxfs.RingLog
import Mxfs.Search

/-!
# Mxfs.Query

What a client fetches of a layer: it searches (`mxfs_timerange`), and reads the
pages it is told of (`mxfs_read`), from the cursor on and around.  `fetch_session`
says that this is the layer's log: with what is still buffered, all records taken
in, in order, but those on pages that the ring has reclaimed.
-/

namespace Mxfs

open Lib

/-! ## fetching -/

/-- The page is before the cursor. -/
def Inst.passed (inst : Inst) (x : Nat × Nat) : Bool :=
  decide (x.1 < inst.mxfsCurrentBlock) ||
    (decide (x.1 = inst.mxfsCurrentBlock) && decide (x.2 < inst.mxfsCurrentPage))

/-- The pages from the cursor on, then those before it. -/
def Inst.fromCursor (inst : Inst) (pages : List (Nat × Nat)) : List (Nat × Nat) :=
  pages.filter (fun x => !inst.passed x) ++ pages.filter inst.passed

/-- `mxfs_read` of each page; `none` when one of them is undefined behaviour. -/
def readPages (D : Driver σ) (layer : UInt8) (bufferlen : UInt16) :
    List (Nat × Nat) → σ → Option (List UInt8) × σ
  | [], dev => (some [], dev)
  | x :: pages, dev =>
    let (r, dev) := mxfsRead D dev layer bufferlen x.1 x.2
    let (rest, dev) := readPages D layer bufferlen pages dev
    (r.bind fun r => rest.map fun rest => r.2 ++ rest, dev)

/-- What a client fetches of a layer, and the device afterwards. -/
def fetch (B : Build) (D : Driver σ) (w : World σ) (layer : UInt8) (bufferlen : UInt16)
    (timerange : List TimeRange) (timerangecount : UInt16) : Option (List UInt8) × σ :=
  match mxfsTimerange B D w.inst w.dev layer timerange timerangecount with
  | (none, dev) => (none, dev)
  | (some (ret, timerange), dev) =>
    readPages D layer bufferlen
      (w.inst.fromCursor ((timerange.take ret.toNat).map TimeRange.addr)) dev

/-! ## the pages from the cursor on -/

theorem dataPages_eq : dataPages = (List.range (1023 * 64)).map ringAddr := by
  have hslots : (List.range (1023 * 64)).map ringAddr =
      ((List.range 1023).flatMap fun b => (List.range 64).map fun p => (b, p)).map
        fun x => (x.1 + 1, x.2) := by
    rw [← map_slot_range (by decide), List.map_map]
    rfl
  have hblocks : dataBlocks = (List.range 1023).map (· + 1) := by
    rw [dataBlocks_eq, List.range'_eq_map_range]
    exact List.map_congr_left fun b _ => Nat.add_comm 1 b
  rw [hslots, List.map_flatMap, dataPages, hblocks, List.flatMap_map]
  refine List.flatMap_congr fun b _ => ?_
  rw [List.map_map]
  rfl

/-- The pages before the cursor are the first ones of the scan. -/
theorem passed_ringAddr {inst : Inst} {n j : Nat}
    (h : (inst.mxfsCurrentBlock, inst.mxfsCurrentPage) = ringAddr n) (hj : j < 1023 * 64) :
    inst.passed (ringAddr j) = decide (j < n % (1023 * 64)) := by
  rw [ringAddr_eq] at h
  obtain ⟨hb, hp⟩ := Prod.mk.inj h
  rw [ringAddr_eq, Inst.passed, hb, hp, Bool.eq_iff_iff]
  simp only [Bool.or_eq_true, Bool.and_eq_true, decide_eq_true_eq]
  omega

/-- **From the cursor on and around**, the pages are the slots of the next turn. -/
theorem fromCursor_dataPages {inst : Inst} {n : Nat}
    (h : (inst.mxfsCurrentBlock, inst.mxfsCurrentPage) = ringAddr n) :
    inst.fromCursor dataPages = (List.range (1023 * 64)).map fun j => ringAddr (n + j) := by
  have hpassed : ∀ j ∈ List.range (1023 * 64),
      (inst.passed ∘ ringAddr) j = decide (j < n % (1023 * 64)) :=
    fun j hj => passed_ringAddr h (List.mem_range.1 hj)
  have hbefore : (List.range (1023 * 64)).filter (inst.passed ∘ ringAddr) =
      (List.range (1023 * 64)).filter fun j => decide (j < n % (1023 * 64)) :=
    List.filter_congr hpassed
  have hbehind : (List.range (1023 * 64)).filter ((fun x => !inst.passed x) ∘ ringAddr) =
      (List.range (1023 * 64)).filter fun j => !decide (j < n % (1023 * 64)) :=
    List.filter_congr fun j hj => congrArg (!·) (hpassed j hj)
  have hslots := congrArg (List.map fun x : Nat × Nat => (x.1 + 1, x.2))
    (slots_from (B := 1023) (P := 64) (by decide) n)
  rw [List.map_map, List.map_map] at hslots
  rw [Inst.fromCursor, dataPages_eq, List.filter_map, List.filter_map, hbefore, hbehind,
    ← List.map_append]
  exact hslots

/-! ## queries of the page array -/

section queries

variable (M : Medium) (d : Logged Flash)

theorem mxfsRead_dev (layer : UInt8) (bufferlen : UInt16) (block page : Nat) :
    (mxfsRead (pageArray M).logged d layer bufferlen block page).2 = d := by
  unfold mxfsRead
  split
  · rfl
  · rfl

theorem searchLoop_dev (B : Build) (inst : Inst) (layer : UInt8) (count : Nat)
    (pages : List (Nat × Nat)) (cnt : Nat) (ranges : List TimeRange) :
    (searchLoop B (pageArray M).logged inst layer count pages cnt ranges d).2 = d := by
  induction pages generalizing cnt ranges with
  | nil => rfl
  | cons x pages ih =>
      obtain ⟨block, page⟩ := x
      have hdev : (pageListed B (pageArray M).logged inst layer d block page).2 = d := by
        unfold pageListed
        split
        · rfl
        · dsimp only
          split
          · rfl
          · split <;> rfl
      simp only [searchLoop, hdev]
      cases (pageListed B (pageArray M).logged inst layer d block page).1 with
      | none => rfl
      | some listed =>
          cases listed with
          | false => exact ih cnt ranges
          | true =>
              dsimp only
              split
              · exact ih (cnt + 1) _
              · rfl

theorem mxfsTimerange_dev (B : Build) (inst : Inst) (layer : UInt8) (ranges : List TimeRange)
    (timerangecount : UInt16) :
    (mxfsTimerange B (pageArray M).logged inst d layer ranges timerangecount).2 = d := by
  unfold mxfsTimerange
  split
  · rfl
  · exact searchLoop_dev M d B inst layer _ dataPages 0 ranges

/-- Reading pages that can all be read. -/
theorem readPages_eq {layer : UInt8} {bufferlen : UInt16} {content : Nat × Nat → List UInt8}
    {pages : List (Nat × Nat)} (h : ∀ x ∈ pages, ∃ ret : Int,
      (mxfsRead (pageArray M).logged d layer bufferlen x.1 x.2).1 = some (ret, content x)) :
    readPages (pageArray M).logged layer bufferlen pages d = (some (pages.flatMap content), d) := by
  induction pages with
  | nil => rfl
  | cons x pages ih =>
      obtain ⟨ret, hx⟩ := h x List.mem_cons_self
      have hrest := ih fun y hy => h y (List.mem_cons_of_mem x hy)
      simp only [readPages, hx, mxfsRead_dev, hrest, Option.bind_some, Option.map_some,
        List.flatMap_cons]

end queries

/-! ## the records of the pages -/

/-- The records of a layer on a page, after the batches `bs` were put away. -/
def heldRecords (bs : List Batch) (l : Layer) (x : Nat × Nat) : List UInt8 :=
  match heldBatch bs x.1 x.2 with
  | some q => (q.payloads l).flatten
  | none => []

/-- Only the pages with something on them count. -/
theorem flatMap_filter {xs : List α} {p : α → Bool} {g : α → List β}
    (h : ∀ x ∈ xs, p x = false → g x = []) : (xs.filter p).flatMap g = xs.flatMap g := by
  induction xs with
  | nil => rfl
  | cons x xs ih =>
      have hrest := ih fun y hy => h y (List.mem_cons_of_mem x hy)
      cases hx : p x with
      | true => rw [List.filter_cons_of_pos hx, List.flatMap_cons, List.flatMap_cons, hrest]
      | false =>
          rw [List.filter_cons_of_neg (by rw [hx]; decide), List.flatMap_cons,
            h x List.mem_cons_self hx, List.nil_append, hrest]

theorem filterMap_flatMap (xs : List α) (f : α → Option β) (g : β → List γ) :
    (xs.filterMap f).flatMap g = xs.flatMap fun x => (f x).elim [] g := by
  induction xs with
  | nil => rfl
  | cons x xs ih =>
      cases hx : f x with
      | none => rw [List.filterMap_cons_none hx, ih, List.flatMap_cons, hx]; rfl
      | some y => rw [List.filterMap_cons_some hx, List.flatMap_cons, List.flatMap_cons, ih, hx]; rfl

/-- **From the next page on and around**, what is read off the batches on the pages is
what the kept batches give, in order. -/
theorem around_held (bs : List Batch) (g : Batch → List γ) :
    ((List.range (1023 * 64)).map fun j => ringAddr (bs.length + j)).flatMap
        (fun x => (heldBatch bs x.1 x.2).elim [] g) =
      (bs.drop (oldestKept bs)).flatMap g := by
  have hheld : ∀ j, heldBatch bs (ringAddr (bs.length + j)).1 (ringAddr (bs.length + j)).2 =
      ringStore 1023 64 bs (slot 1023 64 (bs.length + j)).1 (slot 1023 64 (bs.length + j)).2 := by
    intro j
    unfold heldBatch ringAddr
    rw [Nat.add_sub_cancel]
  have haround := ringStore_around (B := 1023) (P := 64) (by decide) (by decide) bs
  rw [List.flatMap_map, oldestKept, ← haround, filterMap_flatMap]
  simp only [hheld]

/-- The records of the pages, from the cursor on. -/
theorem fromCursor_records {inst : Inst} {bs : List Batch}
    (h : (inst.mxfsCurrentBlock, inst.mxfsCurrentPage) = ringAddr bs.length) (l : Layer) :
    (inst.fromCursor dataPages).flatMap (heldRecords bs l) =
      ((bs.drop (oldestKept bs)).flatMap fun q => q.payloads l).flatten := by
  have hheld : heldRecords bs l =
      fun x => (heldBatch bs x.1 x.2).elim [] fun q => (q.payloads l).flatten := by
    funext x
    unfold heldRecords
    cases heldBatch bs x.1 x.2 <;> rfl
  rw [fromCursor_dataPages h, hheld, around_held, List.flatMap_def, List.flatMap_def,
    List.flatten_flatten, List.map_map]
  rfl

/-- How many batches the ring has reclaimed: none before it comes around, and
never one of the last 65409. -/
theorem oldestKept_eq_zero_or (bs : List Batch) :
    oldestKept bs = 0 ∨ oldestKept bs + 65409 ≤ bs.length := by
  unfold oldestKept kept
  split
  · omega
  · split <;> omega

/-! ## the theorem -/

/-- The records of a layer on the pages the ring has reclaimed. -/
def reclaimedRecords (bs : List Batch) (l : Layer) : List (List UInt8) :=
  (bs.take (oldestKept bs)).flatMap fun q => q.payloads l

section session

variable {B : Build} (hB : B.linux = false) (M : Medium) {f : Flash}
variable (hf : ∀ b, IsData b → f.Blank b) {ops : List Op} (hops : ∀ op ∈ ops, op.IsLog) (l : Layer)

include hf hops

/-- **What the kept batches hold**, with what is buffered, is the log but for what the
ring has reclaimed. -/
theorem kept_records :
    let bs := (LogState.init.run B ops).batches
    ((bs.drop (oldestKept bs)).flatMap fun q => q.payloads l) ++
        buffered (pageSession B M f ops).inst l =
      (acceptedBy B (pageArray M).logged (pageSession B M f []) ops l).drop
        (reclaimedRecords bs l).length := by
  intro bs
  obtain ⟨hm, _⟩ := ring_session B M hf hops
  have hlog : ((Model.init B f).run B M ops).log = LogState.init.run B ops :=
    Model.run_log B M (Model.init B f) ops
  have hbuffered : buffered (pageSession B M f ops).inst l =
      (LogState.init.run B ops).pending.payloads l := by
    rw [← hlog]
    exact (hm.buffers.layers l).buffered
  have hsplit : bs.flatMap (fun q => q.payloads l) = reclaimedRecords bs l ++
      (bs.drop (oldestKept bs)).flatMap fun q => q.payloads l := by
    rw [reclaimedRecords, ← List.flatMap_append, List.take_append_drop]
  rw [← history_session B M hf hops l, hlog, LogState.history, hsplit, List.append_assoc,
    List.drop_left, hbuffered]

/-- Reading a data page of a session. -/
theorem read_heldRecords {bufferlen : UInt16} (hbuf : bufferlen ≠ 0) {x : Nat × Nat}
    (hx : x ∈ dataPages) :
    (mxfsRead (pageArray M).logged (pageSession B M f ops).dev (UInt8.ofNat l.toNat) bufferlen
        x.1 x.2).1 =
      some (((heldRecords (LogState.init.run B ops).batches l x).length : Int),
        heldRecords (LogState.init.run B ops).batches l x) := by
  obtain ⟨hb, hp⟩ := mem_dataPages.1 hx
  obtain ⟨_, hr⟩ := ring_session B M hf hops
  have hlog := Model.run_log B M (Model.init B f) ops
  have hpage := page_heldBatch B M hf hops hb hp
  unfold heldRecords
  cases hq : heldBatch (LogState.init.run B ops).batches x.1 x.2 with
  | none =>
      rw [hq] at hpage
      exact read_blank M _ l _ _ hbuf hpage
  | some q =>
      rw [hq] at hpage
      have hfits := hr.fits q (by
        rw [hlog]
        exact mem_of_ringStore (by decide) (by decide) hq)
      exact read_image M _ l _ _ hbuf hfits hpage

/-- A page without records of the layer has none to give. -/
theorem heldRecords_eq_nil {x : Nat × Nat} (hx : x ∈ dataPages)
    (hno : hasRecord (pageArray M).logged (pageSession B M f ops).dev (UInt8.ofNat l.toNat) x.1
      x.2 = false) : heldRecords (LogState.init.run B ops).batches l x = [] := by
  have hread := read_heldRecords (B := B) M hf hops l (show (0xFFFF : UInt16) ≠ 0 by decide) hx
  rw [hasRecord, hread] at hno
  have hlen : ¬ (0 : Int) <
      ((heldRecords (LogState.init.run B ops).batches l x).length : Nat) := by
    simpa using hno
  exact List.eq_nil_of_length_eq_zero (by omega)

/-- For the records from the cursor on it is enough to read the pages that have some. -/
theorem fromCursor_pagesWith (inst : Inst) :
    (inst.fromCursor (pagesWith (pageArray M).logged (pageSession B M f ops).dev
        (UInt8.ofNat l.toNat))).flatMap (heldRecords (LogState.init.run B ops).batches l) =
      (inst.fromCursor dataPages).flatMap (heldRecords (LogState.init.run B ops).batches l) := by
  have hpart : ∀ p : Nat × Nat → Bool,
      ((pagesWith (pageArray M).logged (pageSession B M f ops).dev
          (UInt8.ofNat l.toNat)).filter p).flatMap
          (heldRecords (LogState.init.run B ops).batches l) =
        (dataPages.filter p).flatMap (heldRecords (LogState.init.run B ops).batches l) := by
    intro p
    rw [pagesWith, List.filter_comm]
    exact flatMap_filter fun x hx => heldRecords_eq_nil M hf hops l (List.mem_filter.1 hx).1
  rw [Inst.fromCursor, Inst.fromCursor, List.flatMap_append, List.flatMap_append, hpart, hpart]

include hB

/-- With room for all pages, the search reports those with records. -/
theorem search_pagesWith {timerange : List TimeRange} {timerangecount : UInt16}
    (hcount : dataPages.length ≤ timerangecount.toNat)
    (hroom : timerangecount.toNat ≤ timerange.length) :
    let w := pageSession B M f ops
    let pages := pagesWith (pageArray M).logged w.dev (UInt8.ofNat l.toNat)
    ∃ after, mxfsTimerange B (pageArray M).logged w.inst w.dev (UInt8.ofNat l.toNat) timerange
        timerangecount = (some ((pages.length : Int), after), w.dev) ∧
      (after.take pages.length).map TimeRange.addr = pages := by
  intro w pages
  obtain ⟨hm, _, hnoted⟩ := noted_session hB M hf fun op hop he => by
    have hlog := hops op hop
    rw [he] at hlog
    exact hlog
  have hpos : timerangecount ≠ 0 := by
    intro he
    rw [length_dataPages, he] at hcount
    exact absurd hcount (by decide)
  have hreports := mxfsTimerange_reports
    (fun x _ => pageListed_pageArray hB M w.inst w.dev l x.1 x.2) hpos hroom
  have hlisted : dataPages.filter (fun x => decide (w.dev.dev x.1 x.2).HasMagic &&
      (w.inst.pageFlags x.1 x.2 &&& l.pageFlag != 0)) = pages :=
    List.filter_congr fun x hx => listed_iff hm hnoted l hx
  have hle : pages.length ≤ timerangecount.toNat :=
    Nat.le_trans (List.length_filter_le _ _) hcount
  have hdev := mxfsTimerange_dev M w.dev B w.inst (UInt8.ofNat l.toNat) timerange timerangecount
  rw [hlisted] at hreports
  generalize mxfsTimerange B (pageArray M).logged w.inst w.dev (UInt8.ofNat l.toNat) timerange
    timerangecount = r at hreports hdev
  obtain ⟨r, dev⟩ := r
  obtain rfl : dev = w.dev := hdev
  cases r with
  | none => cases hreports
  | some r =>
      obtain ⟨ret, after⟩ := r
      obtain ⟨hret, haddr, _⟩ := hreports
      rw [if_pos hle] at hret
      rw [List.take_of_length_le hle] at haddr
      exact ⟨after, by rw [hret], haddr⟩

/-- **What a client fetches of a layer is its log**: after any appends and flushes
on an erased data area, with what is still buffered, all records taken in, in
order, but those on the pages that the ring has reclaimed. -/
theorem fetch_session {bufferlen : UInt16} (hbuf : bufferlen ≠ 0) {timerange : List TimeRange}
    {timerangecount : UInt16} (hcount : dataPages.length ≤ timerangecount.toNat)
    (hroom : timerangecount.toNat ≤ timerange.length) :
    let w := pageSession B M f ops
    let bs := (LogState.init.run B ops).batches
    ∃ out, fetch B (pageArray M).logged w (UInt8.ofNat l.toNat) bufferlen timerange
        timerangecount = (some out, w.dev) ∧
      out ++ (buffered w.inst l).flatten =
        ((acceptedBy B (pageArray M).logged (pageSession B M f []) ops l).drop
          (reclaimedRecords bs l).length).flatten ∧
      (oldestKept bs = 0 ∨ oldestKept bs + 65409 ≤
        flushCount B (pageArray M).logged (pageSession B M f []) ops) := by
  intro w bs
  obtain ⟨hm, hr⟩ := ring_session B M hf hops
  have hlog : ((Model.init B f).run B M ops).log = LogState.init.run B ops :=
    Model.run_log B M (Model.init B f) ops
  obtain ⟨after, hsearch, haddr⟩ := search_pagesWith hB M hf hops l hcount hroom
  refine ⟨(w.inst.fromCursor (pagesWith (pageArray M).logged w.dev
    (UInt8.ofNat l.toNat))).flatMap (heldRecords bs l), ?_, ?_, ?_⟩
  · rw [fetch, hsearch]
    dsimp only
    rw [Int.toNat_natCast, haddr]
    refine readPages_eq M w.dev fun x hx => ⟨_, read_heldRecords M hf hops l hbuf ?_⟩
    have hin : x ∈ pagesWith (pageArray M).logged w.dev (UInt8.ofNat l.toNat) := by
      rcases List.mem_append.1 hx with h | h <;> exact (List.mem_filter.1 h).1
    exact (List.mem_filter.1 hin).1
  · have hcursor : (w.inst.mxfsCurrentBlock, w.inst.mxfsCurrentPage) = ringAddr bs.length := by
      rw [hm.shows.block, hm.shows.page, hr.ring.cursor, hlog]
    rw [fromCursor_pagesWith M hf hops l, fromCursor_records hcursor, ← List.flatten_append,
      ← kept_records M hf hops l]
  · rw [← length_batches_session B M hf hops, hlog]
    exact oldestKept_eq_zero_or bs

end session

end Mxfs
