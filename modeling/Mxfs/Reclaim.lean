import Mxfs.Dates
import Mxfs.RingLog

/-!
# Mxfs.Reclaim

The first erase after a mount of a full device.  Every block is marked, so it
is the erase of the block the mount goes to: the one with the latest time, or
the first of all under `__LINUX__`.

* `Store.ErasesFirst` — after the mount of a marked block nothing happens to
  the device before that block is erased;
* `Store.Ring.last_latest` — the block written last has the latest time;
* `reclaims_oldest_iff` — when the block erased is the oldest one.
-/

namespace Mxfs

open Lib

/-! ## the first erase -/

/-- The first erase among the calls: its block and the device it met. -/
def firstErase : List (Call σ) → Option (Nat × σ)
  | [] => none
  | c :: calls =>
    match c.request with
    | .erase b => some (b, c.before)
    | .write _ _ _ => firstErase calls

namespace Store

/-- Nothing happened to the store `st₀`, or its current block was erased first. -/
def ErasesFirst (st₀ st : Store) : Prop :=
  st = st₀ ∨ st₀.calls ++ [⟨.erase st₀.cursor.block, st₀.flash, OK⟩] <+: st.calls

theorem calls_prefix_put (M : Medium) (st : Store) (data : List UInt8) :
    st.calls <+: (st.put M data).calls := by
  have hclean : st.calls <+: st.clean.calls := by
    cases hm : st.marked st.cursor.block with
    | false => simp [clean_of_not_marked hm]
    | true => rw [(clean_of_marked hm).2]; exact List.prefix_append _ _
  rw [put_calls]
  exact hclean.trans (List.prefix_append _ _)

theorem ErasesFirst.put {st₀ st : Store} (h : ErasesFirst st₀ st)
    (hm : st₀.marked st₀.cursor.block = true) (M : Medium) (data : List UInt8) :
    ErasesFirst st₀ (st.put M data) := by
  refine Or.inr ?_
  rcases h with rfl | h
  · rw [put_calls, (clean_of_marked hm).2]
    exact List.prefix_append _ _
  · exact h.trans (calls_prefix_put M st data)

theorem ErasesFirst.mount {B : Build} {st₀ st : Store} (h : ErasesFirst (st₀.mount B) st) :
    ErasesFirst (st₀.mount B) (st.mount B) := by
  rcases h with rfl | h
  · exact Or.inl (mount_mount B st₀)
  · exact Or.inr h

/-- The first erase since `st₀`. -/
theorem ErasesFirst.firstErase {st₀ st : Store} (h : ErasesFirst st₀ st)
    (he : firstErase (st.calls.drop st₀.calls.length) = some e) :
    e = (st₀.cursor.block, st₀.flash) := by
  rcases h with rfl | h
  · rw [List.drop_length] at he
    cases he
  · obtain ⟨rest, hrest⟩ := h
    rw [← hrest, List.append_assoc, List.drop_left] at he
    exact (Option.some.inj he).symm

end Store

/-- Calls without an erase after a mount. -/
theorem erasesFirst_run (B : Build) (M : Medium) {m : Model} {st : Store}
    (hst : m.store = st.mount B) (hm : m.store.marked m.store.cursor.block = true) {ops : List Op}
    (hops : ∀ op ∈ ops, ∀ b, op ≠ .erase b) :
    Store.ErasesFirst m.store (m.run B M ops).store := by
  rw [hst] at hm ⊢
  refine @run_invariant _ _ (Model.next B M) (fun _ op => ∀ b, op ≠ .erase b)
    (fun m => Store.ErasesFirst (st.mount B) m.store) _ _ ?_ (Or.inl hst) (along_of_forall hops _)
  intro m op h hop
  refine Model.next_store_cases (motive := Store.ErasesFirst (st.mount B)) B M ?_ ?_ ?_ ?_
  · exact fun _ => h.put hm M _
  · exact fun _ => h
  · exact fun _ => h.mount
  · exact fun b herase => absurd herase (hop b)

/-! ## full devices -/

/-- Every data block holds pages. -/
def FullLog (f : Flash) : Prop := ∀ b, IsData b → ∃ p < pageCount, f b p ≠ Page.blank

namespace Store

/-- The scan of blocks that all have their magic finds a latest one. -/
theorem pickBlock_latest {f : Flash} {bs : List Nat} (h : ∀ b ∈ bs, (f b 0).HasMagic)
    {t c : Nat} (ht : t ≤ (f c 0).time) :
    t ≤ (f (pickBlock f bs t c) 0).time ∧
      ∀ b ∈ bs, (f b 0).time ≤ (f (pickBlock f bs t c) 0).time := by
  induction bs generalizing t c with
  | nil => exact ⟨ht, by simp⟩
  | cons b bs ih =>
      have hbs : ∀ a ∈ bs, (f a 0).HasMagic := fun a ha => h a (List.mem_cons_of_mem b ha)
      rw [pickBlock, if_pos (h b List.mem_cons_self)]
      by_cases hlt : t < (f b 0).time
      · rw [if_pos hlt]
        obtain ⟨hstart, hrest⟩ := ih hbs (Nat.le_refl (f b 0).time)
        exact ⟨by omega, List.forall_mem_cons.2 ⟨hstart, hrest⟩⟩
      · rw [if_neg hlt]
        obtain ⟨hstart, hrest⟩ := ih hbs ht
        exact ⟨hstart, List.forall_mem_cons.2 ⟨by omega, hrest⟩⟩

/-- **A mount of a full device**, outside `__LINUX__`, goes to a block with the
latest time. -/
theorem mountBlock_latest {B : Build} (hB : B.linux = false) {f : Flash}
    (h : ∀ b, IsData b → (f b 0).HasMagic) (hb : IsData b) :
    (f b 0).time ≤ (f (mountBlock B f) 0).time := by
  rw [mountBlock, if_neg (by rw [hB]; decide)]
  exact (pickBlock_latest (fun b hb => h b (mem_dataBlocks.1 hb)) (Nat.zero_le _)).2 b
    (mem_dataBlocks.2 hb)

theorem mountBlock_linux {B : Build} (hB : B.linux = true) (f : Flash) : mountBlock B f = 1 := by
  rw [mountBlock, if_pos hB]; rfl

/-! ### the block written last -/

/-- A first page with magic is that of a batch. -/
theorem Ring.front_batch {M : Medium} {st : Store} {bs : List Batch} (h : st.Ring M bs)
    (hb : IsData b) (hm : (st.flash b 0).HasMagic) :
    ∃ i q, bs[i]? = some q ∧ i % 64 = 0 ∧ st.flash b 0 = Page.image q.image M.fill := by
  rw [isData_iff] at hb
  obtain ⟨c, rfl⟩ : ∃ c, b = c + 1 := ⟨b - 1, by omega⟩
  have hpage := h.flash c 0 (by omega) (by decide)
  cases hq : ringStore 1023 64 bs c 0 with
  | none =>
      rw [hpage, hq] at hm
      exact absurd hm Page.not_hasMagic_blank
  | some q =>
      obtain ⟨i, hi, _, hslot⟩ := (ringStore_eq_some (by decide) (by decide) bs c 0 q).1 hq
      rw [hq] at hpage
      exact ⟨i, q, hi, (Prod.mk.inj hslot).2, hpage⟩

/-- **The block written last** has the latest time. -/
theorem Ring.last_latest {M : Medium} {st : Store} {a : LogState} (h : st.Ring M a.batches)
    (hd : a.Dated ts) (hts : ∀ t ∈ ts, t / 1000 < 4294967296)
    (hfits : ∀ q ∈ a.batches, q.pageBytes ≤ 2000) {x : Nat × Nat × List UInt8}
    (hx : (Mxfs.writes st.calls).getLast? = some x) (hb : IsData b) (hm : (st.flash b 0).HasMagic) :
    (st.flash b 0).time ≤ (st.flash x.1 0).time := by
  obtain ⟨i, q, hi, hmod, hq⟩ := h.front_batch hb hm
  have hil : i < a.batches.length := (List.getElem?_eq_some_iff.1 hi).1
  -- the first flush to the block of the last one
  have hj : 64 * ((a.batches.length - 1) / 64) < a.batches.length := by omega
  obtain ⟨r, hr⟩ : ∃ r, a.batches[64 * ((a.batches.length - 1) / 64)]? = some r :=
    ⟨_, List.getElem?_eq_getElem hj⟩
  have hlive : Live 1023 64 a.batches.length (64 * ((a.batches.length - 1) / 64)) :=
    ⟨hj, by omega⟩
  have hlast : x.1 = (ringAddr (64 * ((a.batches.length - 1) / 64))).1 := by
    rw [h.writes, List.getLast?_map, List.getLast?_eq_getElem?, List.length_zipIdx,
      List.getElem?_zipIdx, Option.map_map, Option.map_eq_some_iff] at hx
    obtain ⟨s, _, rfl⟩ := hx
    simp only [Function.comp_apply, ringWrite, ringAddr_eq]
    omega
  have hpage := page_of_live h.flash hr hlive
  have hzero : (ringAddr (64 * ((a.batches.length - 1) / 64))).2 = 0 := by
    rw [ringAddr_eq]; omega
  rw [← hlast, hzero] at hpage
  rw [hq, hpage]
  exact hd.time_le hts hfits hi hr (by omega) M.fill

end Store

/-! ## after a remount -/

/-- The first erase after the calls `ops`, a remount and the calls `ops'`: its
block and the pages it met. -/
def eraseAfterRemount (B : Build) (M : Medium) (f : Flash) (ops ops' : List Op) :
    Option (Nat × Flash) :=
  firstErase ((pageSession B M f (ops ++ .remount :: ops')).dev.calls.drop
    (pageSession B M f ops).dev.calls.length)

/-- The erase `e` hits no block with a later first page than another, nor the
block written last unless all first pages have one time. -/
structure ReclaimsOldest (written : List (Nat × Nat × List UInt8)) (e : Nat × Flash) : Prop where
  oldest : ∀ b, IsData b → (e.2 e.1 0).time ≤ (e.2 b 0).time
  newest : (∃ b c, IsData b ∧ IsData c ∧ (e.2 b 0).time ≠ (e.2 c 0).time) →
    ∀ x, written.getLast? = some x → e.1 ≠ x.1

/-- The first pages all have one time; under `__LINUX__`, that of block 1 is
the earliest. -/
def MountsOldest (B : Build) (f : Flash) : Prop :=
  if B.linux then ∀ b, IsData b → (f 1 0).time ≤ (f b 0).time
  else ∀ b c, IsData b → IsData c → (f b 0).time = (f c 0).time

/-- The block a mount goes to is an oldest one exactly if it is so for all blocks. -/
theorem reclaims_mountBlock_iff (B : Build) {f : Flash} (h : ∀ b, IsData b → (f b 0).HasMagic)
    {written : List (Nat × Nat × List UInt8)} (hlast : ∀ x, written.getLast? = some x →
      ∀ b, IsData b → (f b 0).time ≤ (f x.1 0).time) :
    ReclaimsOldest written (Store.mountBlock B f, f) ↔ MountsOldest B f := by
  cases hB : B.linux with
  | true =>
      rw [Store.mountBlock_linux hB, MountsOldest, if_pos hB]
      constructor
      · intro hr
        exact hr.oldest
      · intro hold
        refine ⟨hold, fun hex x hx heq => ?_⟩
        obtain ⟨b, c, hb, hc, hne⟩ := hex
        -- block 1 would have the earliest and the latest time
        have hlate := hlast x hx
        have hone : x.1 = 1 := heq.symm
        rw [hone] at hlate
        dsimp only at hne
        have h1 := hold b hb
        have h2 := hlate b hb
        have h3 := hold c hc
        have h4 := hlate c hc
        exact hne (by omega)
  | false =>
      have hlatest := fun b hb => Store.mountBlock_latest hB h (b := b) hb
      rw [MountsOldest, if_neg (by rw [hB]; decide)]
      constructor
      · intro hr b c hb hc
        have h1 := hr.oldest b hb
        have h2 := hlatest b hb
        have h3 := hr.oldest c hc
        have h4 := hlatest c hc
        dsimp only at h1 h3
        omega
      · intro hall
        refine ⟨fun b hb => Nat.le_of_eq (hall _ b (Store.isData_mountBlock B f) hb), ?_⟩
        intro hex
        obtain ⟨b, c, hb, hc, hne⟩ := hex
        exact absurd (hall b c hb hc) hne

section session

variable (B : Build) (M : Medium) {f : Flash} {ops : List Op}

/-- On a full device every block has its magic. -/
theorem hasMagic_of_full (hf : ∀ b, IsData b → f.Blank b) (hops : ∀ op ∈ ops, op.IsLog)
    (hfull : FullLog (pageSession B M f ops).dev.dev) :
    ∀ b, IsData b → ((pageSession B M f ops).dev.dev b 0).HasMagic := by
  obtain ⟨hm, hs⟩ := safe_session B M (fun b hb => Or.inr (hf b hb)) (not_erase_of_isLog hops)
  intro b hb
  rw [hm.shows.flash] at hfull ⊢
  exact hs.detectable b hb (hfull b hb)

/-- The store of the model after a remount, and after the calls that follow it. -/
theorem run_remount (m : Model) (ops' : List Op) :
    m.run B M (.remount :: ops') = (m.next B M .remount).run B M ops' := rfl

/-- A remount of a full device marks the block it goes to. -/
theorem marked_remount {st : Store} (h : ∀ b, IsData b → (st.flash b 0).HasMagic) :
    (st.mount B).marked (st.mount B).cursor.block = true := by
  have hdata := Store.isData_mountBlock B st.flash
  show (decide (IsData (Store.mountBlock B st.flash)) &&
    decide (st.flash (Store.mountBlock B st.flash) 0).HasMagic) = true
  rw [decide_eq_true hdata, decide_eq_true (h _ hdata)]; rfl

/-- **The first erase after a remount** of a full device is that of the block
the mount goes to. -/
theorem eraseAfterRemount_eq (hf : ∀ b, IsData b → f.Blank b) (hops : ∀ op ∈ ops, op.IsLog)
    (hfull : FullLog (pageSession B M f ops).dev.dev) {ops' : List Op}
    (hops' : ∀ op ∈ ops', ∀ b, op ≠ .erase b) {e : Nat × Flash}
    (he : eraseAfterRemount B M f ops ops' = some e) :
    e = (Store.mountBlock B (pageSession B M f ops).dev.dev, (pageSession B M f ops).dev.dev) := by
  have hmagic := hasMagic_of_full B M hf hops hfull
  have hm := Model.abstracts_run B M f ops
  have hm' := Model.abstracts_run B M f (ops ++ .remount :: ops')
  rw [eraseAfterRemount, hm.shows.calls, hm'.shows.calls, Model.run_append, run_remount] at he
  rw [hm.shows.flash] at hmagic ⊢
  generalize (Model.init B f).run B M ops = m at he hmagic
  exact (erasesFirst_run B M (m := m.next B M .remount) rfl (marked_remount B hmagic)
    hops').firstErase he

/-- A record appended and flushed after the remount does erase. -/
theorem eraseAfterRemount_append_flush (hf : ∀ b, IsData b → f.Blank b)
    (hops : ∀ op ∈ ops, op.IsLog) (hfull : FullLog (pageSession B M f ops).dev.dev) (l : Layer)
    (r : Record l) :
    eraseAfterRemount B M f ops [.ofRecord l r, .flush] =
      some (Store.mountBlock B (pageSession B M f ops).dev.dev,
        (pageSession B M f ops).dev.dev) := by
  have hmagic := hasMagic_of_full B M hf hops hfull
  have hm := Model.abstracts_run B M f ops
  have hm' := Model.abstracts_run B M f (ops ++ .remount :: [.ofRecord l r, .flush])
  rw [eraseAfterRemount, hm.shows.calls, hm'.shows.calls, Model.run_append, run_remount]
  rw [hm.shows.flash] at hmagic ⊢
  generalize (Model.init B f).run B M ops = m at hmagic
  have hmarked := marked_remount B hmagic
  rw [Model.run_append_flush B M rfl]
  show firstErase (((m.store.mount B).put M (Batch.single l r).image).calls.drop
    m.store.calls.length) = _
  rw [Store.put_calls, (Store.clean_of_marked hmarked).2]
  have hcalls : (m.store.mount B).calls = m.store.calls := rfl
  rw [hcalls, List.append_assoc, List.drop_left]
  rfl

end session

/-! ## filling the device -/

/-- A temperature record of second `i + 1`. -/
def sampleAt (i : Nat) : Record .temperature := ⟨UInt64.ofNat ((i + 1) * 1000), [0, 0], by decide⟩

/-- One record a second, each flushed to a page of its own. -/
def fillDevice (n : Nat) : List Op :=
  (List.range n).flatMap fun i => [.ofRecord .temperature (sampleAt i), .flush]

theorem sampleAt_time (h : i < 65536) : (sampleAt i).time.toNat = (i + 1) * 1000 := by
  rw [sampleAt, UInt64.toNat_ofNat']
  omega

section fill

variable {n : Nat} (B : Build) (M : Medium)

theorem isLog_fill : ∀ op ∈ fillDevice n, op.IsLog := by
  intro op hop
  simp only [fillDevice, List.mem_flatMap, List.mem_cons, List.not_mem_nil, or_false] at hop
  obtain ⟨i, _, rfl | rfl⟩ := hop <;> trivial

theorem times_fill : (fillDevice n).filterMap Op.time? =
    (List.range n).map fun i => (sampleAt i).time.toNat := by
  rw [fillDevice, List.filterMap_flatMap, List.map_eq_flatMap]
  rfl

theorem timed_fill (h : n ≤ 65536) : Timed (fillDevice n) := by
  constructor
  · rw [times_fill, List.pairwise_map]
    refine List.pairwise_lt_range.imp_of_mem fun hi hj hij => ?_
    rw [List.mem_range] at hi hj
    rw [sampleAt_time (by omega), sampleAt_time (by omega)]
    omega
  all_goals
    rw [times_fill, List.forall_mem_map]
    intro i hi
    rw [List.mem_range] at hi
    rw [sampleAt_time (by omega)]
    omega

theorem run_fill (f : Flash) : ((Model.init B f).run B M (fillDevice n)).log =
    ⟨Batch.empty, (List.range n).map fun i => Batch.single .temperature (sampleAt i)⟩ := by
  induction n with
  | zero => rfl
  | succ n ih =>
      have hsucc : fillDevice (n + 1) =
          fillDevice n ++ [.ofRecord .temperature (sampleAt n), .flush] := by
        rw [fillDevice, List.range_succ, List.flatMap_append, List.flatMap_singleton]; rfl
      have hempty := congrArg LogState.pending ih
      rw [hsucc, Model.run_append, Model.run_append_flush B M hempty, ih, List.range_succ,
        List.map_append]
      rfl

/-- The first page of a block once the device is full. -/
theorem fill_front (hlow : 65408 < n) (hhigh : n ≤ 65472) (hc : c < 1023) :
    (pageSession B M Flash.erased (fillDevice n)).dev.dev (c + 1) 0 =
      Page.image (Batch.single .temperature (sampleAt (64 * c))).image M.fill := by
  obtain ⟨hm, hr⟩ := ring_session B M (fun b _ => Flash.blank_erased b) (isLog_fill (n := n))
  have hflash := hr.ring.flash
  rw [run_fill] at hflash
  have hget : ((List.range n).map fun i => Batch.single .temperature (sampleAt i))[64 * c]? =
      some (Batch.single .temperature (sampleAt (64 * c))) := by
    rw [List.getElem?_map, List.getElem?_range (by omega)]; rfl
  have hlive : Live 1023 64
      ((List.range n).map fun i => Batch.single .temperature (sampleAt i)).length (64 * c) := by
    rw [List.length_map, List.length_range]
    exact ⟨by omega, by omega⟩
  have hpage := page_of_live hflash hget hlive
  have haddr : ringAddr (64 * c) = (c + 1, 0) := by
    rw [ringAddr_eq]
    exact Prod.ext (by dsimp only; omega) (by dsimp only; omega)
  rw [haddr] at hpage
  rw [hm.shows.flash]
  exact hpage

theorem fill_time (hlow : 65408 < n) (hhigh : n ≤ 65472) (hb : IsData b) :
    ((pageSession B M Flash.erased (fillDevice n)).dev.dev b 0).time = 64 * (b - 1) + 1 := by
  rw [isData_iff] at hb
  obtain ⟨c, rfl⟩ : ∃ c, b = c + 1 := ⟨b - 1, by omega⟩
  have hhead : (Batch.single .temperature (sampleAt (64 * c))).times.head? =
      some (sampleAt (64 * c)).time.toNat := rfl
  rw [fill_front B M hlow hhigh (by omega),
    Batch.time_image (Batch.pageBytes_single_le _ _) hhead, sampleAt_time (by omega)]
  rw [u32_eq (by omega)]
  omega

theorem fill_full (hlow : 65408 < n) (hhigh : n ≤ 65472) :
    FullLog (pageSession B M Flash.erased (fillDevice n)).dev.dev := by
  intro b hb
  have hbounds := isData_iff.1 hb
  obtain ⟨c, rfl⟩ : ∃ c, b = c + 1 := ⟨b - 1, by omega⟩
  refine ⟨0, by decide, fun hblank => ?_⟩
  have hmagic := Batch.hasMagic_image (Batch.single .temperature (sampleAt (64 * c)))
    (Batch.pageBytes_single_le _ _) (Batch.not_isEmpty_single _ _) M.fill
  rw [fill_front B M hlow hhigh (by omega)] at hblank
  rw [hblank] at hmagic
  exact Page.not_hasMagic_blank hmagic

end fill

/-! ## oldest or not -/

/-- **After a remount of a full device** the first block erased is an oldest
one exactly if all first pages have the same time or, under `__LINUX__`, block
1 happens to be an oldest block. -/
theorem reclaims_oldest_iff (B : Build) (M : Medium) {f : Flash} (hf : ∀ b, IsData b → f.Blank b)
    {ops : List Op} (hops : ∀ op ∈ ops, op.IsLog) (htimes : Timed ops)
    (hfull : FullLog (pageSession B M f ops).dev.dev) {ops' : List Op}
    (hops' : ∀ op ∈ ops', ∀ b, op ≠ .erase b) {e : Nat × Flash}
    (he : eraseAfterRemount B M f ops ops' = some e) :
    ReclaimsOldest (writes (pageSession B M f ops).dev.calls) e ↔
      MountsOldest B (pageSession B M f ops).dev.dev := by
  rw [eraseAfterRemount_eq B M hf hops hfull hops' he]
  have hmagic := hasMagic_of_full B M hf hops hfull
  apply reclaims_mountBlock_iff B hmagic
  intro x hx b hb
  obtain ⟨hm, hr⟩ := ring_session B M hf hops
  have hd := LogState.dated_run B ops htimes.ordered
  have hlog : ((Model.init B f).run B M ops).log = LogState.init.run B ops :=
    Model.run_log B M (Model.init B f) ops
  rw [← hlog] at hd
  rw [hm.shows.calls] at hx
  have hmagic_b := hmagic b hb
  rw [hm.shows.flash] at hmagic_b ⊢
  exact hr.ring.last_latest hd htimes.seconds hr.fits hx hb hmagic_b

/-- The device is filled and mounted again under `__LINUX__`: block 1 is the
oldest. -/
theorem reclaims_oldest_fillDevice :
    ∃ e, eraseAfterRemount { linux := true, rp2040 := false } fakeMedium Flash.erased
        (fillDevice 65472) [.ofRecord .temperature (sampleAt 65472), .flush] = some e ∧
      ReclaimsOldest (writes (pageSession { linux := true, rp2040 := false } fakeMedium
        Flash.erased (fillDevice 65472)).dev.calls) e := by
  have hfull := fill_full { linux := true, rp2040 := false } fakeMedium (n := 65472) (by decide)
    (by decide)
  have he := eraseAfterRemount_append_flush { linux := true, rp2040 := false } fakeMedium
    (fun b _ => Flash.blank_erased b) isLog_fill hfull .temperature (sampleAt 65472)
  refine ⟨_, he, ?_⟩
  refine (reclaims_oldest_iff _ _ (fun b _ => Flash.blank_erased b) isLog_fill
    (timed_fill (by decide)) hfull ?_ he).2 ?_
  · exact not_erase_of_isLog (by simp [Op.ofRecord, Op.IsLog])
  · rw [MountsOldest, if_pos rfl]
    intro b hb
    rw [fill_time _ _ (by decide) (by decide) hb,
      fill_time _ _ (by decide) (by decide) (by decide)]
    omega

/-- Outside `__LINUX__` a mount of blocks that are later and later goes to the last
one. -/
theorem mountBlock_increasing {B : Build} (hB : B.linux = false) {g : Flash}
    (hmagic : ∀ b, IsData b → (g b 0).HasMagic)
    (htime : ∀ b, IsData b → (g b 0).time = 64 * (b - 1) + 1) : Store.mountBlock B g = 1023 := by
  have hdata := Store.isData_mountBlock B g
  have hlate := Store.mountBlock_latest hB hmagic (b := 1023) (by decide)
  rw [htime _ (by decide), htime _ hdata] at hlate
  rw [isData_iff] at hdata
  omega

/-- Of blocks that are later and later the last one is not the oldest. -/
theorem not_reclaims_increasing {g : Flash}
    (htime : ∀ b, IsData b → (g b 0).time = 64 * (b - 1) + 1)
    (written : List (Nat × Nat × List UInt8)) : ¬ ReclaimsOldest written (1023, g) := by
  intro hr
  have hold := hr.oldest 1 (by decide)
  dsimp only at hold
  rw [htime _ (by decide), htime _ (by decide)] at hold
  omega

/-- The filled device is mounted again elsewhere: the next flush erases block
1023, the newest. -/
theorem reclaims_newest_fillDevice :
    Timed (fillDevice 65472) ∧
      FullLog (pageSession { linux := false, rp2040 := false } fakeMedium Flash.erased
        (fillDevice 65472)).dev.dev ∧
      ∃ g, eraseAfterRemount { linux := false, rp2040 := false } fakeMedium Flash.erased
          (fillDevice 65472) [.ofRecord .temperature (sampleAt 65472), .flush] = some (1023, g) ∧
        ¬ ReclaimsOldest (writes (pageSession { linux := false, rp2040 := false } fakeMedium
          Flash.erased (fillDevice 65472)).dev.calls) (1023, g) := by
  have hfull := fill_full { linux := false, rp2040 := false } fakeMedium (n := 65472) (by decide)
    (by decide)
  have herased : ∀ b, IsData b → Flash.erased.Blank b := fun b _ => Flash.blank_erased b
  have he := eraseAfterRemount_append_flush { linux := false, rp2040 := false } fakeMedium
    herased isLog_fill hfull .temperature (sampleAt 65472)
  have hmagic := hasMagic_of_full { linux := false, rp2040 := false } fakeMedium herased
    isLog_fill hfull
  have htime : ∀ b, IsData b → ((pageSession { linux := false, rp2040 := false } fakeMedium
      Flash.erased (fillDevice 65472)).dev.dev b 0).time = 64 * (b - 1) + 1 :=
    fun b hb => fill_time _ _ (by decide) (by decide) hb
  rw [mountBlock_increasing rfl hmagic htime] at he
  exact ⟨timed_fill (by decide), hfull, _, he, not_reclaims_increasing htime _⟩

end Mxfs
