import Mathlib.Data.List.Nodup
import Mxfs.Lib.Ring
import Mxfs.ReadBack

/-!
# Mxfs.RingLog

The log over a whole run of appends and flushes.  The data area is a ring of
1023 blocks of 64 pages, and the flash is `ringStore` of the batches put away
(`Store.Ring`); together with the history of the abstract log this says which
records the device still holds, where, and in which order they are read
(`faithful_session`).
-/

namespace Mxfs

open Lib

/-! ## addresses -/

/-- Block and page of the `i`-th flush. -/
def ringAddr (i : Nat) : Nat × Nat := ((slot 1023 64 i).1 + 1, (slot 1023 64 i).2)

/-- The flushes go from page to page and from block to block, round and round. -/
theorem ringAddr_eq (i : Nat) : ringAddr i = (i / 64 % 1023 + 1, i % 64) := rfl

/-- No two live flushes share a page. -/
theorem ringAddr_inj {n i j : Nat} (hi : Live 1023 64 n i) (hj : Live 1023 64 n j)
    (h : ringAddr i = ringAddr j) : i = j := by
  apply slot_injOn hi hj
  obtain ⟨hb, hp⟩ := Prod.mk.inj h
  exact Prod.ext (Nat.succ.inj hb) hp

/-- The cursor moves along the ring. -/
theorem Cursor.next_addr {c : Cursor} {n : Nat} (h : (c.block, c.page) = ringAddr n) :
    (c.next.block, c.next.page) = ringAddr (n + 1) := by
  rw [ringAddr_eq] at h ⊢
  obtain ⟨hb, hp⟩ := Prod.mk.inj h
  have hlt := c.page_lt
  unfold pageCount at hlt
  by_cases hlast : c.page + 1 < pageCount
  · obtain ⟨hnb, hnp⟩ := next_of_lt hlast
    rw [hnb, hnp, hb, hp]
    unfold pageCount at hlast
    have hdiv : (n + 1) / 64 = n / 64 := by omega
    rw [hdiv]
    exact Prod.ext rfl (by dsimp only; omega)
  · obtain ⟨hnb, hnp⟩ := next_of_last hlast
    rw [hnb, hnp, hb, nextBlock]
    unfold pageCount at hlast
    unfold blockCount blockStartDataArea
    have hdiv : (n + 1) / 64 = n / 64 + 1 := by omega
    rw [hdiv]
    refine Prod.ext ?_ (by dsimp only; omega)
    dsimp only
    split <;> omega

/-! ## the store as a ring -/

/-- The page a batch leaves. -/
def ringPage (M : Medium) : Option Batch → Page
  | some p => Page.image p.image M.fill
  | none => Page.blank

/-- The page of a live batch, on a flash that is the ring. -/
theorem page_of_live {M : Medium} {f : Flash} {bs : List Batch}
    (h : ∀ b p, b < 1023 → p < pageCount → f (b + 1) p = ringPage M (ringStore 1023 64 bs b p))
    (hq : bs[i]? = some q) (hl : Live 1023 64 bs.length i) :
    f (ringAddr i).1 (ringAddr i).2 = Page.image q.image M.fill := by
  have hstore : ringStore 1023 64 bs (slot 1023 64 i).1 (slot 1023 64 i).2 = some q :=
    (ringStore_eq_some (by decide) (by decide) bs _ _ q).2 ⟨i, hq, hl, rfl⟩
  have hpage := h (slot 1023 64 i).1 (slot 1023 64 i).2 (Nat.mod_lt _ (by decide))
    (Nat.mod_lt _ (by decide))
  rw [hstore] at hpage
  exact hpage

/-- The program of the `i`-th batch. -/
def ringWrite (x : Batch × Nat) : Nat × Nat × List UInt8 :=
  ((ringAddr x.2).1, (ringAddr x.2).2, x.1.image)

/-- The store holds the ring of the batches `bs`. -/
structure Store.Ring (M : Medium) (st : Store) (bs : List Batch) : Prop where
  ready : st.Ready
  cursor : (st.cursor.block, st.cursor.page) = ringAddr bs.length
  entered : st.cursor.page = 0 → bs ≠ [] → st.marked st.cursor.block = true
  flash : ∀ b p, b < 1023 → p < pageCount →
    st.flash (b + 1) p = ringPage M (ringStore 1023 64 bs b p)
  writes : writes st.calls = bs.zipIdx.map ringWrite

namespace Store

/-- The ring is empty on an erased data area. -/
theorem ring_start (B : Build) (M : Medium) {f : Flash} (hf : ∀ b, IsData b → f.Blank b) :
    ((start f).mount B).Ring M [] := by
  have hd : Detectable f := (detectable_iff f).2 fun b hb => Or.inr (hf b hb)
  have hblank : ¬ (f 1 0).HasMagic := by
    rw [hf 1 (by decide) 0 (by decide)]
    exact Page.not_hasMagic_blank
  constructor
  · exact ready_mount B hd
  · exact Prod.ext (mountBlock_of_first B hblank) rfl
  · intro _ h
    exact absurd rfl h
  · intro b p hb hp
    exact hf (b + 1) (by rw [isData_iff]; omega) p hp
  · rfl

/-- The pages after a put. -/
theorem Ring.put_flash {M : Medium} {st : Store} {bs : List Batch} (h : st.Ring M bs)
    (q : Batch) (hlen : q.image.length ≤ pageSize) (hb : b < 1023) (hp : p < pageCount) :
    (st.put M q.image).flash (b + 1) p =
      ringPage M (ringPut 1023 64 (ringStore 1023 64 bs) bs.length q b p) := by
  obtain ⟨hblock, hpage⟩ := Prod.mk.inj (h.cursor.trans (ringAddr_eq _))
  rw [ringPut]
  by_cases hslot : (b, p) = slot 1023 64 bs.length
  · -- the page under the cursor
    rw [if_pos hslot]
    obtain ⟨hsb, hsp⟩ := Prod.mk.inj hslot
    have hself := h.ready.put_flash_self M hlen
    rw [hblock, hpage] at hself
    rw [hsb, hsp]
    exact hself
  · rw [if_neg hslot]
    by_cases hcur : b + 1 = st.cursor.block
    · have hbs : b = bs.length / 64 % 1023 := by rw [hblock] at hcur; omega
      have hne : p ≠ st.cursor.page := by
        intro he
        rw [hpage] at he
        exact hslot (Prod.ext hbs he)
      rw [hcur, put_flash_block M st _ hne]
      by_cases hfirst : bs.length % 64 = 0
      · -- a block that is entered is erased, the first one of all is already
        rw [if_pos ⟨hfirst, hbs⟩]
        have hz : st.cursor.page = 0 := by rw [hpage]; exact hfirst
        exact h.ready.clean_tail (by omega) hp
      · rw [if_neg (by tauto), ← h.flash b p hb hp, hcur]
        have hm : st.marked st.cursor.block = false := by
          cases hm : st.marked st.cursor.block with
          | false => rfl
          | true =>
              have hz := h.ready.first hm
              rw [hpage] at hz
              exact absurd hz hfirst
        rw [clean_of_not_marked hm]
    · have hbs : b ≠ bs.length / 64 % 1023 := by
        intro he
        apply hcur
        rw [hblock, he]
      rw [put_flash_ne M st _ hcur, if_neg (by tauto)]
      exact h.flash b p hb hp

/-- **A put adds to the ring.** -/
theorem Ring.put {M : Medium} {st : Store} {bs : List Batch} (h : st.Ring M bs)
    (q : Batch) (hlen : q.image.length ≤ pageSize) : (st.put M q.image).Ring M (bs ++ [q]) := by
  have hnext := Cursor.next_addr h.cursor
  constructor
  · exact h.ready.put M _
  · rw [put_cursor, List.length_append, List.length_singleton]
    exact hnext
  · intro hp _
    rw [put_cursor] at hp ⊢
    have hlast : ¬ st.cursor.page + 1 < pageCount := by
      intro hlt
      rw [(Cursor.next_of_lt hlt).2] at hp
      omega
    rw [put_marked_of_last M st _ hlast, Function.update_self]
  · intro b p hb hp
    rw [ringStore_concat]
    exact h.put_flash q hlen hb hp
  · obtain ⟨hblock, hpage⟩ := Prod.mk.inj h.cursor
    rw [writes_put, h.writes, List.zipIdx_append, List.map_append, hblock, hpage]
    simp [ringWrite, ringAddr]

end Store

/-! ## the model of a run -/

/-- The model of a run of appends and flushes. -/
structure Model.RingInv (M : Medium) (m : Model) : Prop where
  ring : m.store.Ring M m.log.batches
  fits : ∀ q ∈ m.log.batches, q.pageBytes ≤ 2000

/-- **Each append or flush** keeps the ring. -/
theorem Model.RingInv.next {B : Build} {M : Medium} {m : Model} {w : World (Logged Flash)}
    (hm : m.Abstracts B w) (h : m.RingInv M) (hop : op.IsLog) : (m.next B M op).RingInv M := by
  have hstore := next_store_of_log (m := m) hop B M
  have hbatches : (m.next B M op).log.batches =
      if m.log.Puts op then m.log.batches ++ [m.log.pending] else m.log.batches :=
    LogState.batches_next B m.log op
  by_cases hputs : m.log.Puts op
  · rw [if_pos hputs] at hstore hbatches
    constructor
    · rw [hstore, hbatches]
      exact h.ring.put m.log.pending (hm.data hputs M.fill).1
    · rw [hbatches]
      intro q hq
      rcases List.mem_append.1 hq with hq | hq
      · exact h.fits q hq
      · rw [List.mem_singleton.1 hq]; exact hm.buffers.fits
  · rw [if_neg hputs] at hstore hbatches
    constructor
    · rw [hstore, hbatches]; exact h.ring
    · rw [hbatches]; exact h.fits

/-! ## the whole run -/

/-- The programs that are still on the device: the most recent ones. -/
def survivors (w : World (Logged Flash)) : List (Nat × Nat × List UInt8) :=
  (writes w.dev.calls).drop ((writes w.dev.calls).length -
    kept 1023 64 (writes w.dev.calls).length)

/-- The programs whose block was erased again. -/
def reclaimed (w : World (Logged Flash)) : List (Nat × Nat × List UInt8) :=
  (writes w.dev.calls).take ((writes w.dev.calls).length -
    kept 1023 64 (writes w.dev.calls).length)

/-- Block and page of a program. -/
def pageOf (x : Nat × Nat × List UInt8) : Nat × Nat := (x.1, x.2.1)

/-- The bytes a read gave the caller. -/
def readBytes : Option (Int × List UInt8) → List UInt8
  | some (_, out) => out
  | none => []

/-- A world whose device holds the log of `flushes` flushes, of which the
records `accepted` were taken in. -/
structure Faithful (M : Medium) (w : World (Logged Flash)) (flushes : Nat)
    (accepted : Layer → List (List UInt8)) : Prop where
  /-- One program to a flush. -/
  count : (writes w.dev.calls).length = flushes
  /-- The pages of the most recent flushes are on the device. -/
  held : ∀ x ∈ survivors w, w.dev.dev x.1 x.2.1 = Page.image x.2.2 M.fill
  distinct : ((survivors w).map pageOf).Nodup
  /-- Nothing else is on the device. -/
  rest : ∀ b p, IsData b → p < pageCount → (b, p) ∉ (survivors w).map pageOf →
    w.dev.dev b p = Page.blank
  /-- Each of these pages can be read. -/
  read : ∀ x ∈ survivors w, ∀ (l : Layer) (bufferlen : UInt16), pageSize ≤ bufferlen.toNat →
    ∃ out, (mxfsRead (pageArray M).logged w.dev (UInt8.ofNat l.toNat) bufferlen x.1 x.2.1).1 =
      some ((out.length : Int), out)
  /-- What was reclaimed is the oldest of what was accepted. -/
  oldest : ∀ l, (reclaimed w).flatMap (fun x => pagePayloads x.2.2 l) <+: accepted l
  /-- The reads of the survivors followed by the buffers are all the rest, in order. -/
  order : ∀ (l : Layer) (bufferlen : UInt16), pageSize ≤ bufferlen.toNat →
    (survivors w).flatMap (fun x => readBytes
      (mxfsRead (pageArray M).logged w.dev (UInt8.ofNat l.toNat) bufferlen x.1 x.2.1).1) ++
      (buffered w.inst l).flatten =
    ((accepted l).drop ((reclaimed w).flatMap fun x => pagePayloads x.2.2 l).length).flatten

/-! ### the programs of a ring -/

section ring

variable {M : Medium} {bs : List Batch} {k : Nat}

/-- The data of the ring's programs are the images of the batches. -/
theorem map_data_ringWrite (bs : List Batch) :
    (bs.zipIdx.map ringWrite).map (fun x => x.2.2) = bs.map Batch.image := by
  rw [List.map_map]
  show bs.zipIdx.map (Batch.image ∘ Prod.fst) = _
  rw [← List.map_map, List.zipIdx_map_fst]

/-- The pages of the ring's programs are those of the ring, in order. -/
theorem map_pageOf_ringWrite (bs : List Batch) :
    (bs.zipIdx.map ringWrite).map pageOf = (List.range' 0 bs.length).map ringAddr := by
  rw [List.map_map]
  show bs.zipIdx.map (ringAddr ∘ Prod.snd) = _
  rw [← List.map_map, List.zipIdx_map_snd]

/-- A program past the first `k` is that of a batch past the first `k`. -/
theorem mem_drop_ringWrite {x : Nat × Nat × List UInt8}
    (hx : x ∈ (bs.zipIdx.map ringWrite).drop k) :
    ∃ i q, k ≤ i ∧ bs[i]? = some q ∧ x = ringWrite (q, i) := by
  obtain ⟨j, hj⟩ := List.mem_iff_getElem?.1 hx
  rw [List.getElem?_drop, List.getElem?_map, List.getElem?_zipIdx, Option.map_map] at hj
  cases hq : bs[k + j]? with
  | none => rw [hq] at hj; cases hj
  | some q =>
      rw [hq] at hj
      exact ⟨k + j, q, Nat.le_add_right k j, hq, by simpa using hj.symm⟩

/-- The records on the pages of some programs are those of their batches. -/
theorem flatMap_pagePayloads {ws : List (Nat × Nat × List UInt8)} {qs : List Batch}
    (h : ws.map (fun x => x.2.2) = qs.map Batch.image) (hfits : ∀ q ∈ qs, q.pageBytes ≤ 2000)
    (l : Layer) :
    ws.flatMap (fun x => pagePayloads x.2.2 l) = qs.flatMap fun q => q.payloads l :=
  calc ws.flatMap (fun x => pagePayloads x.2.2 l)
      = (ws.map fun x => x.2.2).flatMap fun data => pagePayloads data l := by
        rw [List.flatMap_map]
    _ = qs.flatMap fun q => pagePayloads q.image l := by rw [h, List.flatMap_map]
    _ = qs.flatMap fun q => q.payloads l :=
        List.flatMap_congr fun q hq => pagePayloads_image q (hfits q hq) l

end ring

/-- `w` in terms of the batches put away: its programs, its pages, and its
history. -/
structure RingWorld (M : Medium) (w : World (Logged Flash)) (bs : List Batch)
    (accepted : Layer → List (List UInt8)) : Prop where
  writes : writes w.dev.calls = bs.zipIdx.map ringWrite
  flash : ∀ b p, b < 1023 → p < pageCount →
    w.dev.dev (b + 1) p = ringPage M (ringStore 1023 64 bs b p)
  fits : ∀ q ∈ bs, q.pageBytes ≤ 2000
  history : ∀ l, accepted l = bs.flatMap (fun q => q.payloads l) ++ buffered w.inst l

/-- The first of the surviving batches. -/
def oldestKept (bs : List Batch) : Nat := bs.length - kept 1023 64 bs.length

/-- The live flushes are those from the oldest kept on. -/
theorem live_iff_oldestKept (hi : i < bs.length) :
    Live 1023 64 bs.length i ↔ oldestKept bs ≤ i := live_iff (by decide) (by decide) hi

namespace RingWorld

variable {M : Medium} {w : World (Logged Flash)} {bs : List Batch}
  {accepted : Layer → List (List UInt8)}

/-- A ring world has a program for each batch. -/
theorem length_writes (h : RingWorld M w bs accepted) :
    (Mxfs.writes w.dev.calls).length = bs.length := by
  rw [h.writes, List.length_map, List.length_zipIdx]

/-- The pages that survive are those of the batches from the oldest kept on. -/
theorem survivors_eq (h : RingWorld M w bs accepted) :
    survivors w = (bs.zipIdx.map ringWrite).drop (oldestKept bs) := by
  rw [survivors, h.length_writes, h.writes]; rfl

/-- The pages reclaimed are those of the batches before. -/
theorem reclaimed_eq (h : RingWorld M w bs accepted) :
    reclaimed w = (bs.zipIdx.map ringWrite).take (oldestKept bs) := by
  rw [reclaimed, h.length_writes, h.writes]; rfl

/-- The records of the survivors are those of the kept batches. -/
theorem survivors_payloads (h : RingWorld M w bs accepted) (l : Layer) :
    (survivors w).flatMap (fun x => pagePayloads x.2.2 l) =
      (bs.drop (oldestKept bs)).flatMap fun q => q.payloads l := by
  apply flatMap_pagePayloads
  · rw [h.survivors_eq, List.map_drop, map_data_ringWrite, List.map_drop]
  · exact fun q hq => h.fits q (List.mem_of_mem_drop hq)

/-- The records of the reclaimed programs are those of the batches no longer kept. -/
theorem reclaimed_payloads (h : RingWorld M w bs accepted) (l : Layer) :
    (reclaimed w).flatMap (fun x => pagePayloads x.2.2 l) =
      (bs.take (oldestKept bs)).flatMap fun q => q.payloads l := by
  apply flatMap_pagePayloads
  · rw [h.reclaimed_eq, List.map_take, map_data_ringWrite, List.map_take]
  · exact fun q hq => h.fits q (List.mem_of_mem_take hq)

/-- The records taken in are those reclaimed, those that survive and those buffered, in
this order. -/
theorem accepted_eq (h : RingWorld M w bs accepted) (l : Layer) :
    accepted l = (reclaimed w).flatMap (fun x => pagePayloads x.2.2 l) ++
      ((survivors w).flatMap (fun x => pagePayloads x.2.2 l) ++ buffered w.inst l) := by
  rw [h.history, h.reclaimed_payloads, h.survivors_payloads, ← List.append_assoc,
    ← List.flatMap_append, List.take_append_drop]

/-- A survivor is the program of a live batch, on the page of its slot. -/
theorem held (h : RingWorld M w bs accepted) :
    ∀ x ∈ survivors w, w.dev.dev x.1 x.2.1 = Page.image x.2.2 M.fill := by
  intro x hx
  rw [h.survivors_eq] at hx
  obtain ⟨i, q, hki, hq, rfl⟩ := mem_drop_ringWrite hx
  have hi : i < bs.length := (List.getElem?_eq_some_iff.1 hq).1
  exact page_of_live h.flash hq ((live_iff_oldestKept hi).2 hki)

/-- The pages of the survivors. -/
theorem survivors_pages (h : RingWorld M w bs accepted) : (survivors w).map pageOf =
    (List.range' (oldestKept bs) (bs.length - oldestKept bs)).map ringAddr := by
  rw [h.survivors_eq, List.map_drop, map_pageOf_ringWrite, ← List.map_drop, List.drop_range',
    Nat.zero_add, Nat.mul_one]

/-- The pages that survive in a ring world are distinct. -/
theorem distinct (h : RingWorld M w bs accepted) : ((survivors w).map pageOf).Nodup := by
  have hlive : ∀ i ∈ List.range' (oldestKept bs) (bs.length - oldestKept bs),
      Live 1023 64 bs.length i := by
    intro i hi
    obtain ⟨hle, hlt⟩ := List.mem_range'_1.1 hi
    exact (live_iff_oldestKept (by omega)).2 hle
  rw [h.survivors_pages]
  exact List.Nodup.map_on (fun i hi j hj => ringAddr_inj (hlive i hi) (hlive j hj))
    List.nodup_range'

/-- The pages of the data area that do not survive are erased. -/
theorem rest (h : RingWorld M w bs accepted) (hb : IsData b) (hp : p < pageCount)
    (hout : (b, p) ∉ (survivors w).map pageOf) : w.dev.dev b p = Page.blank := by
  rw [isData_iff] at hb
  obtain ⟨c, rfl⟩ : ∃ c, b = c + 1 := ⟨b - 1, by omega⟩
  rw [h.flash c p (by omega) hp]
  cases hq : ringStore 1023 64 bs c p with
  | none => rfl
  | some q =>
      -- a live batch on this page would be a survivor
      obtain ⟨i, _, hlive, hslot⟩ := (ringStore_eq_some (by decide) (by decide) bs c p q).1 hq
      have hki := (live_iff_oldestKept hlive.1).1 hlive
      have hlt := hlive.1
      refine absurd ?_ hout
      rw [h.survivors_pages, List.mem_map]
      refine ⟨i, List.mem_range'_1.2 ⟨hki, by omega⟩, ?_⟩
      rw [ringAddr, hslot]

/-- Reading a survivor. -/
theorem read (h : RingWorld M w bs accepted) {x : Nat × Nat × List UInt8}
    (hx : x ∈ survivors w) (l : Layer) {bufferlen : UInt16} (hbuf : pageSize ≤ bufferlen.toNat) :
    (mxfsRead (pageArray M).logged w.dev (UInt8.ofNat l.toNat) bufferlen x.1 x.2.1).1 =
      some (((pagePayloads x.2.2 l).flatten.length : Int), (pagePayloads x.2.2 l).flatten) := by
  have hpage := h.held x hx
  rw [h.survivors_eq] at hx
  obtain ⟨i, q, _, hq, rfl⟩ := mem_drop_ringWrite hx
  have hfits : q.pageBytes ≤ 2000 := h.fits q (List.mem_of_getElem? hq)
  have hne : bufferlen ≠ 0 := by
    intro he
    rw [he] at hbuf
    exact absurd hbuf (by decide)
  have hpayloads : pagePayloads (ringWrite (q, i)).2.2 l = q.payloads l :=
    pagePayloads_image q hfits l
  rw [hpayloads, read_image M w.dev l _ _ hne hfits hpage]

/-- A world whose flash is the ring is faithful. -/
theorem faithful (h : RingWorld M w bs accepted) : Faithful M w bs.length accepted where
  count := h.length_writes
  held := h.held
  distinct := h.distinct
  rest := fun _ _ hb hp hout => h.rest hb hp hout
  read := fun _ hx l _ hbuf => ⟨_, h.read hx l hbuf⟩
  oldest := fun l => by rw [h.accepted_eq]; exact List.prefix_append _ _
  order := by
    intro l bufferlen hbuf
    have hreads : (survivors w).flatMap (fun x => readBytes
        (mxfsRead (pageArray M).logged w.dev (UInt8.ofNat l.toNat) bufferlen x.1 x.2.1).1) =
        ((survivors w).flatMap fun x => pagePayloads x.2.2 l).flatten := by
      rw [List.flatMap_def, List.flatMap_def, List.flatten_flatten, List.map_map]
      congr 1
      apply List.map_congr_left
      intro x hx
      rw [h.read hx l hbuf]; rfl
    rw [hreads, h.accepted_eq, List.drop_left, List.flatten_append]

end RingWorld

/-! ## the theorem -/

/-- How many calls of a session made a flush with something to program. -/
def flushCount (B : Build) (D : Driver σ) (w : World σ) (ops : List Op) : Nat :=
  (observe (next B D) (fun w op => if w.Programs op then [op] else []) w ops).length

/-- The payloads of a layer a session took in, oldest first. -/
def acceptedBy (B : Build) (D : Driver σ) (w : World σ) (ops : List Op) (l : Layer) :
    List (List UInt8) :=
  observe (next B D) (accepted B D l) w ops

section session

variable (B : Build) (M : Medium) {f : Flash} {ops : List Op}

/-- The step of the ring simulation. -/
theorem ring_step {w : World (Logged Flash)} {m : Model} {op : Op}
    (h : m.Abstracts B w ∧ m.RingInv M) (hop : op.IsLog) :
    (m.next B M op).Abstracts B (next B (pageArray M).logged w op) ∧
      (m.next B M op).RingInv M :=
  ⟨Model.abstracts_next h.1 op, h.2.next h.1 hop⟩

/-- At the first mount the ring is empty. -/
theorem ring_init (hf : ∀ b, IsData b → f.Blank b) :
    (Model.init B f).Abstracts B (pageSession B M f []) ∧ (Model.init B f).RingInv M :=
  ⟨Model.abstracts_init B M f, Store.ring_start B M hf, by intro q hq; cases hq⟩

/-- The model of a session of appends and flushes. -/
theorem ring_session (hf : ∀ b, IsData b → f.Blank b) (hops : ∀ op ∈ ops, op.IsLog) :
    ((Model.init B f).run B M ops).Abstracts B (pageSession B M f ops) ∧
      ((Model.init B f).run B M ops).RingInv M :=
  run_simulates (R := fun w m => Model.Abstracts B m w ∧ m.RingInv M)
    (fun _ _ _ h hop => ring_step B M h hop) (ring_init B M hf) (along_of_forall hops _)

/-- The history of the model is what the session took in. -/
theorem history_session (hf : ∀ b, IsData b → f.Blank b) (hops : ∀ op ∈ ops, op.IsLog)
    (l : Layer) : ((Model.init B f).run B M ops).log.history l =
      acceptedBy B (pageArray M).logged (pageSession B M f []) ops l :=
  run_observes (R := fun w m => Model.Abstracts B m w ∧ m.RingInv M)
    (g := fun m : Model => m.log.history l)
    (fun _ _ _ h hop => ⟨ring_step B M h hop, history_next h.1.buffers hop l⟩)
    (ring_init B M hf) (along_of_forall hops _)

/-- The batches of the model are as many as the flushes of the session. -/
theorem length_batches_session (hf : ∀ b, IsData b → f.Blank b)
    (hops : ∀ op ∈ ops, op.IsLog) : ((Model.init B f).run B M ops).log.batches.length =
      flushCount B (pageArray M).logged (pageSession B M f []) ops := by
  have hstep : ∀ (w : World (Logged Flash)) (m : Model) (op : Op),
      m.Abstracts B w ∧ m.RingInv M → op.IsLog →
      ((m.next B M op).Abstracts B (next B (pageArray M).logged w op) ∧
        (m.next B M op).RingInv M) ∧
      (m.next B M op).log.batches.length =
        m.log.batches.length + (if w.Programs op then [op] else []).length := by
    intro w m op h hop
    refine ⟨ring_step B M h hop, ?_⟩
    show (LogState.next B m.log op).batches.length = _
    have hiff := World.programs_iff h.1.buffers op
    rw [LogState.batches_next]
    by_cases hputs : m.log.Puts op
    · rw [if_pos hputs, if_pos (hiff.2 hputs), List.length_append]; rfl
    · rw [if_neg hputs, if_neg fun hp => hputs (hiff.1 hp)]; rfl
  have hcount := run_counts (g := fun m : Model => m.log.batches.length) hstep
    (ring_init B M hf) (along_of_forall hops _)
  exact hcount.trans (Nat.zero_add _)

end session

/-! ### the batch of a page -/

/-- The batch a page holds after the batches `bs` were put away. -/
def heldBatch (bs : List Batch) (block page : Nat) : Option Batch :=
  ringStore 1023 64 bs (block - 1) page

/-- **The flash shows the batches its pages hold.** -/
theorem page_heldBatch (B : Build) (M : Medium) {f : Flash} (hf : ∀ b, IsData b → f.Blank b)
    {ops : List Op} (hops : ∀ op ∈ ops, op.IsLog) {b p : Nat} (hb : IsData b)
    (hp : p < pageCount) : (pageSession B M f ops).dev.dev b p =
      ringPage M (heldBatch (LogState.init.run B ops).batches b p) := by
  obtain ⟨hm, hr⟩ := ring_session B M hf hops
  have hlog := Model.run_log B M (Model.init B f) ops
  have hdata := isData_iff.1 hb
  have hpage := hr.ring.flash (b - 1) p (by omega) hp
  rw [Nat.sub_add_cancel hdata.1, hlog, ← hm.shows.flash] at hpage
  exact hpage

/-- **The log is faithful** over every run of appends and flushes on an erased
data area: no record lost, doubled or moved, the oldest reclaimed first. -/
theorem faithful_session (B : Build) (M : Medium) (f : Flash) (hf : ∀ b, IsData b → f.Blank b)
    (ops : List Op) (hops : ∀ op ∈ ops, op.IsLog) :
    Faithful M (pageSession B M f ops)
      (flushCount B (pageArray M).logged (pageSession B M f []) ops)
      (acceptedBy B (pageArray M).logged (pageSession B M f []) ops) := by
  obtain ⟨hm, hr⟩ := ring_session B M hf hops
  rw [← length_batches_session B M hf hops]
  apply RingWorld.faithful
  constructor
  · rw [hm.shows.calls]; exact hr.ring.writes
  · rw [hm.shows.flash]; exact hr.ring.flash
  · exact hr.fits
  · intro l
    rw [← history_session B M hf hops l, LogState.history, (hm.buffers.layers l).buffered]; rfl

/-- Three temperature records, one of them still buffered. -/
theorem faithful_session_three :
    Faithful fakeMedium
      (pageSession { linux := true, rp2040 := false } fakeMedium Flash.erased
        [.ofRecord .temperature temperatureSample, .ofRecord .temperature temperatureSample,
          .flush, .ofRecord .temperature temperatureSample])
      (flushCount { linux := true, rp2040 := false } (pageArray fakeMedium).logged
        (pageSession { linux := true, rp2040 := false } fakeMedium Flash.erased [])
        [.ofRecord .temperature temperatureSample, .ofRecord .temperature temperatureSample,
          .flush, .ofRecord .temperature temperatureSample])
      (acceptedBy { linux := true, rp2040 := false } (pageArray fakeMedium).logged
        (pageSession { linux := true, rp2040 := false } fakeMedium Flash.erased [])
        [.ofRecord .temperature temperatureSample, .ofRecord .temperature temperatureSample,
          .flush, .ofRecord .temperature temperatureSample]) :=
  faithful_session _ _ _ (fun _ _ _ _ => rfl) _ (by simp [Op.ofRecord, Op.IsLog])

end Mxfs
