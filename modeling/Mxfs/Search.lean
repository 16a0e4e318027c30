import Mxfs.PageTable
import Mxfs.ReadBack
import Mxfs.Timerange

/-!
# Mxfs.Search

What `mxfs_timerange` reports.

A search reports a list of pages (`Reports`): the pages that pass the tests, as
many as the caller's array holds.  The tests outside `__LINUX__` are the magic
on the page and the page's flag byte in memory.  Through appends, flushes and
erases the flag byte of every page with magic tells the layers on it (`Noted`),
so the search is exact (`search_exact`).  A mount fills the table in from page
0 of each block alone, and `search_after_mount_iff` says when the search is
exact then.
-/

namespace Mxfs

open Lib

/-! ## the loop -/

/-- Block and page of an entry. -/
def TimeRange.addr (t : TimeRange) : Nat × Nat := (t.block, t.page)

/-- The array with the pages `xs` filled in from its start. -/
def fillIn (B : Build) (inst : Inst) : List TimeRange → List (Nat × Nat) → List TimeRange
  | t :: ts, x :: xs => TimeRange.ofPage B inst x.1 x.2 t :: fillIn B inst ts xs
  | ts, [] => ts
  | [], _ :: _ => []

/-- `pages` are reported, as far as they fit: how many they are and the entries
filled in, or `NEED_MORE_BUFFER` and all of the array filled in. -/
def Reports (pages : List (Nat × Nat)) (timerangecount : Nat) (before : List TimeRange) :
    Option (Int × List TimeRange) → Prop
  | none => False
  | some (ret, after) =>
    ret = (if pages.length ≤ timerangecount then (pages.length : Int) else NEED_MORE_BUFFER) ∧
      (after.take (pages.take timerangecount).length).map TimeRange.addr =
        pages.take timerangecount ∧
      after.drop (pages.take timerangecount).length =
        before.drop (pages.take timerangecount).length

section loop

variable {σ : Type} {B : Build} {D : Driver σ} {inst : Inst} {layer : UInt8} {dev : σ}

@[simp] theorem fillIn_nil (ts : List TimeRange) : fillIn B inst ts [] = ts := by
  cases ts <;> rfl

theorem fillIn_filled {xs : List (Nat × Nat)} {ts : List TimeRange} (h : xs.length ≤ ts.length) :
    ((fillIn B inst ts xs).take xs.length).map TimeRange.addr = xs ∧
      (fillIn B inst ts xs).drop xs.length = ts.drop xs.length := by
  induction xs generalizing ts with
  | nil => simp
  | cons x xs ih =>
      cases ts with
      | nil => simp at h
      | cons t ts =>
          have hlen : xs.length ≤ ts.length := by simpa using h
          obtain ⟨htake, hdrop⟩ := ih hlen
          refine ⟨?_, hdrop⟩
          rw [fillIn, List.length_cons, List.take_succ_cons, List.map_cons, htake]
          rfl

/-- **The loop** fills in the pages that pass the tests. -/
theorem searchLoop_eq {listed : Nat × Nat → Bool} {pages : List (Nat × Nat)}
    (h : ∀ x ∈ pages, pageListed B D inst layer dev x.1 x.2 = (some (listed x), dev))
    (filled rest : List TimeRange) {count : Nat} (hcnt : filled.length ≤ count)
    (hroom : count ≤ filled.length + rest.length) :
    searchLoop B D inst layer count pages filled.length (filled ++ rest) dev =
      (some (if filled.length + (pages.filter listed).length ≤ count then
            ((filled.length + (pages.filter listed).length : Nat) : Int) else NEED_MORE_BUFFER,
          filled ++ fillIn B inst rest ((pages.filter listed).take (count - filled.length))),
        dev) := by
  induction pages generalizing filled rest with
  | nil => simp [searchLoop, hcnt]
  | cons x pages ih =>
      have hx := h x List.mem_cons_self
      have ih := ih fun y hy => h y (List.mem_cons_of_mem x hy)
      obtain ⟨block, page⟩ := x
      rw [searchLoop, hx]
      cases hlisted : listed (block, page) with
      | false =>
          rw [List.filter_cons_of_neg (by simp [hlisted])]
          exact ih filled rest hcnt hroom
      | true =>
          rw [List.filter_cons_of_pos hlisted]
          dsimp only
          by_cases hlt : filled.length < count
          · rw [if_pos hlt]
            cases rest with
            | nil => simp at hroom; omega
            | cons t rest =>
                have hlen : (filled ++ [TimeRange.ofPage B inst block page t]).length =
                    filled.length + 1 := by simp
                have htake : count - filled.length = count - (filled.length + 1) + 1 := by omega
                have := ih (filled ++ [TimeRange.ofPage B inst block page t]) rest
                  (by omega) (by simp at hroom ⊢; omega)
                rw [modify_length_append, ← hlen, this, hlen, htake, List.take_succ_cons, fillIn,
                  List.length_cons]
                simp [Nat.add_comm, Nat.add_left_comm]
          · rw [if_neg hlt, if_neg (by rw [List.length_cons]; omega)]
            have hz : count - filled.length = 0 := by omega
            simp [hz]

/-- **The search** reports the pages that pass the tests. -/
theorem mxfsTimerange_reports {listed : Nat × Nat → Bool}
    (h : ∀ x ∈ dataPages, pageListed B D inst layer dev x.1 x.2 = (some (listed x), dev))
    {timerange : List TimeRange} {timerangecount : UInt16} (hpos : timerangecount ≠ 0)
    (hroom : timerangecount.toNat ≤ timerange.length) :
    Reports (dataPages.filter listed) timerangecount.toNat timerange
      (mxfsTimerange B D inst dev layer timerange timerangecount).1 := by
  have hloop := searchLoop_eq h [] timerange (Nat.zero_le _) (by simpa using hroom)
  rw [List.nil_append, List.length_nil] at hloop
  rw [mxfsTimerange, if_neg hpos, hloop, Nat.zero_add, Nat.sub_zero]
  have hle : ((dataPages.filter listed).take timerangecount.toNat).length ≤ timerange.length := by
    rw [List.length_take]
    omega
  obtain ⟨htake, hdrop⟩ := fillIn_filled hle
  exact ⟨rfl, htake, hdrop⟩

end loop

/-! ## the pages with records -/

/-- `mxfs_read` returns at least one record of the layer. -/
def hasRecord (D : Driver σ) (dev : σ) (layer : UInt8) (block page : Nat) : Bool :=
  match (mxfsRead D dev layer 0xFFFF block page).1 with
  | some (ret, _) => 0 < ret
  | none => false

/-- The pages of the data area with records of the layer, in scan order. -/
def pagesWith (D : Driver σ) (dev : σ) (layer : UInt8) : List (Nat × Nat) :=
  dataPages.filter fun x => hasRecord D dev layer x.1 x.2

theorem mem_dataPages {x : Nat × Nat} : x ∈ dataPages ↔ IsData x.1 ∧ x.2 < pageCount := by
  obtain ⟨b, p⟩ := x
  simp [dataPages]

section records

variable (M : Medium) (d : Logged Flash) (l : Layer) (block page : Nat)

theorem hasRecord_image {p : Batch} (hp : p.pageBytes ≤ 2000)
    (hpage : d.dev block page = Page.image p.image M.fill) :
    hasRecord (pageArray M).logged d (UInt8.ofNat l.toNat) block page = true ↔ p l ≠ [] := by
  have hl := l.recordSize_pos
  rw [hasRecord, read_image M d l block page (by decide) hp hpage]
  show decide ((0 : Int) < ((p.payloads l).flatten.length : Nat)) = true ↔ _
  rw [p.length_payloads l, decide_eq_true_iff]
  cases hpl : p l with
  | nil => simp
  | cons r rs =>
      refine iff_of_true ?_ (by simp)
      rw [List.length_cons, Nat.succ_mul]
      omega

/-- A page without magic has no records. -/
theorem hasRecord_of_not_hasMagic (h : ¬ (d.dev block page).HasMagic) :
    hasRecord (pageArray M).logged d (UInt8.ofNat l.toNat) block page = false := by
  have hsize := (d.dev block page).size
  unfold pageSize at hsize
  have hchain : Chain (d.dev block page).bytes 0 Batch.empty.segments := by
    refine ⟨by omega, fun hm => h ?_⟩
    rw [Compress.ofBytes_slice (Nat.le_refl _), List.drop_zero] at hm
    exact hm
  rw [hasRecord, read_chain M d l block page (by decide) (Nat.zero_le _) hchain]
  rfl

end records

/-- **The tests outside `__LINUX__`**: the magic and the flag. -/
theorem pageListed_pageArray {B : Build} (hB : B.linux = false) (M : Medium) (inst : Inst)
    (d : Logged Flash) (l : Layer) (block page : Nat) :
    pageListed B (pageArray M).logged inst (UInt8.ofNat l.toNat) d block page =
      (some (decide (d.dev block page).HasMagic && (inst.pageFlags block page &&& l.pageFlag != 0)),
        d) := by
  have hl : layerFlag (UInt8.ofNat l.toNat) = some l.pageFlag := by cases l <;> rfl
  have hread : (pageArray M).logged.read d block page headerSize =
      (OK, (d.dev block page).bytes.take headerSize, d) := rfl
  obtain ⟨hmagic, _⟩ := ofBytes_front (d.dev block page)
  rw [pageListed, hread]
  simp only [hB, Bool.false_eq_true, if_false, ne_eq, not_true_eq_false, hmagic]
  by_cases h : (d.dev block page).HasMagic
  · rw [decide_eq_true h, hl]; exact if_neg (not_not.2 h)
  · rw [decide_eq_false h]; exact if_pos h

/-! ## runs without a mount -/

/-- Every data page is erased or shows a batch whose layers are in the table. -/
def Store.Noted (M : Medium) (st : Store) (flags : Nat → Nat → UInt32) : Prop :=
  ∀ b p, IsData b → p < pageCount → st.flash b p = Page.blank ∨
    ∃ q : Batch, q.pageBytes ≤ 2000 ∧ ¬ q.IsEmpty ∧ st.flash b p = Page.image q.image M.fill ∧
      ∀ l : Layer, flags b p &&& l.pageFlag ≠ 0 ↔ q l ≠ []

namespace Store.Noted

variable {M : Medium} {st : Store} {flags : Nat → Nat → UInt32}

theorem put (h : st.Noted M flags) (hr : st.Ready) {q : Batch} (hfits : q.pageBytes ≤ 2000)
    (hne : ¬ q.IsEmpty) :
    (st.put M q.image).Noted M fun b p =>
      if b = st.cursor.block ∧ p = st.cursor.page then q.flags &&& 0xFF else flags b p := by
  have hlen : q.image.length ≤ pageSize := by rw [q.length_image]; unfold pageSize; omega
  intro b p hb hp
  dsimp only
  by_cases hbc : b = st.cursor.block
  · by_cases hpc : p = st.cursor.page
    · rw [if_pos ⟨hbc, hpc⟩, hbc, hpc]
      exact Or.inr ⟨q, hfits, hne, hr.put_flash_self M hlen, q.flags_and⟩
    · -- the rest of the block is as before or, after an erase, blank
      rw [if_neg fun hc => hpc hc.2, hbc, put_flash_block M st _ hpc]
      cases hm : st.marked st.cursor.block with
      | false =>
          rw [clean_of_not_marked hm]
          exact h _ p st.cursor.isData hp
      | true =>
          rw [(clean_of_marked hm).1]
          exact Or.inl (Flash.eraseBlock_same _ _ hp)
  · rw [if_neg fun hc => hbc hc.1, put_flash_ne M st _ hbc]
    exact h b p hb hp

theorem erase (h : st.Noted M flags) (c : Nat) : (st.erase c).Noted M flags := by
  intro b p hb hp
  show st.flash.eraseBlock c b p = Page.blank ∨ _
  by_cases hbc : b = c
  · rw [hbc]
    exact Or.inl (Flash.eraseBlock_same _ _ hp)
  · have hsame : (st.erase c).flash b p = st.flash b p := Flash.eraseBlock_ne _ hbc
    rw [Flash.eraseBlock_ne _ hbc, hsame]
    exact h b p hb hp

end Store.Noted

section noted

variable {B : Build} {M : Medium} {m : Model} {w : World (Logged Flash)}

/-- **A call that does not mount** keeps the table right. -/
theorem noted_next (hB : B.linux = false) (hm : m.Abstracts B w) (hr : m.store.Ready)
    (h : m.store.Noted M w.inst.pageFlags) (hop : op ≠ .remount) :
    (m.next B M op).store.Ready ∧
      (m.next B M op).store.Noted M (next B (pageArray M).logged w op).inst.pageFlags := by
  have hlog : op.IsLog → (m.next B M op).store.Ready ∧
      (m.next B M op).store.Noted M (next B (pageArray M).logged w op).inst.pageFlags := by
    intro hl
    have hflags : (next B (pageArray M).logged w op).inst.pageFlags = fun b p =>
        if m.log.Puts op ∧ b = m.store.cursor.block ∧ p = m.store.cursor.page
        then m.log.pending.flags &&& 0xFF else w.inst.pageFlags b p := by
      funext b p
      have hstatus := congrArg PageStatus.flags (pageStatus_next (M := M) hm hl b p)
      rw [FlushState.status, hB, (prepare_collects hm.buffers).1, apply_ite PageStatus.flags]
        at hstatus
      exact hstatus
    rw [Model.next_store_of_log hl, hflags]
    by_cases hputs : m.log.Puts op
    · simp only [hputs, true_and, if_true]
      exact ⟨hr.put M _, h.put hr hm.buffers.fits (LogState.not_isEmpty_of_puts hputs)⟩
    · simp only [hputs, false_and, if_false]
      exact ⟨hr, h⟩
  cases op with
  | append layer tmm buffer => exact hlog trivial
  | flush => exact hlog trivial
  | remount => exact absurd rfl hop
  | erase b => exact ⟨hr.erase b, h.erase b⟩

/-- Where the table is right, a page is listed exactly if it has records. -/
theorem listed_iff (hm : m.Abstracts B w) (h : m.store.Noted M w.inst.pageFlags) (l : Layer)
    {x : Nat × Nat} (hx : x ∈ dataPages) :
    (decide (w.dev.dev x.1 x.2).HasMagic && (w.inst.pageFlags x.1 x.2 &&& l.pageFlag != 0)) =
      hasRecord (pageArray M).logged w.dev (UInt8.ofNat l.toNat) x.1 x.2 := by
  obtain ⟨hb, hp⟩ := mem_dataPages.1 hx
  rw [Bool.eq_iff_iff]
  cases h x.1 x.2 hb hp with
  | inl hblank =>
      rw [← hm.shows.flash] at hblank
      have hno : ¬ (w.dev.dev x.1 x.2).HasMagic := by
        rw [hblank]; exact Page.not_hasMagic_blank
      rw [hasRecord_of_not_hasMagic M w.dev l x.1 x.2 hno, decide_eq_false hno, Bool.false_and]
  | inr hbatch =>
      obtain ⟨q, hfits, hne, hpage, hflags⟩ := hbatch
      rw [← hm.shows.flash] at hpage
      have hmagic : (w.dev.dev x.1 x.2).HasMagic := by
        rw [hpage]; exact q.hasMagic_image hfits hne M.fill
      rw [hasRecord_image M w.dev l x.1 x.2 hfits hpage, ← hflags l, decide_eq_true hmagic,
        Bool.true_and, bne_iff_ne]

end noted

/-- **From an erased data area the table stays right**, as long as nothing mounts. -/
theorem noted_session {B : Build} (hB : B.linux = false) (M : Medium) {f : Flash}
    (hf : ∀ b, IsData b → f.Blank b) {ops : List Op} (hops : ∀ op ∈ ops, op ≠ .remount) :
    ((Model.init B f).run B M ops).Abstracts B (pageSession B M f ops) ∧
      ((Model.init B f).run B M ops).store.Ready ∧
      ((Model.init B f).run B M ops).store.Noted M (pageSession B M f ops).inst.pageFlags := by
  have hinit : (Model.init B f).Abstracts B (pageSession B M f []) ∧
      (Model.init B f).store.Ready ∧
      (Model.init B f).store.Noted M (pageSession B M f []).inst.pageFlags :=
    ⟨Model.abstracts_init B M f,
      Store.ready_mount_of B (Or.inr (hf _ (Store.isData_mountBlock B f))),
      fun b p hb hp => Or.inl (hf b hb p hp)⟩
  exact run_simulates (R := fun w m => Model.Abstracts B m w ∧ m.store.Ready ∧
      m.store.Noted M w.inst.pageFlags)
    (fun w m op h hop => ⟨Model.abstracts_next h.1 op, noted_next hB h.1 h.2.1 h.2.2 hop⟩)
    hinit (along_of_forall hops _)

/-- **The search is exact** through any appends, flushes and erases, from an
erased data area. -/
theorem search_exact {B : Build} (hB : B.linux = false) (M : Medium) {f : Flash}
    (hf : ∀ b, IsData b → f.Blank b) {ops : List Op} (hops : ∀ op ∈ ops, op ≠ .remount) (l : Layer)
    {timerange : List TimeRange} {timerangecount : UInt16} (hpos : timerangecount ≠ 0)
    (hroom : timerangecount.toNat ≤ timerange.length) :
    Reports (pagesWith (pageArray M).logged (pageSession B M f ops).dev (UInt8.ofNat l.toNat))
      timerangecount.toNat timerange
      (mxfsTimerange B (pageArray M).logged (pageSession B M f ops).inst
        (pageSession B M f ops).dev (UInt8.ofNat l.toNat) timerange timerangecount).1 := by
  obtain ⟨hm, _, hnoted⟩ := noted_session hB M hf hops
  have hpages : pagesWith (pageArray M).logged (pageSession B M f ops).dev (UInt8.ofNat l.toNat) =
      dataPages.filter fun x => decide ((pageSession B M f ops).dev.dev x.1 x.2).HasMagic &&
        ((pageSession B M f ops).inst.pageFlags x.1 x.2 &&& l.pageFlag != 0) :=
    List.filter_congr fun x hx => (listed_iff hm hnoted l hx).symm
  rw [hpages]
  exact mxfsTimerange_reports (fun x _ => pageListed_pageArray hB M _ _ l x.1 x.2) hpos hroom

/-- Two flushes, the first page erased again. -/
theorem search_exact_erase :
    Reports (pagesWith (pageArray fakeMedium).logged
        (pageSession { linux := false, rp2040 := false } fakeMedium Flash.erased
          [.ofRecord .temperature temperatureSample, .flush, .erase 1,
            .ofRecord .temperature temperatureSample, .flush]).dev
        (UInt8.ofNat Layer.temperature.toNat))
      1 [⟨0, 0, 0, 0, 0⟩]
      (mxfsTimerange { linux := false, rp2040 := false } (pageArray fakeMedium).logged
        (pageSession { linux := false, rp2040 := false } fakeMedium Flash.erased
          [.ofRecord .temperature temperatureSample, .flush, .erase 1,
            .ofRecord .temperature temperatureSample, .flush]).inst
        (pageSession { linux := false, rp2040 := false } fakeMedium Flash.erased
          [.ofRecord .temperature temperatureSample, .flush, .erase 1,
            .ofRecord .temperature temperatureSample, .flush]).dev
        (UInt8.ofNat Layer.temperature.toNat) [⟨0, 0, 0, 0, 0⟩] 1).1 :=
  search_exact rfl fakeMedium (fun b _ => Flash.blank_erased b) (by simp [Op.ofRecord])
    .temperature (by decide) (by decide)

/-! ## after a mount -/

section mounted

variable {B : Build} (M : Medium) (d : Logged Flash)

theorem pageFlags_scanBlock (i : Inst) (c b p : Nat) :
    (scanBlock B (pageArray M).logged (i, d) c).1.pageFlags b p =
      if b = c then if B.linux then if p = 0 then 0 else i.pageFlags b p else 0xFF
      else i.pageFlags b p := by
  rw [scanBlock_eq]
  by_cases hb : b = c
  · rw [if_pos hb, hb, Inst.pageFlags, Inst.setBlock_blocks_same, scanRead]
    cases B.linux with
    | false => rfl
    | true =>
        by_cases hp : p = 0
        · simp [hp, pageValid]
        · simp [hp, Inst.pageFlags]
  · rw [if_neg hb, Inst.pageFlags, Inst.setBlock_blocks_ne _ _ hb]
    rfl

/-- Outside `__LINUX__` the scan sets every flag of the blocks it looks at. -/
theorem pageFlags_scan (hB : B.linux = false) (bs : List Nat) (i : Inst) (b p : Nat) :
    (bs.foldl (scanBlock B (pageArray M).logged) (i, d)).1.pageFlags b p =
      if b ∈ bs then 0xFF else i.pageFlags b p := by
  induction bs generalizing i with
  | nil => rfl
  | cons c bs ih =>
      have hdev := (scanBlock_pageArray M B i d c).1
      have hpair : scanBlock B (pageArray M).logged (i, d) c =
          ((scanBlock B (pageArray M).logged (i, d) c).1, d) := Prod.ext rfl hdev
      rw [List.foldl_cons, hpair, ih, pageFlags_scanBlock, hB]
      by_cases hb : b ∈ bs
      · simp [hb]
      · simp [hb]

/-- Under `__LINUX__` the scan leaves all flags clear. -/
theorem pageFlags_scan_linux (hB : B.linux = true) (bs : List Nat) {i : Inst}
    (hi : ∀ b p, i.pageFlags b p = 0) (b p : Nat) :
    (bs.foldl (scanBlock B (pageArray M).logged) (i, d)).1.pageFlags b p = 0 := by
  induction bs generalizing i with
  | nil => exact hi b p
  | cons c bs ih =>
      have hdev := (scanBlock_pageArray M B i d c).1
      have hpair : scanBlock B (pageArray M).logged (i, d) c =
          ((scanBlock B (pageArray M).logged (i, d) c).1, d) := Prod.ext rfl hdev
      rw [List.foldl_cons, hpair]
      refine ih fun b p => ?_
      rw [pageFlags_scanBlock, hB, hi b p]
      simp

/-- The flags after a mount. -/
theorem pageFlags_mounted (hb : IsData b) (p : Nat) :
    (World.mounted B (pageArray M).logged d).inst.pageFlags b p = if B.linux then 0 else 0xFF := by
  obtain ⟨_, hs⟩ := scan_pageArray M B dataBlocks (freshInst B) d
  have hfresh : ∀ b p, (freshInst B).pageFlags b p = 0 := fun _ _ => rfl
  rw [World.mounted_inst, mount_inst, findCurrent_scanned hs]
  cases hB : B.linux with
  | false =>
      refine (pageFlags_scan M d hB dataBlocks (freshInst B) b p).trans ?_
      rw [if_pos (mem_dataBlocks.2 hb)]; rfl
  | true => exact pageFlags_scan_linux M d hB dataBlocks hfresh b p

/-- **A mount lists** every page with magic, or under `__LINUX__` none. -/
theorem pageListed_mounted (l : Layer) {x : Nat × Nat} (hx : x ∈ dataPages) :
    pageListed B (pageArray M).logged (World.mounted B (pageArray M).logged d).inst
        (UInt8.ofNat l.toNat) d x.1 x.2 =
      (some (!B.linux && decide (d.dev x.1 x.2).HasMagic), d) := by
  have hflags := pageFlags_mounted (B := B) M d (mem_dataPages.1 hx).1 x.2
  cases hB : B.linux with
  | false =>
      have hbyte : (0xFF : UInt32) &&& l.pageFlag != 0 := by cases l <;> decide
      rw [hB] at hflags
      rw [pageListed_pageArray hB, hflags]
      simp [hbyte]
  | true =>
      have hl : layerFlag (UInt8.ofNat l.toNat) = some l.pageFlag := by cases l <;> rfl
      rw [hB, Inst.pageFlags] at hflags
      rw [pageListed, if_pos hB, hflags, hl]
      simp

theorem world_mounted_dev : (World.mounted B (pageArray M).logged d).dev = d := by
  rw [World.mounted_dev, mount_dev, (scan_pageArray M B dataBlocks (freshInst B) d).1]

end mounted

/-- Only one list of pages is reported by an array that holds them all. -/
theorem Reports.unique {xs ys : List (Nat × Nat)} {before : List TimeRange}
    {r : Option (Int × List TimeRange)} (hx : xs.length ≤ count) (hy : ys.length ≤ count)
    (h : Reports xs count before r) (h' : Reports ys count before r) : xs = ys := by
  cases r with
  | none => exact h.elim
  | some r =>
      obtain ⟨ret, after⟩ := r
      obtain ⟨hret, htake, _⟩ := h
      obtain ⟨hret', htake', _⟩ := h'
      rw [if_pos hx] at hret
      rw [if_pos hy] at hret'
      have hlen : xs.length = ys.length := by omega
      rw [List.take_of_length_le hx] at htake
      rw [List.take_of_length_le hy] at htake'
      rw [← htake, ← htake', hlen]

theorem filter_eq_filter_iff {xs : List α} {p q : α → Bool} :
    xs.filter p = xs.filter q ↔ ∀ x ∈ xs, p x = q x := by
  constructor
  · intro h x hx
    have hp : x ∈ xs.filter p ↔ p x = true := by simp [hx]
    have hq : x ∈ xs.filter q ↔ q x = true := by simp [hx]
    rw [Bool.eq_iff_iff, ← hp, ← hq, h]
  · exact List.filter_congr

/-- The search right after a mount of `d` reports the pages with records. -/
def SearchExact (B : Build) (M : Medium) (d : Logged Flash) (l : Layer)
    (timerange : List TimeRange) (timerangecount : UInt16) : Prop :=
  Reports
    (pagesWith (pageArray M).logged (World.mounted B (pageArray M).logged d).dev
      (UInt8.ofNat l.toNat))
    timerangecount.toNat timerange
    (mxfsTimerange B (pageArray M).logged (World.mounted B (pageArray M).logged d).inst
      (World.mounted B (pageArray M).logged d).dev (UInt8.ofNat l.toNat) timerange
      timerangecount).1

section mounted

variable {B : Build} {M : Medium} {d : Logged Flash} {l : Layer} {timerange : List TimeRange}
variable {timerangecount : UInt16}

/-- A search is exact if the pages it lists are those with records. -/
theorem searchExact_iff (hcount : dataPages.length ≤ timerangecount.toNat)
    (hroom : timerangecount.toNat ≤ timerange.length) :
    SearchExact B M d l timerange timerangecount ↔
      ∀ x ∈ dataPages, (!B.linux && decide (d.dev x.1 x.2).HasMagic) =
        hasRecord (pageArray M).logged d (UInt8.ofNat l.toNat) x.1 x.2 := by
  have hne : timerangecount ≠ 0 := by
    intro hz
    rw [hz] at hcount
    have hmem : ((1, 0) : Nat × Nat) ∈ dataPages := mem_dataPages.2 (by decide)
    have hpos := List.length_pos_of_mem hmem
    exact absurd hcount (by simpa using Nat.ne_of_gt hpos)
  have hlisted := mxfsTimerange_reports
    (fun x hx => pageListed_mounted (B := B) M d l hx) hne hroom
  have hle : ∀ p : Nat × Nat → Bool, (dataPages.filter p).length ≤ timerangecount.toNat :=
    fun p => Nat.le_trans (List.length_filter_le p dataPages) hcount
  rw [SearchExact, world_mounted_dev, pagesWith, ← filter_eq_filter_iff]
  constructor
  · intro h
    exact Reports.unique (hle _) (hle _) hlisted h
  · intro h
    rw [← h]
    exact hlisted

end mounted

/-- **The search right after a mount is exact** for a layer exactly if, outside
`__LINUX__`, every data page with magic has a record of the layer, and under
`__LINUX__` no data page has one. -/
theorem search_after_mount_iff (B : Build) (M : Medium) (d : Logged Flash) (l : Layer)
    {timerange : List TimeRange} {timerangecount : UInt16}
    (hcount : dataPages.length ≤ timerangecount.toNat)
    (hroom : timerangecount.toNat ≤ timerange.length) :
    SearchExact B M d l timerange timerangecount ↔
      ∀ b p, IsData b → p < pageCount →
        if B.linux then hasRecord (pageArray M).logged d (UInt8.ofNat l.toNat) b p = false
        else (d.dev b p).HasMagic →
          hasRecord (pageArray M).logged d (UInt8.ofNat l.toNat) b p = true := by
  rw [searchExact_iff hcount hroom]
  have hpage : ∀ b p, ((!B.linux && decide (d.dev b p).HasMagic) =
        hasRecord (pageArray M).logged d (UInt8.ofNat l.toNat) b p ↔
      if B.linux then hasRecord (pageArray M).logged d (UInt8.ofNat l.toNat) b p = false
        else (d.dev b p).HasMagic →
          hasRecord (pageArray M).logged d (UInt8.ofNat l.toNat) b p = true) := by
    intro b p
    have hno := hasRecord_of_not_hasMagic M d l b p
    generalize hasRecord (pageArray M).logged d (UInt8.ofNat l.toNat) b p = found at hno ⊢
    cases B.linux with
    | true => simp [eq_comm]
    | false =>
        by_cases hm : (d.dev b p).HasMagic
        · simp [hm, eq_comm]
        · simp [hm, hno hm]
  constructor
  · intro h b p hb hp
    exact (hpage b p).1 (h (b, p) (mem_dataPages.2 ⟨hb, hp⟩))
  · intro h x hx
    obtain ⟨hb, hp⟩ := mem_dataPages.1 hx
    exact (hpage x.1 x.2).2 (h x.1 x.2 hb hp)

theorem length_dataPages : dataPages.length = 65472 := by
  have hblock : ∀ b ∈ dataBlocks,
      ((List.range pageCount).map fun page => (b, page)).length = pageCount := by simp
  rw [dataPages, length_flatMap_const hblock, dataBlocks_eq, List.length_range', pageCount]

/-- An array for every page of the data area. -/
def pageBuffer : List TimeRange := List.replicate 65535 ⟨0, 0, 0, 0, 0⟩

/-- The first page after one record was flushed. -/
theorem page_append_flush (B : Build) (M : Medium) (l : Layer) (r : Record l) :
    (pageSession B M Flash.erased [.ofRecord l r, .flush]).dev.dev 1 0 =
      Page.image (Batch.single l r).image M.fill := by
  have hm := Model.abstracts_run B M Flash.erased [.ofRecord l r, .flush]
  rw [Model.run_append_flush B M rfl] at hm
  have hready : (Model.init B Flash.erased).store.Ready := Store.ready_mount B detectable_erased
  have hblock : (Model.init B Flash.erased).store.cursor.block = 1 := by
    rw [Model.init, Store.mount_block]
    exact Store.mountBlock_of_first B Page.not_hasMagic_blank
  have hpage : (Model.init B Flash.erased).store.cursor.page = 0 := rfl
  have hfits := Batch.pageBytes_single_le l r
  have hlen : (Batch.single l r).image.length ≤ pageSize := by
    rw [Batch.length_image]
    unfold pageSize
    omega
  have hself := hready.put_flash_self M hlen
  rw [hblock, hpage] at hself
  rw [hm.shows.flash]
  exact hself

/-- After an append and a flush on an erased device all pages but the first are erased. -/
theorem page_append_flush_ne (B : Build) (M : Medium) (l : Layer) (r : Record l) {b p : Nat}
    (h : ¬ (b = 1 ∧ p = 0)) :
    (pageSession B M Flash.erased [.ofRecord l r, .flush]).dev.dev b p = Page.blank := by
  have hm := Model.abstracts_run B M Flash.erased [.ofRecord l r, .flush]
  rw [Model.run_append_flush B M rfl] at hm
  have hblock : (Model.init B Flash.erased).store.cursor.block = 1 := by
    rw [Model.init, Store.mount_block]
    exact Store.mountBlock_of_first B Page.not_hasMagic_blank
  have hclean : (Model.init B Flash.erased).store.clean.flash b p = Page.blank := by
    cases hmarked : (Model.init B Flash.erased).store.marked
        (Model.init B Flash.erased).store.cursor.block with
    | false =>
        rw [Store.clean_of_not_marked hmarked]
        rfl
    | true =>
        rw [(Store.clean_of_marked hmarked).1, Flash.eraseBlock]
        exact ite_self _
  rw [hm.shows.flash]
  have hpage : (Model.init B Flash.erased).store.cursor.page = 0 := rfl
  show ((Model.init B Flash.erased).store.put M _).flash b p = _
  rw [Store.put_flash, hblock, hpage, Flash.setPage_ne _ _ h]
  exact hclean

/-- One temperature record is flushed, and the temperature search after a mount reports
its page. -/
theorem search_after_mount_flushed :
    SearchExact { linux := false, rp2040 := false } fakeMedium
      (pageSession { linux := false, rp2040 := false } fakeMedium Flash.erased
        [.ofRecord .temperature temperatureSample, .flush]).dev .temperature pageBuffer 65535 := by
  have hfits := Batch.pageBytes_single_le .temperature temperatureSample
  have hpage := page_append_flush { linux := false, rp2040 := false } fakeMedium .temperature
    temperatureSample
  refine (search_after_mount_iff { linux := false, rp2040 := false } fakeMedium _ .temperature
    ?_ ?_).2 ?_
  · rw [length_dataPages]; decide
  · rw [pageBuffer, List.length_replicate]; decide
  · intro b p _ _ hm
    by_cases hself : b = 1 ∧ p = 0
    · obtain ⟨rfl, rfl⟩ := hself
      exact (hasRecord_image fakeMedium _ .temperature 1 0 hfits hpage).2
        (by rw [Batch.single_same]; simp)
    · rw [page_append_flush_ne _ _ _ _ hself] at hm
      exact absurd hm Page.not_hasMagic_blank

/-- One temperature record is flushed: after a mount the speed search reports its
page, and under `__LINUX__` the temperature search does not. -/
theorem search_after_mount_wrong :
    ¬ SearchExact { linux := false, rp2040 := false } fakeMedium
        (pageSession { linux := false, rp2040 := false } fakeMedium Flash.erased
          [.ofRecord .temperature temperatureSample, .flush]).dev .antpSpeed pageBuffer 65535 ∧
      ¬ SearchExact { linux := true, rp2040 := false } fakeMedium
        (pageSession { linux := true, rp2040 := false } fakeMedium Flash.erased
          [.ofRecord .temperature temperatureSample, .flush]).dev .temperature pageBuffer
        65535 := by
  have hcount : dataPages.length ≤ (65535 : UInt16).toNat := by rw [length_dataPages]; decide
  have hroom : (65535 : UInt16).toNat ≤ pageBuffer.length := by
    rw [pageBuffer, List.length_replicate]; decide
  have hx : ((1, 0) : Nat × Nat) ∈ dataPages := mem_dataPages.2 (by decide)
  have hfits := Batch.pageBytes_single_le .temperature temperatureSample
  have hmagic := Batch.hasMagic_image _ hfits (Batch.not_isEmpty_single _ _) fakeMedium.fill
  constructor
  · intro h
    have hpage := page_append_flush { linux := false, rp2040 := false } fakeMedium .temperature
      temperatureSample
    have hlisted := (searchExact_iff hcount hroom).1 h (1, 0) hx
    have hspeed := hasRecord_image fakeMedium _ .antpSpeed 1 0 hfits hpage
    rw [hpage, decide_eq_true hmagic, Bool.not_false, Bool.true_and] at hlisted
    exact absurd (hspeed.1 hlisted.symm) (by simp [Batch.single, Batch.push])
  · intro h
    have hpage := page_append_flush { linux := true, rp2040 := false } fakeMedium .temperature
      temperatureSample
    have hlisted := (searchExact_iff hcount hroom).1 h (1, 0) hx
    have hrecord := (hasRecord_image fakeMedium _ .temperature 1 0 hfits hpage).2
      (by rw [Batch.single_same]; simp)
    rw [hrecord] at hlisted
    simp at hlisted

end Mxfs