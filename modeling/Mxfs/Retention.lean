import Mxfs.EraseFirst

/-!
# Mxfs.Retention

What is programmed stays, across remounts.  Outside `__LINUX__` a mount goes
to the first block without magic, so until the cursor wraps the used blocks are
the first ones of the data area (`Store.Filled`) and the cursor only moves
forward; no request comes back to a page that was programmed (`Store.Kept`).
-/

namespace Mxfs

open Lib

/-! ## behind the cursor -/

/-- The page comes before the cursor. -/
def Cursor.Past (c : Cursor) (b p : Nat) : Prop := b < c.block ∨ b = c.block ∧ p < c.page

/-- The next page follows the cursor, short of the end of the data area. -/
theorem Cursor.next_cases {c : Cursor} (h : ¬ (c.block = 1023 ∧ c.next.block = 1)) :
    (c.next.block = c.block ∧ c.next.page = c.page + 1) ∨
      (c.next.block = c.block + 1 ∧ c.next.page = 0) := by
  by_cases hlast : c.page + 1 < pageCount
  · exact Or.inl (next_of_lt hlast)
  · obtain ⟨hb, hp⟩ := next_of_last hlast
    have hdata := isData_iff.1 c.isData
    refine Or.inr ⟨?_, hp⟩
    rw [hb] at h ⊢
    unfold nextBlock blockCount blockStartDataArea at h ⊢
    grind

theorem Cursor.past_next {c : Cursor} (h : ¬ (c.block = 1023 ∧ c.next.block = 1))
    (hp : c.Past b p ∨ (b = c.block ∧ p = c.page)) : c.next.Past b p := by
  unfold Past at hp ⊢
  cases next_cases h <;> omega

/-- An earlier program is on a page before that of a later one, and in a block
before that of a later erase. -/
def Call.Before (c c' : Call Flash) : Prop :=
  match c.request, c'.request with
  | .write b p _, .write b' p' _ => b < b' ∨ b = b' ∧ p < p'
  | .write b _ _, .erase b' => b < b'
  | .erase _, _ => True

theorem Call.before_write {calls : List (Call Flash)} {c' : Call Flash} {b' p' : Nat}
    (hc' : c'.request = .write b' p' data)
    (h : ∀ x ∈ writes calls, x.1 < b' ∨ x.1 = b' ∧ x.2.1 < p') : ∀ c ∈ calls, c.Before c' := by
  intro c hc
  cases hr : c.request with
  | write b p data =>
      have hx := h (b, p, data) (List.mem_filterMap.2 ⟨c, hc, by rw [hr]; rfl⟩)
      simp only [Before, hr, hc']
      exact hx
  | erase b => simp only [Before, hr]

theorem Call.before_erase {calls : List (Call Flash)} {c' : Call Flash} {b' : Nat}
    (hc' : c'.request = .erase b') (h : ∀ x ∈ writes calls, x.1 < b') :
    ∀ c ∈ calls, c.Before c' := by
  intro c hc
  cases hr : c.request with
  | write b p data =>
      have hx := h (b, p, data) (List.mem_filterMap.2 ⟨c, hc, by rw [hr]; rfl⟩)
      simp only [Before, hr, hc']
      exact hx
  | erase b => simp only [Before, hr]

namespace Store

/-! ## the past of a store -/

/-- Every program so far is behind the cursor and still on the flash. -/
structure Kept (M : Medium) (st : Store) : Prop where
  past : ∀ x ∈ writes st.calls, st.cursor.Past x.1 x.2.1
  held : ∀ x ∈ writes st.calls, st.flash x.1 x.2.1 = Page.image x.2.2 M.fill
  ordered : st.calls.Pairwise Call.Before

/-- The erase of the current block meets no program. -/
theorem Kept.clean {M : Medium} {st : Store} (h : st.Kept M) (hr : st.Ready) :
    st.clean.Kept M := by
  cases hm : st.marked st.cursor.block with
  | false => rw [clean_of_not_marked hm]; exact h
  | true =>
      have hzero := hr.first hm
      have hbelow : ∀ x ∈ writes st.calls, x.1 < st.cursor.block := by
        intro x hx
        have := h.past x hx
        unfold Cursor.Past at this
        omega
      constructor
      · rw [writes_clean, clean_cursor]; exact h.past
      · rw [writes_clean]
        intro x hx
        rw [clean_flash_ne st (Nat.ne_of_lt (hbelow x hx))]
        exact h.held x hx
      · rw [(clean_of_marked hm).2, List.pairwise_append]
        refine ⟨h.ordered, List.pairwise_singleton _ _, fun c hc c' hc' => ?_⟩
        rw [List.mem_singleton.1 hc']
        exact Call.before_erase rfl hbelow c hc

/-- **A put keeps the past**, unless it wraps. -/
theorem Kept.put {M : Medium} {st : Store} (h : st.Kept M) (hr : st.Ready)
    (hlen : data.length ≤ pageSize)
    (hwrap : ¬ (st.cursor.block = 1023 ∧ st.cursor.next.block = 1)) :
    (st.put M data).Kept M := by
  have hclean := h.clean hr
  have hpast := hclean.past
  rw [clean_cursor] at hpast
  constructor
  · intro x hx
    rw [writes_put, ← writes_clean, List.mem_append, List.mem_singleton] at hx
    rw [put_cursor]
    apply Cursor.past_next hwrap
    rcases hx with hx | rfl
    · exact Or.inl (hpast x hx)
    · exact Or.inr ⟨rfl, rfl⟩
  · intro x hx
    rw [writes_put, ← writes_clean, List.mem_append, List.mem_singleton] at hx
    rcases hx with hx | rfl
    · have hne : ¬ (x.1 = st.cursor.block ∧ x.2.1 = st.cursor.page) := by
        have := hpast x hx
        unfold Cursor.Past at this
        omega
      rw [put_flash, Flash.setPage_ne _ _ hne]
      exact hclean.held x hx
    · exact hr.put_flash_self M hlen
  · rw [put_calls, List.pairwise_append]
    refine ⟨hclean.ordered, List.pairwise_singleton _ _, fun c hc c' hc' => ?_⟩
    rw [List.mem_singleton.1 hc']
    exact Call.before_write rfl hpast c hc

/-! ## the used blocks -/

/-- The blocks before the cursor show their magic. -/
def Behind (st : Store) : Prop := ∀ b, IsData b → b < st.cursor.block → (st.flash b 0).HasMagic

/-- A put leaves no block without magic behind, wrapping or not. -/
theorem Behind.put {st : Store} (h : st.Behind) (hr : st.Ready) (hf : st.Fronted) (M : Medium)
    (hlen : data.length ≤ pageSize) (hmagic : (Page.image data M.fill).HasMagic) :
    (st.put M data).Behind := by
  intro b hb hlt
  have hnext : st.cursor.next.block ≤ st.cursor.block + 1 := by
    by_cases hlast : st.cursor.page + 1 < pageCount
    · have := (Cursor.next_of_lt hlast).1
      omega
    · rw [(Cursor.next_of_last hlast).1]
      unfold Cursor.nextBlock blockStartDataArea
      split <;> omega
  rw [put_cursor] at hlt
  by_cases hbc : b = st.cursor.block
  · rw [hbc]; exact hr.put_front M hlen hmagic hf
  · rw [put_flash_ne M st data hbc]
    exact h b hb (by omega)

/-- The used blocks are those up to the cursor. -/
structure Filled (st : Store) : Prop where
  ready : st.Ready
  fronted : st.Fronted
  used : st.Behind
  fresh : ∀ b, IsData b → st.cursor.block < b → st.flash.Blank b
  tail : ∀ q, st.cursor.page ≤ q → q < pageCount → st.flash st.cursor.block q = Page.blank

theorem Filled.put {st : Store} (h : st.Filled) (M : Medium) (hlen : data.length ≤ pageSize)
    (hmagic : (Page.image data M.fill).HasMagic)
    (hwrap : ¬ (st.cursor.block = 1023 ∧ st.cursor.next.block = 1)) : (st.put M data).Filled := by
  have hcases := Cursor.next_cases hwrap
  constructor
  · exact h.ready.put M data
  · exact h.ready.fronted_put M hlen hmagic h.fronted
  · exact h.used.put h.ready h.fronted M hlen hmagic
  · intro b hb hlt p hp
    rw [put_cursor] at hlt
    rw [put_flash_ne M st data (by omega)]
    exact h.fresh b hb (by omega) p hp
  · intro q hq hlt
    rw [put_cursor] at hq ⊢
    rcases hcases with ⟨hnb, hnp⟩ | ⟨hnb, hnp⟩
    · rw [hnb, put_flash_block M st data (by omega)]
      exact h.ready.clean_tail (by omega) hlt
    · have hdata := Cursor.isData st.cursor.next
      rw [hnb] at hdata ⊢
      rw [put_flash_ne M st data (by omega)]
      exact h.fresh _ hdata (by omega) q hlt

/-! ### a mount -/

/-- With a block without magic among them, the scan stops at the first one. -/
theorem pickBlock_first {f : Flash} {s n : Nat}
    (h : ∃ b, s ≤ b ∧ b < s + n ∧ ¬ (f b 0).HasMagic) (t c : Nat) :
    ¬ (f (pickBlock f (List.range' s n) t c) 0).HasMagic ∧
      ∀ b, s ≤ b → b < pickBlock f (List.range' s n) t c → (f b 0).HasMagic := by
  induction n generalizing s t c with
  | zero =>
      obtain ⟨b, hle, hlt, _⟩ := h
      omega
  | succ n ih =>
      obtain ⟨b, hle, hlt, hb⟩ := h
      rw [List.range'_succ, pickBlock]
      by_cases hm : (f s 0).HasMagic
      · have hbs : b ≠ s := by
          intro he
          exact hb (he ▸ hm)
        have hrest := ih (s := s + 1) ⟨b, by omega, by omega, hb⟩
        have hstart : ∀ t c,
            ¬ (f (pickBlock f (List.range' (s + 1) n) t c) 0).HasMagic ∧
              ∀ a, s ≤ a → a < pickBlock f (List.range' (s + 1) n) t c → (f a 0).HasMagic := by
          intro t c
          refine ⟨(hrest t c).1, fun a ha hlt => ?_⟩
          by_cases has : a = s
          · rw [has]; exact hm
          · exact (hrest t c).2 a (by omega) hlt
        rw [if_pos hm]
        split
        · exact hstart _ _
        · exact hstart _ _
      · rw [if_neg hm]
        exact ⟨hm, fun a ha hlt => by omega⟩

theorem mountBlock_first {B : Build} (hB : B.linux = false) {f : Flash} (hb : IsData b)
    (hm : ¬ (f b 0).HasMagic) :
    ¬ (f (mountBlock B f) 0).HasMagic ∧
      ∀ a, IsData a → a < mountBlock B f → (f a 0).HasMagic := by
  have hrange := isData_iff.1 hb
  have hpick := pickBlock_first ⟨b, hrange.1, by omega, hm⟩ 0 blockStartDataArea (n := 1023)
  have hblock : mountBlock B f = pickBlock f (List.range' 1 1023) 0 blockStartDataArea := by
    rw [mountBlock, if_neg (by rw [hB]; decide), dataBlocks_eq]
  rw [hblock]
  exact ⟨hpick.1, fun a ha => hpick.2 a (isData_iff.1 ha).1⟩

/-- **A mount of a device with an erased block** stays, or moves to the block
after the cursor. -/
theorem Filled.mount {B : Build} (hB : B.linux = false) {st : Store} (h : st.Filled)
    (hb : IsData b) (hblank : st.flash.Blank b) :
    (st.mount B).Filled ∧
      (st.cursor.block < (st.mount B).cursor.block ∨
        (st.mount B).cursor.block = st.cursor.block ∧ st.cursor.page = 0) := by
  have hm : ¬ (st.flash b 0).HasMagic := by
    rw [hblank 0 (by decide)]
    exact Page.not_hasMagic_blank
  obtain ⟨hnot, hbefore⟩ := mountBlock_first hB hb hm
  have hdata := isData_mountBlock B st.flash
  -- every block before the cursor has its magic, so the scan gets that far
  have hge : st.cursor.block ≤ mountBlock B st.flash := by
    by_contra hlt
    exact hnot (h.used _ hdata (by omega))
  have hmove : st.cursor.block < mountBlock B st.flash ∨
      mountBlock B st.flash = st.cursor.block ∧ st.cursor.page = 0 := by
    by_cases heq : mountBlock B st.flash = st.cursor.block
    · refine Or.inr ⟨heq, ?_⟩
      by_contra hp
      rw [heq] at hnot
      exact hnot (h.fronted hp)
    · exact Or.inl (by omega)
  have htail : ∀ q < pageCount, st.flash (mountBlock B st.flash) q = Page.blank := by
    intro q hq
    cases hmove with
    | inl hlt => exact h.fresh _ hdata hlt q hq
    | inr heq =>
        rw [heq.1]
        exact h.tail q (by omega) hq
  refine ⟨⟨?_, fronted_mount B st, hbefore, ?_, fun q _ hq => htail q hq⟩, hmove⟩
  · exact ⟨fun _ => rfl, fun _ q _ hq => htail q hq⟩
  · intro a ha hlt
    have hlt : mountBlock B st.flash < a := hlt
    exact h.fresh a ha (by omega)

theorem Kept.mount {B : Build} {M : Medium} {st : Store} (h : st.Kept M)
    (hmove : st.cursor.block < (st.mount B).cursor.block ∨
      (st.mount B).cursor.block = st.cursor.block ∧ st.cursor.page = 0) : (st.mount B).Kept M := by
  refine ⟨fun x hx => ?_, h.held, h.ordered⟩
  have hpast := h.past x hx
  unfold Cursor.Past at hpast ⊢
  omega

end Store

/-! ## whole runs -/

/-- The call moves the cursor from the last block back to the first. -/
def World.Wraps (B : Build) (D : Driver σ) (w : World σ) (op : Op) : Prop :=
  op.IsLog ∧ w.inst.mxfsCurrentBlock + 1 = blockCount ∧
    (next B D w op).inst.mxfsCurrentBlock = blockStartDataArea

/-- Everything ever programmed is on the device of `w`, and was programmed in
the order of the pages with no erase behind it. -/
structure Retained (M : Medium) (w : World (Logged Flash)) : Prop where
  held : ∀ x ∈ writes w.dev.calls, w.dev.dev x.1 x.2.1 = Page.image x.2.2 M.fill
  ordered : w.dev.calls.Pairwise Call.Before

/-- One call that does not wrap, and mounts only with an erased block left. -/
theorem Model.Abstracts.retains {B : Build} (hB : B.linux = false) {M : Medium} {m : Model}
    {w : World (Logged Flash)} (hm : m.Abstracts B w) (hf : m.store.Filled) (hk : m.store.Kept M)
    (herase : ∀ b, op ≠ .erase b) (hwrap : ¬ w.Wraps B (pageArray M).logged op)
    (hmount : op = .remount → ∃ b, IsData b ∧ w.dev.dev.Blank b) :
    (m.next B M op).store.Filled ∧ (m.next B M op).store.Kept M := by
  have hlog : op.IsLog → (m.next B M op).store.Filled ∧ (m.next B M op).store.Kept M := by
    intro hl
    have hstore := Model.next_store_of_log hl B M (m := m)
    have hblock := (Model.abstracts_next hm op (M := M)).shows.block
    rw [hstore] at hblock ⊢
    by_cases hputs : m.log.Puts op
    · rw [if_pos hputs] at hblock ⊢
      obtain ⟨hlen, hmagic⟩ := hm.data hputs M.fill
      have hnowrap : ¬ (m.store.cursor.block = 1023 ∧ m.store.cursor.next.block = 1) := by
        intro hw
        apply hwrap
        rw [World.Wraps, hblock, hm.shows.block, Store.put_cursor, hw.1, hw.2]
        exact ⟨hl, rfl, rfl⟩
      exact ⟨hf.put M hlen hmagic hnowrap, hk.put hf.ready hlen hnowrap⟩
    · rw [if_neg hputs]
      exact ⟨hf, hk⟩
  cases op with
  | append layer tmm buffer => exact hlog trivial
  | flush => exact hlog trivial
  | remount =>
      obtain ⟨b, hb, hblank⟩ := hmount rfl
      rw [hm.shows.flash] at hblank
      obtain ⟨hfilled, hmove⟩ := hf.mount hB hb hblank
      exact ⟨hfilled, hk.mount hmove⟩
  | erase b => exact absurd rfl (herase b)

theorem Store.filled_start (B : Build) {f : Flash} (hf : ∀ b, IsData b → f.Blank b) :
    ((Store.start f).mount B).Filled := by
  have hnot : ¬ (f 1 0).HasMagic := by
    rw [hf 1 (by decide) 0 (by decide)]
    exact Page.not_hasMagic_blank
  have hblock : ((Store.start f).mount B).cursor.block = 1 := Store.mountBlock_of_first B hnot
  have hd : Detectable f := (detectable_iff f).2 fun b hb => Or.inr (hf b hb)
  refine ⟨Store.ready_mount B hd, Store.fronted_mount B _, ?_, fun b hb _ => hf b hb, ?_⟩
  · intro b hb hlt
    rw [hblock] at hlt
    have := isData_iff.1 hb
    omega
  · intro q _ hq
    exact hf _ (Cursor.isData _) q hq

theorem Store.kept_start (B : Build) (M : Medium) (f : Flash) :
    ((Store.start f).mount B).Kept M where
  past := by intro x hx; cases hx
  held := by intro x hx; cases hx
  ordered := List.Pairwise.nil

/-- **What is flushed stays**: from an erased data area, through any appends,
flushes and remounts, as long as the cursor has not wrapped and every remount
finds an erased block. -/
theorem retained_session {B : Build} (hB : B.linux = false) (M : Medium) {f : Flash}
    (hf : ∀ b, IsData b → f.Blank b) {ops : List Op} (hops : ∀ op ∈ ops, ∀ b, op ≠ .erase b)
    (hrun : Along (next B (pageArray M).logged)
      (fun w op => ¬ w.Wraps B (pageArray M).logged op ∧
        (op = .remount → ∃ b, IsData b ∧ w.dev.dev.Blank b))
      (pageSession B M f []) ops) :
    Retained M (pageSession B M f ops) := by
  obtain ⟨hm, _, hk⟩ : ((Model.init B f).run B M ops).Abstracts B (pageSession B M f ops) ∧
      ((Model.init B f).run B M ops).store.Filled ∧
      ((Model.init B f).run B M ops).store.Kept M :=
    run_simulates (R := fun w m => Model.Abstracts B m w ∧ m.store.Filled ∧ m.store.Kept M)
      (fun _ _ op h hop => ⟨Model.abstracts_next h.1 op,
        h.1.retains hB h.2.1 h.2.2 hop.1 hop.2.1 hop.2.2⟩)
      ⟨Model.abstracts_init B M f, Store.filled_start B hf, Store.kept_start B M f⟩
      ((along_of_forall hops _).and hrun)
  constructor
  · rw [hm.shows.calls, hm.shows.flash]
    exact hk.held
  · rw [hm.shows.calls]
    exact hk.ordered

/-- Away from the last block no call wraps. -/
theorem World.not_wraps {B : Build} {D : Driver σ} {w : World σ}
    (h : w.inst.mxfsCurrentBlock + 1 ≠ blockCount) (op : Op) : ¬ w.Wraps B D op :=
  fun hw => h hw.2.1

/-- A record is flushed, and the device mounted again. -/
theorem retained_session_remount :
    Retained (nandMedium 0xFF) (pageSession { linux := false, rp2040 := false } (nandMedium 0xFF)
      Flash.erased [.ofRecord .temperature temperatureSample, .flush, .remount]) := by
  generalize hB : ({ linux := false, rp2040 := false } : Build) = B
  generalize nandMedium 0xFF = M
  have herased : ∀ b, IsData b → Flash.erased.Blank b := fun _ _ _ _ => rfl
  have h0 : (Model.init B Flash.erased).Abstracts B (pageSession B M Flash.erased []) :=
    Model.abstracts_init B M Flash.erased
  have h1 := Model.abstracts_next (M := M) h0 (.ofRecord .temperature temperatureSample)
  have h2 := Model.abstracts_next (M := M) h1 .flush
  have hfirst : (Model.init B Flash.erased).store.cursor.block = 1 :=
    Store.mountBlock_of_first B Page.not_hasMagic_blank
  have hstore : ((Model.init B Flash.erased).next B M
      (.ofRecord .temperature temperatureSample)).store = (Model.init B Flash.erased).store := by
    have hlog : Op.IsLog (.ofRecord .temperature temperatureSample) := trivial
    rw [Model.next_store_of_log hlog, if_neg]
    rw [Op.ofRecord, LogState.puts_append_of_some (record?_ofRecord _ _)]
    exact not_full_empty .temperature
  have hblock0 := h0.shows.block
  have hblock1 := h1.shows.block
  rw [hfirst] at hblock0
  rw [hstore, hfirst] at hblock1
  refine retained_session (by rw [← hB]) M herased ?_
    ⟨⟨World.not_wraps (by rw [hblock0]; decide) _, by intro h; cases h⟩,
      ⟨World.not_wraps (by rw [hblock1]; decide) _, by intro h; cases h⟩,
      ⟨fun h => h.1, fun _ => ⟨2, by decide, ?_⟩⟩, trivial⟩
  · intro op hop b he
    subst he
    simp [Op.ofRecord] at hop
  · -- the flush left block 2 alone
    intro p hp
    have hlog : Op.IsLog .flush := trivial
    rw [h2.shows.flash, Model.next_store_of_log hlog, hstore]
    split
    · rw [Store.put_flash_ne M _ _ (by rw [hfirst]; decide)]; rfl
    · rfl

end Mxfs
