import Mxfs.Model
import Mxfs.PageFit

/-!
# Mxfs.EraseFirst

Erase before program.  The only record of whether a block needs an erase is
its mark, set when the cursor enters the block or rebuilt at a mount from one
header of the block.

* `Store.Ready` — the mark, the cursor and the tail of the current block agree,
  so that a put programs an erased page;
* `Detectable` — what a mount looks at is enough to tell a used block;
* `Store.Fronted` — past page 0 the current block shows its magic.  A put keeps
  `Detectable` exactly if it holds (`detectable_put_iff`), and only an erase by
  the client breaks it.
-/

namespace Mxfs

open Lib

/-! ## the invariants -/

/-- A data block with anything on it has its magic on page 0. -/
def Detectable (f : Flash) : Prop :=
  ∀ b, IsData b → (∃ p < pageCount, f b p ≠ Page.blank) → (f b 0).HasMagic

/-- Every data block has its magic or is erased. -/
theorem Detectable.magic_or_blank {f : Flash} (h : Detectable f) (hb : IsData b) :
    (f b 0).HasMagic ∨ f.Blank b := by
  by_cases hm : (f b 0).HasMagic
  · exact Or.inl hm
  · refine Or.inr fun p hp => ?_
    by_contra hne
    exact hm (h b hb ⟨p, hp, hne⟩)

theorem detectable_erased : Detectable Flash.erased := by
  intro b _ hex
  obtain ⟨p, _, hne⟩ := hex
  exact absurd rfl hne

/-- A request that programs an erased page. -/
def Call.OnErased (c : Call Flash) : Prop :=
  match c.request with
  | .write block page _ => c.before block page = Page.blank
  | .erase _ => True

/-- A request for a page of the data area. -/
def Call.InData (c : Call Flash) : Prop :=
  match c.request with
  | .write block page _ => IsData block ∧ page < pageCount
  | .erase block => IsData block

namespace Store

/-- A marked current block is at its first page, an unmarked one is erased from
the cursor on. -/
structure Ready (st : Store) : Prop where
  first : st.marked st.cursor.block = true → st.cursor.page = 0
  tail : st.marked st.cursor.block = false →
    ∀ q, st.cursor.page ≤ q → q < pageCount → st.flash st.cursor.block q = Page.blank

/-- Past its first page the current block shows its magic. -/
def Fronted (st : Store) : Prop := st.cursor.page ≠ 0 → st.front.HasMagic

/-! ## a put -/

/-- The erase, if any, leaves the current block erased from the cursor on. -/
theorem Ready.clean_tail {st : Store} (h : st.Ready) (hq : st.cursor.page ≤ q)
    (hlt : q < pageCount) : st.clean.flash st.cursor.block q = Page.blank := by
  cases hm : st.marked st.cursor.block with
  | false => rw [clean_of_not_marked hm]; exact h.tail hm q hq hlt
  | true => rw [(clean_of_marked hm).1]; exact Flash.eraseBlock_same _ _ hlt

theorem Ready.clean_page {st : Store} (h : st.Ready) : st.clean.page = Page.blank := by
  have := h.clean_tail (Nat.le_refl _) st.cursor.page_lt
  rwa [page, clean_cursor]

/-- **A put programs an erased page**, which takes the data as it is. -/
theorem Ready.put_flash_self {st : Store} (h : st.Ready) (M : Medium)
    (hlen : data.length ≤ pageSize) :
    (st.put M data).flash st.cursor.block st.cursor.page = Page.image data M.fill := by
  rw [Store.put_flash_self, h.clean_page, M.program_blank data hlen]

theorem Ready.put {st : Store} (h : st.Ready) (M : Medium) (data : List UInt8) :
    (st.put M data).Ready := by
  by_cases hlast : st.cursor.page + 1 < pageCount
  · obtain ⟨hb, hp⟩ := Cursor.next_of_lt hlast
    constructor
    · intro hm
      rw [put_marked_of_lt M st data hlast, put_cursor, hb, clean_marked] at hm
      cases hm
    · intro _ q hq hlt
      rw [put_cursor, hp] at hq
      rw [put_cursor, hb, put_flash_block M st data (by omega)]
      exact h.clean_tail (by omega) hlt
  · obtain ⟨_, hp⟩ := Cursor.next_of_last hlast
    constructor
    · intro _
      rw [put_cursor, hp]
    · intro hm
      rw [put_marked_of_last M st data hlast, put_cursor, Function.update_self] at hm
      cases hm

/-- The page at the start of the block, once the put is made. -/
theorem Ready.put_front {st : Store} (h : st.Ready) (M : Medium)
    (hlen : data.length ≤ pageSize) (hmagic : (Page.image data M.fill).HasMagic)
    (hf : st.Fronted) : ((st.put M data).flash st.cursor.block 0).HasMagic := by
  by_cases hp : st.cursor.page = 0
  · have := h.put_flash_self M hlen
    rw [hp] at this
    rw [this]; exact hmagic
  · have hm : st.marked st.cursor.block = false := by
      cases hm : st.marked st.cursor.block with
      | false => rfl
      | true => exact absurd (h.first hm) hp
    rw [put_flash_block M st data (Ne.symm hp), clean_of_not_marked hm]
    exact hf hp

theorem Ready.fronted_put {st : Store} (h : st.Ready) (M : Medium)
    (hlen : data.length ≤ pageSize) (hmagic : (Page.image data M.fill).HasMagic)
    (hf : st.Fronted) : (st.put M data).Fronted := by
  intro hp
  rw [put_cursor] at hp
  by_cases hlast : st.cursor.page + 1 < pageCount
  · rw [front, put_cursor, (Cursor.next_of_lt hlast).1]
    exact h.put_front M hlen hmagic hf
  · exact absurd (Cursor.next_of_last hlast).2 hp

/-- **A put keeps used blocks detectable exactly if** it starts the block or
finds the block's magic in place. -/
theorem Ready.detectable_put_iff {st : Store} (h : st.Ready) (hd : Detectable st.flash)
    (M : Medium) (hlen : data.length ≤ pageSize)
    (hmagic : (Page.image data M.fill).HasMagic) :
    Detectable (st.put M data).flash ↔ st.Fronted := by
  constructor
  · intro hput hp
    have hself := h.put_flash_self M hlen
    have hne : (st.put M data).flash st.cursor.block st.cursor.page ≠ Page.blank := by
      rw [hself]
      intro hblank
      exact Page.not_hasMagic_blank (hblank ▸ hmagic)
    have hfront := hput st.cursor.block st.cursor.isData ⟨_, st.cursor.page_lt, hne⟩
    have hm : st.marked st.cursor.block = false := by
      cases hm : st.marked st.cursor.block with
      | false => rfl
      | true => exact absurd (h.first hm) hp
    rwa [put_flash_block M st data (Ne.symm hp), clean_of_not_marked hm] at hfront
  · intro hf b hb hex
    by_cases hbc : b = st.cursor.block
    · subst hbc
      exact h.put_front M hlen hmagic hf
    · obtain ⟨p, hp, hne⟩ := hex
      rw [put_flash_ne M st data hbc] at hne ⊢
      exact hd b hb ⟨p, hp, hne⟩

/-- The requests of a put. -/
theorem Ready.calls_put {st : Store} (h : st.Ready) (M : Medium) (data : List UInt8) :
    ∀ c ∈ (st.put M data).calls, c ∈ st.calls ∨ (c.OnErased ∧ c.InData) := by
  intro c hc
  rw [put_calls, List.mem_append, List.mem_singleton] at hc
  rcases hc with hc | rfl
  · cases hm : st.marked st.cursor.block with
    | false => rw [clean_of_not_marked hm] at hc; exact Or.inl hc
    | true =>
        rw [(clean_of_marked hm).2, List.mem_append, List.mem_singleton] at hc
        rcases hc with hc | rfl
        · exact Or.inl hc
        · exact Or.inr ⟨trivial, st.cursor.isData⟩
  · exact Or.inr ⟨h.clean_tail (Nat.le_refl _) st.cursor.page_lt, st.cursor.isData,
      st.cursor.page_lt⟩

/-! ## a mount and an erase -/

/-- A mount is ready where the block it goes to has its magic or is erased. -/
theorem ready_mount_of (B : Build) {st : Store} (h : (st.flash (mountBlock B st.flash) 0).HasMagic ∨
    st.flash.Blank (mountBlock B st.flash)) : (st.mount B).Ready := by
  refine ⟨fun _ => rfl, fun hm q _ hlt => ?_⟩
  have hmagic : ¬ (st.flash (mountBlock B st.flash) 0).HasMagic := by
    have hm' : (decide (IsData (mountBlock B st.flash)) &&
        decide (st.flash (mountBlock B st.flash) 0).HasMagic) = false := hm
    simpa [isData_mountBlock B st.flash] using hm'
  cases h with
  | inl hm' => exact absurd hm' hmagic
  | inr hb => exact hb q hlt

/-- **A mount is ready** where used blocks are detectable. -/
theorem ready_mount (B : Build) {st : Store} (h : Detectable st.flash) : (st.mount B).Ready :=
  ready_mount_of B (h.magic_or_blank (isData_mountBlock B st.flash))

theorem fronted_mount (B : Build) (st : Store) : (st.mount B).Fronted := fun hp => absurd rfl hp

theorem Ready.erase {st : Store} (h : st.Ready) (b : Nat) : (st.erase b).Ready := by
  refine ⟨h.first, fun hm q hq hlt => ?_⟩
  show st.flash.eraseBlock b st.cursor.block q = Page.blank
  by_cases hb : st.cursor.block = b
  · subst hb; exact Flash.eraseBlock_same _ _ hlt
  · rw [Flash.eraseBlock_ne _ hb]; exact h.tail hm q hq hlt

theorem detectable_erase {st : Store} (h : Detectable st.flash) (b : Nat) :
    Detectable (st.erase b).flash := by
  intro c hc hex
  obtain ⟨p, hp, hne⟩ := hex
  by_cases hcb : c = b
  · subst hcb
    exact absurd (Flash.eraseBlock_same _ _ hp) hne
  · have hsame : ∀ q, (st.erase b).flash c q = st.flash c q := fun q => Flash.eraseBlock_ne _ hcb
    rw [hsame] at hne ⊢
    exact h c hc ⟨p, hp, hne⟩

end Store

/-! ## runs without an erase -/

/-- Every data block has its magic or is erased. -/
def MagicOrErased (f : Flash) : Prop := ∀ b, IsData b → (f b 0).HasMagic ∨ f.Blank b

theorem detectable_iff (f : Flash) : Detectable f ↔ MagicOrErased f := by
  constructor
  · intro h b hb
    exact h.magic_or_blank hb
  · intro h b hb hex
    obtain ⟨p, hp, hne⟩ := hex
    cases h b hb with
    | inl hm => exact hm
    | inr hblank => exact absurd (hblank p hp) hne

/-- What holds in `w` when every program met an erased page, of a device that
started with the pages `f`. -/
structure ErasedFirst (f : Flash) (w : World (Logged Flash)) : Prop where
  calls : ∀ c ∈ w.dev.calls, c.OnErased ∧ c.InData
  block : 1 ≤ w.inst.mxfsCurrentBlock ∧ w.inst.mxfsCurrentBlock ≤ 1023
  page : w.inst.mxfsCurrentPage ≤ 63
  config : ∀ p, w.dev.dev 0 p = f 0 p
  image : MagicOrErased w.dev.dev

/-- The invariant behind it, on the store. -/
structure Store.Safe (f : Flash) (st : Store) : Prop where
  ready : st.Ready
  detectable : Detectable st.flash
  fronted : st.Fronted
  calls : ∀ c ∈ st.calls, c.OnErased ∧ c.InData
  config : ∀ p, st.flash 0 p = f 0 p

namespace Store

theorem safe_start (B : Build) {f : Flash} (h : Detectable f) : ((start f).mount B).Safe f where
  ready := ready_mount B h
  detectable := h
  fronted := fronted_mount B _
  calls := by intro c hc; cases hc
  config := fun _ => rfl

theorem Safe.put {f : Flash} {st : Store} (h : st.Safe f) (M : Medium)
    (hlen : data.length ≤ pageSize) (hmagic : (Page.image data M.fill).HasMagic) :
    (st.put M data).Safe f where
  ready := h.ready.put M data
  detectable := (h.ready.detectable_put_iff h.detectable M hlen hmagic).2 h.fronted
  fronted := h.ready.fronted_put M hlen hmagic h.fronted
  calls := by
    intro c hc
    cases h.ready.calls_put M data c hc with
    | inl hold => exact h.calls c hold
    | inr hnew => exact hnew
  config := by
    intro p
    have hne : 0 ≠ st.cursor.block := by
      have := isData_iff.1 st.cursor.isData
      omega
    rw [put_flash_ne M st data hne]; exact h.config p

theorem Safe.mount {f : Flash} {st : Store} (h : st.Safe f) (B : Build) : (st.mount B).Safe f where
  ready := ready_mount B h.detectable
  detectable := h.detectable
  fronted := fronted_mount B st
  calls := h.calls
  config := h.config

end Store

/-- The data of a call that puts something away. -/
theorem Model.Abstracts.data {B : Build} {m : Model} {w : World (Logged Flash)}
    (h : m.Abstracts B w) (hputs : m.log.Puts op) (fill : UInt8) :
    m.log.pending.image.length ≤ pageSize ∧ (Page.image m.log.pending.image fill).HasMagic := by
  have hfits := h.buffers.fits
  constructor
  · rw [Batch.length_image]; unfold pageSize; omega
  · exact Batch.hasMagic_image _ hfits (LogState.not_isEmpty_of_puts hputs) fill

/-- A call that is no erase keeps the invariant. -/
theorem Store.Safe.next {B : Build} {M : Medium} {f : Flash} {m : Model}
    {w : World (Logged Flash)} (hm : m.Abstracts B w) (h : m.store.Safe f)
    (hop : ∀ b, op ≠ .erase b) : (m.next B M op).store.Safe f := by
  refine Model.next_store_cases (motive := fun st => st.Safe f) B M ?_ ?_ ?_ ?_
  · intro hputs
    obtain ⟨hlen, hmagic⟩ := hm.data hputs M.fill
    exact h.put M hlen hmagic
  · exact fun _ => h
  · exact fun _ => h.mount B
  · exact fun b herase => absurd herase (hop b)

/-- Appends and flushes are no erases. -/
theorem not_erase_of_isLog {ops : List Op} (hops : ∀ op ∈ ops, op.IsLog) :
    ∀ op ∈ ops, ∀ b, op ≠ Op.erase b := by
  intro op hop b he
  have hlog := hops op hop
  rw [he] at hlog
  cases hlog

/-- The model of a session without an erase, and its invariant. -/
theorem safe_session (B : Build) (M : Medium) {f : Flash} (hf : MagicOrErased f)
    {ops : List Op} (hops : ∀ op ∈ ops, ∀ b, op ≠ .erase b) :
    ((Model.init B f).run B M ops).Abstracts B (pageSession B M f ops) ∧
      ((Model.init B f).run B M ops).store.Safe f :=
  run_simulates (P := fun _ op => ∀ b, op ≠ .erase b)
    (R := fun w m => Model.Abstracts B m w ∧ m.store.Safe f)
    (fun _ _ op h hop => ⟨Model.abstracts_next h.1 op, h.2.next h.1 hop⟩)
    ⟨Model.abstracts_init B M f, Store.safe_start B ((detectable_iff f).2 hf)⟩
    (along_of_forall hops _)

/-- **Erase before program**: from a device whose data blocks have their magic
or are erased, through any appends, flushes and remounts. -/
theorem erasedFirst_session (B : Build) (M : Medium) (f : Flash) (hf : MagicOrErased f)
    (ops : List Op) (hops : ∀ op ∈ ops, ∀ b, op ≠ .erase b) :
    ErasedFirst f (pageSession B M f ops) := by
  obtain ⟨hm, hs⟩ := safe_session B M hf hops
  generalize (Model.init B f).run B M ops = m at hm hs
  have hdata := isData_iff.1 m.store.cursor.isData
  have hpage := m.store.cursor.page_lt
  unfold pageCount at hpage
  constructor
  · rw [hm.shows.calls]; exact hs.calls
  · rw [hm.shows.block]; omega
  · rw [hm.shows.page]; omega
  · rw [hm.shows.flash]; exact hs.config
  · rw [hm.shows.flash]; exact (detectable_iff _).1 hs.detectable

/-- A run over the erased device. -/
theorem erasedFirst_session_erased :
    ErasedFirst Flash.erased (pageSession { linux := false, rp2040 := false } (nandMedium 0xFF)
      Flash.erased [.ofRecord .temperature temperatureSample, .flush, .remount, .flush]) :=
  erasedFirst_session _ _ _ (fun _ _ => Or.inr fun _ _ => rfl) _ (by
    intro op hop b he
    subst he
    simp [Op.ofRecord] at hop)

/-! ## runs with an erase -/

/-- The invariant of a run with erases. -/
structure Store.Tidy (st : Store) : Prop where
  ready : st.Ready
  detectable : Detectable st.flash
  calls : ∀ c ∈ st.calls, c.OnErased

theorem Store.Tidy.next {B : Build} {M : Medium} {m : Model} {w : World (Logged Flash)}
    (hm : m.Abstracts B w) (h : m.store.Tidy) (hop : m.log.Puts op → m.store.Fronted) :
    (m.next B M op).store.Tidy := by
  refine Model.next_store_cases (motive := Store.Tidy) B M ?_ ?_ ?_ ?_
  · intro hputs
    obtain ⟨hlen, hmagic⟩ := hm.data hputs M.fill
    refine ⟨h.ready.put M _, (h.ready.detectable_put_iff h.detectable M hlen hmagic).2
      (hop hputs), ?_⟩
    intro c hc
    cases h.ready.calls_put M _ c hc with
    | inl hold => exact h.calls c hold
    | inr hnew => exact hnew.1
  · exact fun _ => h
  · exact fun _ => ⟨Store.ready_mount B h.detectable, h.detectable, h.calls⟩
  · intro b _
    refine ⟨h.ready.erase b, detectable_erase h.detectable b, ?_⟩
    intro c hc
    rcases List.mem_append.1 hc with hc | hc
    · exact h.calls c hc
    · rw [List.mem_singleton.1 hc]; trivial

/-- **Used blocks stay detectable**, through any calls with erases among them,
exactly in the runs where every flush that programs past page 0 finds page 0
of its block still there. -/
theorem detectable_iff_along (B : Build) (M : Medium) (ops : List Op) :
    Always (next B (pageArray M).logged)
        (fun w => Detectable w.dev.dev ∧ ∀ c ∈ w.dev.calls, c.OnErased)
        (pageSession B M Flash.erased []) ops ↔
      Along (next B (pageArray M).logged)
        (fun w op => w.Programs op → w.inst.mxfsCurrentPage = 0 ∨
          w.dev.dev w.inst.mxfsCurrentBlock 0 ≠ Page.blank)
        (pageSession B M Flash.erased []) ops := by
  apply always_iff_along (I := fun w => ∃ m : Model, m.Abstracts B w ∧ m.store.Tidy)
  · intro w hw
    obtain ⟨m, hm, ht⟩ := hw
    rw [hm.shows.flash, hm.shows.calls]
    exact ⟨ht.detectable, ht.calls⟩
  · intro w op hw hop
    obtain ⟨m, hm, ht⟩ := hw
    refine ⟨m.next B M op, Model.abstracts_next hm op, ht.next hm ?_⟩
    intro hputs hp
    rw [World.programs_iff hm.buffers, hm.shows.page, hm.shows.block, hm.shows.flash] at hop
    have hne := (hop hputs).resolve_left hp
    exact ht.detectable _ m.store.cursor.isData ⟨0, by decide, hne⟩
  · intro w op hw hop hq
    obtain ⟨m, hm, ht⟩ := hw
    rw [World.programs_iff hm.buffers, hm.shows.page, hm.shows.block, hm.shows.flash,
      Classical.not_imp, not_or, not_not] at hop
    obtain ⟨hputs, hp, hblank⟩ := hop
    have hl : op.IsLog := by
      cases op with
      | append layer tmm buffer => trivial
      | flush => trivial
      | remount => cases hputs
      | erase b => cases hputs
    obtain ⟨hlen, hmagic⟩ := hm.data hputs M.fill
    have hd := hq.1
    rw [(Model.abstracts_next hm op).shows.flash, Model.next_store_of_log hl, if_pos hputs,
      ht.ready.detectable_put_iff ht.detectable M hlen hmagic] at hd
    exact Page.not_hasMagic_blank (hblank ▸ hd hp)
  · refine ⟨Model.init B Flash.erased, Model.abstracts_init B M Flash.erased, ?_⟩
    have hd := detectable_erased
    exact ⟨Store.ready_mount B hd, hd, by intro c hc; cases hc⟩

/-- The model of the run: a put, an erase of its block and another put. -/
theorem run_erase_between (B : Build) (M : Medium) (f : Flash) (l : Layer) (r : Record l) :
    ((Model.init B f).run B M [.ofRecord l r, .flush, .erase 1, .ofRecord l r, .flush]).store =
      ((((Store.start f).mount B).put M (Batch.single l r).image).erase 1).put M
        (Batch.single l r).image := by
  show ((Model.init B f).run B M
    ([.ofRecord l r, .flush] ++ ([.erase 1] ++ [.ofRecord l r, .flush]))).store = _
  rw [Model.run_append, Model.run_append_flush B M rfl, Model.run_append,
    Model.run_append_flush B M rfl]
  rfl

/-- One record is flushed, its block erased by the client, and another record
flushed: the block has a page again, but not on page 0. -/
theorem undetectable_after_erase :
    ¬ Detectable (pageSession { linux := false, rp2040 := false } fakeMedium Flash.erased
      [.ofRecord .temperature temperatureSample, .flush, .erase 1,
        .ofRecord .temperature temperatureSample, .flush]).dev.dev := by
  rw [(Model.abstracts_run _ _ _ _).shows.flash, run_erase_between]
  have hfits := Batch.pageBytes_single_le .temperature temperatureSample
  have hlen : (Batch.single .temperature temperatureSample).image.length ≤ pageSize := by
    rw [Batch.length_image]; unfold pageSize; omega
  have hmagic := Batch.hasMagic_image _ hfits (Batch.not_isEmpty_single _ _) fakeMedium.fill
  generalize (Batch.single .temperature temperatureSample).image = data at hlen hmagic
  generalize hst : (Store.start Flash.erased).mount { linux := false, rp2040 := false } = st
  have hready : st.Ready := by rw [← hst]; exact Store.ready_mount _ detectable_erased
  have hdetect : Detectable st.flash := by rw [← hst]; exact detectable_erased
  have hblock : st.cursor.block = 1 := by
    rw [← hst, Store.mount_block]
    exact Store.mountBlock_of_first _ Page.not_hasMagic_blank
  have hpage : st.cursor.page = 0 := by rw [← hst]; rfl
  obtain ⟨hnb, hnp⟩ := Cursor.next_of_lt (c := st.cursor) (by rw [hpage]; decide)
  -- the first put is harmless, and the erase leaves the cursor past page 0
  have hput := (hready.detectable_put_iff hdetect fakeMedium hlen hmagic).2 (absurd hpage)
  have hcursor : ((st.put fakeMedium data).erase 1).cursor = st.cursor.next :=
    Store.put_cursor fakeMedium st data
  have hfront : ((st.put fakeMedium data).erase 1).front = Page.blank := by
    rw [Store.front, hcursor, hnb, hblock]
    exact Flash.eraseBlock_same (p := 0) (st.put fakeMedium data).flash 1 (by decide)
  rw [((hready.put fakeMedium data).erase 1).detectable_put_iff (Store.detectable_erase hput 1)
    fakeMedium hlen hmagic]
  intro hf
  have hne : ((st.put fakeMedium data).erase 1).cursor.page ≠ 0 := by
    rw [hcursor, hnp]; omega
  exact Page.not_hasMagic_blank (hfront ▸ hf hne)

end Mxfs
