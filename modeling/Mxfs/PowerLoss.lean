import Mxfs.Failure
import Mxfs.ReadBack
import Mxfs.Retention
import Mxfs.Torn

/-!
# Mxfs.PowerLoss

Power is lost while a flush programs its page, and the device is mounted again.
The page may hold anything between the old content and the new (`Tear`).

After the mount the store is either as good as ever (`Store.Sound`), or the
torn page is the front of the block it goes to and shows no magic, so that the
next flush programs over it (`Store.TornFront`).  `power_loss_harmless` says
when this does no harm; it does some in all other cases (`Mxfs.Harm`).
-/

namespace Mxfs

open Lib

/-! ## the interruption -/

/-- What an interrupted program leaves of a page: less than the old content,
more than the new. -/
structure Tear (fill : UInt8) where
  leave : Page → List UInt8 → Page
  below : ∀ old data, (leave old data).Below old
  above : ∀ old data, ((nandMedium fill).program old data).Below (leave old data)

/-- The page array that loses power while it programs. -/
def tornArray {fill : UInt8} (T : Tear fill) : Driver Flash :=
  { pageArray (nandMedium fill) with
    write := fun f block page buffer =>
      (ERR, f.setPage block page (T.leave (f block page) buffer)) }

/-- The device after the calls `ops` and a call `op` that loses power while it
programs. -/
def powerLoss (B : Build) {fill : UInt8} (T : Tear fill) (f : Flash) (ops : List Op) (op : Op) :
    Logged Flash :=
  (next B (tornArray T).logged (pageSession B (nandMedium fill) f ops) op).dev

/-- The device after the power loss, mounted again and used by the calls `xs`. -/
def resumed (B : Build) {fill : UInt8} (T : Tear fill) (f : Flash) (ops : List Op) (op : Op)
    (xs : List Op) : World (Logged Flash) :=
  session B (pageArray (nandMedium fill)).logged (powerLoss B T f ops op) xs

/-- Every layer of the page reads as its records. -/
def ReadsBack (M : Medium) (dev : Logged Flash) (block page : Nat)
    (records : Layer → List (List UInt8)) : Prop :=
  ∀ (l : Layer) (bufferlen : UInt16), bufferlen ≠ 0 →
    (mxfsRead (pageArray M).logged dev (UInt8.ofNat l.toNat) bufferlen block page).1 =
      some (((records l).flatten.length : Int), (records l).flatten)

/-- The page the interrupted call was at. -/
def tornPage (B : Build) {fill : UInt8} (T : Tear fill) (f : Flash) (ops : List Op) (op : Op) :
    Page :=
  (powerLoss B T f ops op).dev (pageSession B (nandMedium fill) f ops).inst.mxfsCurrentBlock
    (pageSession B (nandMedium fill) f ops).inst.mxfsCurrentPage

/-- The torn page is not the first of its block, the mount does not go to its
block, it shows its magic, or a flush can be programmed over it. -/
def TornHarmless (B : Build) {fill : UInt8} (T : Tear fill) (f : Flash) (ops : List Op)
    (op : Op) : Prop :=
  (pageSession B (nandMedium fill) f ops).inst.mxfsCurrentPage ≠ 0 ∨
    (B.linux = true ∧ (pageSession B (nandMedium fill) f ops).inst.mxfsCurrentBlock ≠ 1) ∨
    (tornPage B T f ops op).HasMagic ∨ (tornPage B T f ops op).Programmable

/-! ## the store after a mount -/

/-- A block a mount may go to: any, but only the first under `__LINUX__`. -/
def MountsAt (B : Build) (b : Nat) : Prop := IsData b ∧ (B.linux = true → b = 1)

theorem mountsAt_mountBlock (B : Build) (f : Flash) : MountsAt B (Store.mountBlock B f) := by
  refine ⟨Store.isData_mountBlock B f, fun hB => ?_⟩
  rw [Store.mountBlock, if_pos hB]; rfl

/-- A block with anything on it that a mount may go to shows its magic. -/
def ShowsUse (B : Build) (f : Flash) (b : Nat) : Prop :=
  MountsAt B b → (∃ p < pageCount, f b p ≠ Page.blank) → (f b 0).HasMagic

namespace Store

/-- A store that flushes and mounts can do no harm to. -/
structure Sound (B : Build) (st : Store) : Prop where
  ready : st.Ready
  fronted : st.Fronted
  shows : ∀ b, ShowsUse B st.flash b

theorem sound_mount {B : Build} {st : Store} (h : ∀ b, ShowsUse B st.flash b) :
    (st.mount B).Sound B := by
  refine ⟨ready_mount_of B ?_, fronted_mount B st, h⟩
  by_cases hm : (st.flash (mountBlock B st.flash) 0).HasMagic
  · exact Or.inl hm
  · refine Or.inr fun p hp => ?_
    by_contra hne
    exact hm (h _ (mountsAt_mountBlock B st.flash) ⟨p, hp, hne⟩)

theorem Sound.put {B : Build} {st : Store} (h : st.Sound B) (M : Medium)
    (hlen : data.length ≤ pageSize) (hmagic : (Page.image data M.fill).HasMagic) :
    (st.put M data).Sound B := by
  refine ⟨h.ready.put M data, h.ready.fronted_put M hlen hmagic h.fronted, ?_⟩
  intro b hb hex
  by_cases hbc : b = st.cursor.block
  · rw [hbc]; exact h.ready.put_front M hlen hmagic h.fronted
  · obtain ⟨p, hp, hne⟩ := hex
    rw [put_flash_ne M st data hbc] at hne ⊢
    exact h.shows b hb ⟨p, hp, hne⟩

/-- A torn page at the front of the current block, which is not marked. -/
structure TornFront (B : Build) (fill : UInt8) (st : Store) : Prop where
  first : st.cursor.page = 0
  unmarked : st.marked st.cursor.block = false
  programmable : st.front.Programmable
  filler : st.front.TailBelow fill
  rest : ∀ q, 0 < q → q < pageCount → st.flash st.cursor.block q = Page.blank
  others : ∀ b, b ≠ st.cursor.block → ShowsUse B st.flash b

/-- **A put over a torn front** is read back, and the store is sound again. -/
theorem TornFront.put {B : Build} {fill : UInt8} {st : Store} (h : st.TornFront B fill) {p : Batch}
    (hfits : p.pageBytes ≤ 2000) (hne : ¬ p.IsEmpty) :
    (st.put (nandMedium fill) p.image).Sound B ∧
      Chain ((st.put (nandMedium fill) p.image).flash st.cursor.block st.cursor.page).bytes 0
        p.segments := by
  have hclean := clean_of_not_marked h.unmarked
  have hlast : st.cursor.page + 1 < pageCount := by rw [h.first]; decide
  obtain ⟨hb, hp⟩ := Cursor.next_of_lt hlast
  have hpage : (st.put (nandMedium fill) p.image).flash st.cursor.block st.cursor.page =
      (nandMedium fill).program st.front p.image := by
    rw [put_flash_self, hclean, front, page, h.first]
  have hchain := chain_over h.programmable h.filler hfits hne
  rw [← hpage] at hchain
  have hmagic : ((st.put (nandMedium fill) p.image).flash st.cursor.block 0).HasMagic := by
    have := hchain.hasMagic hne
    rwa [h.first] at this
  refine ⟨⟨⟨?_, ?_⟩, ?_, ?_⟩, hchain⟩
  · intro hm
    rw [put_marked_of_lt _ st _ hlast, put_cursor, hb, clean_marked] at hm
    cases hm
  · intro _ q hq hlt
    rw [put_cursor, hp] at hq
    rw [put_cursor, hb, put_flash_block _ st _ (by omega), hclean]
    exact h.rest q (by omega) hlt
  · intro _
    rw [front, put_cursor, hb]
    exact hmagic
  · intro b hm hex
    by_cases hbc : b = st.cursor.block
    · rw [hbc]; exact hmagic
    · obtain ⟨q, hq, hne⟩ := hex
      rw [put_flash_ne _ st _ hbc] at hne ⊢
      exact h.others b hbc hm ⟨q, hq, hne⟩

/-! ## the mount after the power loss -/

/-- The pages when the program of the page under the cursor left `torn`. -/
def tornFlash (st : Store) (torn : Page) : Flash :=
  st.clean.flash.setPage st.cursor.block st.cursor.page torn

section torn

variable {st : Store} {torn : Page}

theorem tornFlash_ne (h : b ≠ st.cursor.block) (p : Nat) :
    st.tornFlash torn b p = st.flash b p := by
  rw [tornFlash, Flash.setPage_ne _ _ (fun hc => h hc.1), clean_flash_ne st h]

theorem tornFlash_self : st.tornFlash torn st.cursor.block st.cursor.page = torn := by
  rw [tornFlash, Flash.setPage_same]

/-- Blocks elsewhere show their use as before. -/
theorem showsUse_tornFlash (hd : Detectable st.flash) (B : Build) (h : b ≠ st.cursor.block) :
    ShowsUse B (st.tornFlash torn) b := by
  intro hm hex
  obtain ⟨p, hp, hne⟩ := hex
  rw [tornFlash_ne h] at hne ⊢
  exact hd b hm.1 ⟨p, hp, hne⟩

/-- The current block shows its use if it is not at its first page, or if the
torn page has its magic. -/
theorem hasMagic_tornFlash (hr : st.Ready) (hf : st.Fronted)
    (h : st.cursor.page ≠ 0 ∨ torn.HasMagic) :
    (st.tornFlash torn st.cursor.block 0).HasMagic := by
  by_cases hp : st.cursor.page = 0
  · have hself : st.tornFlash torn st.cursor.block st.cursor.page = torn := tornFlash_self
    rw [hp] at hself
    rw [hself]
    exact h.resolve_left (absurd hp)
  · have hm : st.marked st.cursor.block = false := by
      cases hm : st.marked st.cursor.block with
      | false => rfl
      | true => exact absurd (hr.first hm) hp
    rw [tornFlash, Flash.setPage_ne _ _ (fun hc => hp hc.2.symm), clean_of_not_marked hm]
    exact hf hp

/-- Where the mount goes when the front of the current block shows no magic. -/
theorem mountBlock_tornFlash {B : Build} (hb : st.Behind)
    (hB : ¬ (B.linux = true ∧ st.cursor.block ≠ 1))
    (hm : ¬ (st.tornFlash torn st.cursor.block 0).HasMagic) :
    mountBlock B (st.tornFlash torn) = st.cursor.block := by
  cases hl : B.linux with
  | true =>
      have hone : st.cursor.block = 1 := by
        by_contra hne
        exact hB ⟨hl, hne⟩
      rw [mountBlock, if_pos hl, hone]; rfl
  | false =>
      obtain ⟨hnot, hbefore⟩ := mountBlock_first hl st.cursor.isData hm
      have hdata := isData_mountBlock B (st.tornFlash torn)
      by_contra hne
      rcases Nat.lt_or_gt_of_ne hne with hlt | hgt
      · rw [tornFlash_ne hne] at hnot
        exact hnot (hb _ hdata hlt)
      · exact hm (hbefore _ st.cursor.isData hgt)

/-- A mount that finds no magic on the torn page goes to it, and does not mark its block. -/
theorem mount_tornFlash_front {B : Build} (hb : st.Behind)
    (hB : ¬ (B.linux = true ∧ st.cursor.block ≠ 1)) (hpage : st.cursor.page = 0)
    (hm : ¬ torn.HasMagic) (calls : List (Call Flash)) :
    let st' := Store.mount B { st with flash := st.tornFlash torn, calls := calls }
    st'.cursor.block = st.cursor.block ∧ st'.marked st'.cursor.block = false ∧ st'.front = torn := by
  intro st'
  have hself : st.tornFlash torn st.cursor.block 0 = torn := by
    have hself : st.tornFlash torn st.cursor.block st.cursor.page = torn := tornFlash_self
    rwa [hpage] at hself
  rw [← hself] at hm
  have hcur : st'.cursor.block = st.cursor.block := mountBlock_tornFlash hb hB hm
  refine ⟨hcur, ?_, ?_⟩
  · rw [hcur]
    show (decide (IsData st.cursor.block) &&
      decide (st.tornFlash torn st.cursor.block 0).HasMagic) = false
    rw [decide_eq_false hm, Bool.and_false]
  · rw [front, hcur]
    exact hself

/-- **After the mount** the store is sound or has a torn front, unless the torn
page is in the way of the next flush. -/
theorem mount_tornFlash {B : Build} {fill : UInt8} (hr : st.Ready) (hd : Detectable st.flash)
    (hf : st.Fronted) (hb : st.Behind) (htail : torn.TailBelow fill)
    (h : st.cursor.page ≠ 0 ∨ (B.linux = true ∧ st.cursor.block ≠ 1) ∨ torn.HasMagic ∨
      torn.Programmable) (calls : List (Call Flash)) :
    (Store.mount B { st with flash := st.tornFlash torn, calls := calls }).Sound B ∨
      (Store.mount B { st with flash := st.tornFlash torn, calls := calls }).TornFront B fill := by
  by_cases hm : (st.tornFlash torn st.cursor.block 0).HasMagic
  · refine Or.inl (sound_mount fun b hmount hex => ?_)
    by_cases hbc : b = st.cursor.block
    · rw [hbc]; exact hm
    · exact showsUse_tornFlash hd B hbc hmount hex
  · have hshow : ¬ (st.cursor.page ≠ 0 ∨ torn.HasMagic) :=
      fun hc => hm (hasMagic_tornFlash hr hf hc)
    rw [not_or, not_not] at hshow
    by_cases hB : B.linux = true ∧ st.cursor.block ≠ 1
    · -- the mount never looks at the torn block
      refine Or.inl (sound_mount fun b hmount hex => ?_)
      have hbc : b ≠ st.cursor.block := by
        rw [hmount.2 hB.1]
        exact hB.2.symm
      exact showsUse_tornFlash hd B hbc hmount hex
    · have hprog : torn.Programmable := by tauto
      obtain ⟨hcur, hunmarked, hfront⟩ := mount_tornFlash_front hb hB hshow.1 hshow.2 calls
      refine Or.inr ⟨rfl, hunmarked, ?_, ?_, ?_, ?_⟩
      · rw [hfront]; exact hprog
      · rw [hfront]; exact htail
      · intro q hq hlt
        rw [hcur]
        show st.tornFlash torn st.cursor.block q = Page.blank
        rw [tornFlash, Flash.setPage_ne _ _ (fun hc => by omega)]
        exact hr.clean_tail (by omega) hlt
      · intro b hbc
        rw [hcur] at hbc
        exact showsUse_tornFlash hd B hbc

end torn

end Store

/-! ## the interrupted call -/

section interrupted

variable {B : Build} {fill : UInt8} (T : Tear fill)

/-- A commit that loses power leaves its page torn. -/
theorem commit_tornArray {i : Inst} {d : Logged Flash} {st : Store} (h : (World.mk i d).Shows st)
    (s : FlushState) : (commit B (tornArray T).logged i s d).2.2.dev =
      st.tornFlash (T.leave st.clean.page (s.work.take s.workLen)) := by
  obtain ⟨hb, hp, hm, hf, _⟩ := h
  dsimp only at hb hp hm hf
  have hprogram : ∀ (i : Inst) (d : Logged Flash),
      (program B (tornArray T).logged i s d).2.2.dev =
        d.dev.setPage i.mxfsCurrentBlock i.mxfsCurrentPage
          (T.leave (d.dev i.mxfsCurrentBlock i.mxfsCurrentPage) (s.work.take s.workLen)) := by
    intro i d
    rw [program]; rfl
  have hflag : i.blockFlagged i.mxfsCurrentBlock = st.marked st.cursor.block := by rw [hm, hb]
  cases hmark : st.marked st.cursor.block with
  | false =>
      rw [hmark] at hflag
      rw [commit_of_not_flagged B _ s hflag, hprogram, hb, hp, hf, Store.tornFlash,
        Store.clean_of_not_marked hmark]
      rfl
  | true =>
      rw [hmark] at hflag
      have herase : ((tornArray T).logged.erase d i.mxfsCurrentBlock).1 = OK := rfl
      rw [commit_of_erased B _ s hflag herase, hprogram]
      show (d.dev.eraseBlock i.mxfsCurrentBlock).setPage i.mxfsCurrentBlock i.mxfsCurrentPage
        (T.leave ((d.dev.eraseBlock i.mxfsCurrentBlock) i.mxfsCurrentBlock i.mxfsCurrentPage)
          (s.work.take s.workLen)) = _
      have hpage : st.clean.page =
          (st.flash.eraseBlock st.cursor.block) st.cursor.block st.cursor.page := by
        rw [Store.page, Store.clean_cursor, (Store.clean_of_marked hmark).1]
      rw [hb, hp, hf, Store.tornFlash, hpage, (Store.clean_of_marked hmark).1]

/-- **A call that loses power** leaves the page under the cursor torn. -/
theorem dev_powerLoss {m : Model} {w : World (Logged Flash)} (hm : m.Abstracts B w)
    (hop : op.IsLog) (hputs : m.log.Puts op) :
    (next B (tornArray T).logged w op).dev.dev =
      m.store.tornFlash (T.leave m.store.clean.page m.log.pending.image) := by
  rw [(effect_of_puts (D := (tornArray T).logged) hm.buffers hop hputs).1,
    commit_tornArray T hm.shows.clear, prepare_data hm.buffers]

end interrupted

/-! ## the runs before and after -/

/-- Before the power loss no block behind the cursor is without magic. -/
theorem behind_session (B : Build) (M : Medium) {f : Flash} (hf : ∀ b, IsData b → f.Blank b)
    {ops : List Op} (hops : ∀ op ∈ ops, op.IsLog) :
    ((Model.init B f).run B M ops).store.Behind := by
  have hstep : ∀ (w : World (Logged Flash)) (m : Model) (op : Op),
      m.Abstracts B w ∧ m.store.Safe f ∧ m.store.Behind → op.IsLog →
      (m.next B M op).Abstracts B (next B (pageArray M).logged w op) ∧
        (m.next B M op).store.Safe f ∧ (m.next B M op).store.Behind := by
    intro w m op h hop
    obtain ⟨hm, hs, hb⟩ := h
    refine ⟨Model.abstracts_next hm op, hs.next hm ?_, ?_⟩
    · intro b he
      rw [he] at hop
      cases hop
    · rw [Model.next_store_of_log hop]
      by_cases hputs : m.log.Puts op
      · rw [if_pos hputs]
        obtain ⟨hlen, hmagic⟩ := hm.data hputs M.fill
        exact hb.put hs.ready hs.fronted M hlen hmagic
      · rw [if_neg hputs]
        exact hb
  have hinit : (Model.init B f).Abstracts B (pageSession B M f []) ∧
      (Model.init B f).store.Safe f ∧ (Model.init B f).store.Behind :=
    ⟨Model.abstracts_init B M f,
      Store.safe_start B ((detectable_iff f).2 fun b hb => Or.inr (hf b hb)),
      (Store.filled_start B hf).used⟩
  obtain ⟨_, _, hb⟩ : ((Model.init B f).run B M ops).Abstracts B (pageSession B M f ops) ∧
      ((Model.init B f).run B M ops).store.Safe f ∧
      ((Model.init B f).run B M ops).store.Behind :=
    run_simulates (R := fun w m => Model.Abstracts B m w ∧ m.store.Safe f ∧ m.store.Behind)
      hstep hinit (along_of_forall hops _)
  exact hb

/-- The store after a power loss, some calls later: sound, or still as the
mount found it. -/
def Recovered (B : Build) (fill : UInt8) (st₀ : Store) (m : Model) : Prop :=
  m.store.Sound B ∨ (m.store = st₀.mount B ∧ (st₀.mount B).TornFront B fill)

section recovered

variable {B : Build} {fill : UInt8} {st₀ : Store} {m : Model} {w : World (Logged Flash)}

/-- **A flush after the power loss** is read back and leaves a sound store. -/
theorem Recovered.put (hm : m.Abstracts B w) (h : Recovered B fill st₀ m) (hputs : m.log.Puts op) :
    (m.store.put (nandMedium fill) m.log.pending.image).Sound B ∧
      Chain ((m.store.put (nandMedium fill) m.log.pending.image).flash m.store.cursor.block
        m.store.cursor.page).bytes 0 m.log.pending.segments := by
  obtain ⟨hlen, hmagic⟩ := hm.data hputs fill
  cases h with
  | inl hs =>
      refine ⟨hs.put (nandMedium fill) hlen hmagic, ?_⟩
      rw [hs.ready.put_flash_self (nandMedium fill) hlen]
      exact chain_image m.log.pending hm.buffers.fits fill
  | inr ht =>
      rw [ht.1]
      exact ht.2.put hm.buffers.fits (LogState.not_isEmpty_of_puts hputs)

theorem Recovered.next (hm : m.Abstracts B w) (h : Recovered B fill st₀ m)
    (hop : ∀ b, op ≠ .erase b) : Recovered B fill st₀ (m.next B (nandMedium fill) op) := by
  refine Model.next_store_cases
    (motive := fun st => st.Sound B ∨ (st = st₀.mount B ∧ (st₀.mount B).TornFront B fill)) B
    (nandMedium fill) ?_ ?_ ?_ ?_
  · exact fun hputs => Or.inl (h.put hm hputs).1
  · exact fun _ => h
  · intro _
    cases h with
    | inl hs => exact Or.inl (Store.sound_mount hs.shows)
    | inr ht =>
        refine Or.inr ⟨?_, ht.2⟩
        rw [ht.1, Store.mount_mount]
  · exact fun b herase => absurd herase (hop b)

end recovered

/-- The page `x` is still at `b`, `p`, or the block was erased since `calls`. -/
def KeptOrErased (calls : List (Call Flash)) (b p : Nat) (x : Page) (st : Store) : Prop :=
  ∃ rest, st.calls = calls ++ rest ∧ (st.flash b p = x ∨ ∃ c ∈ rest, c.request = .erase b)

theorem KeptOrErased.put {calls : List (Call Flash)} {b p : Nat} {x : Page} {st : Store}
    (h : KeptOrErased calls b p x st) (hr : st.Ready) (hx : x ≠ Page.blank) (M : Medium)
    (data : List UInt8) : KeptOrErased calls b p x (st.put M data) := by
  obtain ⟨rest, hcalls, hkept⟩ := h
  have hput := Store.put_calls M st data
  cases hm : st.marked st.cursor.block with
  | true =>
      rw [(Store.clean_of_marked hm).2, hcalls, List.append_assoc, List.append_assoc] at hput
      refine ⟨_, hput, ?_⟩
      by_cases hb : b = st.cursor.block
      · exact Or.inr ⟨_, List.mem_append_right _ List.mem_cons_self, by rw [hb]⟩
      · rw [Store.put_flash_ne M st data hb]
        cases hkept with
        | inl hsame => exact Or.inl hsame
        | inr herased =>
            obtain ⟨c, hc, he⟩ := herased
            exact Or.inr ⟨c, List.mem_append_left _ hc, he⟩
  | false =>
      have hclean := Store.clean_of_not_marked hm
      rw [hclean, hcalls, List.append_assoc] at hput
      refine ⟨_, hput, ?_⟩
      cases hkept with
      | inr herased =>
          obtain ⟨c, hc, he⟩ := herased
          exact Or.inr ⟨c, List.mem_append_left _ hc, he⟩
      | inl hsame =>
          refine Or.inl ?_
          by_cases hb : b = st.cursor.block
          · -- the page under the cursor is erased, so it is not this one
            have hp : p ≠ st.cursor.page := by
              intro hp
              apply hx
              rw [← hsame, hb, hp]
              exact hr.tail hm _ (Nat.le_refl _) st.cursor.page_lt
            rw [hb, Store.put_flash_block M st data hp, hclean, ← hb]
            exact hsame
          · rw [Store.put_flash_ne M st data hb]
            exact hsame

/-- Through calls without an erase a page stays until its block is erased. -/
theorem kept_run {B : Build} {M : Medium} {m : Model} {w : World (Logged Flash)}
    (hm : m.Abstracts B w) (hs : m.store.Sound B) (hx : m.store.flash b p ≠ Page.blank)
    {ops : List Op} (hops : ∀ op ∈ ops, ∀ b, op ≠ .erase b) :
    KeptOrErased m.store.calls b p (m.store.flash b p) (m.run B M ops).store := by
  have hstep : ∀ (w : World (Logged Flash)) (m' : Model) (op : Op),
      m'.Abstracts B w ∧ m'.store.Sound B ∧
        KeptOrErased m.store.calls b p (m.store.flash b p) m'.store → (∀ b, op ≠ .erase b) →
      (m'.next B M op).Abstracts B (next B (pageArray M).logged w op) ∧
        (m'.next B M op).store.Sound B ∧
        KeptOrErased m.store.calls b p (m.store.flash b p) (m'.next B M op).store := by
    intro w m' op h hop
    obtain ⟨hm', hs', hk⟩ := h
    refine ⟨Model.abstracts_next hm' op, ?_⟩
    refine Model.next_store_cases (motive := fun st =>
      st.Sound B ∧ KeptOrErased m.store.calls b p (m.store.flash b p) st) B M ?_ ?_ ?_ ?_
    · intro hputs
      obtain ⟨hlen, hmagic⟩ := hm'.data hputs M.fill
      exact ⟨hs'.put M hlen hmagic, hk.put hs'.ready hx M _⟩
    · exact fun _ => ⟨hs', hk⟩
    · exact fun _ => ⟨Store.sound_mount hs'.shows, hk⟩
    · exact fun b herase => absurd herase (hop b)
  obtain ⟨_, _, hk⟩ : (m.run B M ops).Abstracts B (run (next B (pageArray M).logged) w ops) ∧
      (m.run B M ops).store.Sound B ∧
      KeptOrErased m.store.calls b p (m.store.flash b p) (m.run B M ops).store :=
    run_simulates (R := fun w m' => Model.Abstracts B m' w ∧ m'.store.Sound B ∧
        KeptOrErased m.store.calls b p (m.store.flash b p) m'.store)
      hstep ⟨hm, hs, [], (List.append_nil _).symm, Or.inl rfl⟩ (along_of_forall hops _)
  exact hk

/-! ## after the power loss -/

section harmless

variable {B : Build} {fill : UInt8} {T : Tear fill} {f : Flash} {ops : List Op}

/-- The model of the mount after a power loss. -/
theorem abstracts_resumed {st : Store} {torn : Page}
    (hdev : (powerLoss B T f ops op).dev = st.tornFlash torn) :
    Model.Abstracts B ⟨LogState.init, Store.mount B { st with
      flash := st.tornFlash torn
      calls := (powerLoss B T f ops op).calls }⟩ (resumed B T f ops op []) :=
  ⟨buffers_run _ _ [], shows_mounted (nandMedium fill) B hdev rfl⟩

/-- The mount after a harmless power loss. -/
theorem recovered_mount (hf : ∀ b, IsData b → f.Blank b) (hops : ∀ op ∈ ops, op.IsLog)
    (hop : (pageSession B (nandMedium fill) f ops).Programs op)
    (h : TornHarmless B T f ops op) :
    ∃ m, m.Abstracts B (resumed B T f ops op []) ∧ Recovered B fill m.store m := by
  obtain ⟨hm, hs⟩ := safe_session B (nandMedium fill) (fun b hb => Or.inr (hf b hb))
    (not_erase_of_isLog hops)
  have hbehind := behind_session B (nandMedium fill) hf hops
  have hlog := World.isLog_of_programs hop
  have hputs := (World.programs_iff hm.buffers op).1 hop
  have hdev := dev_powerLoss T hm hlog hputs
  rw [TornHarmless, tornPage, powerLoss, hdev, hm.shows.block, hm.shows.page] at h
  have hself : (((Model.init B f).run B (nandMedium fill) ops).store).tornFlash
      (T.leave (((Model.init B f).run B (nandMedium fill) ops).store).clean.page
        ((Model.init B f).run B (nandMedium fill) ops).log.pending.image) _ _ = _ :=
    Store.tornFlash_self
  rw [hself] at h
  generalize (Model.init B f).run B (nandMedium fill) ops = m at hm hs hbehind hputs hdev h
  have hfits := hm.buffers.fits
  have hlen : m.log.pending.image.length ≤ 2000 := by
    rw [Batch.length_image]; exact hfits
  have htail : (T.leave m.store.clean.page m.log.pending.image).TailBelow fill := by
    have habove := T.above m.store.clean.page m.log.pending.image
    rw [hs.ready.clean_page, (nandMedium fill).program_blank _ (by
      unfold pageSize; omega)] at habove
    rw [hs.ready.clean_page]
    exact Page.Below.tail habove hlen
  refine ⟨_, abstracts_resumed hdev, ?_⟩
  cases Store.mount_tornFlash hs.ready hs.detectable hs.fronted hbehind htail h
    (powerLoss B T f ops op).calls with
  | inl hsound => exact Or.inl hsound
  | inr htorn => exact Or.inr ⟨rfl, htorn⟩

/-- The model keeps up with the calls after the mount. -/
theorem recovered_run {m : Model} {w : World (Logged Flash)} (hm : m.Abstracts B w)
    (h : Recovered B fill m.store m) (hops : ∀ op ∈ ops, ∀ b, op ≠ .erase b) :
    (m.run B (nandMedium fill) ops).Abstracts B
        (run (next B (pageArray (nandMedium fill)).logged) w ops) ∧
      Recovered B fill m.store (m.run B (nandMedium fill) ops) :=
  run_simulates (P := fun _ op => ∀ b, op ≠ .erase b)
    (R := fun w m' => Model.Abstracts B m' w ∧ Recovered B fill m.store m')
    (fun _ _ op h hop => ⟨Model.abstracts_next h.1 op, h.2.next h.1 hop⟩)
    ⟨hm, h⟩ (along_of_forall hops _)

/-- A page of a batch is not erased. -/
theorem ne_blank_of_chain {x : Page} {p : Batch} (h : Chain x.bytes 0 p.segments)
    (hne : ¬ p.IsEmpty) : x ≠ Page.blank := by
  intro hblank
  have hmagic := h.hasMagic hne
  rw [hblank] at hmagic
  exact Page.not_hasMagic_blank hmagic

/-- **Power loss is harmless** when the torn page is: what a later call programs
reads back, at once and until the block is erased. -/
theorem power_loss_harmless (B : Build) {fill : UInt8} (T : Tear fill) {f : Flash}
    (hf : ∀ b, IsData b → f.Blank b) {ops : List Op} (hops : ∀ op ∈ ops, op.IsLog) {op : Op}
    (hop : (pageSession B (nandMedium fill) f ops).Programs op)
    (h : TornHarmless B T f ops op) {xs ys : List Op} {op' : Op}
    (hxs : ∀ x ∈ xs ++ ys, ∀ b, x ≠ .erase b) (hop' : (resumed B T f ops op xs).Programs op')
    (hkept : ∀ c ∈ (resumed B T f ops op (xs ++ op' :: ys)).dev.calls.drop
        (resumed B T f ops op (xs ++ [op'])).dev.calls.length,
      c.request ≠ .erase (resumed B T f ops op xs).inst.mxfsCurrentBlock) :
    ReadsBack (nandMedium fill) (resumed B T f ops op (xs ++ op' :: ys)).dev
      (resumed B T f ops op xs).inst.mxfsCurrentBlock
      (resumed B T f ops op xs).inst.mxfsCurrentPage
      (buffered (resumed B T f ops op xs).inst) := by
  obtain ⟨m₀, hm₀, hr₀⟩ := recovered_mount hf hops hop h
  obtain ⟨hm, hr⟩ := recovered_run hm₀ hr₀ fun x hx => hxs x (List.mem_append_left ys hx)
  have hsplit : ∀ zs, resumed B T f ops op (xs ++ zs) =
      run (next B (pageArray (nandMedium fill)).logged) (resumed B T f ops op xs) zs :=
    fun zs => run_append _ xs zs
  have hrun : run (next B (pageArray (nandMedium fill)).logged) (resumed B T f ops op []) xs =
      resumed B T f ops op xs := rfl
  rw [hsplit, hsplit, run_cons, run_cons, run_nil] at hkept
  rw [hsplit, run_cons]
  rw [hrun] at hm
  generalize resumed B T f ops op xs = w at hm hop' hkept ⊢
  generalize m₀.run B (nandMedium fill) xs = m at hm hr
  have hputs := (World.programs_iff hm.buffers op').1 hop'
  have hne := LogState.not_isEmpty_of_puts hputs
  have hm' := Model.abstracts_next (M := nandMedium fill) hm op'
  obtain ⟨hsound, hchain⟩ := hr.put hm hputs
  have hstore : (m.next B (nandMedium fill) op').store =
      m.store.put (nandMedium fill) m.log.pending.image := by
    rw [Model.next_store_of_log (World.isLog_of_programs hop'), if_pos hputs]
  rw [← hstore] at hsound hchain
  obtain ⟨rest, hcalls, hsame⟩ := kept_run hm' hsound (ne_blank_of_chain hchain hne)
    fun x hx => hxs x (List.mem_append_right xs hx)
  have hend : ((m.next B (nandMedium fill) op').run B (nandMedium fill) ys).Abstracts B
      (run (next B (pageArray (nandMedium fill)).logged)
        (next B (pageArray (nandMedium fill)).logged w op') ys) := hm'.run ys
  have hpage : (run (next B (pageArray (nandMedium fill)).logged)
      (next B (pageArray (nandMedium fill)).logged w op') ys).dev.dev m.store.cursor.block
        m.store.cursor.page =
      (m.next B (nandMedium fill) op').store.flash m.store.cursor.block m.store.cursor.page := by
    rw [hend.shows.flash]
    cases hsame with
    | inl hsame => exact hsame
    | inr herased =>
        obtain ⟨c, hc, he⟩ := herased
        rw [hend.shows.calls, hm'.shows.calls, hcalls, List.drop_left, hm.shows.block] at hkept
        exact absurd he (hkept c hc)
  intro l bufferlen hlen
  rw [← hpage] at hchain
  rw [hm.shows.block, hm.shows.page, buffered_eq hm.buffers]
  exact read_chain (nandMedium fill) _ l _ _ hlen hm.buffers.fits hchain

end harmless

/-! ## a torn first page -/

/-- Only the bytes from `n` on get programmed. -/
def Tear.fromByte (fill : UInt8) (n : Nat) : Tear fill where
  leave old data :=
    ⟨old.bytes.take n ++ (andBytes old.bytes (Page.image data fill).bytes).drop n, by
      have hsize := (Page.image data fill).size
      rw [List.length_append, List.length_take, List.length_drop, length_andBytes, hsize, old.size]
      omega⟩
  below old data :=
    (andBytes_from (by rw [old.size, (Page.image data fill).size]) n).1
  above old data :=
    (andBytes_from (by rw [old.size, (Page.image data fill).size]) n).2

/-- What such an interruption leaves of an erased page. -/
theorem fromByte_blank (fill : UInt8) (n : Nat) (data : List UInt8) :
    ((Tear.fromByte fill n).leave Page.blank data).bytes =
      (List.replicate pageSize 0xFF).take n ++ (Page.image data fill).bytes.drop n := by
  have hones := andBytes_ones (Page.image data fill).bytes
  rw [(Page.image data fill).size] at hones
  show _ ++ (andBytes (List.replicate pageSize 0xFF) _).drop n = _
  rw [hones]; rfl

/-- All bits set, in the time of `temperatureSample`. -/
def coldSample : Record .temperature := ⟨1000, [0xFF, 0xFF], rfl⟩

/-- The append of the cold sample puts it into an empty log. -/
theorem programs_cold (B : Build) {fill : UInt8} (T : Tear fill) (f : Flash) (ops : List Op)
    (op : Op) : (resumed B T f ops op [.ofRecord .temperature coldSample]).Programs .flush := by
  have hb : Buffers B (resumed B T f ops op [.ofRecord .temperature coldSample]).inst
      (LogState.init.run B [.ofRecord .temperature coldSample]).pending := buffers_run _ _ _
  have hrun := Model.run_log B (nandMedium fill) (Model.init B f)
    [.ofRecord .temperature coldSample]
  rw [Model.run, run_cons, run_nil, Model.next_append B _ rfl] at hrun
  rw [World.programs_iff hb, ← show _ = LogState.init.run B _ from hrun]
  exact Batch.not_isEmpty_single .temperature coldSample

/-- Power is lost on the second page of a block. -/
def tornSecondPage (xs : List Op) : World (Logged Flash) :=
  resumed { linux := false, rp2040 := false } (Tear.fromByte 0xFF 1) Flash.erased
    [.ofRecord .temperature temperatureSample, .flush, .ofRecord .temperature temperatureSample]
    .flush xs

/-- The record flushed after a power loss on the second page of a block reads back. -/
theorem power_loss_harmless_second_page :
    ReadsBack (nandMedium 0xFF)
      (tornSecondPage ([.ofRecord .temperature coldSample] ++ [.flush])).dev
      (tornSecondPage [.ofRecord .temperature coldSample]).inst.mxfsCurrentBlock
      (tornSecondPage [.ofRecord .temperature coldSample]).inst.mxfsCurrentPage
      (buffered (tornSecondPage [.ofRecord .temperature coldSample]).inst) := by
  have hm := Model.abstracts_run { linux := false, rp2040 := false } (nandMedium 0xFF) Flash.erased
    ([.ofRecord .temperature temperatureSample, .flush] ++
      [.ofRecord .temperature temperatureSample])
  rw [Model.run_append, Model.run_append_flush _ _ rfl, Model.run, run_cons, run_nil,
    Model.next_append _ _ rfl] at hm
  have hpage : (pageSession { linux := false, rp2040 := false } (nandMedium 0xFF) Flash.erased
      [.ofRecord .temperature temperatureSample, .flush,
        .ofRecord .temperature temperatureSample]).inst.mxfsCurrentPage = 1 := by
    refine hm.shows.page.trans ?_
    rw [Store.put_cursor]
    exact (Cursor.next_of_lt (by decide)).2
  refine power_loss_harmless { linux := false, rp2040 := false } (Tear.fromByte 0xFF 1)
    (fun b _ => Flash.blank_erased b) (by simp [Op.ofRecord, Op.IsLog]) ?_ (Or.inl ?_)
    (by simp [Op.ofRecord]) (programs_cold _ _ _ _ _) (by simp)
  · refine (World.programs_iff hm.buffers .flush).2 ?_
    exact Batch.not_isEmpty_single .temperature temperatureSample
  · rw [hpage]; decide

/-- What is left of the page of the first record. -/
def tornFirst : Page :=
  (Tear.fromByte 0xFF 1).leave Page.blank (Batch.single .temperature temperatureSample).image

theorem image_temperatureSample : (Batch.single .temperature temperatureSample).image =
    [0xde, 0xc0, 0xad, 0xde, 1, 0, 0, 0, 0xcb, 0xff, 0x3f, 0, 0, 0, 1, 0, 0, 0] := rfl

theorem image_coldSample : (Batch.single .temperature coldSample).image =
    [0xde, 0xc0, 0xad, 0xde, 1, 0, 0, 0, 0xcb, 0xff, 0x3f, 0, 0, 0, 1, 0, 0xff, 0xff] := rfl

theorem bytes_tornFirst : tornFirst.bytes =
    [0xff, 0xc0, 0xad, 0xde, 1, 0, 0, 0, 0xcb, 0xff, 0x3f, 0, 0, 0, 1, 0, 0, 0] ++
      List.replicate 2030 0xFF := by
  rw [tornFirst, fromByte_blank, image_temperatureSample, Page.image_bytes (by decide),
    List.take_replicate, List.drop_append_of_le_length (by decide), ← List.append_assoc]
  rfl

theorem not_hasMagic_tornFirst : ¬ tornFirst.HasMagic := by
  rw [Page.HasMagic, bytes_tornFirst, slice_append_left (by decide)]
  decide

/-- The second record over it leaves the first. -/
theorem program_tornFirst :
    (nandMedium 0xFF).program tornFirst (Batch.single .temperature coldSample).image =
      Page.image (Batch.single .temperature temperatureSample).image 0xFF := by
  apply Page.ext
  show andBytes tornFirst.bytes (Page.image _ 0xFF).bytes = _
  have hlen : ([0xff, 0xc0, 0xad, 0xde, 1, 0, 0, 0, 0xcb, 0xff, 0x3f, 0, 0, 0, 1, 0, 0, 0] :
      List UInt8).length = [0xde, 0xc0, 0xad, 0xde, 1, 0, 0, 0, 0xcb, 0xff, 0x3f, 0, 0, 0, 1, 0,
        0xff, (0xff : UInt8)].length := rfl
  rw [bytes_tornFirst, image_temperatureSample, image_coldSample, Page.image_bytes (by decide),
    Page.image_bytes (by decide), andBytes_append hlen]
  exact congrArg _ (andBytes_self _)

/-- The mount takes the block for a free one and goes to it. -/
theorem mount_tornFirst (B : Build) {st : Store} (hf : st.flash 1 0 = tornFirst) :
    (st.mount B).cursor.block = 1 ∧ (st.mount B).clean.page = tornFirst := by
  have hno : ¬ (st.flash 1 0).HasMagic := by rw [hf]; exact not_hasMagic_tornFirst
  have hblock : (st.mount B).cursor.block = 1 := Store.mountBlock_of_first B hno
  have hmark : (st.mount B).marked (st.mount B).cursor.block = false := by
    rw [hblock]
    show (decide (IsData 1) && decide (st.flash 1 0).HasMagic) = false
    rw [decide_eq_false hno, Bool.and_false]
  refine ⟨hblock, ?_⟩
  rw [Store.clean_of_not_marked hmark, Store.page, hblock]
  exact hf

/-- Power is lost on the first page of a block. -/
def tornFirstPage (xs : List Op) : World (Logged Flash) :=
  resumed { linux := false, rp2040 := false } (Tear.fromByte 0xFF 1) Flash.erased
    [.ofRecord .temperature temperatureSample] .flush xs

theorem mounted_tornFirst (M : Medium) (B : Build) {d : Logged Flash} (hf : d.dev 1 0 = tornFirst) :
    ∃ st : Store, (World.mounted B (pageArray M).logged d).Shows st ∧ st.cursor.block = 1 ∧
      st.clean.page = tornFirst := by
  obtain ⟨st, hdev, hcalls⟩ : ∃ st : Store, d.dev = st.flash ∧ d.calls = st.calls :=
    ⟨{ Store.start d.dev with calls := d.calls }, rfl, rfl⟩
  rw [hdev] at hf
  exact ⟨st.mount B, shows_mounted M B hdev hcalls, mount_tornFirst B hf⟩

/-- The first page of a block is torn, its magic incomplete: the mount takes the
block for a free one, and the record flushed over the torn page is masked by it. -/
theorem power_loss_harms_first_page :
    (pageSession { linux := false, rp2040 := false } (nandMedium 0xFF) Flash.erased
        [.ofRecord .temperature temperatureSample]).Programs .flush ∧
      (tornFirstPage [.ofRecord .temperature coldSample]).Programs .flush ∧
      ¬ ReadsBack (nandMedium 0xFF) (tornFirstPage [.ofRecord .temperature coldSample, .flush]).dev
        (tornFirstPage [.ofRecord .temperature coldSample]).inst.mxfsCurrentBlock
        (tornFirstPage [.ofRecord .temperature coldSample]).inst.mxfsCurrentPage
        (buffered (tornFirstPage [.ofRecord .temperature coldSample]).inst) := by
  have hm := Model.abstracts_run { linux := false, rp2040 := false } (nandMedium 0xFF) Flash.erased
    [.ofRecord .temperature temperatureSample]
  rw [Model.run, run_cons, run_nil, Model.next_append _ _ rfl] at hm
  have hputs : LogState.Puts ⟨Batch.single .temperature temperatureSample, []⟩ .flush :=
    Batch.not_isEmpty_single .temperature temperatureSample
  have hlog : Op.IsLog .flush := trivial
  have hdev := dev_powerLoss (Tear.fromByte 0xFF 1) hm hlog hputs
  refine ⟨(World.programs_iff hm.buffers .flush).2 hputs, programs_cold _ _ _ _ _, ?_⟩
  -- the store before the power loss, its first page under the cursor
  have hready : (Model.init { linux := false, rp2040 := false } Flash.erased).store.Ready :=
    Store.ready_mount _ detectable_erased
  have hblock : (Model.init { linux := false, rp2040 := false }
      Flash.erased).store.cursor.block = 1 := by
    rw [Model.init, Store.mount_block]
    exact Store.mountBlock_of_first _ Page.not_hasMagic_blank
  have hpage : (Model.init { linux := false, rp2040 := false }
    Flash.erased).store.cursor.page = 0 := rfl
  rw [hready.clean_page] at hdev
  generalize (Model.init { linux := false, rp2040 := false } Flash.erased).store = st
    at hready hblock hpage hdev
  have hfront : (powerLoss { linux := false, rp2040 := false } (Tear.fromByte 0xFF 1) Flash.erased
      [.ofRecord .temperature temperatureSample] .flush).dev 1 0 = tornFirst := by
    have hself : st.tornFlash tornFirst st.cursor.block st.cursor.page = tornFirst :=
      Store.tornFlash_self
    rw [hblock, hpage] at hself
    exact (congrFun (congrFun hdev 1) 0).trans hself
  -- the store after the mount, an append and a flush later
  obtain ⟨st', hshows, -, hclean⟩ := mounted_tornFirst (nandMedium 0xFF)
    { linux := false, rp2040 := false } hfront
  have hmount : Model.Abstracts { linux := false, rp2040 := false } ⟨LogState.init, st'⟩
      (tornFirstPage []) := ⟨buffers_run _ _ [], hshows⟩
  have happend := Model.abstracts_next (M := nandMedium 0xFF) hmount
    (.ofRecord .temperature coldSample)
  rw [Model.next_append _ _ rfl] at happend
  have hflush := Model.abstracts_next (M := nandMedium 0xFF) happend .flush
  rw [Model.next_flush] at hflush
  have hleft : (tornFirstPage [.ofRecord .temperature coldSample, .flush]).dev.dev st'.cursor.block
      st'.cursor.page = Page.image (Batch.single .temperature temperatureSample).image 0xFF := by
    refine (congrFun (congrFun hflush.shows.flash _) _).trans ?_
    rw [Store.put_flash_self, hclean, program_tornFirst]
  intro hread
  have hcold := hread .temperature 4 (by decide)
  have hb := happend.shows.block
  have hp := happend.shows.page
  change (tornFirstPage [.ofRecord .temperature coldSample]).inst.mxfsCurrentBlock = _ at hb
  change (tornFirstPage [.ofRecord .temperature coldSample]).inst.mxfsCurrentPage = _ at hp
  rw [hb, hp, read_image (nandMedium 0xFF) _ .temperature _ _ (by decide)
    (Batch.pageBytes_single_le _ _) hleft] at hcold
  have hbuffered : buffered (tornFirstPage [.ofRecord .temperature coldSample]).inst .temperature =
      [[0xFF, 0xFF]] := (happend.buffers.layers .temperature).buffered
  rw [hbuffered] at hcold
  revert hcold
  decide

end Mxfs
