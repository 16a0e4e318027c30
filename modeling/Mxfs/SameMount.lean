import Mxfs.Reclaim
import Mxfs.Retention

/-!
# Mxfs.SameMount

The two bodies of the mount, `__LINUX__` and not, on one device.

The first never leaves block 1 (`Store.mountBlock_linux`), the other looks for a
free block and else for the latest one (`Store.pickBlock`).
`mountsAlike_iff` says on which devices they agree; where they do and a block
is free, the first flush goes to a free block and erases nothing.
-/

namespace Mxfs

open Lib

/-! ## where the mounts go -/

namespace Store

/-- A scan from a latest block stays with it. -/
theorem pickBlock_stays {f : Flash} {bs : List Nat}
    (h : ∀ b ∈ bs, (f b 0).HasMagic ∧ (f b 0).time ≤ t) (c : Nat) : pickBlock f bs t c = c := by
  induction bs with
  | nil => rfl
  | cons b bs ih =>
      obtain ⟨hm, ht⟩ := h b List.mem_cons_self
      rw [pickBlock, if_pos hm, if_neg (Nat.not_lt.2 ht)]
      exact ih fun a ha => h a (List.mem_cons_of_mem b ha)

/-- **Outside `__LINUX__` the mount goes to block 1** exactly if it is free, or
all blocks are used and it is a latest one. -/
theorem mountBlock_eq_one_iff {B : Build} (hB : B.linux = false) (f : Flash) :
    mountBlock B f = 1 ↔
      ¬ (f 1 0).HasMagic ∨ ∀ b, IsData b → (f b 0).HasMagic ∧ (f b 0).time ≤ (f 1 0).time := by
  constructor
  · intro hone
    by_cases h1 : (f 1 0).HasMagic
    · have hall : ∀ b, IsData b → (f b 0).HasMagic := by
        intro b hb
        by_contra hm
        have hfirst := (mountBlock_first hB hb hm).1
        rw [hone] at hfirst
        exact hfirst h1
      refine Or.inr fun b hb => ⟨hall b hb, ?_⟩
      have hlatest := mountBlock_latest hB hall hb
      rwa [hone] at hlatest
    · exact Or.inl h1
  · intro h
    cases h with
    | inl h1 => exact mountBlock_of_first B h1
    | inr hall =>
        have hcons : dataBlocks = 1 :: List.range' 2 1022 := by
          rw [dataBlocks_eq]; exact List.range'_succ
        have hrest : ∀ b ∈ List.range' 2 1022, (f b 0).HasMagic ∧ (f b 0).time ≤ (f 1 0).time := by
          intro b hb
          refine hall b (mem_dataBlocks.1 ?_)
          rw [hcons]
          exact List.mem_cons_of_mem 1 hb
        obtain ⟨h1, _⟩ := hall 1 (by decide)
        rw [mountBlock, if_neg (by rw [hB]; decide), hcons, pickBlock, if_pos h1]
        by_cases ht : 0 < (f 1 0).time
        · rw [if_pos ht]
          exact pickBlock_stays hrest 1
        · rw [if_neg ht]
          have hzero : (f 1 0).time = 0 := by omega
          rw [hzero] at hrest
          exact pickBlock_stays hrest 1

end Store

/-! ## the first flush -/

/-- After a mount of `d`, whatever is appended, the first call that programs goes
to a free block and makes no other request. -/
def FlushesFresh (B : Build) (M : Medium) (d : Logged Flash) : Prop :=
  ∀ (ops : List Op) (op : Op),
    Along (next B (pageArray M).logged) (fun w x => x.IsLog ∧ ¬ w.Programs x)
      (World.mounted B (pageArray M).logged d) ops →
    (session B (pageArray M).logged d ops).Programs op →
    ∃ b p data, (session B (pageArray M).logged d (ops ++ [op])).dev.calls =
        d.calls ++ [⟨.write b p data, d.dev, OK⟩] ∧
      IsData b ∧ ¬ (d.dev b 0).HasMagic

/-- The store of a device. -/
def Store.ofDevice (d : Logged Flash) : Store := { Store.start d.dev with calls := d.calls }

/-- Where the block mounted is free, the first flush goes there. -/
theorem flushesFresh_of_free {B : Build} (M : Medium) {d : Logged Flash}
    (h : ¬ (d.dev (Store.mountBlock B d.dev) 0).HasMagic) : FlushesFresh B M d := by
  intro ops op hops hop
  have hmount : Model.Abstracts B ⟨LogState.init, (Store.ofDevice d).mount B⟩
      (World.mounted B (pageArray M).logged d) :=
    ⟨buffers_run _ d [], shows_mounted M B rfl rfl⟩
  -- nothing programs before `op`, so the store is as the mount left it
  obtain ⟨hm, hst⟩ : Model.Abstracts B
      (Model.run B M ⟨LogState.init, (Store.ofDevice d).mount B⟩ ops)
      (session B (pageArray M).logged d ops) ∧
      (Model.run B M ⟨LogState.init, (Store.ofDevice d).mount B⟩ ops).store =
        (Store.ofDevice d).mount B := by
    refine run_simulates (R := fun w m => Model.Abstracts B m w ∧
      m.store = (Store.ofDevice d).mount B) ?_ ⟨hmount, rfl⟩ hops
    intro w m x hw hx
    refine ⟨Model.abstracts_next hw.1 x, ?_⟩
    rw [Model.next_store_of_log hx.1,
      if_neg fun hputs => hx.2 ((World.programs_iff hw.1.buffers x).2 hputs)]
    exact hw.2
  have hputs := (World.programs_iff hm.buffers op).1 hop
  have hnext := Model.abstracts_next (M := M) hm op
  have hcalls := hnext.shows.calls
  have hfree : ((Store.ofDevice d).mount B).marked ((Store.ofDevice d).mount B).cursor.block =
      false := by
    show (decide _ && decide (d.dev (Store.mountBlock B d.dev) 0).HasMagic) = false
    rw [decide_eq_false h, Bool.and_false]
  rw [Model.next_store_of_log (World.isLog_of_programs hop), if_pos hputs, hst, Store.put_calls,
    Store.clean_of_not_marked hfree, ← session_concat] at hcalls
  exact ⟨_, _, _, hcalls, Store.isData_mountBlock B d.dev, h⟩

/-! ## the two builds -/

/-- The two builds mount `d` at one place, and while a block is free the first
flush goes to a free one in both. -/
structure MountsAlike (B C : Build) (M : Medium) (d : Logged Flash) : Prop where
  block : (World.mounted B (pageArray M).logged d).inst.mxfsCurrentBlock =
    (World.mounted C (pageArray M).logged d).inst.mxfsCurrentBlock
  page : (World.mounted B (pageArray M).logged d).inst.mxfsCurrentPage =
    (World.mounted C (pageArray M).logged d).inst.mxfsCurrentPage
  fresh : (∃ b, IsData b ∧ ¬ (d.dev b 0).HasMagic) → FlushesFresh B M d ∧ FlushesFresh C M d

theorem mounted_block (B : Build) (M : Medium) (d : Logged Flash) :
    (World.mounted B (pageArray M).logged d).inst.mxfsCurrentBlock = Store.mountBlock B d.dev := by
  have h := shows_mounted M B (show d.dev = (Store.ofDevice d).flash from rfl) rfl
  exact h.block

theorem mounted_page (B : Build) (M : Medium) (d : Logged Flash) :
    (World.mounted B (pageArray M).logged d).inst.mxfsCurrentPage = 0 := by
  have h := shows_mounted M B (show d.dev = (Store.ofDevice d).flash from rfl) rfl
  exact h.page

/-- **The builds mount alike exactly if** block 1 is free, or all blocks are used
and block 1 is a latest one. -/
theorem mountsAlike_iff (M : Medium) (rp rp' : Bool) (d : Logged Flash) :
    MountsAlike { linux := true, rp2040 := rp } { linux := false, rp2040 := rp' } M d ↔
      ¬ (d.dev 1 0).HasMagic ∨
        ∀ b, IsData b → (d.dev b 0).HasMagic ∧ (d.dev b 0).time ≤ (d.dev 1 0).time := by
  have hlinux := Store.mountBlock_linux (B := { linux := true, rp2040 := rp }) rfl d.dev
  rw [← Store.mountBlock_eq_one_iff (B := { linux := false, rp2040 := rp' }) rfl]
  constructor
  · intro h
    have hblock := h.block
    rw [mounted_block, mounted_block, hlinux] at hblock
    exact hblock.symm
  · intro h
    refine ⟨?_, ?_, ?_⟩
    · rw [mounted_block, mounted_block, hlinux, h]
    · rw [mounted_page, mounted_page]
    · intro hex
      obtain ⟨b, hb, hm⟩ := hex
      have hone := (Store.mountBlock_first (B := { linux := false, rp2040 := rp' }) rfl hb hm).1
      refine ⟨flushesFresh_of_free M ?_, flushesFresh_of_free M hone⟩
      rw [hlinux]
      rwa [h] at hone

/-- A device with one page flushed: block 1 is used, the others are free. -/
theorem mountsAlike_differs :
    ¬ MountsAlike { linux := true, rp2040 := false } { linux := false, rp2040 := false } fakeMedium
      (Logged.start (Flash.erased.setPage 1 0
        (Page.image (Batch.single .temperature temperatureSample).image 0xFF))) := by
  have hmagic := Batch.hasMagic_image _ (Batch.pageBytes_single_le .temperature temperatureSample)
    (Batch.not_isEmpty_single _ _) 0xFF
  generalize Page.image (Batch.single .temperature temperatureSample).image 0xFF = x at hmagic
  intro h
  have hblock := h.block
  rw [mounted_block, mounted_block, Store.mountBlock_linux rfl] at hblock
  have hfree : ¬ (Flash.erased.setPage 1 0 x 2 0).HasMagic := Page.not_hasMagic_blank
  have hfirst := (Store.mountBlock_first (B := { linux := false, rp2040 := false }) rfl
    (b := 2) (by decide) hfree).1
  have hone : Store.mountBlock { linux := false, rp2040 := false }
    (Flash.erased.setPage 1 0 x) = 1 := hblock.symm
  rw [hone, Flash.setPage_same] at hfirst
  exact hfirst hmagic

end Mxfs
