import Mxfs.Model

/-!
# Mxfs.PageTable

The page table a flush keeps (`blocks[].pages[]`): what a flush collects for
the entry of its page, and which entry a call changes (`pageStatus_next`).
-/

namespace Mxfs

open Lib

/-- The entry of a page in the table. -/
def Inst.pageStatus (inst : Inst) (block page : Nat) : PageStatus :=
  (inst.blocks block).pages page

/-- The flags of a page in the table. -/
def Inst.pageFlags (inst : Inst) (block page : Nat) : UInt32 :=
  ((inst.blocks block).pages page).flags

namespace Batch

/-- The flags of the layers with records. -/
def flags (p : Batch) : UInt32 :=
  Layer.all.foldl (fun flags l => if (p l).isEmpty then flags else flags ||| l.pageFlag) 0

/-- `start_tmm`: the first ANTP timestamp that is not zero. -/
def startTmm (p : Batch) : Nat :=
  (Layer.antp.flatMap fun l => (p l).map fun r => r.time.toNat).foldl
    (fun start tmm => if start = 0 then tmm else start) 0

theorem foldl_flag_and (empty : Layer → Bool) (l : Layer) :
    Layer.all.foldl (fun flags k => if empty k then flags else flags ||| k.pageFlag) 0 &&& 0xFF &&&
      l.pageFlag ≠ 0 ↔ empty l = false := by
  simp only [Layer.all, List.foldl_cons, List.foldl_nil]
  cases l <;>
    (generalize empty .antpSpeed = a
     generalize empty .antpPower = b
     generalize empty .antpCadence = c
     generalize empty .gyro = d
     generalize empty .accelerometer = e
     generalize empty .temperature = f
     revert a b c d e f
     decide)

/-- The flag byte tells the layers. -/
theorem flags_and (p : Batch) (l : Layer) :
    p.flags &&& 0xFF &&& l.pageFlag ≠ 0 ↔ p l ≠ [] := by
  rw [flags, foldl_flag_and fun l => (p l).isEmpty]
  cases p l <;> simp

end Batch

/-! ## what a flush collects -/

section collect

variable {inst : Inst} {l : Layer} {rs : List (Record l)}

/-- Writing payloads collects nothing. -/
theorem foldl_put_collects (s : FlushState) (ns : List Nat) :
    (ns.foldl (fun s n => s.put (payloadAt inst l n)) s).pageFlags = s.pageFlags ∧
      (ns.foldl (fun s n => s.put (payloadAt inst l n)) s).startTmm = s.startTmm := by
  induction ns generalizing s with
  | nil => simp
  | cons n ns ih => exact ih (s.put (payloadAt inst l n))

/-- ANTP records collect their flag, and the first timestamp that is not zero. -/
theorem foldl_antpPut_collects (s : FlushState) :
    (rs.foldl (fun s r => antpPut l s r.time.toNat r.payload) s).pageFlags =
        (if rs.isEmpty then s.pageFlags else s.pageFlags ||| l.pageFlag) ∧
      (rs.foldl (fun s r => antpPut l s r.time.toNat r.payload) s).startTmm =
        (rs.map fun r => r.time.toNat).foldl
          (fun start tmm => if start = 0 then tmm else start) s.startTmm := by
  induction rs generalizing s with
  | nil => simp
  | cons r rs ih =>
      obtain ⟨hflags, hstart⟩ := ih (antpPut l s r.time.toNat r.payload)
      have hput : (antpPut l s r.time.toNat r.payload).pageFlags = s.pageFlags ||| l.pageFlag := rfl
      rw [List.foldl_cons, hflags, hstart, hput]
      refine ⟨?_, rfl⟩
      cases rs with
      | nil => simp
      | cons _ _ => simp [UInt32.or_assoc]

/-- A layer with records sets its flag, only the ANTP layers set `start_tmm`, and
every layer is emptied. -/
theorem encodeLayer_collects (h : LayerHolds inst l rs) (s : FlushState) :
    (encodeLayer (inst, s) l).1 = inst.reset l ∧
      (encodeLayer (inst, s) l).2.pageFlags =
        (if rs.isEmpty then s.pageFlags else s.pageFlags ||| l.pageFlag) ∧
      (encodeLayer (inst, s) l).2.startTmm =
        if l ∈ Layer.antp then (rs.map fun r => r.time.toNat).foldl
          (fun start tmm => if start = 0 then tmm else start) s.startTmm
        else s.startTmm := by
  cases l
  case antpSpeed | antpPower | antpCadence =>
      refine ⟨rfl, ?_⟩
      rw [encodeLayer, encodeAntp]
      simp only []
      rw [foldl_forall₂ h.forall₂_offsets
        (g := fun (s : FlushState) r => antpPut _ s r.time.toNat r.payload)
        (fun s n r hr => by rw [tmmAt_eq hr, payloadAt_eq hr])]
      exact foldl_antpPut_collects s
  case gyro | accelerometer =>
      rw [encodeLayer, encodeDim3]
      cases rs with
      | nil =>
          have hl : inst.mxfsLength _ = 0 := h.length
          rw [reset_of_empty h]
          simp [hl, Layer.antp]
      | cons r rest =>
          simp only [h.length_pos, if_true, h.lastTmm_loop]
          refine ⟨trivial, ?_⟩
          simp only [foldl_put_collects]
          exact ⟨rfl, rfl⟩
  case temperature =>
      rw [encodeLayer, encodeTemperature]
      cases rs with
      | nil =>
          have hl : inst.mxfsLength _ = 0 := h.length
          rw [reset_of_empty h]
          simp [hl, Layer.antp]
      | cons r rest =>
          simp only [h.length_pos, if_true, h.lastTmm_loop_tail]
          refine ⟨trivial, ?_⟩
          simp only [foldl_put_collects]
          exact ⟨rfl, rfl⟩

end collect

/-- **A flush** collects the flags of the layers with records, and the start time
of the batch. -/
theorem prepare_collects {B : Build} {inst : Inst} {p : Batch} (h : Buffers B inst p) :
    (prepare inst).2.pageFlags = p.flags ∧ (prepare inst).2.startTmm = p.startTmm := by
  have hloop : ∀ (ls : List Layer) (i : Inst) (s : FlushState), ls.Nodup →
      (∀ l ∈ ls, LayerHolds i l (p l)) →
      (ls.foldl encodeLayer (i, s)).2.pageFlags =
          ls.foldl (fun flags l => if (p l).isEmpty then flags else flags ||| l.pageFlag)
            s.pageFlags ∧
        (ls.foldl encodeLayer (i, s)).2.startTmm =
          ((ls.filter (· ∈ Layer.antp)).flatMap fun l => (p l).map fun r => r.time.toNat).foldl
            (fun start tmm => if start = 0 then tmm else start) s.startTmm := by
    intro ls
    induction ls with
    | nil => simp
    | cons l ls ih =>
        intro i s hnd hhold
        obtain ⟨hne, hnd⟩ := List.nodup_cons.1 hnd
        obtain ⟨hreset, hflags, hstart⟩ := encodeLayer_collects (hhold l List.mem_cons_self) s
        have hrest : ∀ k ∈ ls, LayerHolds (encodeLayer (i, s) l).1 k (p k) := by
          intro k hk
          have hkl : k ≠ l := fun he => hne (he ▸ hk)
          rw [hreset]
          exact (hhold k (List.mem_cons_of_mem l hk)).congr rfl (by simp [Inst.reset, hkl])
            (by simp [Inst.reset, hkl])
        obtain ⟨ihflags, ihstart⟩ := ih (encodeLayer (i, s) l).1 (encodeLayer (i, s) l).2 hnd hrest
        rw [List.foldl_cons, List.foldl_cons, ihflags, ihstart, hflags, hstart]
        refine ⟨rfl, ?_⟩
        by_cases hantp : l ∈ Layer.antp
        · simp [hantp]
        · simp [hantp]
  rw [prepare_eq_foldl]
  exact hloop Layer.all inst FlushState.init (by decide) fun l _ => h.layers l

/-! ## the entry of a page -/

/-- What a program notes of its page. -/
def FlushState.status (B : Build) (s : FlushState) : PageStatus :=
  if B.linux then ⟨s.pageFlags, s.startTmm, s.lastTmm⟩ else ⟨s.pageFlags &&& 0xFF, 0, 0⟩

theorem pageStatus_setBlock (i : Inst) (c : Nat) {g : BlockStatus → BlockStatus}
    (hg : ∀ s, (g s).pages = s.pages) (b p : Nat) :
    (i.setBlock c g).pageStatus b p = i.pageStatus b p := by
  by_cases h : b = c
  · rw [h, Inst.pageStatus, Inst.setBlock_blocks_same, hg]; rfl
  · rw [Inst.pageStatus, Inst.setBlock_blocks_ne i g h]; rfl

theorem pageStatus_advance (i : Inst) (b p : Nat) :
    (advance i).pageStatus b p = i.pageStatus b p := by
  unfold advance
  dsimp only
  split
  · exact pageStatus_setBlock _ _ (g := BlockStatus.mark) (fun _ => rfl) b p
  · rfl

theorem pageStatus_notePage (B : Build) (i : Inst) (s : FlushState) (b p : Nat) :
    (notePage B i s).pageStatus b p =
      if b = i.mxfsCurrentBlock ∧ p = i.mxfsCurrentPage then s.status B else i.pageStatus b p := by
  rw [notePage]
  by_cases hb : b = i.mxfsCurrentBlock
  · rw [hb, Inst.pageStatus, Inst.setBlock_blocks_same]
    by_cases hp : p = i.mxfsCurrentPage
    · simp [hp, FlushState.status]
    · simp [hp, Inst.pageStatus]
  · rw [Inst.pageStatus, Inst.setBlock_blocks_ne _ _ hb, if_neg fun hc => hb hc.1]
    rfl

/-- **A commit** changes the entry of the page under the cursor. -/
theorem pageStatus_commit (B : Build) (M : Medium) (i : Inst) (s : FlushState) (d : Logged Flash)
    (b p : Nat) : (commit B (pageArray M).logged i s d).2.1.pageStatus b p =
      if b = i.mxfsCurrentBlock ∧ p = i.mxfsCurrentPage then s.status B else i.pageStatus b p := by
  cases hflag : i.blockFlagged i.mxfsCurrentBlock with
  | false =>
      rw [commit_of_not_flagged B _ s hflag, program_pageArray, pageStatus_advance,
        pageStatus_notePage]
  | true =>
      rw [commit_of_erased B (pageArray M).logged s hflag rfl, program_pageArray,
        pageStatus_advance, pageStatus_notePage,
        pageStatus_setBlock _ _ (g := BlockStatus.unmark) (fun _ => rfl)]
      rfl

/-- **A call** that puts away the batch notes the page under the cursor; all other
entries stay. -/
theorem pageStatus_next {B : Build} {M : Medium} {m : Model} {w : World (Logged Flash)}
    (hm : m.Abstracts B w) {op : Op} (hop : op.IsLog) (b p : Nat) :
    (next B (pageArray M).logged w op).inst.pageStatus b p =
      if m.log.Puts op ∧ b = m.store.cursor.block ∧ p = m.store.cursor.page then
        (prepare w.inst).2.status B
      else w.inst.pageStatus b p := by
  by_cases hputs : m.log.Puts op
  · obtain ⟨_, table⟩ := effect_of_puts (D := (pageArray M).logged) hm.buffers hop hputs
    have hcommit := pageStatus_commit B M w.inst.clear (prepare w.inst).2 w.dev b p
    rw [hm.shows.clear.block, hm.shows.clear.page] at hcommit
    rw [Inst.pageStatus, table.blocks]
    exact hcommit.trans (if_congr (by simp [hputs]) rfl rfl)
  · obtain ⟨_, table⟩ := effect_of_not_puts (D := (pageArray M).logged) hm.buffers hop hputs
    rw [Inst.pageStatus, table.blocks, if_neg fun hc => hputs hc.1]
    rfl

end Mxfs
