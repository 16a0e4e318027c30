import Mxfs.Lib.Wear
import Mxfs.RingLog

/-!
# Mxfs.Wear

How a session wears the part.  `mxfs_flush` marks each block it enters and erases
it before the first program, also where nothing was ever written, so the erases of
a session are the blocks its flushes enter, whatever they hold.  `wear_session`
says how many these are and how they are spread.
-/

namespace Mxfs

open Lib

/-! ## the erases of a run -/

/-- The block of an erase. -/
def Request.erase? : Request → Option Nat
  | .write _ _ _ => none
  | .erase block => some block

/-- The blocks erased, in order. -/
def erases {σ : Type} (calls : List (Call σ)) : List Nat :=
  calls.filterMap fun c => c.request.erase?

@[simp] theorem erases_append {σ : Type} (xs ys : List (Call σ)) :
    erases (xs ++ ys) = erases xs ++ erases ys := List.filterMap_append

namespace Store

/-- A put erases the current block if it is marked. -/
theorem erases_put (M : Medium) (st : Store) (data : List UInt8) :
    erases (st.put M data).calls =
      erases st.calls ++ if st.marked st.cursor.block then [st.cursor.block] else [] := by
  have hwrite : erases (st.put M data).calls = erases st.clean.calls := by
    rw [put_calls, erases_append]
    exact List.append_nil _
  rw [hwrite]
  cases hm : st.marked st.cursor.block with
  | false => rw [clean_of_not_marked hm, if_neg Bool.false_ne_true, List.append_nil]
  | true =>
      rw [(clean_of_marked hm).2, erases_append, if_pos rfl]
      rfl

/-- After `n` puts, the blocks they entered have been erased. -/
structure Worn (st : Store) (n : Nat) : Prop where
  erases : erases st.calls = (entered 1023 64 n).map (· + 1)
  fresh : n = 0 → st.marked st.cursor.block = false

theorem worn_start (B : Build) {f : Flash} (hf : ∀ b, IsData b → f.Blank b) :
    ((start f).mount B).Worn 0 := by
  refine ⟨rfl, fun _ => ?_⟩
  have hdata := ((start f).mount B).cursor.isData
  have hblank : ¬ (f ((start f).mount B).cursor.block 0).HasMagic := by
    rw [hf _ hdata 0 (by decide)]
    exact Page.not_hasMagic_blank
  show (decide _ && decide (f ((start f).mount B).cursor.block 0).HasMagic) = false
  rw [decide_eq_false hblank, Bool.and_false]

/-- A block is marked when its first page comes, the very first one of all apart. -/
theorem Ring.marked_iff {M : Medium} {st : Store} {bs : List Batch} (h : st.Ring M bs)
    (hw : st.Worn bs.length) :
    st.marked st.cursor.block = true ↔ bs.length % 64 = 0 ∧ bs.length ≠ 0 := by
  have hpage : st.cursor.page = bs.length % 64 := congrArg Prod.snd h.cursor
  constructor
  · intro hm
    refine ⟨hpage ▸ h.ready.first hm, fun hzero => ?_⟩
    rw [hw.fresh hzero] at hm
    cases hm
  · rintro ⟨hmod, hne⟩
    exact h.entered (hpage.trans hmod) fun hnil => hne (by rw [hnil]; rfl)

theorem Ring.worn_put {M : Medium} {st : Store} {bs : List Batch} (h : st.Ring M bs)
    (hw : st.Worn bs.length) (data : List UInt8) : (st.put M data).Worn (bs.length + 1) := by
  refine ⟨?_, fun hzero => absurd hzero (Nat.succ_ne_zero _)⟩
  have hblock : st.cursor.block = bs.length / 64 % 1023 + 1 := congrArg Prod.fst h.cursor
  rw [erases_put, hw.erases, entered_succ, List.map_append]
  congr 1
  by_cases hm : st.marked st.cursor.block = true
  · rw [if_pos hm, if_pos ((h.marked_iff hw).1 hm), hblock]
    rfl
  · rw [if_neg hm, if_neg fun hn => hm ((h.marked_iff hw).2 hn)]
    rfl

end Store

/-! ## sessions -/

/-- What a run keeps: the ring, and its wear. -/
structure Model.WearInv (M : Medium) (m : Model) : Prop extends m.RingInv M where
  worn : m.store.Worn m.log.batches.length

theorem Model.WearInv.next {B : Build} {M : Medium} {m : Model} {w : World (Logged Flash)}
    (hm : m.Abstracts B w) (h : m.WearInv M) (hop : op.IsLog) : (m.next B M op).WearInv M := by
  refine ⟨h.toRingInv.next hm hop, ?_⟩
  have hbatches : (m.next B M op).log.batches =
      if m.log.Puts op then m.log.batches ++ [m.log.pending] else m.log.batches :=
    LogState.batches_next B m.log op
  rw [next_store_of_log hop, hbatches]
  by_cases hputs : m.log.Puts op
  · rw [if_pos hputs, if_pos hputs, List.length_append]
    exact h.ring.worn_put h.worn _
  · rw [if_neg hputs, if_neg hputs]
    exact h.worn

/-- The erases of a session are the blocks entered. -/
theorem erases_session (B : Build) (M : Medium) {f : Flash} (hf : ∀ b, IsData b → f.Blank b)
    {ops : List Op} (hops : ∀ op ∈ ops, op.IsLog) :
    erases (pageSession B M f ops).dev.calls =
      (entered 1023 64 (flushCount B (pageArray M).logged (pageSession B M f []) ops)).map
        (· + 1) := by
  have hinit : (Model.init B f).Abstracts B (pageSession B M f []) ∧ (Model.init B f).WearInv M :=
    ⟨(ring_init B M hf).1, (ring_init B M hf).2, Store.worn_start B hf⟩
  obtain ⟨hm, hw⟩ := run_simulates (R := fun w m => Model.Abstracts B m w ∧ m.WearInv M)
    (fun w m op h hop => ⟨Model.abstracts_next h.1 op, h.2.next h.1 hop⟩) hinit
    (along_of_forall hops _)
  have hcalls : (pageSession B M f ops).dev.calls = ((Model.init B f).run B M ops).store.calls :=
    hm.shows.calls
  rw [hcalls, ← length_batches_session B M hf hops]
  exact hw.worn.erases

/-- **Wear of a session** of appends and flushes on an erased data area: 64 flushes
cost one erase, of a block of data, no block is erased twice more often than another,
and `E` times the pages of the data area can be flushed before a block is erased more
than `E` times. -/
theorem wear_session (B : Build) (M : Medium) {f : Flash} (hf : ∀ b, IsData b → f.Blank b)
    {ops : List Op} (hops : ∀ op ∈ ops, op.IsLog) :
    let blocks := erases (pageSession B M f ops).dev.calls
    let flushes := flushCount B (pageArray M).logged (pageSession B M f []) ops
    blocks.length = (flushes - 1) / pageCount ∧
      (∀ b ∈ blocks, IsData b) ∧
      (∀ b b', IsData b → IsData b' → blocks.count b ≤ blocks.count b' + 1) ∧
      ∀ E, flushes ≤ (blockCount - blockStartDataArea) * pageCount * E → ∀ b, blocks.count b ≤ E := by
  intro blocks flushes
  have hblocks : blocks = (entered 1023 64 flushes).map (· + 1) := erases_session B M hf hops
  have hcount : ∀ b, blocks.count (b + 1) = (entered 1023 64 flushes).count b := by
    intro b
    rw [hblocks]
    exact List.count_map_of_injective _ _ (add_left_injective 1) b
  have hdata : ∀ b, IsData b → ∃ a, a < 1023 ∧ b = a + 1 := by
    intro b hb
    have hrange := isData_iff.1 hb
    exact ⟨b - 1, by omega, by omega⟩
  have hmem : ∀ b ∈ blocks, IsData b := by
    intro b hb
    rw [hblocks] at hb
    obtain ⟨a, ha, rfl⟩ := List.mem_map.1 hb
    have hlt := lt_of_mem_entered (by decide) ha
    exact isData_iff.2 (by omega)
  refine ⟨?_, hmem, ?_, ?_⟩
  · rw [hblocks, List.length_map, length_entered]
    rfl
  · intro b b' hb hb'
    obtain ⟨a, ha, rfl⟩ := hdata b hb
    obtain ⟨a', ha', rfl⟩ := hdata b' hb'
    rw [hcount, hcount]
    exact count_entered_le ha ha' flushes
  · intro E hE b
    by_cases hb : b ∈ blocks
    · obtain ⟨a, ha, rfl⟩ := hdata b (hmem b hb)
      rw [hcount]
      exact count_entered_le_of (by decide) hE ha
    · rw [List.count_eq_zero_of_not_mem hb]
      exact Nat.zero_le E

/-- `n` times a record and a flush. -/
def oneEach (l : Layer) (r : Record l) (n : Nat) : List Op :=
  (List.replicate n [.ofRecord l r, .flush]).flatten

/-- Each flush puts one record away. -/
theorem run_oneEach (B : Build) (l : Layer) (r : Record l) (n : Nat) :
    LogState.init.run B (oneEach l r n) = ⟨Batch.empty, List.replicate n (Batch.single l r)⟩ := by
  induction n with
  | zero => rfl
  | succ n ih =>
      have hops : oneEach l r (n + 1) = oneEach l r n ++ [.ofRecord l r] ++ [.flush] := by
        rw [oneEach, List.replicate_succ', List.flatten_concat, List.append_assoc]
        rfl
      have happend := LogState.append_of_room B
        (a := ⟨Batch.empty, List.replicate n (Batch.single l r)⟩) r (not_full_empty l)
        (LogState.hasRoom_empty B l)
      rw [hops, LogState.run_concat, LogState.run_concat, ih, LogState.next, LogState.next,
        step_ofRecord, happend, List.replicate_succ']
      exact if_neg (Batch.not_isEmpty_single l r)

theorem isLog_oneEach {l : Layer} {r : Record l} {n : Nat} : ∀ op ∈ oneEach l r n, op.IsLog := by
  intro op hop
  obtain ⟨ops, hops, hmem⟩ := List.mem_flatten.1 hop
  obtain rfl := List.eq_of_mem_replicate hops
  rcases List.mem_pair.1 hmem with rfl | rfl
  · trivial
  · trivial

theorem flushCount_oneEach (B : Build) (M : Medium) {f : Flash} (hf : ∀ b, IsData b → f.Blank b)
    (l : Layer) (r : Record l) (n : Nat) :
    flushCount B (pageArray M).logged (pageSession B M f []) (oneEach l r n) = n := by
  have hlog : ((Model.init B f).run B M (oneEach l r n)).log =
      LogState.init.run B (oneEach l r n) := Model.run_log B M (Model.init B f) _
  rw [← length_batches_session B M hf isLog_oneEach, hlog, run_oneEach, List.length_replicate]

/-- Two blocks filled, and the first page of a third one. -/
theorem wear_session_blocks :
    let B : Build := { linux := false, rp2040 := false }
    let ops := oneEach .temperature temperatureSample 129
    let blocks := erases (pageSession B fakeMedium Flash.erased ops).dev.calls
    let flushes := flushCount B (pageArray fakeMedium).logged
      (pageSession B fakeMedium Flash.erased []) ops
    (flushes = 129 ∧ blocks.length = 2) ∧
      blocks.length = (flushes - 1) / pageCount ∧
      (∀ b ∈ blocks, IsData b) ∧
      (∀ b b', IsData b → IsData b' → blocks.count b ≤ blocks.count b' + 1) ∧
      ∀ E, flushes ≤ (blockCount - blockStartDataArea) * pageCount * E → ∀ b, blocks.count b ≤ E := by
  intro B ops blocks flushes
  have hblank : ∀ b, IsData b → Flash.erased.Blank b := fun b _ => Flash.blank_erased b
  have hlog : ∀ op ∈ ops, op.IsLog := isLog_oneEach
  have hwear := wear_session B fakeMedium hblank hlog
  have hflushes : flushes = 129 := flushCount_oneEach B fakeMedium hblank _ _ 129
  have hlength : blocks.length = (flushes - 1) / pageCount := hwear.1
  refine ⟨⟨hflushes, ?_⟩, hwear⟩
  rw [hlength, hflushes]
  rfl

end Mxfs
