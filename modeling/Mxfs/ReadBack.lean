import Mxfs.EraseFirst

/-!
# Mxfs.ReadBack

Reading a page back.  A page with the image of a batch reads as the batch's
payloads of the layer (`read_image`), an erased page as nothing
(`read_blank`).  The bytes copied are bounded by the page, not by `bufferlen`:
`read_within_iff` says when they fit the caller's buffer.
-/

namespace Mxfs

open Lib

/-! ## reading a page -/

section read

variable (M : Medium) (d : Logged Flash) (l : Layer) {bufferlen : UInt16} (block page : Nat)

/-- A read of the page array walks the page. -/
theorem mxfsRead_pageArray (layer : UInt8) (h : bufferlen ≠ 0) :
    (mxfsRead (pageArray M).logged d layer bufferlen block page).1 =
      (readLoop (d.dev block page).bytes layer.toNat bufferlen.toNat pageSize 0 []).map
        fun out => ((out.length : Int), out) := by
  have hbytes : (d.dev block page).bytes.take pageSize = (d.dev block page).bytes := by
    rw [← (d.dev block page).size, List.take_length]
  have hread : ((pageArray M).logged.read d block page pageSize).2.1 =
      (d.dev block page).bytes := hbytes
  rw [mxfsRead_eq h rfl, hread]

/-- **A page that shows a batch** reads as the batch's payloads of the layer. -/
theorem read_chain (h : bufferlen ≠ 0) {p : Batch} (hp : p.pageBytes ≤ 2000)
    (hchain : Chain (d.dev block page).bytes 0 p.segments) :
    (mxfsRead (pageArray M).logged d (UInt8.ofNat l.toNat) bufferlen block page).1 =
      some (((p.payloads l).flatten.length : Int), (p.payloads l).flatten) := by
  have hl : (UInt8.ofNat l.toNat).toNat = l.toNat := by cases l <;> rfl
  rw [mxfsRead_pageArray M d block page _ h, hl,
    readLoop_segments (d.dev block page).size p hp hchain l]
  rfl

/-- A page as a flush leaves it reads as the batch that was flushed. -/
theorem read_image (h : bufferlen ≠ 0) {p : Batch} (hp : p.pageBytes ≤ 2000) {fill : UInt8}
    (hpage : d.dev block page = Page.image p.image fill) :
    (mxfsRead (pageArray M).logged d (UInt8.ofNat l.toNat) bufferlen block page).1 =
      some (((p.payloads l).flatten.length : Int), (p.payloads l).flatten) := by
  apply read_chain M d l block page h hp
  rw [hpage]
  exact chain_image p hp fill

/-- **An erased page** reads as nothing. -/
theorem read_blank (h : bufferlen ≠ 0) (hpage : d.dev block page = Page.blank) :
    (mxfsRead (pageArray M).logged d (UInt8.ofNat l.toNat) bufferlen block page).1 =
      some (0, []) := by
  have hchain : Chain (d.dev block page).bytes 0 Batch.empty.segments := by
    rw [hpage]
    refine ⟨?_, ?_⟩
    · rw [Page.blank, List.length_replicate]; decide
    · rw [Compress.ofBytes_slice (Nat.le_refl _), List.drop_zero]
      exact leNat_replicate_ne_magic 0xFF pageSize
  rw [read_chain M d l block page h (Nat.zero_le _) hchain]
  rfl

end read

theorem Batch.length_payloads (p : Batch) (l : Layer) :
    (p.payloads l).flatten.length = (p l).length * l.recordSize := by
  rw [payloads, ← List.flatMap_def]
  exact length_flatMap_const fun r _ => r.size

/-! ## the caller's buffer -/

/-- A read whose code and whose bytes written stay within `bufferlen`. -/
def ReadWithin (bufferlen : UInt16) : Option (Int × List UInt8) → Prop
  | none => False
  | some (ret, out) => ret ≤ bufferlen.toNat ∧ out.length ≤ bufferlen.toNat

/-- A flush with something buffered, over the page array: the page it writes
reads as what was buffered. -/
theorem read_flushed {B : Build} {M : Medium} {m : Model} {w : World (Logged Flash)}
    (hm : m.Abstracts B w) (hr : m.store.Ready) (hputs : m.log.Puts .flush) (l : Layer)
    {bufferlen : UInt16} (h : bufferlen ≠ 0) :
    (mxfsRead (pageArray M).logged (next B (pageArray M).logged w .flush).dev
        (UInt8.ofNat l.toNat) bufferlen w.inst.mxfsCurrentBlock w.inst.mxfsCurrentPage).1 =
      some (((m.log.pending.payloads l).flatten.length : Int),
        (m.log.pending.payloads l).flatten) := by
  have hlen := (hm.data hputs M.fill).1
  have hlog : Op.IsLog .flush := trivial
  have hpage : (next B (pageArray M).logged w .flush).dev.dev w.inst.mxfsCurrentBlock
      w.inst.mxfsCurrentPage = Page.image m.log.pending.image M.fill := by
    rw [(Model.abstracts_next hm .flush).shows.flash, Model.next_store_of_log hlog, if_pos hputs,
      hm.shows.block, hm.shows.page]
    exact hr.put_flash_self M hlen
  exact read_image M _ l _ _ h hm.buffers.fits hpage

/-- **A read stays within the caller's buffer exactly if** the records flushed
to the page fit it: a short buffer is overrun, whatever `bufferlen` says. -/
theorem read_within_iff (B : Build) (M : Medium) (ops : List Op)
    (hops : ∀ op ∈ ops, ∀ b, op ≠ .erase b)
    (hflush : (pageSession B M Flash.erased ops).Programs .flush)
    (l : Layer) (bufferlen : UInt16) (h : 1 ≤ bufferlen.toNat) :
    ReadWithin bufferlen
        (mxfsRead (pageArray M).logged
          (next B (pageArray M).logged (pageSession B M Flash.erased ops) .flush).dev
          (UInt8.ofNat l.toNat) bufferlen
          (pageSession B M Flash.erased ops).inst.mxfsCurrentBlock
          (pageSession B M Flash.erased ops).inst.mxfsCurrentPage).1 ↔
      (pageSession B M Flash.erased ops).inst.mxfsCount l * l.recordSize ≤ bufferlen.toNat := by
  obtain ⟨hm, hs⟩ := safe_session B M ((detectable_iff _).1 detectable_erased) hops
  have hne : bufferlen ≠ 0 := by
    intro he
    rw [he] at h
    exact absurd h (by decide)
  have hputs := (World.programs_iff hm.buffers .flush).1 hflush
  rw [read_flushed hm hs.ready hputs l hne, ReadWithin, Batch.length_payloads,
    (hm.buffers.layers l).count]
  omega

/-- Two temperature records, not flushed yet. -/
def twoTemperatures : World (Logged Flash) :=
  pageSession { linux := false, rp2040 := false } fakeMedium Flash.erased
    (List.replicate 2 (.ofRecord .temperature temperatureSample))

theorem not_erase_temperatures (n : Nat) :
    ∀ op ∈ List.replicate n (.ofRecord .temperature temperatureSample), ∀ b, op ≠ Op.erase b := by
  intro op hop b he
  rw [List.eq_of_mem_replicate hop, Op.ofRecord] at he
  cases he

/-- Read with a buffer for both. -/
theorem read_within_twoTemperatures :
    ReadWithin 4 (mxfsRead (pageArray fakeMedium).logged
      (next { linux := false, rp2040 := false } (pageArray fakeMedium).logged twoTemperatures
        .flush).dev
      (UInt8.ofNat Layer.temperature.toNat) 4 twoTemperatures.inst.mxfsCurrentBlock
      twoTemperatures.inst.mxfsCurrentPage).1 := by
  have hcount : (pageSession { linux := false, rp2040 := false } fakeMedium Flash.erased
      (List.replicate 2 (.ofRecord .temperature temperatureSample))).inst.mxfsCount
        .temperature = 2 := count_copies (run_temperatures _ (by decide)) _ _
  have hflush := (World.programs_flush _).2 ⟨.temperature, hcount.trans_ne (by decide)⟩
  have hiff := read_within_iff { linux := false, rp2040 := false } fakeMedium
    (List.replicate 2 (.ofRecord .temperature temperatureSample)) (not_erase_temperatures 2)
    hflush .temperature 4 (by decide)
  rw [hcount] at hiff
  exact hiff.2 (by decide)

/-- Read with a buffer for one: four bytes are written. -/
theorem read_overruns_twoTemperatures :
    (mxfsRead (pageArray fakeMedium).logged
      (next { linux := false, rp2040 := false } (pageArray fakeMedium).logged twoTemperatures
        .flush).dev
      (UInt8.ofNat Layer.temperature.toNat) 2 twoTemperatures.inst.mxfsCurrentBlock
      twoTemperatures.inst.mxfsCurrentPage).1 = some (4, [0, 0, 0, 0]) := by
  obtain ⟨hm, hs⟩ := safe_session { linux := false, rp2040 := false } fakeMedium
    ((detectable_iff _).1 detectable_erased) (not_erase_temperatures 2)
  have hlog := Model.run_log { linux := false, rp2040 := false } fakeMedium
    (Model.init { linux := false, rp2040 := false } Flash.erased)
    (List.replicate 2 (.ofRecord .temperature temperatureSample))
  rw [Model.init, run_temperatures _ (by decide), ← Model.init] at hlog
  have hputs : LogState.Puts ⟨.copies .temperature temperatureSample 2, []⟩ .flush := by
    intro he
    have hnil : Batch.copies .temperature temperatureSample 2 .temperature = [] := he .temperature
    rw [Batch.copies_same] at hnil
    cases hnil
  rw [← hlog] at hputs
  unfold twoTemperatures
  rw [read_flushed hm hs.ready hputs .temperature (by decide), hlog]
  show some ((((Batch.copies .temperature temperatureSample 2).payloads .temperature).flatten.length
    : Int), ((Batch.copies .temperature temperatureSample 2).payloads .temperature).flatten) = _
  rw [Batch.payloads, Batch.copies_same]
  rfl

end Mxfs
