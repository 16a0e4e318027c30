import Mxfs.Failure

/-!
# Mxfs.Atomic

What a failed flush leaves behind.  The layers are emptied while they are
encoded and the erase mark is cleared before the erase, both ahead of the
driver's answer, and neither is undone: `flush_atomic_iff` says that a flush
is atomic exactly if it does not fail, or there was nothing to take away.
-/

namespace Mxfs

open Lib

variable {σ : Type}

/-- A flush that does not return `OK` leaves the instance as it was. -/
def FlushAtomic (B : Build) (D : Driver σ) (inst : Inst) (dev : σ) : Prop :=
  (mxfsFlush B D inst dev).1 ≠ OK → (mxfsFlush B D inst dev).2.1 = inst

/-- There are no buffered bytes, no ANTP record is counted, and the current
block is not marked for erase. -/
structure NothingToLose (inst : Inst) : Prop where
  length : ∀ l, inst.mxfsLength l = 0
  count : ∀ l ∈ Layer.antp, inst.mxfsCount l = 0
  mark : inst.blockFlagged inst.mxfsCurrentBlock = false

/-! ## the encoding loops -/

/-- What the encoding of one layer does to the instance: an ANTP layer is always
emptied, the others where they have bytes. -/
def Inst.drain (inst : Inst) (l : Layer) : Inst :=
  if l ∈ Layer.antp ∨ 0 < inst.mxfsLength l then inst.reset l else inst

theorem encodeLayer_inst (x : Inst × FlushState) (l : Layer) :
    (encodeLayer x l).1 = x.1.drain l := by
  cases l
  case antpSpeed | antpPower | antpCadence => simp [encodeLayer, encodeAntp, Inst.drain, Layer.antp]
  case gyro | accelerometer =>
      simp only [encodeLayer, encodeDim3, Inst.drain]
      split <;> simp_all [Layer.antp]
  case temperature =>
      simp only [encodeLayer, encodeTemperature, Inst.drain]
      split <;> simp_all [Layer.antp]

theorem prepare_inst (inst : Inst) : (prepare inst).1 = Layer.all.foldl Inst.drain inst := by
  have hloop : ∀ (ls : List Layer) (x : Inst × FlushState),
      (ls.foldl encodeLayer x).1 = ls.foldl Inst.drain x.1 := by
    intro ls
    induction ls with
    | nil => simp
    | cons l ls ih => simp [ih, encodeLayer_inst]
  exact hloop Layer.all (inst, FlushState.init)

/-- The cursor and the block table are not touched. -/
theorem prepare_table (inst : Inst) : SameTable inst (prepare inst).1 := by
  have hdrain : ∀ (l : Layer) (i : Inst), SameTable i (i.drain l) := by
    intro l i
    rw [Inst.drain]
    split <;> exact ⟨rfl, rfl, rfl⟩
  have hloop : ∀ (ls : List Layer) (i : Inst), SameTable i (ls.foldl Inst.drain i) := by
    intro ls
    induction ls with
    | nil => exact SameTable.refl
    | cons l ls ih => exact fun i => (hdrain l i).trans (ih (i.drain l))
  rw [prepare_inst]
  exact hloop Layer.all inst

theorem drain_mxfsLength (inst : Inst) (k l : Layer) :
    (inst.drain k).mxfsLength l = if l = k then 0 else inst.mxfsLength l := by
  by_cases hk : k ∈ Layer.antp ∨ 0 < inst.mxfsLength k
  · by_cases h : l = k <;> simp [Inst.drain, Inst.reset, hk, h]
  · have hz : inst.mxfsLength k = 0 := by
      by_contra hne
      exact hk (Or.inr (by omega))
    rw [Inst.drain, if_neg hk]
    by_cases h : l = k <;> simp [h, hz]

/-- **Every layer has lost its bytes** after the encoding loops. -/
theorem prepare_mxfsLength (inst : Inst) (l : Layer) : (prepare inst).1.mxfsLength l = 0 := by
  rw [prepare_inst]
  cases l <;> simp [Layer.all, drain_mxfsLength]

theorem drain_mxfsCount_antp (inst : Inst) (k : Layer) {l : Layer} (hl : l ∈ Layer.antp) :
    (inst.drain k).mxfsCount l = if l = k then 0 else inst.mxfsCount l := by
  by_cases h : l = k
  · subst h; simp [Inst.drain, Inst.reset, hl]
  · by_cases hk : k ∈ Layer.antp ∨ 0 < inst.mxfsLength k <;>
      simp [Inst.drain, Inst.reset, hk, h]

/-- Every ANTP layer has lost its count after the encoding loops. -/
theorem prepare_mxfsCount_antp (inst : Inst) {l : Layer} (hl : l ∈ Layer.antp) :
    (prepare inst).1.mxfsCount l = 0 := by
  rw [prepare_inst]
  simp only [Layer.all, List.foldl_cons, List.foldl_nil, drain_mxfsCount_antp _ _ hl]
  cases l <;> simp [Layer.antp] at hl ⊢

/-- Nothing to encode. -/
theorem prepare_inst_of_nothing {inst : Inst} (hlen : ∀ l, inst.mxfsLength l = 0)
    (hcount : ∀ l ∈ Layer.antp, inst.mxfsCount l = 0) : (prepare inst).1 = inst := by
  have hdrain : ∀ l, inst.drain l = inst := by
    intro l
    by_cases hl : l ∈ Layer.antp
    · have h1 : Function.update inst.mxfsLength l 0 = inst.mxfsLength := by
        rw [← hlen l, Function.update_eq_self]
      have h2 : Function.update inst.mxfsCount l 0 = inst.mxfsCount := by
        rw [← hcount l hl, Function.update_eq_self]
      simp [Inst.drain, Inst.reset, hl, h1, h2]
    · simp [Inst.drain, hl, hlen l]
  have hloop : ∀ ls : List Layer, ls.foldl Inst.drain inst = inst := by
    intro ls
    induction ls with
    | nil => rfl
    | cons l ls ih => rw [List.foldl_cons, hdrain, ih]
  rw [prepare_inst, hloop]

/-! ## the driver calls -/

section commit

variable (B : Build) (D : Driver σ) {inst : Inst} (s : FlushState) {dev : σ}

theorem program_of_ok {i : Inst}
    (h : (D.write dev i.mxfsCurrentBlock i.mxfsCurrentPage (s.work.take s.workLen)).1 = OK) :
    (program B D i s dev).1 = OK := by
  rw [program]
  exact (congrArg Prod.fst (if_pos h)).trans h

theorem program_of_not_ok {i : Inst}
    (h : (D.write dev i.mxfsCurrentBlock i.mxfsCurrentPage (s.work.take s.workLen)).1 ≠ OK) :
    (program B D i s dev).1 ≠ OK ∧ (program B D i s dev).2.1 = i := by
  have hprogram : program B D i s dev =
      ((D.write dev i.mxfsCurrentBlock i.mxfsCurrentPage (s.work.take s.workLen)).1, i,
        (D.write dev i.mxfsCurrentBlock i.mxfsCurrentPage (s.work.take s.workLen)).2) := by
    rw [program]
    exact if_neg h
  rw [hprogram]
  exact ⟨h, rfl⟩

/-- A commit the driver takes is successful. -/
theorem commit_of_takes (h : D.Takes inst (s.work.take s.workLen) dev) :
    (commit B D inst s dev).1 = OK := by
  unfold Driver.Takes at h
  cases hf : inst.blockFlagged inst.mxfsCurrentBlock with
  | false =>
      rw [hf] at h
      rw [commit_of_not_flagged B D s hf]
      exact program_of_ok B D s h
  | true =>
      rw [hf] at h
      rw [commit_of_erased B D s hf h.1]
      exact program_of_ok B D s h.2

/-- **A commit the driver does not take** fails, and the erase mark is gone. -/
theorem commit_of_not_takes (h : ¬ D.Takes inst (s.work.take s.workLen) dev) :
    (commit B D inst s dev).1 ≠ OK ∧
      (commit B D inst s dev).2.1 =
        if inst.blockFlagged inst.mxfsCurrentBlock then
          inst.setBlock inst.mxfsCurrentBlock BlockStatus.unmark
        else inst := by
  unfold Driver.Takes at h
  cases hf : inst.blockFlagged inst.mxfsCurrentBlock with
  | false =>
      rw [hf] at h
      rw [commit_of_not_flagged B D s hf]
      exact program_of_not_ok B D s h
  | true =>
      rw [hf] at h
      by_cases hret : (D.erase dev inst.mxfsCurrentBlock).1 = OK
      · rw [commit_of_erased B D s hf hret]
        exact program_of_not_ok B D s fun hw => h ⟨hret, hw⟩
      · rw [commit_of_not_erased B D s hf hret]
        exact ⟨ERR_ne_OK, rfl⟩

end commit

/-! ## the flush -/

/-- The driver sees the cursor and the erase mark of the instance before the loops. -/
theorem takes_prepare (D : Driver σ) (inst : Inst) (data : List UInt8) (dev : σ) :
    D.Takes (prepare inst).1 data dev ↔ D.Takes inst data dev := by
  have h := prepare_table inst
  rw [Driver.Takes, Driver.Takes, h.block, h.page, h.flagged]

theorem mxfsFlush_of_pending (B : Build) (D : Driver σ) {inst : Inst} (dev : σ)
    (h : (flushTotals inst).currentLength ≠ 0) :
    mxfsFlush B D inst dev = commit B D (prepare inst).1 (prepare inst).2 dev := by
  rw [mxfsFlush, if_neg h]

/-- **A flush the driver does not take** fails, and has emptied every layer and
unmarked the current block. -/
theorem mxfsFlush_of_not_takes (B : Build) (D : Driver σ) {inst : Inst} {dev : σ}
    (hpending : (flushTotals inst).currentLength ≠ 0)
    (h : ¬ D.Takes inst (flushData inst) dev) :
    (mxfsFlush B D inst dev).1 ≠ OK ∧
      (∀ l, (mxfsFlush B D inst dev).2.1.mxfsLength l = 0) ∧
      (∀ l ∈ Layer.antp, (mxfsFlush B D inst dev).2.1.mxfsCount l = 0) ∧
      (mxfsFlush B D inst dev).2.1.blockFlagged inst.mxfsCurrentBlock = false ∧
      (NothingToLose inst → (mxfsFlush B D inst dev).2.1 = inst) := by
  have htable := prepare_table inst
  obtain ⟨hret, hinst⟩ := commit_of_not_takes B D (prepare inst).2
    (mt (takes_prepare D inst (flushData inst) dev).1 h)
  have hram := sameRam_commit B D (prepare inst).1 (prepare inst).2 dev
  rw [← mxfsFlush_of_pending B D dev hpending] at hret hinst hram
  rw [htable.block, htable.flagged] at hinst
  refine ⟨hret, ?_, ?_, ?_, ?_⟩
  · intro l
    rw [hram.length, prepare_mxfsLength]
  · intro l hl
    rw [hram.count, prepare_mxfsCount_antp inst hl]
  · rw [hinst]
    cases hf : inst.blockFlagged inst.mxfsCurrentBlock with
    | false => simp [htable.flagged, hf]
    | true => simp [Inst.blockFlagged_unmark]
  · intro hn
    rw [hinst, hn.mark]
    exact prepare_inst_of_nothing hn.length hn.count

/-- **A flush is atomic** exactly if it has nothing to write, the driver takes
the page, or there is nothing it would take away. -/
theorem flush_atomic_iff (B : Build) (D : Driver σ) (inst : Inst) (dev : σ) :
    FlushAtomic B D inst dev ↔
      (flushTotals inst).currentLength = 0 ∨ D.Takes inst (flushData inst) dev ∨
        NothingToLose inst := by
  by_cases hpending : (flushTotals inst).currentLength = 0
  · refine iff_of_true (fun hret => absurd ?_ hret) (Or.inl hpending)
    rw [mxfsFlush, if_pos hpending]
  by_cases htakes : D.Takes inst (flushData inst) dev
  · refine iff_of_true (fun hret => absurd ?_ hret) (Or.inr (Or.inl htakes))
    rw [mxfsFlush_of_pending B D dev hpending]
    exact commit_of_takes B D (prepare inst).2 ((takes_prepare D inst _ dev).2 htakes)
  obtain ⟨hret, hlen, hcount, hmark, hsame⟩ := mxfsFlush_of_not_takes B D hpending htakes
  constructor
  · intro hatomic
    have heq := hatomic hret
    rw [heq] at hlen hcount hmark
    exact Or.inr (Or.inr ⟨hlen, hcount, hmark⟩)
  · rintro (h | h | h)
    · exact absurd h hpending
    · exact absurd h htakes
    · exact fun _ => hsame h

/-- Of the instances a session can reach, every one with records loses them. -/
theorem not_flushAtomic {B : Build} {D : Driver σ} {inst : Inst} {p : Batch}
    (h : Buffers B inst p) (hne : ¬ p.IsEmpty) {dev : σ}
    (htakes : ¬ D.Takes inst (flushData inst) dev) : ¬ FlushAtomic B D inst dev := by
  intro hatomic
  obtain ⟨hret, hlen, _⟩ :=
    mxfsFlush_of_not_takes B D (mt (flushTotals_eq_zero_iff h).1 hne) htakes
  refine hne fun l => ?_
  have hl := hlen l
  rw [hatomic hret, (h.layers l).length, Nat.mul_eq_zero] at hl
  have hpos : 0 < l.stride := by
    unfold Layer.stride timeSize
    omega
  exact List.eq_nil_of_length_eq_zero (by omega)

/-- One speed record is buffered and the program fails: the record is gone. -/
theorem flush_loses_record :
    ¬ FlushAtomic { linux := false, rp2040 := false } worn
      (session { linux := false, rp2040 := false } worn Flash.erased
        [.ofRecord .antpSpeed speedSample]).inst Flash.erased := by
  have hbuf := buffers_run (B := { linux := false, rp2040 := false }) worn Flash.erased
    (List.replicate 1 (.ofRecord .antpSpeed speedSample))
  rw [run_copies _ .antpSpeed speedSample (by decide) (by decide)] at hbuf
  refine not_flushAtomic hbuf (fun he => absurd (he .antpSpeed) (by decide)) ?_
  rw [Driver.Takes]
  split
  · exact fun h => ERR_ne_OK h.2
  · exact ERR_ne_OK

end Mxfs
