import Mxfs.Buffers

/-!
# Mxfs.Refine

Each call refines its abstract step, over any driver: the buffers follow the
pending batch (`buffers_next`), an append returns what the abstract log
returns (`call_append_ret`), and on the device the call is either nothing at
all or exactly one `commit` of the batch it puts away (`effect_next`).
-/

namespace Mxfs

open Lib

variable {σ : Type} {B : Build} {D : Driver σ}

/-! ## the append call -/

theorem not_full_empty (l : Layer) : ¬ LogState.Full Batch.empty l := by
  have := l.recordSize_le
  rw [LogState.Full, Batch.pageBytes_empty]
  unfold pageSize; omega

/-- The flush test of `mxfs_append` is the abstract one. -/
theorem needsFlush_iff {inst : Inst} {p : Batch} (h : Buffers B inst p) (l : Layer) :
    needsFlush inst l.recordSize = true ↔ LogState.Full p l := by
  have hfits := h.fits
  have hl := l.recordSize_le
  rw [needsFlush, appendLength_eq h, u16_eq (by omega), decide_eq_true_iff]
  rfl

theorem mxfsAppend_of_none (inst : Inst) (dev : σ) (h : record? layer tmm buffer = none) :
    mxfsAppend B D inst dev layer tmm buffer = (ERR, inst, dev) := by
  unfold record? at h
  unfold mxfsAppend
  cases hl : Layer.ofNat? layer.toNat with
  | none => rfl
  | some l =>
      rw [hl] at h
      have hsize : buffer.length ≠ l.recordSize := by
        intro hsize
        simp [hsize] at h
      exact if_pos hsize

/-- The parts of a call that `record?` recognises. -/
theorem record?_eq_some {l : Layer} {r : Record l}
    (h : record? layer tmm buffer = some ⟨l, r⟩) :
    Layer.ofNat? layer.toNat = some l ∧ r.time = tmm ∧ r.payload = buffer := by
  unfold record? at h
  split at h
  · cases h
  · next k hk =>
      split at h
      · obtain ⟨rfl, hr⟩ := Sigma.mk.inj (Option.some.inj h)
        obtain rfl := eq_of_heq hr
        exact ⟨hk, rfl, rfl⟩
      · cases h

/-- Instance and device after the place for a record has been made. -/
def placed (B : Build) (D : Driver σ) (p : Batch) (l : Layer) (inst : Inst) (dev : σ) : Inst × σ :=
  if LogState.Full p l then (mxfsFlush B D inst dev).2 else (inst, dev)

/-- **A well-formed append**: place is made, then the record is copied. -/
theorem mxfsAppend_of_some {inst : Inst} {p : Batch} (h : Buffers B inst p) (dev : σ)
    {l : Layer} {r : Record l} (hr : record? layer tmm buffer = some ⟨l, r⟩) :
    mxfsAppend B D inst dev layer tmm buffer =
      ((bufferRecord B (placed B D p l inst dev).1 l r.time r.payload).1,
        (bufferRecord B (placed B D p l inst dev).1 l r.time r.payload).2,
        (placed B D p l inst dev).2) := by
  obtain ⟨hl, htime, hpay⟩ := record?_eq_some hr
  have hsize : buffer.length = l.recordSize := by rw [← hpay, r.size]
  unfold mxfsAppend
  rw [hl]
  simp only [ne_eq, hsize, not_true_eq_false, if_false, needsFlush_iff h, htime, hpay]
  unfold placed
  by_cases hfull : LogState.Full p l
  · -- a flush has emptied the layer, so the reset behind it does nothing
    have hreset : (mxfsFlush B D inst dev).2.1.reset l = (mxfsFlush B D inst dev).2.1 :=
      reset_of_empty ((buffers_flush h dev).layers l)
    simp only [hfull, if_true, hreset]
  · simp only [hfull, if_false]

/-- The buffers once place is made. -/
theorem buffers_placed {inst : Inst} {a : LogState} (h : Buffers B inst a.pending) (l : Layer)
    (dev : σ) : Buffers B (placed B D a.pending l inst dev).1 (a.makePlace l).pending ∧
      ¬ LogState.Full (a.makePlace l).pending l := by
  unfold placed LogState.makePlace
  split
  · have hp : a.flush.pending = Batch.empty := by
      unfold LogState.flush
      split
      · next he => exact he.eq_empty
      · rfl
    rw [hp]
    exact ⟨buffers_flush h dev, not_full_empty l⟩
  · next hfull => exact ⟨h, hfull⟩

/-! ## the effect on the device -/

/-- What a call does to the device and the block table: nothing, or the commit
of the batch it puts away. -/
inductive Effect (B : Build) (D : Driver σ) (w : World σ) (a a' : LogState) (w' : World σ) : Prop
  | quiet (batches : a'.batches = a.batches) (dev : w'.dev = w.dev)
      (table : SameTable w.inst w'.inst)
  | committed (nonempty : ¬ a.pending.IsEmpty) (batches : a'.batches = a.batches ++ [a.pending])
      (dev : w'.dev = (commit B D w.inst.clear (prepare w.inst).2 w.dev).2.2)
      (table : SameTable (commit B D w.inst.clear (prepare w.inst).2 w.dev).2.1 w'.inst)

/-- The effect does not look at what happens to the buffers afterwards. -/
theorem Effect.sameTable {w w' w'' : World σ} {a a' a'' : LogState} (h : Effect B D w a a' w')
    (hd : w''.dev = w'.dev) (ht : SameTable w'.inst w''.inst) (hb : a''.batches = a'.batches) :
    Effect B D w a a'' w'' := by
  cases h with
  | quiet hb' hd' ht' => exact .quiet (hb.trans hb') (hd.trans hd') (ht'.trans ht)
  | committed hne hb' hd' ht' =>
      exact .committed hne (hb.trans hb') (hd.trans hd') (ht'.trans ht)

theorem effect_flush {w : World σ} {a : LogState} (h : Buffers B w.inst a.pending) :
    Effect B D w a a.flush
      ⟨(mxfsFlush B D w.inst w.dev).2.1, (mxfsFlush B D w.inst w.dev).2.2⟩ := by
  rw [mxfsFlush_eq h, LogState.flush]
  by_cases he : a.pending.IsEmpty
  · rw [if_pos he, if_pos he]
    exact .quiet rfl rfl (SameTable.refl _)
  · rw [if_neg he, if_neg he]
    exact .committed he rfl rfl (SameTable.refl _)

theorem effect_placed {w : World σ} {a : LogState} (h : Buffers B w.inst a.pending) (l : Layer) :
    Effect B D w a (a.makePlace l)
      ⟨(placed B D a.pending l w.inst w.dev).1, (placed B D a.pending l w.inst w.dev).2⟩ := by
  unfold placed LogState.makePlace
  split
  · exact effect_flush h
  · exact .quiet rfl rfl (SameTable.refl _)

/-! ## the refinement of a call -/

/-- An append, in all respects at once. -/
theorem append_refines {w : World σ} {a : LogState} (h : Buffers B w.inst a.pending)
    (layer : UInt8) (tmm : UInt64) (buffer : List UInt8) :
    (call B D w (.append layer tmm buffer)).1 = (a.step B (.append layer tmm buffer)).1 ∧
      Buffers B (next B D w (.append layer tmm buffer)).inst
        (a.next B (.append layer tmm buffer)).pending ∧
      Effect B D w a (a.next B (.append layer tmm buffer))
        (next B D w (.append layer tmm buffer)) := by
  unfold next LogState.next
  simp only [call, LogState.step]
  cases hr : record? layer tmm buffer with
  | none =>
      rw [mxfsAppend_of_none _ _ hr]
      exact ⟨rfl, h, .quiet rfl rfl (SameTable.refl _)⟩
  | some x =>
      obtain ⟨l, r⟩ := x
      rw [mxfsAppend_of_some h w.dev hr]
      obtain ⟨hb, hfit⟩ := buffers_placed (D := D) h l w.dev
      have heff := effect_placed (D := D) h l
      obtain ⟨hok, hno⟩ := buffers_bufferRecord hb l r hfit
      simp only [LogState.append]
      by_cases hroom : LogState.HasRoom B (a.makePlace l).pending l
      · obtain ⟨hret, hbuf, htab⟩ := hok hroom
        rw [if_pos hroom]
        exact ⟨hret, hbuf, heff.sameTable rfl htab rfl⟩
      · rw [if_neg hroom, hno hroom]
        exact ⟨rfl, hb, heff⟩

/-- **An append returns what the abstract log returns**, whatever the driver does. -/
theorem call_append_ret {w : World σ} {a : LogState} (h : Buffers B w.inst a.pending)
    (layer : UInt8) (tmm : UInt64) (buffer : List UInt8) :
    (call B D w (.append layer tmm buffer)).1 = (a.step B (.append layer tmm buffer)).1 :=
  (append_refines h layer tmm buffer).1

/-- **The buffers follow the abstract log** through every call and any driver. -/
theorem buffers_next {w : World σ} {a : LogState} (h : Buffers B w.inst a.pending) (op : Op) :
    Buffers B (next B D w op).inst (a.next B op).pending := by
  cases op with
  | append layer tmm buffer => exact (append_refines h layer tmm buffer).2.1
  | flush =>
      have hp : a.flush.pending = Batch.empty := by
        unfold LogState.flush
        split
        · next he => exact he.eq_empty
        · rfl
      change Buffers B _ a.flush.pending
      rw [hp]
      exact buffers_flush h w.dev
  | remount => exact buffers_mount B D w.dev
  | erase block => exact h

/-- **The effect of an append or flush** is nothing or one commit. -/
theorem effect_next {w : World σ} {a : LogState} (h : Buffers B w.inst a.pending) {op : Op}
    (hop : op.IsLog) : Effect B D w a (a.next B op) (next B D w op) := by
  cases op with
  | append layer tmm buffer => exact (append_refines h layer tmm buffer).2.2
  | flush => exact effect_flush h
  | remount => cases hop
  | erase block => cases hop

/-! ## runs -/

/-- The abstract log of a run. -/
def LogState.run (B : Build) (a : LogState) (ops : List Op) : LogState :=
  Lib.run (LogState.next B) a ops

theorem LogState.run_concat (a : LogState) (ops : List Op) (op : Op) :
    a.run B (ops ++ [op]) = (a.run B ops).next B op := by
  rw [LogState.run, run_append]; rfl

/-- **Every run refines the abstract log**, for every driver and from every mount. -/
theorem buffers_run (D : Driver σ) (dev : σ) (ops : List Op) :
    Buffers B (session B D dev ops).inst (LogState.init.run B ops).pending :=
  run_simulates (P := fun _ _ => True)
    (R := fun (w : World σ) (a : LogState) => Buffers B w.inst a.pending)
    (fun _ _ op h _ => buffers_next h op) (buffers_mount B D dev)
    (along_of_forall (fun _ _ => trivial) _)

end Mxfs
