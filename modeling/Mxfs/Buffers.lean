import Mxfs.Layout

/-!
# Mxfs.Buffers

The RAM buffers refine the pending batch of the abstract log, whatever the
driver does: `Buffers B inst p` says that the six layer buffers hold exactly
the records of `p` and that `p` fits a page.

* `prepare_eq` — a flush encodes the image of the batch and empties the layers;
* `mxfsFlush_eq` — a flush empties the layers and makes at most one `commit`, of
  that image;
* `buffers_flush`, `buffers_bufferRecord` — a flush leaves no record in the buffers,
  and a record that is taken comes behind those of its layer.
-/

namespace Mxfs

open Lib

/-! ## one layer -/

/-- The buffer of layer `l` holds the records `rs`. -/
structure LayerHolds (inst : Inst) (l : Layer) (rs : List (Record l)) : Prop where
  count : inst.mxfsCount l = rs.length
  length : inst.mxfsLength l = rs.length * l.stride
  bytes : (inst.mxfsBuffer l).take (rs.length * l.stride) = rs.flatMap Record.bytes

namespace LayerHolds

variable {inst : Inst} {l : Layer} {rs : List (Record l)}

/-- Records of a layer lie one behind the other, each as long as the layer's stride. -/
theorem flatMap_length (rs : List (Record l)) :
    (rs.flatMap Record.bytes).length = rs.length * l.stride :=
  length_flatMap_const fun r _ => r.length_bytes

/-- The buffer reaches as far as its records. -/
theorem length_le (h : LayerHolds inst l rs) :
    rs.length * l.stride ≤ (inst.mxfsBuffer l).length := by
  have := congrArg List.length h.bytes
  rw [flatMap_length, List.length_take] at this
  omega

/-- The loop over the layer's buffer meets its records in order. -/
theorem forall₂_offsets (h : LayerHolds inst l rs) :
    List.Forall₂ (fun n r => slice (inst.mxfsBuffer l) n l.stride = Record.bytes r)
      (offsets 0 (inst.mxfsLength l) l.stride) rs := by
  rw [h.length]
  exact offsets_forall₂ (by unfold Layer.stride timeSize; omega) (fun r _ => r.length_bytes)
    h.bytes

/-- Where the loop starts one record later it meets all records but the first. -/
theorem forall₂_offsets_tail (h : LayerHolds inst l rs) :
    List.Forall₂ (fun n r => slice (inst.mxfsBuffer l) n l.stride = Record.bytes r)
      (offsets l.stride (inst.mxfsLength l) l.stride) rs.tail := by
  have hall := h.forall₂_offsets
  rw [h.length] at hall ⊢
  rw [offsets_step_mul _ (by unfold Layer.stride timeSize; omega), ← List.drop_one]
  exact List.forall₂_drop 1 hall

/-- The first buffered record. -/
theorem first {r : Record l} (h : LayerHolds inst l (r :: rest)) :
    slice (inst.mxfsBuffer l) 0 l.stride = r.bytes := by
  have hle : 0 + l.stride ≤ (r :: rest).length * l.stride := by
    rw [List.length_cons, Nat.succ_mul]; omega
  rw [← slice_take hle, h.bytes, List.flatMap_cons, slice, List.drop_zero]
  exact take_append_of_length r.length_bytes

/-- A layer that holds a record has bytes in its buffer. -/
theorem length_pos {r : Record l} (h : LayerHolds inst l (r :: rest)) :
    inst.mxfsLength l > 0 := by
  rw [h.length, List.length_cons]
  exact Nat.mul_pos (Nat.succ_pos _) (by unfold Layer.stride timeSize; omega)

/-- `mxfs_length / step` is the number of records. -/
theorem length_div (h : LayerHolds inst l rs) : inst.mxfsLength l / l.stride = rs.length := by
  rw [h.length]
  exact Nat.mul_div_cancel _ (by unfold Layer.stride timeSize; omega)

/-- The buffer of another layer does not matter. -/
theorem congr {inst' : Inst} (h : LayerHolds inst l rs)
    (hb : inst'.mxfsBuffer l = inst.mxfsBuffer l) (hl : inst'.mxfsLength l = inst.mxfsLength l)
    (hc : inst'.mxfsCount l = inst.mxfsCount l) : LayerHolds inst' l rs :=
  ⟨hc ▸ h.count, hl ▸ h.length, hb ▸ h.bytes⟩

end LayerHolds

/-- The timestamp of a buffered record. -/
theorem tmmAt_eq {inst : Inst} {l : Layer} {r : Record l}
    (h : slice (inst.mxfsBuffer l) n l.stride = r.bytes) : tmmAt inst l n = r.time.toNat := by
  have hs : slice (inst.mxfsBuffer l) n timeSize = leBytes timeSize r.time.toNat := by
    have := slice_slice (inst.mxfsBuffer l) (i := n) (n := l.stride) (j := 0)
      (m := timeSize) (by unfold Layer.stride; omega)
    rw [h, Nat.add_zero] at this
    rw [← this, slice, List.drop_zero, Record.bytes]
    exact take_append_of_length (length_leBytes _ _)
  rw [tmmAt, hs]
  exact leNat_leBytes_of_lt (k := timeSize) r.time.toNat_lt

/-- The payload of a buffered record. -/
theorem payloadAt_eq {inst : Inst} {l : Layer} {r : Record l}
    (h : slice (inst.mxfsBuffer l) n l.stride = r.bytes) : payloadAt inst l n = r.payload := by
  have := slice_slice (inst.mxfsBuffer l) (i := n) (n := l.stride) (j := timeSize)
    (m := l.recordSize) (by unfold Layer.stride; omega)
  rw [h, Record.bytes, ← List.append_nil r.payload] at this
  rw [payloadAt, ← this, slice_append_mid (length_leBytes _ _) r.size]

/-- The payloads in the layer's buffer, oldest first. -/
def buffered (inst : Inst) (l : Layer) : List (List UInt8) :=
  (offsets 0 (inst.mxfsLength l) l.stride).map (payloadAt inst l)

/-- The payloads read off a layer's buffer are those of the records it holds. -/
theorem LayerHolds.buffered {inst : Inst} {l : Layer} {rs : List (Record l)}
    (h : LayerHolds inst l rs) : buffered inst l = rs.map Record.payload := by
  have hall : List.Forall₂ (fun n r => payloadAt inst l n = Record.payload r)
      (offsets 0 (inst.mxfsLength l) l.stride) rs :=
    h.forall₂_offsets.imp fun _ _ hr => payloadAt_eq hr
  rw [Mxfs.buffered, ← List.forall₂_eq_eq_eq, List.forall₂_map_left_iff,
    List.forall₂_map_right_iff]
  exact hall

/-! ## the encoding loops -/

namespace FlushState

/-- `s'` is `s` with the bytes `bs` behind its own, and `last_tmm` at `last`. -/
structure Wrote (s : FlushState) (bs : List UInt8) (last : Nat) (s' : FlushState) : Prop where
  work : s'.work = s.work ++ bs
  workLen : s'.workLen = s'.work.length
  lastTmm : s'.lastTmm = last

/-- A copy to the work buffer appends, as long as `work_len` does not wrap. -/
theorem put_wrote {s : FlushState} (hs : s.workLen = s.work.length) (bs : List UInt8)
    (hlt : s.work.length + bs.length < 65536) : s.Wrote bs s.lastTmm (s.put bs) := by
  have hwork : (s.put bs).work = s.work ++ bs := by rw [put, hs]; exact patch_length _ _
  refine ⟨hwork, ?_, rfl⟩
  rw [hwork, put, hs, List.length_append]
  exact u16_eq hlt

/-- What is written in two goes lies one behind the other. -/
theorem Wrote.trans {s s' s'' : FlushState} (h : s.Wrote bs last s') (h' : s'.Wrote bs' last' s'') :
    s.Wrote (bs ++ bs') last' s'' :=
  ⟨by rw [h'.work, h.work, List.append_assoc], h'.workLen, h'.lastTmm⟩

/-- The work buffer grows by what is written. -/
theorem Wrote.length {s s' : FlushState} (h : s.Wrote bs last s') :
    s'.work.length = s.work.length + bs.length := by
  rw [h.work, List.length_append]

/-- Payloads one by one are the concatenated payloads. -/
theorem foldl_put_wrote {l : Layer} (rs : List (Record l)) {s : FlushState}
    (hs : s.workLen = s.work.length) (hlt : s.work.length + rs.length * l.recordSize < 65536) :
    s.Wrote (payloadBytes rs) s.lastTmm (rs.foldl (fun s r => s.put r.payload) s) := by
  induction rs generalizing s with
  | nil => exact ⟨by simp [payloadBytes], hs, rfl⟩
  | cons r rs ih =>
      rw [List.length_cons, Nat.succ_mul] at hlt
      have h1 := put_wrote hs r.payload (by rw [r.size]; omega)
      have h2 := ih h1.workLen (by rw [h1.length, r.size]; omega)
      exact h1.trans (h1.lastTmm ▸ h2)

/-- ANTP records one by one are their frames. -/
theorem foldl_antpPut_wrote {l : Layer} (hl : l.recordSize = antpRecordSize) (rs : List (Record l))
    {s : FlushState} (hs : s.workLen = s.work.length)
    (hlt : s.work.length + (headerSize + antpRecordSize) * rs.length < 65536) :
    s.Wrote ((rs.map fun r => (⟨l, antpHeader l r.time.toNat, r.payload⟩ : Frame)).flatMap
      Frame.bytes) (lastTime s.lastTmm rs)
      (rs.foldl (fun s r => antpPut l s r.time.toNat r.payload) s) := by
  induction rs generalizing s with
  | nil => exact ⟨by simp, hs, rfl⟩
  | cons r rs ih =>
      rw [List.length_cons, Nat.mul_succ] at hlt
      unfold headerSize antpRecordSize at hlt
      -- the bookkeeping before the two copies does not touch the work buffer
      have h1 : s.Wrote (antpHeader l r.time.toNat).bytes r.time.toNat
          ({ s.flag l with
              tmm := r.time.toNat
              startTmm := if (s.flag l).startTmm = 0 then r.time.toNat else (s.flag l).startTmm
              lastTmm := r.time.toNat }.put (antpHeader l r.time.toNat).bytes) := by
        have := put_wrote (s := { s.flag l with
              tmm := r.time.toNat
              startTmm := if (s.flag l).startTmm = 0 then r.time.toNat else (s.flag l).startTmm
              lastTmm := r.time.toNat }) hs (antpHeader l r.time.toNat).bytes (by
          rw [Compress.length_bytes]
          change s.work.length + headerSize < _
          unfold headerSize; omega)
        exact ⟨this.work, this.workLen, this.lastTmm⟩
      have hr : r.payload.length = 18 := by rw [r.size, hl]; rfl
      have h2 := put_wrote h1.workLen r.payload (by
        rw [h1.length, Compress.length_bytes, hr]; unfold headerSize; omega)
      have h12 := h1.trans h2
      have hlen : (antpPut l s r.time.toNat r.payload).work.length = s.work.length + 34 := by
        have := h12.length
        rw [List.length_append, Compress.length_bytes, hr] at this
        exact this
      have h3 := ih (s := antpPut l s r.time.toNat r.payload) h12.workLen (by
        rw [hlen]; unfold headerSize antpRecordSize; omega)
      have h4 := h12.trans h3
      have hlast : (antpPut l s r.time.toNat r.payload).lastTmm = r.time.toNat := rfl
      rw [hlast] at h4
      exact ⟨by rw [List.foldl_cons, h4.work, List.map_cons, List.flatMap_cons]; rfl,
        h4.workLen, h4.lastTmm⟩

/-- The loop that looks for the last timestamp only sets `last_tmm`. -/
theorem foldl_lastTmm {l : Layer} (rs : List (Record l)) (s : FlushState) :
    rs.foldl (fun s r => { s with lastTmm := r.time.toNat }) s =
      { s with lastTmm := lastTime s.lastTmm rs } := by
  induction rs generalizing s with
  | nil => rfl
  | cons r rs ih => rw [List.foldl_cons, ih]; rfl

end FlushState

/-- Over the buffered records of a layer, `last_tmm` ends at the last one's timestamp. -/
theorem LayerHolds.lastTmm_loop {inst : Inst} {l : Layer} {rs : List (Record l)}
    (h : LayerHolds inst l rs) (s : FlushState) :
    (offsets 0 (inst.mxfsLength l) l.stride).foldl
        (fun s n => { s with lastTmm := tmmAt inst l n }) s =
      { s with lastTmm := lastTime s.lastTmm rs } := by
  rw [← FlushState.foldl_lastTmm]
  exact foldl_forall₂ h.forall₂_offsets (fun s n r hr => by rw [tmmAt_eq hr]) s

/-- `last_tmm` ends at the last timestamp also when the loop skips the first record. -/
theorem LayerHolds.lastTmm_loop_tail {inst : Inst} {l : Layer} {rs : List (Record l)}
    (h : LayerHolds inst l rs) (s : FlushState) :
    (offsets l.stride (inst.mxfsLength l) l.stride).foldl
        (fun s n => { s with lastTmm := tmmAt inst l n }) s =
      { s with lastTmm := lastTime s.lastTmm rs.tail } := by
  rw [← FlushState.foldl_lastTmm]
  exact foldl_forall₂ h.forall₂_offsets_tail (fun s n r hr => by rw [tmmAt_eq hr]) s

/-- The encoding round of one layer. -/
def encodeLayer (x : Inst × FlushState) (l : Layer) : Inst × FlushState :=
  match l with
  | .antpSpeed | .antpPower | .antpCadence => encodeAntp x l
  | .gyro | .accelerometer => encodeDim3 x l
  | .temperature => encodeTemperature x

/-- The three loops of `prepare` are one loop over the layers. -/
theorem prepare_eq_foldl (inst : Inst) :
    prepare inst = Layer.all.foldl encodeLayer (inst, FlushState.init) := rfl

/-- Resetting an empty layer changes nothing. -/
theorem reset_of_empty {inst : Inst} {l : Layer} (h : LayerHolds inst l []) :
    inst.reset l = inst := by
  have hl : inst.mxfsLength l = 0 := by rw [h.length]; simp
  have hc : inst.mxfsCount l = 0 := h.count
  unfold Inst.reset
  rw [← hl, Function.update_eq_self, hl, ← hc, Function.update_eq_self]

/-- A series of records: header, then payloads. -/
theorem series_wrote {inst : Inst} {l : Layer} {rs : List (Record l)} (h : LayerHolds inst l rs)
    {s : FlushState} (hs : s.workLen = s.work.length) (header : Compress)
    (hlt : s.work.length + headerSize + rs.length * l.recordSize < 65536) :
    s.Wrote (header.bytes ++ payloadBytes rs) s.lastTmm
      ((offsets 0 (inst.mxfsLength l) l.stride).foldl
        (fun s n => s.put (payloadAt inst l n)) (s.put header.bytes)) := by
  have h1 := FlushState.put_wrote hs header.bytes (by
    rw [Compress.length_bytes]; omega)
  rw [foldl_forall₂ h.forall₂_offsets (g := fun (s : FlushState) r => s.put r.payload)
    (fun s n r hr => by rw [payloadAt_eq hr])]
  have h2 := FlushState.foldl_put_wrote rs h1.workLen (by
    rw [h1.length, Compress.length_bytes]; omega)
  exact h1.trans (h1.lastTmm ▸ h2)

/-- The gyro and accelerometer branch on a non-empty layer. -/
theorem encodeDim3_cons {inst : Inst} {l : Layer} {r : Record l} {rest : List (Record l)}
    (h : LayerHolds inst l (r :: rest)) {s : FlushState} (hs : s.workLen = s.work.length)
    (hlt : s.work.length + headerSize + (r :: rest).length * l.recordSize < 65536) :
    (encodeDim3 (inst, s) l).1 = inst.reset l ∧
      s.Wrote ((dim3Header l r.time.toNat (lastTime s.lastTmm (r :: rest))
          (rest.length + 1)).bytes ++ payloadBytes (r :: rest))
        (lastTime s.lastTmm (r :: rest)) (encodeDim3 (inst, s) l).2 := by
  rw [encodeDim3]
  simp only [h.length_pos, if_true, h.length_div, tmmAt_eq h.first, h.lastTmm_loop]
  refine ⟨trivial, ?_⟩
  have := series_wrote h (s := { s.flag l with
      tmm := r.time.toNat, lastTmm := lastTime s.lastTmm (r :: rest) }) hs
    (dim3Header l r.time.toNat (lastTime s.lastTmm (r :: rest)) (rest.length + 1)) hlt
  exact ⟨this.work, this.workLen, this.lastTmm⟩

/-- The temperature branch on a non-empty layer. -/
theorem encodeTemperature_cons {inst : Inst} {r : Record .temperature}
    {rest : List (Record .temperature)} (h : LayerHolds inst .temperature (r :: rest))
    {s : FlushState} (hs : s.workLen = s.work.length)
    (hlt : s.work.length + headerSize +
      (r :: rest).length * Layer.recordSize .temperature < 65536) :
    (encodeTemperature (inst, s)).1 = inst.reset .temperature ∧
      s.Wrote ((temperatureHeader r.time.toNat (lastTime s.lastTmm rest)
          (rest.length + 1)).bytes ++ payloadBytes (r :: rest))
        (lastTime s.lastTmm rest) (encodeTemperature (inst, s)).2 := by
  rw [encodeTemperature]
  simp only [h.length_pos, if_true, h.length_div, tmmAt_eq h.first, h.lastTmm_loop_tail]
  refine ⟨trivial, ?_⟩
  have := series_wrote h (s := { s.flag .temperature with
      tmm := r.time.toNat, lastTmm := lastTime s.lastTmm rest }) hs
    (temperatureHeader r.time.toNat (lastTime s.lastTmm rest) (rest.length + 1)) hlt
  exact ⟨this.work, this.workLen, this.lastTmm⟩

/-- **One layer's encoding**: its frames behind what was there, the layer empty. -/
theorem encodeLayer_spec {inst : Inst} {l : Layer} {rs : List (Record l)}
    (h : LayerHolds inst l rs) {s : FlushState} (hs : s.workLen = s.work.length)
    (hlt : s.work.length + l.encodedSize rs.length < 65536) :
    (encodeLayer (inst, s) l).1 = inst.reset l ∧
      s.Wrote ((l.frames s.lastTmm rs).flatMap Frame.bytes) (l.lastAfter s.lastTmm rs)
        (encodeLayer (inst, s) l).2 := by
  have hraw := Batch.recordSize_mul_le l rs.length
  cases l
  case antpSpeed | antpPower | antpCadence =>
      refine ⟨rfl, ?_⟩
      rw [encodeLayer, encodeAntp]
      simp only []
      rw [foldl_forall₂ h.forall₂_offsets
        (g := fun (s : FlushState) r => antpPut _ s r.time.toNat r.payload)
        (fun s n r hr => by rw [tmmAt_eq hr, payloadAt_eq hr])]
      exact FlushState.foldl_antpPut_wrote rfl rs hs hlt
  case gyro | accelerometer =>
      cases rs with
      | nil =>
          have hl : inst.mxfsLength _ = 0 := h.length
          rw [encodeLayer, encodeDim3, reset_of_empty h]
          simp only [hl, Nat.lt_irrefl, if_false, gt_iff_lt]
          exact ⟨trivial, by simp [Layer.frames], hs, rfl⟩
      | cons r rest =>
          rw [encodeLayer]
          simp only [Layer.frames, Layer.lastAfter, List.flatMap_cons, List.flatMap_nil,
            List.append_nil, Frame.bytes]
          refine encodeDim3_cons h hs ?_
          simp only [Layer.encodedSize, List.length_cons, Nat.succ_ne_zero, if_false] at hlt ⊢
          simp only [Layer.recordSize]; rw [Nat.mul_comm]; omega
  case temperature =>
      cases rs with
      | nil =>
          have hl : inst.mxfsLength _ = 0 := h.length
          rw [encodeLayer, encodeTemperature, reset_of_empty h]
          simp only [hl, Nat.lt_irrefl, if_false, gt_iff_lt]
          exact ⟨trivial, by simp [Layer.frames], hs, rfl⟩
      | cons r rest =>
          rw [encodeLayer]
          simp only [Layer.frames, Layer.lastAfter, List.flatMap_cons, List.flatMap_nil,
            List.append_nil, Frame.bytes]
          refine encodeTemperature_cons h hs ?_
          simp only [Layer.encodedSize, List.length_cons, Nat.succ_ne_zero, if_false] at hlt ⊢
          simp only [Layer.recordSize]; rw [Nat.mul_comm]; omega

/-! ## the refinement -/

/-- The buffers hold exactly the records of `p`, and `p` fits the page. -/
structure Buffers (B : Build) (inst : Inst) (p : Batch) : Prop where
  layers : ∀ l, LayerHolds inst l (p l)
  size : ∀ l, (inst.mxfsBuffer l).length = B.mxfsBufferSize
  fits : p.pageBytes ≤ 2000

/-- All layers empty. -/
def Inst.clear (inst : Inst) : Inst :=
  { inst with mxfsLength := fun _ => 0, mxfsCount := fun _ => 0 }

/-- **The encoding loops** write the image of the batch and empty the layers. -/
theorem prepare_eq {B : Build} {inst : Inst} {p : Batch} (h : Buffers B inst p) :
    (prepare inst).1 = inst.clear ∧ (prepare inst).2.work = p.image ∧
      (prepare inst).2.workLen = p.image.length := by
  -- the loop over the layers `ls`, the layers outside it untouched
  have hloop : ∀ (ls : List Layer) (i : Inst) (s : FlushState), ls.Nodup →
      (∀ l ∈ ls, LayerHolds i l (p l)) → s.workLen = s.work.length →
      s.work.length + (ls.map fun l => l.encodedSize (p l).length).sum < 65536 →
      (ls.foldl encodeLayer (i, s)).1 = ls.foldl Inst.reset i ∧
        (ls.foldl encodeLayer (i, s)).2.work =
          s.work ++ (p.framesFrom ls s.lastTmm).flatMap Frame.bytes ∧
        (ls.foldl encodeLayer (i, s)).2.workLen =
          (ls.foldl encodeLayer (i, s)).2.work.length := by
    intro ls
    induction ls with
    | nil => intro i s _ _ hs _; exact ⟨rfl, by simp [Batch.framesFrom], hs⟩
    | cons l ls ih =>
        intro i s hnd hhold hs hlt
        rw [List.map_cons, List.sum_cons] at hlt
        obtain ⟨hne, hnd⟩ := List.nodup_cons.1 hnd
        obtain ⟨h1, h2⟩ := encodeLayer_spec (hhold l List.mem_cons_self) hs (by omega)
        have hlen := h2.length
        rw [Layer.length_frames] at hlen
        have hrest : ∀ k ∈ ls, LayerHolds (i.reset l) k (p k) := by
          intro k hk
          have hkl : k ≠ l := fun he => hne (he ▸ hk)
          exact (hhold k (List.mem_cons_of_mem l hk)).congr rfl (by simp [Inst.reset, hkl])
            (by simp [Inst.reset, hkl])
        rw [← h1] at hrest
        obtain ⟨h3, h4, h5⟩ := ih (encodeLayer (i, s) l).1 (encodeLayer (i, s) l).2 hnd hrest
          h2.workLen (by omega)
        refine ⟨?_, ?_, h5⟩
        · rw [List.foldl_cons, List.foldl_cons, ← h1]; exact h3
        · rw [List.foldl_cons, Batch.framesFrom, List.flatMap_append, ← List.append_assoc,
            ← h2.work, ← h2.lastTmm]
          exact h4
  have hclear : Layer.all.foldl Inst.reset inst = inst.clear := by
    simp only [Layer.all, List.foldl_cons, List.foldl_nil, Inst.reset, Inst.clear]
    congr 1 <;> (funext l; cases l <;> rfl)
  have hfits := h.fits
  obtain ⟨h1, h2, h3⟩ := hloop Layer.all inst FlushState.init (by decide)
    (fun l _ => h.layers l) rfl (by
      change 0 + p.pageBytes < 65536
      omega)
  rw [← prepare_eq_foldl, hclear] at h1
  rw [← prepare_eq_foldl] at h2 h3
  exact ⟨h1, h2, by rw [h3, h2]; rfl⟩

/-! ## the sums -/

/-- A round of the summing loop of `mxfs_append`, as long as it does not wrap. -/
theorem appendLengthAdd_eq {inst : Inst} {l : Layer}
    (h : len + l.encodedSize (inst.mxfsCount l) < 65536) :
    appendLengthAdd inst len l = len + l.encodedSize (inst.mxfsCount l) := by
  cases l <;>
    simp only [appendLengthAdd, Layer.encodedSize, headerSize, antpRecordSize, gyroRecordSize,
      temperatureRecordSize, layerDimMax, u16] at h ⊢ <;>
    grind

/-- A summing loop whose rounds do not wrap computes the sum. -/
theorem foldl_appendLengthAdd {inst : Inst} (ls : List Layer)
    (h : len + (ls.map fun l => l.encodedSize (inst.mxfsCount l)).sum < 65536) :
    ls.foldl (appendLengthAdd inst) len =
      len + (ls.map fun l => l.encodedSize (inst.mxfsCount l)).sum := by
  induction ls generalizing len with
  | nil => simp
  | cons l ls ih =>
      rw [List.map_cons, List.sum_cons] at h ⊢
      rw [List.foldl_cons, appendLengthAdd_eq (by omega), ih (by omega)]; omega

/-- `mxfs_append` computes the page size of what is buffered. -/
theorem appendLength_eq {B : Build} {inst : Inst} {p : Batch} (h : Buffers B inst p) :
    appendLength inst = p.pageBytes := by
  have hfits := h.fits
  have hcount : (fun l => l.encodedSize (inst.mxfsCount l)) =
      fun l : Layer => l.encodedSize (p l).length := by
    funext l; rw [(h.layers l).count]
  unfold Batch.pageBytes at hfits ⊢
  rw [appendLength, foldl_appendLengthAdd _ (by rw [hcount]; omega), hcount, Nat.zero_add]

/-- The totals of a flush, computed without truncation. -/
def Batch.totals (p : Batch) : FlushTotals where
  currentLength := (Layer.all.map fun l => l.recordSize * (p l).length).sum
  gyroCount := (p .gyro).length + (p .accelerometer).length + (p .temperature).length
  antpCount := (p .antpSpeed).length + (p .antpPower).length + (p .antpCadence).length

/-- The length a flush sums up is no more than what the batch takes on a page. -/
theorem Batch.totals_currentLength_le (p : Batch) : p.totals.currentLength ≤ p.pageBytes := by
  rw [pageBytes_eq]
  have h3 := recordSize_mul_le .gyro (p .gyro).length
  have h4 := recordSize_mul_le .accelerometer (p .accelerometer).length
  have h5 := recordSize_mul_le .temperature (p .temperature).length
  simp only [totals, Layer.all, List.map_cons, List.map_nil, List.sum_cons, List.sum_nil,
    Layer.recordSize, antpRecordSize, gyroRecordSize, temperatureRecordSize] at h3 h4 h5 ⊢
  omega

/-- The sums of `mxfs_flush` do not wrap. -/
theorem flushTotals_eq {B : Build} {inst : Inst} {p : Batch} (h : Buffers B inst p) :
    flushTotals inst = p.totals := by
  have hle := p.totals_currentLength_le
  have hfits := h.fits
  simp only [flushTotals, Batch.totals, Layer.all, List.foldl_cons, List.foldl_nil,
    FlushTotals.add, List.map_cons, List.map_nil, List.sum_cons, List.sum_nil, Layer.recordSize,
    antpRecordSize, gyroRecordSize, temperatureRecordSize, layerDimMax, (h.layers _).count,
    FlushTotals.mk.injEq, u16] at hle ⊢
  refine ⟨?_, ?_, ?_⟩ <;> omega

/-- A flush finds nothing to do exactly when nothing is buffered. -/
theorem flushTotals_eq_zero_iff {B : Build} {inst : Inst} {p : Batch} (h : Buffers B inst p) :
    (flushTotals inst).currentLength = 0 ↔ p.IsEmpty := by
  rw [flushTotals_eq h]
  simp only [Batch.totals, Layer.all, List.map_cons, List.map_nil, List.sum_cons, List.sum_nil,
    Layer.recordSize, antpRecordSize, gyroRecordSize, temperatureRecordSize]
  constructor
  · intro hz l
    apply List.eq_nil_of_length_eq_zero
    cases l <;> omega
  · intro he
    simp only [he _, List.length_nil, Nat.mul_zero, Nat.add_zero]

/-! ## what a call leaves alone -/

/-- The instances have the same buffers. -/
structure SameRam (i i' : Inst) : Prop where
  buffer : i'.mxfsBuffer = i.mxfsBuffer
  length : i'.mxfsLength = i.mxfsLength
  count : i'.mxfsCount = i.mxfsCount

/-- The instances have the same cursor and block table. -/
structure SameTable (i i' : Inst) : Prop where
  block : i'.mxfsCurrentBlock = i.mxfsCurrentBlock
  page : i'.mxfsCurrentPage = i.mxfsCurrentPage
  blocks : i'.blocks = i.blocks

theorem SameRam.refl (i : Inst) : SameRam i i := ⟨rfl, rfl, rfl⟩

/-- To have the same buffers is transitive. -/
theorem SameRam.trans {i j k : Inst} (h : SameRam i j) (h' : SameRam j k) : SameRam i k :=
  ⟨h'.buffer.trans h.buffer, h'.length.trans h.length, h'.count.trans h.count⟩

theorem SameTable.refl (i : Inst) : SameTable i i := ⟨rfl, rfl, rfl⟩

/-- To have the same block table is transitive. -/
theorem SameTable.trans {i j k : Inst} (h : SameTable i j) (h' : SameTable j k) :
    SameTable i k :=
  ⟨h'.block.trans h.block, h'.page.trans h.page, h'.blocks.trans h.blocks⟩

/-- With the same block table the same blocks are marked. -/
theorem SameTable.flagged {i i' : Inst} (h : SameTable i i') (b : Nat) :
    i'.blockFlagged b = i.blockFlagged b := by
  rw [Inst.blockFlagged, h.blocks, Inst.blockFlagged]

/-- What the buffers hold is read off nothing but the buffers. -/
theorem Buffers.congr {B : Build} {i i' : Inst} {p : Batch} (h : Buffers B i p)
    (hr : SameRam i i') : Buffers B i' p :=
  ⟨fun l => (h.layers l).congr (by rw [hr.buffer]) (by rw [hr.length]) (by rw [hr.count]),
    fun l => by rw [hr.buffer]; exact h.size l, h.fits⟩

/-- A change to the block table spares the buffers. -/
theorem sameRam_setBlock (i : Inst) (b : Nat) (f : BlockStatus → BlockStatus) :
    SameRam i (i.setBlock b f) := ⟨rfl, rfl, rfl⟩

/-- An advance of the cursor spares the buffers. -/
theorem sameRam_advance (i : Inst) : SameRam i (advance i) := by
  unfold advance
  dsimp only
  split <;> exact ⟨rfl, rfl, rfl⟩

/-- A program spares the buffers. -/
theorem sameRam_program (B : Build) (D : Driver σ) (i : Inst) (s : FlushState) (dev : σ) :
    SameRam i (program B D i s dev).2.1 := by
  unfold program
  rcases D.write dev i.mxfsCurrentBlock i.mxfsCurrentPage (s.work.take s.workLen) with ⟨ret, dev'⟩
  dsimp only
  split
  · exact (sameRam_setBlock i _ _).trans (sameRam_advance _)
  · exact SameRam.refl i

/-- The driver calls of a flush do not touch the buffers. -/
theorem sameRam_commit (B : Build) (D : Driver σ) (i : Inst) (s : FlushState) (dev : σ) :
    SameRam i (commit B D i s dev).2.1 := by
  unfold commit
  split
  · rcases D.erase dev i.mxfsCurrentBlock with ⟨ret, dev'⟩
    dsimp only
    split
    · exact sameRam_setBlock i _ _
    · exact (sameRam_setBlock i _ _).trans (sameRam_program B D _ s _)
  · exact sameRam_program B D i s dev

/-- The scan of a block spares the buffers. -/
theorem sameRam_scanBlock (B : Build) (D : Driver σ) (x : Inst × σ) (b : Nat) :
    SameRam x.1 (scanBlock B D x b).1 := by
  unfold scanBlock
  rcases D.read x.2 b 0 headerSize with ⟨ret, rbf, dev'⟩
  dsimp only
  split
  · split <;> exact ⟨rfl, rfl, rfl⟩
  · exact ⟨rfl, rfl, rfl⟩

/-- Moving the cursor does not touch the buffers. -/
theorem sameRam_cursor (i : Inst) (b p : Nat) :
    SameRam i { i with mxfsCurrentBlock := b, mxfsCurrentPage := p } := ⟨rfl, rfl, rfl⟩

/-- The choice of the current block spares the buffers. -/
theorem sameRam_findCurrent (B : Build) (ls : List Nat) (t : Nat) (i : Inst) :
    SameRam i (findCurrent B ls t i) := by
  induction ls generalizing t i with
  | nil => exact SameRam.refl i
  | cons b ls ih =>
      simp only [findCurrent]
      split
      · split
        · split
          · exact (sameRam_cursor i b 0).trans (ih _ _)
          · exact ih _ _
        · exact ih _ _
      · split
        · split
          · exact (sameRam_cursor i b 0).trans (ih _ _)
          · exact ih _ _
        · exact ⟨rfl, rfl, rfl⟩

/-- A mount leaves the fresh buffers. -/
theorem sameRam_mount (B : Build) (D : Driver σ) (dev : σ) :
    SameRam (freshInst B) (mount B D dev).1 := by
  have hscan : ∀ (bs : List Nat) (x : Inst × σ),
      SameRam x.1 (bs.foldl (scanBlock B D) x).1 := by
    intro bs
    induction bs with
    | nil => intro x; exact SameRam.refl x.1
    | cons b bs ih => intro x; exact (sameRam_scanBlock B D x b).trans (ih _)
  rw [mount_inst]
  exact (hscan dataBlocks (freshInst B, dev)).trans (sameRam_findCurrent B dataBlocks 0 _)

/-! ## the calls -/

/-- A layer of no bytes and no records is empty. -/
theorem layerHolds_empty (h : inst.mxfsLength l = 0) (h' : inst.mxfsCount l = 0) :
    LayerHolds inst l [] :=
  ⟨h', by rw [h]; simp, by simp⟩

/-- The buffers of a fresh instance are filled with `0xFF`. -/
theorem freshInst_buffer (B : Build) (l : Layer) :
    (freshInst B).mxfsBuffer l = List.replicate B.mxfsBufferSize 0xFF := rfl

/-- A fresh instance has nothing buffered. -/
theorem buffers_fresh (B : Build) : Buffers B (freshInst B) Batch.empty := by
  refine ⟨fun l => layerHolds_empty rfl rfl, fun l => ?_, Nat.zero_le _⟩
  rw [freshInst_buffer, List.length_replicate]

/-- A mount leaves nothing buffered. -/
theorem buffers_mount (B : Build) (D : Driver σ) (dev : σ) :
    Buffers B (mount B D dev).1 Batch.empty :=
  (buffers_fresh B).congr (sameRam_mount B D dev)

/-- After a flush has cleared the layers nothing is buffered. -/
theorem buffers_clear {B : Build} {inst : Inst} {p : Batch} (h : Buffers B inst p) :
    Buffers B inst.clear Batch.empty :=
  ⟨fun _ => layerHolds_empty rfl rfl, h.size, Nat.zero_le _⟩

/-- **A flush**, as its one commit of the image of what is buffered. -/
theorem mxfsFlush_eq {B : Build} {D : Driver σ} {inst : Inst} {p : Batch}
    (h : Buffers B inst p) (dev : σ) :
    mxfsFlush B D inst dev =
      if p.IsEmpty then (OK, inst, dev) else commit B D inst.clear (prepare inst).2 dev := by
  rw [mxfsFlush]
  by_cases he : p.IsEmpty
  · rw [if_pos ((flushTotals_eq_zero_iff h).2 he), if_pos he]
  · rw [if_neg (fun hz => he ((flushTotals_eq_zero_iff h).1 hz)), if_neg he, ← (prepare_eq h).1]

/-- What the driver is given to program. -/
theorem prepare_data {B : Build} {inst : Inst} {p : Batch} (h : Buffers B inst p) :
    (prepare inst).2.work.take (prepare inst).2.workLen = p.image := by
  obtain ⟨_, hwork, hlen⟩ := prepare_eq h
  rw [hwork, hlen, List.take_length]

/-- A flush empties the buffers, whether it succeeds or not. -/
theorem buffers_flush {B : Build} {D : Driver σ} {inst : Inst} {p : Batch}
    (h : Buffers B inst p) (dev : σ) : Buffers B (mxfsFlush B D inst dev).2.1 Batch.empty := by
  rw [mxfsFlush_eq h]
  split
  · next he => exact he.eq_empty ▸ h
  · exact (buffers_clear h).congr (sameRam_commit B D _ _ dev)

/-! ### copying a record -/

/-- The record behind the others of its layer. -/
def Inst.place (inst : Inst) (l : Layer) (r : Record l) : Inst :=
  { inst with
    mxfsBuffer := Function.update inst.mxfsBuffer l
      (patch (inst.mxfsBuffer l) (inst.mxfsLength l) r.bytes)
    mxfsLength := Function.update inst.mxfsLength l (inst.mxfsLength l + l.stride)
    mxfsCount := Function.update inst.mxfsCount l (inst.mxfsCount l + 1) }

/-- A record placed in a layer's buffer is held behind the others. -/
theorem LayerHolds.place {inst : Inst} {l : Layer} {rs : List (Record l)}
    (h : LayerHolds inst l rs) (r : Record l) : LayerHolds (inst.place l r) l (rs ++ [r]) := by
  have hin : inst.mxfsLength l ≤ (inst.mxfsBuffer l).length := by
    rw [h.length]
    exact h.length_le
  have htake := take_patch r.bytes hin
  rw [r.length_bytes] at htake
  refine ⟨?_, ?_, ?_⟩
  · simp [Inst.place, h.count]
  · simp [Inst.place, h.length, Nat.succ_mul]
  · simp only [Inst.place, Function.update_self, List.length_append, List.length_singleton,
      List.flatMap_append, List.flatMap_cons, List.flatMap_nil, List.append_nil]
    rw [Nat.succ_mul, ← h.length, htake, h.length, h.bytes]

/-- A record placed in the buffer of one layer leaves the others as they were. -/
theorem LayerHolds.place_ne {inst : Inst} {k l : Layer} {rs : List (Record k)}
    (h : LayerHolds inst k rs) (hk : k ≠ l) (r : Record l) : LayerHolds (inst.place l r) k rs :=
  h.congr (by simp [Inst.place, hk]) (by simp [Inst.place, hk]) (by simp [Inst.place, hk])

/-- With room for it a record is copied behind the others. -/
theorem bufferRecord_of_room {B : Build} {inst : Inst} {p : Batch} (h : Buffers B inst p)
    (l : Layer) (r : Record l) (hroom : LogState.HasRoom B p l) :
    bufferRecord B inst l r.time r.payload = (OK, inst.place l r) := by
  have hlen := (h.layers l).length
  have hstride : l.stride = l.recordSize + 8 := rfl
  have hpos : inst.mxfsLength l + timeSize + r.payload.length = inst.mxfsLength l + l.stride := by
    rw [r.size, hstride]
    unfold timeSize
    omega
  unfold LogState.HasRoom at hroom
  rw [Nat.succ_mul, ← hlen] at hroom
  have hbuf : B.mxfsBufferSize ≤ 16384 := by
    unfold Build.mxfsBufferSize
    split <;> decide
  have hnew : inst.mxfsLength l + (leBytes timeSize r.time.toNat).length + r.payload.length ≤
      (inst.mxfsBuffer l).length := by
    rw [length_leBytes, hpos, h.size l]
    exact hroom
  have hmem := patch_patch (inst.mxfsBuffer l) _ r.payload hnew
  rw [length_leBytes] at hmem
  have hu : u16 (u16 (inst.mxfsLength l + timeSize) + r.payload.length) =
      inst.mxfsLength l + l.stride := by
    rw [u16_eq (n := inst.mxfsLength l + timeSize) (by omega), hpos, u16_eq (by omega)]
  have hcount : u16 (inst.mxfsCount l + 1) = inst.mxfsCount l + 1 := by
    have hlt := p.count_lt h.fits l
    rw [(h.layers l).count]
    exact u16_eq (by omega)
  unfold bufferRecord
  rw [if_neg (by omega)]
  simp only [hmem, hu, hcount]
  rfl

/-- **Copying a record behind the others**, if there is room for it. -/
theorem buffers_bufferRecord {B : Build} {inst : Inst} {p : Batch} (h : Buffers B inst p)
    (l : Layer) (r : Record l) (hfit : ¬ LogState.Full p l) :
    (LogState.HasRoom B p l → (bufferRecord B inst l r.time r.payload).1 = OK ∧
      Buffers B (bufferRecord B inst l r.time r.payload).2 (p.push l r) ∧
      SameTable inst (bufferRecord B inst l r.time r.payload).2) ∧
    (¬ LogState.HasRoom B p l →
      bufferRecord B inst l r.time r.payload = (NEED_MORE_BUFFER, inst)) := by
  have hlen := (h.layers l).length
  constructor
  · intro hroom
    rw [bufferRecord_of_room h l r hroom]
    refine ⟨rfl, ⟨?_, ?_, ?_⟩, ⟨rfl, rfl, rfl⟩⟩
    · intro k
      by_cases hk : k = l
      · subst hk
        rw [Batch.push_same]
        exact (h.layers k).place r
      · rw [Batch.push_ne p r hk]
        exact (h.layers k).place_ne hk r
    · intro k
      by_cases hk : k = l
      · subst hk
        have hinside : inst.mxfsLength k + r.bytes.length ≤ (inst.mxfsBuffer k).length := by
          unfold LogState.HasRoom at hroom
          rw [Nat.succ_mul] at hroom
          rw [r.length_bytes, h.size, hlen]
          exact hroom
        simp only [Inst.place, Function.update_self]
        rw [length_patch hinside]
        exact h.size k
      · simp only [Inst.place, Function.update_of_ne hk]
        exact h.size k
    · have hpush := p.pageBytes_push_le l r
      unfold LogState.Full pageSize at hfit
      unfold headerSize at hpush
      omega
  · intro hroom
    have hpos : inst.mxfsLength l + timeSize + r.payload.length =
        ((p l).length + 1) * l.stride := by
      have hstride : l.stride = l.recordSize + 8 := rfl
      rw [hlen, r.size, Nat.succ_mul, hstride]
      unfold timeSize
      omega
    unfold LogState.HasRoom at hroom
    unfold bufferRecord
    rw [if_pos (by omega)]

end Mxfs
