import Mxfs.Log

/-!
# Mxfs.PageFit

The sizes of what is buffered, in every state a client can bring about and
whatever the driver does.

* `PageFit` — the page a flush would write has room to spare, no sum wraps and
  every count fits its header field (`pageFit_run`);
* `append_ok_iff` — when a valid append is taken.  The automatic flush counts
  page bytes, the buffer limit counts raw bytes with their timestamps; with
  the halved buffers of `__RP2040__` the temperature layer meets the latter
  first.
-/

namespace Mxfs

open Lib

/-! ## the page-fit invariant -/

/-- The sums of a flush without truncation. -/
def Inst.totals (inst : Inst) : FlushTotals where
  currentLength := (Layer.all.map fun l => l.recordSize * inst.mxfsCount l).sum
  gyroCount := inst.mxfsCount .gyro + inst.mxfsCount .accelerometer + inst.mxfsCount .temperature
  antpCount := inst.mxfsCount .antpSpeed + inst.mxfsCount .antpPower + inst.mxfsCount .antpCadence

/-- A state whose flush stays inside the page.  Where a computed sum equals the
exact one and that is below `2 ^ 16`, no partial sum has wrapped either. -/
structure PageFit (B : Build) (inst : Inst) : Prop where
  /-- `mxfs_length` is `mxfs_count` records with their timestamps. -/
  length : ∀ l, inst.mxfsLength l = inst.mxfsCount l * (timeSize + l.recordSize)
  /-- The records are inside the layer's buffer. -/
  buffer : ∀ l, inst.mxfsLength l ≤ B.mxfsBufferSize
  /-- What a flush copies to its work buffer, and `work_len`. -/
  work : (prepare inst).2.work.length = inst.pageBytes
  workLen : (prepare inst).2.workLen = inst.pageBytes
  fits : inst.pageBytes ≤ 2000
  /-- `current_length` of an append, over all layers and with the new record. -/
  appendLength : appendLength inst = inst.pageBytes
  appendLen : ∀ l : Layer, inst.pageBytes + l.recordSize < 65536
  /-- The sums of a flush. -/
  totals : flushTotals inst = inst.totals
  totalsLen : inst.totals.currentLength < 65536 ∧ inst.totals.gyroCount < 65536 ∧
    inst.totals.antpCount < 65536
  /-- `mxfs_length` and `mxfs_count` once one more record is buffered. -/
  bufferLen : ∀ l, inst.mxfsLength l + timeSize + l.recordSize < 65536
  bufferCount : ∀ l, inst.mxfsCount l + 1 < 65536
  /-- The counts fit `gyr.count` and `tmp.count`. -/
  gyrCount : inst.mxfsCount .gyro < 2 ^ 11 ∧ inst.mxfsCount .accelerometer < 2 ^ 11
  tmpCount : inst.mxfsCount .temperature < 2 ^ 16

theorem Buffers.totals {B : Build} {inst : Inst} {p : Batch} (h : Buffers B inst p) :
    inst.totals = p.totals := by
  simp only [Inst.totals, Batch.totals, (h.layers _).count]

theorem Buffers.length_le {B : Build} {inst : Inst} {p : Batch} (h : Buffers B inst p) (l : Layer) :
    inst.mxfsLength l ≤ B.mxfsBufferSize := by
  rw [(h.layers l).length, ← h.size l]
  exact (h.layers l).length_le

theorem mxfsBufferSize_le (B : Build) : B.mxfsBufferSize ≤ 16384 := by
  unfold Build.mxfsBufferSize; split <;> decide

/-- Buffers that hold a batch fit the page. -/
theorem Buffers.pageFit {B : Build} {inst : Inst} {p : Batch} (h : Buffers B inst p) :
    PageFit B inst := by
  obtain ⟨_, hwork, hlen⟩ := prepare_eq h
  have hfits := h.fits
  have hcount : ∀ l, inst.mxfsCount l < 2048 := fun l => by
    rw [(h.layers l).count]; exact p.count_lt hfits l
  have hsize := mxfsBufferSize_le B
  have htotals := p.totals_currentLength_le
  refine
    { length := fun l => ?_, buffer := h.length_le, work := ?_, workLen := ?_, fits := ?_,
      appendLength := ?_, appendLen := fun l => ?_, totals := ?_, totalsLen := ⟨?_, ?_, ?_⟩,
      bufferLen := fun l => ?_, bufferCount := fun l => ?_, gyrCount := ⟨hcount _, hcount _⟩,
      tmpCount := ?_ }
  · rw [(h.layers l).length, (h.layers l).count, Layer.stride, Nat.add_comm]
  · rw [hwork, p.length_image, h.pageBytes]
  · rw [hlen, p.length_image, h.pageBytes]
  · rw [h.pageBytes]; exact hfits
  · rw [appendLength_eq h, h.pageBytes]
  · have := l.recordSize_le
    rw [h.pageBytes]; omega
  · rw [flushTotals_eq h, h.totals]
  · rw [h.totals]; omega
  · have h3 := hcount .gyro
    have h4 := hcount .accelerometer
    have h5 := hcount .temperature
    simp only [Inst.totals]; omega
  · have h0 := hcount .antpSpeed
    have h1 := hcount .antpPower
    have h2 := hcount .antpCadence
    simp only [Inst.totals]; omega
  · have := h.length_le l
    have := l.recordSize_le
    unfold timeSize; omega
  · have := hcount l
    omega
  · have := hcount .temperature
    omega

/-- **Page fit**: after any calls, over any driver and from any mount. -/
theorem pageFit_run (B : Build) (D : Driver σ) (dev : σ) (ops : List Op) :
    PageFit B (session B D dev ops).inst :=
  (buffers_run D dev ops).pageFit

/-! ## when a valid append is taken -/

namespace LogState

/-- The halved buffers of `__RP2040__` have no room for one more temperature record. -/
def Crowded (B : Build) (p : Batch) (l : Layer) : Prop :=
  B.rp2040 = true ∧ l = .temperature ∧ 819 ≤ (p l).length ∧ ¬ Full p l

/-- **When the abstract log takes a record.** -/
theorem append_fst_eq_ok_iff (B : Build) (a : LogState) (l : Layer) (r : Record l) :
    (append B a l r).1 = OK ↔ ¬ Crowded B a.pending l := by
  unfold Crowded
  by_cases hfull : Full a.pending l
  · rw [append_of_full B r hfull]
    exact iff_of_true rfl fun h => h.2.2.2 hfull
  · by_cases hroom : HasRoom B a.pending l
    · rw [append_of_room B r hfull hroom]
      exact iff_of_true rfl fun h => (hasRoom_iff hfull).1 hroom ⟨h.1, h.2.1, h.2.2.1⟩
    · rw [append_of_no_room B r hfull hroom]
      rw [hasRoom_iff hfull, not_not] at hroom
      exact iff_of_false NEED_MORE_BUFFER_ne_OK
        (not_not.2 ⟨hroom.1, hroom.2.1, hroom.2.2, hfull⟩)

end LogState

/-- **A valid append is taken**, after any calls and over any driver, exactly
when its buffer has room or the flush test fires: always, but for the
temperature layer with the halved buffers of `__RP2040__`. -/
theorem append_ok_iff (B : Build) (D : Driver σ) (dev : σ) (ops : List Op) (l : Layer)
    (r : Record l) :
    (call B D (session B D dev ops) (.ofRecord l r)).1 = OK ↔
      ¬ (B.rp2040 = true ∧ l = .temperature ∧
        819 ≤ (session B D dev ops).inst.mxfsCount .temperature ∧
        (session B D dev ops).inst.pageBytes + temperatureRecordSize ≤ pageSize - 64) := by
  have hbuf := buffers_run (B := B) D dev ops
  have hret : (call B D (session B D dev ops) (.ofRecord l r)).1 =
      ((LogState.init.run B ops).step B (.ofRecord l r)).1 := call_append_ret hbuf _ _ _
  rw [hret, step_ofRecord, LogState.append_fst_eq_ok_iff, LogState.Crowded, hbuf.pageBytes,
    (hbuf.layers .temperature).count, LogState.Full, Nat.not_lt]
  by_cases hl : l = .temperature
  · subst hl; rfl
  · simp only [hl, false_and, and_false]

/-! ### temperature records only -/

/-- A temperature record. -/
def temperatureSample : Record .temperature := ⟨1000, [0, 0], rfl⟩

theorem run_temperatures (B : Build) (h : n ≤ 819) :
    LogState.init.run B (List.replicate n (.ofRecord .temperature temperatureSample)) =
      ⟨Batch.copies .temperature temperatureSample n, []⟩ := by
  apply run_copies
  · intro k hk
    grind [Layer.encodedSize, Layer.recordSize, headerSize, temperatureRecordSize, pageSize]
  · have hsize : 8192 ≤ B.mxfsBufferSize := by
      unfold Build.mxfsBufferSize; split <;> decide
    show n * 10 ≤ _
    omega

/-- With 819 temperature records buffered the next one is refused. -/
theorem append_temperature_refused :
    (call { linux := false, rp2040 := true } (pageArray fakeMedium)
      (session { linux := false, rp2040 := true } (pageArray fakeMedium) Flash.erased
        (List.replicate 819 (.ofRecord .temperature temperatureSample)))
      (.ofRecord .temperature temperatureSample)).1 = NEED_MORE_BUFFER := by
  have hbuf := buffers_run (B := { linux := false, rp2040 := true }) (pageArray fakeMedium)
    Flash.erased (List.replicate 819 (.ofRecord .temperature temperatureSample))
  refine (call_append_ret hbuf _ _ _).trans ?_
  have hlen : (Batch.copies .temperature temperatureSample 819 .temperature).length = 819 := by
    rw [Batch.copies_same, List.length_replicate]
  have hfull : ¬ LogState.Full (Batch.copies .temperature temperatureSample 819)
      .temperature := by
    rw [LogState.Full, Batch.pageBytes_copies]
    decide
  have hroom : ¬ LogState.HasRoom { linux := false, rp2040 := true }
      (Batch.copies .temperature temperatureSample 819) .temperature := by
    rw [LogState.hasRoom_iff hfull, hlen]
    decide
  have happend := LogState.append_of_no_room { linux := false, rp2040 := true }
    (a := ⟨Batch.copies .temperature temperatureSample 819, []⟩) temperatureSample hfull hroom
  show (LogState.step _ _ (.ofRecord .temperature temperatureSample)).1 = _
  rw [run_temperatures _ (Nat.le_refl _), step_ofRecord, happend]

end Mxfs
