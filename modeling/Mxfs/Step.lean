import Mxfs.Failure
import Mxfs.PageFit
import Mxfs.Walk

/-!
# Mxfs.Step

The step field of the gyro, accelerometer and temperature series.

A series stores the average distance of its records, from its first and last
timestamp.  The quotient is cast to 32 bits before it is compared with the
largest step, and the loop that looks for the last timestamp of a temperature
series leaves out the first record, so that a single record is measured from
the last timestamp of the layers encoded before it: `step_own_iff`.
-/

namespace Mxfs

open Lib

/-! ## the headers on a page -/

/-- The headers in `data` from `offset` on, each behind the payload of the one
before it. -/
def headersFrom (data : List UInt8) : (fuel offset : Nat) → List Compress
  | 0, _ => []
  | fuel + 1, offset =>
    if data.length < offset + headerSize then []
    else if (headerAt data offset).magic ≠ magic then []
    else headerAt data offset :: headersFrom data fuel
      (offset + headerSize + (strideOf (headerAt data offset)).elim 0 Stride.advance)

/-- The headers in `data`. -/
def pageHeaders (data : List UInt8) : List Compress := headersFrom data data.length 0

/-- **The headers in the image of a batch** are those of its frames. -/
theorem pageHeaders_image {p : Batch} (hfits : p.pageBytes ≤ 2000) :
    pageHeaders p.image = p.frames.map fun f => f.header.stored := by
  have hround : ∀ f ∈ p.frames, ∀ (offset fuel : Nat) (acc : List Compress),
      ShowsAt p.image offset f.layer f.payload → headerAt p.image offset = f.header.stored →
      acc ++ headersFrom p.image (fuel + 1) offset =
        (acc ++ [f.header.stored]) ++
          headersFrom p.image fuel (offset + headerSize + f.payload.length) := by
    intro f _ offset fuel acc hshows hheader
    obtain ⟨n, hstride, _⟩ := hshows.stride
    have hbytes := hshows.fits
    have hmagic := hshows.magic
    rw [← headerAt, hheader] at hstride hmagic
    rw [headersFrom, if_neg (by omega), hheader, if_neg (not_not.2 hmagic), hstride]
    simp
  have hframes := p.length_frames_le
  have hsplit : p.image.length = p.frames.length + (p.image.length - p.frames.length) := by omega
  have himage : p.image = [] ++ (p.frames.flatMap Frame.bytes ++ []) := by simp [Batch.image]
  have hwalk := walk_frames
    (fun fuel offset acc => acc ++ headersFrom p.image fuel offset)
    (fun acc f => acc ++ [f.header.stored]) p.frames [] himage hround (p.frames_wellFormed hfits)
    (p.image.length - p.frames.length) []
  rw [← hsplit] at hwalk
  have hend : ∀ fuel, headersFrom p.image fuel p.image.length = [] := by
    intro fuel
    cases fuel with
    | zero => rfl
    | succ fuel => rw [headersFrom, if_pos (by unfold headerSize; omega)]
  have hlength : (p.frames.flatMap Frame.bytes).length = p.image.length := rfl
  simp only [List.length_nil, Nat.zero_add, hlength, hend, List.nil_append,
    List.append_nil] at hwalk
  rw [pageHeaders, hwalk, foldl_concat, List.nil_append]

/-- The step fields of the headers of a layer. -/
def stepsOf (data : List UInt8) (l : Layer) : List Nat :=
  ((pageHeaders data).filter fun cp => cp.type = l.toNat).map Compress.step

/-- The headers of a layer are those of its frames. -/
theorem pageHeaders_layer {p : Batch} (hfits : p.pageBytes ≤ 2000) (l : Layer) :
    ((pageHeaders p.image).filter fun cp => cp.type = l.toNat) =
      (l.frames (p.lastBefore l) (p l)).map fun f => f.header.stored := by
  have htype : ∀ f ∈ p.frames, (f.header.stored.type = l.toNat ↔ f.layer = l) := by
    intro f hf
    rw [(p.frames_wellFormed hfits f hf).type]
    exact ⟨Layer.toNat_inj, congrArg Layer.toNat⟩
  rw [pageHeaders_image hfits, ← p.filter_frames l, List.filter_map]
  congr 1
  refine List.filter_congr fun f hf => ?_
  simp [htype f hf]

theorem stepsOf_image {p : Batch} (hfits : p.pageBytes ≤ 2000) (l : Layer) :
    stepsOf p.image l =
      (l.frames (p.lastBefore l) (p l)).map fun f => f.header.stored.step := by
  rw [stepsOf, pageHeaders_layer hfits, List.map_map]
  rfl

/-! ## the step of a series -/

/-- The first timestamp. -/
def firstTime {l : Layer} (rs : List (Record l)) : Nat :=
  (rs.head?.map fun r => r.time.toNat).getD 0

/-- The average distance of the records, at most 65535. -/
def ownStep {l : Layer} (rs : List (Record l)) : Nat :=
  min 65535 ((lastTime 0 rs - firstTime rs) / rs.length)

/-- The timestamps do not decrease. -/
def Ordered {l : Layer} (rs : List (Record l)) : Prop :=
  rs.Pairwise fun r s => r.time.toNat ≤ s.time.toNat

/-- The average distance fits 32 bits, or what is left of it is large as well. -/
def StepFits {l : Layer} (rs : List (Record l)) : Prop :=
  (lastTime 0 rs - firstTime rs) / rs.length < 4294967296 ∨
    65535 ≤ (lastTime 0 rs - firstTime rs) / rs.length % 4294967296

/-- The timestamps of the layers encoded before `l`, in page order. -/
def Batch.timesBefore (p : Batch) (l : Layer) : List Nat :=
  (Layer.all.take l.toNat).flatMap fun k => (p k).map fun r => r.time.toNat

/-- A single temperature record is as late, up to multiples of `2 ^ 32`, as the
last record encoded before it; where there is none, as 0. -/
def Batch.SingleMatches (p : Batch) : Prop :=
  (p .temperature).length = 1 → (p.timesBefore .temperature).getLastD 0 % 4294967296 =
    firstTime (p .temperature) % 4294967296

theorem lastTime_eq {l : Layer} (last : Nat) (rs : List (Record l)) :
    lastTime last rs = (rs.map fun r => r.time.toNat).getLastD last := by
  induction rs generalizing last with
  | nil => rfl
  | cons r rs ih =>
      rw [lastTime, List.foldl_cons, ← lastTime, ih, List.map_cons, List.getLastD_cons]

theorem lastTime_cons {l : Layer} (last : Nat) (r : Record l) (rs : List (Record l)) :
    lastTime last (r :: rs) = lastTime 0 (r :: rs) := by
  rw [lastTime, lastTime, List.foldl_cons, List.foldl_cons]

/-- `last_tmm` before a layer is the last timestamp encoded before it. -/
theorem Batch.lastBefore_eq (p : Batch) (l : Layer) :
    p.lastBefore l = (p.timesBefore l).getLastD 0 := by
  have hloop : ∀ (ls : List Layer) (last : Nat), .temperature ∉ ls →
      ls.foldl (fun last k => k.lastAfter last (p k)) last =
        (ls.flatMap fun k => (p k).map fun r => r.time.toNat).getLastD last := by
    intro ls
    induction ls with
    | nil => simp
    | cons k ls ih =>
        intro last hnot
        rw [List.mem_cons, not_or] at hnot
        have hafter : k.lastAfter last (p k) = lastTime last (p k) := by
          cases k <;> first | rfl | exact absurd rfl hnot.1
        rw [List.foldl_cons, ih _ hnot.2, hafter, lastTime_eq, List.flatMap_cons]
        simp only [List.getLastD_eq_getLast?, List.getLast?_append]
        cases (ls.flatMap fun k => (p k).map fun r => r.time.toNat).getLast? <;> simp
  exact hloop _ 0 (by cases l <;> decide)

theorem Ordered.firstTime_le {l : Layer} {rs : List (Record l)} (h : Ordered rs) :
    firstTime rs ≤ lastTime 0 rs := by
  cases rs with
  | nil => exact Nat.zero_le _
  | cons r rest =>
      rw [lastTime_eq, List.map_cons, List.getLastD_cons]
      have hmem := List.getLastD_mem_cons (l := rest.map fun r => r.time.toNat) (a := r.time.toNat)
      rcases List.mem_cons.1 hmem with heq | hmem
      · rw [heq]; exact Nat.le_refl _
      · obtain ⟨s, hs, heq⟩ := List.mem_map.1 hmem
        rw [← heq]
        exact (List.pairwise_cons.1 h).1 s hs

theorem lastTime_lt {l : Layer} (rs : List (Record l)) : lastTime 0 rs < 18446744073709551616 := by
  rw [lastTime_eq]
  have hmem := List.getLastD_mem_cons (l := rs.map fun r => r.time.toNat) (a := 0)
  rcases List.mem_cons.1 hmem with heq | hmem
  · rw [heq]; decide
  · obtain ⟨s, _, heq⟩ := List.mem_map.1 hmem
    rw [← heq]
    exact s.time.toNat_lt

theorem stepField_eq (tmm lastTmm count : Nat) :
    stepField tmm lastTmm count =
      min 65535 (u32 (u64 (lastTmm + (18446744073709551616 - tmm)) / count)) := by
  unfold stepField
  generalize u32 (u64 (lastTmm + (18446744073709551616 - tmm)) / count) = q
  split <;> omega

/-- Between two timestamps in order the difference does not wrap. -/
theorem stepField_of_le {tmm lastTmm : Nat} (h : tmm ≤ lastTmm)
    (hlt : lastTmm < 18446744073709551616) (count : Nat) :
    stepField tmm lastTmm count = min 65535 ((lastTmm - tmm) / count % 4294967296) := by
  have hdiff : u64 (lastTmm + (18446744073709551616 - tmm)) = lastTmm - tmm := by
    unfold u64
    omega
  rw [stepField_eq, hdiff, u32]

/-- A series that is measured by its own timestamps. -/
theorem stepField_own_iff {l : Layer} {rs : List (Record l)} (h : Ordered rs) :
    stepField (firstTime rs) (lastTime 0 rs) rs.length = ownStep rs ↔ StepFits rs := by
  rw [stepField_of_le h.firstTime_le (lastTime_lt rs), ownStep, StepFits]
  generalize (lastTime 0 rs - firstTime rs) / rs.length = q
  omega

/-! ## the step on the page -/

/-- The step field of a series: from its first timestamp to where the loop over it
has left `last_tmm`. -/
def Batch.storedStep (p : Batch) (l : Layer) : Nat :=
  stepField (firstTime (p l)) (l.lastAfter (p.lastBefore l) (p l)) (p l).length

theorem stepsOf_series {p : Batch} (hfits : p.pageBytes ≤ 2000) {l : Layer}
    (hl : l ∉ Layer.antp) (hne : p l ≠ []) : stepsOf p.image l = [p.storedStep l] := by
  have hstored : ∀ tmm lastTmm count : Nat, stepField tmm lastTmm count % 65536 =
      stepField tmm lastTmm count := fun _ _ _ => Nat.mod_eq_of_lt (stepField_lt _ _ _)
  rw [stepsOf_image hfits, Batch.storedStep]
  obtain ⟨r, rest, hcons⟩ := List.exists_cons_of_ne_nil hne
  rw [hcons]
  cases l
  case antpSpeed | antpPower | antpCadence => simp [Layer.antp] at hl
  case gyro | accelerometer =>
      simp [Layer.frames, Compress.stored, dim3Header, hstored, Layer.lastAfter, firstTime]
  case temperature =>
      simp [Layer.frames, Compress.stored, temperatureHeader, hstored, Layer.lastAfter, firstTime]

/-- **The step stored for a series** is its own exactly if the quotient survives
its cast and a single temperature record happens to match `last_tmm`. -/
theorem storedStep_own_iff {p : Batch} {l : Layer} (hl : l ∉ Layer.antp) (hne : p l ≠ [])
    (hord : Ordered (p l)) :
    p.storedStep l = ownStep (p l) ↔ StepFits (p l) ∧ (l = .temperature → p.SingleMatches) := by
  obtain ⟨r, rest, hcons⟩ := List.exists_cons_of_ne_nil hne
  have hown := stepField_own_iff hord
  rw [Batch.storedStep]
  cases l
  case antpSpeed | antpPower | antpCadence => simp [Layer.antp] at hl
  case gyro | accelerometer =>
      rw [hcons] at hown ⊢
      simpa [Layer.lastAfter, lastTime_cons _ r rest] using hown
  case temperature =>
      rw [p.lastBefore_eq, Batch.SingleMatches]
      generalize (p.timesBefore .temperature).getLastD 0 = last
      rw [hcons] at hown ⊢
      cases rest with
      | nil =>
          -- measured from `last`, which has to look like the record's own time
          have hfirst : firstTime [r] = r.time.toNat := rfl
          have hlast : lastTime 0 [r] = r.time.toNat := rfl
          have hlt := r.time.toNat_lt
          rw [stepField_eq, StepFits, ownStep, hfirst, hlast]
          simp only [Layer.lastAfter, List.tail_cons, lastTime, List.foldl_nil,
            List.length_singleton, Nat.div_one, true_implies, u32, u64]
          omega
      | cons s rest =>
          have hlast : lastTime last (s :: rest) = lastTime 0 (r :: s :: rest) := by
            rw [lastTime_cons, lastTime_cons]; rfl
          simpa [Layer.lastAfter, hlast] using hown

/-- **The stored sampling step is the layer's own**, in every flush of a session,
exactly if the average distance survives its cast to 32 bits, and a single
temperature record matches the last timestamp encoded before it. -/
theorem step_own_iff {σ : Type} (B : Build) (D : Driver σ) (dev : σ) (ops : List Op) {l : Layer}
    (hl : l ∉ Layer.antp) (hne : (LogState.init.run B ops).pending l ≠ [])
    (hord : Ordered ((LogState.init.run B ops).pending l)) :
    stepsOf (flushData (session B D dev ops).inst) l =
        [ownStep ((LogState.init.run B ops).pending l)] ↔
      StepFits ((LogState.init.run B ops).pending l) ∧
        (l = .temperature → (LogState.init.run B ops).pending.SingleMatches) := by
  have hbuf := buffers_run (B := B) D dev ops
  have hdata : flushData (session B D dev ops).inst = (LogState.init.run B ops).pending.image :=
    prepare_data hbuf
  rw [hdata, stepsOf_series hbuf.fits hl hne, List.cons.injEq, and_iff_left rfl]
  exact storedStep_own_iff hl hne hord

/-- A gyro record. -/
def gyroSample : Record .gyro := ⟨1000, [1, 0, 2, 0, 3, 0], rfl⟩

/-- The gyro sample, `ms` milliseconds later. -/
def gyroAfter (ms : UInt64) : Record .gyro := { gyroSample with time := gyroSample.time + ms }

/-- Three gyro records over 30 milliseconds store the step 10. -/
theorem step_own_gyroAfter :
    stepsOf (flushData (session { linux := false, rp2040 := false } (pageArray fakeMedium)
      Flash.erased [.ofRecord .gyro gyroSample, .ofRecord .gyro (gyroAfter 10),
        .ofRecord .gyro (gyroAfter 30)]).inst) .gyro = [10] := by
  have hpending : (LogState.init.run { linux := false, rp2040 := false }
      [.ofRecord .gyro gyroSample, .ofRecord .gyro (gyroAfter 10),
        .ofRecord .gyro (gyroAfter 30)]).pending .gyro =
      [gyroSample, gyroAfter 10, gyroAfter 30] := rfl
  have hordered : Ordered [gyroSample, gyroAfter 10, gyroAfter 30] := by
    simp [Ordered, gyroSample, gyroAfter]
  have h := step_own_iff { linux := false, rp2040 := false } (pageArray fakeMedium) Flash.erased
    [.ofRecord .gyro gyroSample, .ofRecord .gyro (gyroAfter 10), .ofRecord .gyro (gyroAfter 30)]
    (l := .gyro) (by decide) (by rw [hpending]; simp) (by rw [hpending]; exact hordered)
  rw [hpending] at h
  exact h.2 ⟨.inl (by decide), by simp⟩

/-- The distance of a single temperature record to itself is stored as 65535. -/
theorem step_single_wrong :
    stepsOf (flushData (session { linux := false, rp2040 := false } (pageArray fakeMedium)
      Flash.erased (List.replicate 1 (.ofRecord .temperature temperatureSample))).inst)
        .temperature ≠ [ownStep [temperatureSample]] := by
  have hbuf := buffers_run (B := { linux := false, rp2040 := false }) (pageArray fakeMedium)
    Flash.erased (List.replicate 1 (.ofRecord .temperature temperatureSample))
  rw [run_copies _ .temperature temperatureSample (by decide) (by decide)] at hbuf
  have hdata : flushData (session { linux := false, rp2040 := false } (pageArray fakeMedium)
      Flash.erased (List.replicate 1 (.ofRecord .temperature temperatureSample))).inst =
      (Batch.copies .temperature temperatureSample 1).image := prepare_data hbuf
  rw [hdata, stepsOf_series hbuf.fits (l := .temperature) (by decide) (by decide)]
  decide

end Mxfs
