import Mxfs.Spec

/-!
# Mxfs.Layout

The layout of a page.  A batch is a sequence of *frames*, each a header and a
payload: one frame per ANTP record, one per non-empty series of the other
layers.  `Batch.image` is the concatenation of the frames.

Reading is specified by `Chain`: what a walk finds on a page from an offset
on.  `readLoop_chain` says that `mxfs_read` returns exactly the payloads of a
chain, and `chain_image` that the image of a batch, followed by any filler,
is a chain of its frames.  The step field of a series depends on a timestamp
the layers before it left behind, which `Layer.frames` threads through.
-/

namespace Mxfs

open Lib

/-! ## frames -/

/-- A header and the payload it announces. -/
structure Frame where
  layer : Layer
  header : Compress
  payload : List UInt8

namespace Frame

def bytes (f : Frame) : List UInt8 := f.header.bytes ++ f.payload

/-- The payload, if it is the layer's. -/
def payloadOf (l : Layer) (f : Frame) : List UInt8 := if f.layer = l then f.payload else []

/-- The code compares the numbers of the layers. -/
theorem payloadOf_eq (l : Layer) (f : Frame) :
    payloadOf l f = if f.layer.toNat = l.toNat then f.payload else [] := by
  by_cases hf : f.layer = l
  · simp [payloadOf, hf]
  · have hne : f.layer.toNat ≠ l.toNat := fun he => hf (Layer.toNat_inj he)
    simp [payloadOf, hf, hne]

/-- The header announces the payload that follows it. -/
structure WellFormed (f : Frame) : Prop where
  magic : f.header.magic = magic
  type : f.header.stored.type = f.layer.toNat
  stride : ∃ n, strideOf f.header.stored = some ⟨n, f.layer.recordSize, f.payload.length⟩ ∧
    n * f.layer.recordSize = f.payload.length

@[simp] theorem length_bytes (f : Frame) : f.bytes.length = headerSize + f.payload.length := by
  simp [bytes]

end Frame

/-! ## the frames of a batch -/

/-- `last_tmm` after a loop over `rs`. -/
def lastTime {l : Layer} (last : Nat) (rs : List (Record l)) : Nat :=
  rs.foldl (fun _ r => r.time.toNat) last

/-- The concatenated payloads. -/
def payloadBytes {l : Layer} (rs : List (Record l)) : List UInt8 := rs.flatMap Record.payload

/-- The frames of one layer's records, `last_tmm` being `last` before them. -/
def Layer.frames (l : Layer) (last : Nat) (rs : List (Record l)) : List Frame :=
  match l with
  | .antpSpeed | .antpPower | .antpCadence =>
    rs.map fun r => ⟨l, antpHeader l r.time.toNat, r.payload⟩
  | .gyro | .accelerometer =>
    match rs with
    | [] => []
    | r :: rest =>
      [⟨l, dim3Header l r.time.toNat (lastTime last (r :: rest)) (rest.length + 1),
        payloadBytes (r :: rest)⟩]
  | .temperature =>
    match rs with
    | [] => []
    | r :: rest =>
      [⟨l, temperatureHeader r.time.toNat (lastTime last rest) (rest.length + 1),
        payloadBytes (r :: rest)⟩]

/-- `last_tmm` after the layer; a single temperature record does not set it. -/
def Layer.lastAfter (l : Layer) (last : Nat) (rs : List (Record l)) : Nat :=
  match l with
  | .antpSpeed | .antpPower | .antpCadence | .gyro | .accelerometer => lastTime last rs
  | .temperature => lastTime last rs.tail

namespace Batch

/-- The frames of the layers `ls`. -/
def framesFrom (p : Batch) : List Layer → (last : Nat) → List Frame
  | [], _ => []
  | l :: ls, last => l.frames last (p l) ++ framesFrom p ls (l.lastAfter last (p l))

/-- The frames of the batch, in page order. -/
def frames (p : Batch) : List Frame := p.framesFrom Layer.all 0

/-- What a flush writes for the batch. -/
def image (p : Batch) : List UInt8 := p.frames.flatMap Frame.bytes

end Batch

/-! ## sizes -/

theorem length_payloadBytes {l : Layer} (rs : List (Record l)) :
    (payloadBytes rs).length = rs.length * l.recordSize :=
  length_flatMap_const fun r _ => r.size

/-- The frames of a layer take `encodedSize` bytes. -/
theorem Layer.length_frames (l : Layer) (last : Nat) (rs : List (Record l)) :
    ((l.frames last rs).flatMap Frame.bytes).length = l.encodedSize rs.length := by
  have hantp : ∀ rs : List (Record l), l.recordSize = antpRecordSize →
      ((rs.map fun r => (⟨l, antpHeader l r.time.toNat, r.payload⟩ : Frame)).flatMap
        Frame.bytes).length = rs.length * (headerSize + antpRecordSize) := by
    intro rs hl
    rw [length_flatMap_const (w := headerSize + antpRecordSize) (fun f hf => by
      obtain ⟨r, _, rfl⟩ := List.mem_map.1 hf
      rw [Frame.length_bytes, r.size, hl]), List.length_map]
  cases l
  case antpSpeed | antpPower | antpCadence =>
      rw [frames, hantp rs rfl, Layer.encodedSize, Nat.mul_comm]
  case gyro | accelerometer | temperature =>
      cases rs with
      | nil => rfl
      | cons r rest =>
          simp only [frames, List.flatMap_cons, List.flatMap_nil, List.append_nil,
            Frame.length_bytes, length_payloadBytes, Layer.encodedSize, List.length_cons,
            Layer.recordSize, Nat.succ_ne_zero, if_false]
          rw [Nat.mul_comm]

/-- A frame takes a byte at least. -/
theorem length_le_frames_bytes (fs : List Frame) : fs.length ≤ (fs.flatMap Frame.bytes).length := by
  induction fs with
  | nil => simp
  | cons f fs ih =>
      rw [List.flatMap_cons, List.length_append, List.length_cons, Frame.length_bytes]
      unfold headerSize; omega

theorem Batch.length_frames_le (p : Batch) : p.frames.length ≤ p.image.length :=
  length_le_frames_bytes p.frames

/-- The image takes `pageBytes` bytes. -/
theorem Batch.length_image (p : Batch) : p.image.length = p.pageBytes := by
  simp only [image, frames, Layer.all, framesFrom, List.flatMap_append, List.length_append,
    Layer.length_frames, List.flatMap_nil, List.length_nil, pageBytes, List.map_cons,
    List.map_nil, List.sum_cons, List.sum_nil]

/-! ## well-formed frames -/

theorem strideOf_antp (l : Layer) (tmm : Nat) (h : l ∈ Layer.antp) :
    strideOf (antpHeader l tmm).stored = some ⟨1, antpRecordSize, antpRecordSize⟩ := by
  have ht : ∀ cp : Compress, cp.union = 18 → cp.type = l.toNat →
      strideOf cp = some ⟨1, antpRecordSize, antpRecordSize⟩ := by
    intro cp hu ht
    have hlen : cp.antLength = antpRecordSize := by rw [Compress.antLength, hu]; rfl
    simp only [Layer.antp, List.mem_cons, List.not_mem_nil, or_false] at h
    rw [strideOf, ht, Layer.ofNat?_toNat, ← hlen]
    rcases h with rfl | rfl | rfl <;> rfl
  exact ht _ rfl (Nat.mod_eq_of_lt (Nat.lt_trans l.toNat_lt (by decide)))

theorem gyrCount_gyrUnion (cp : Compress) (h : cp.union = Compress.gyrUnion 3 count 0)
    (hc : count < 2048) : cp.gyrCount = count := by
  rw [Compress.gyrCount, h, Compress.gyrUnion, field]; omega

theorem tmpCount_tmpUnion (cp : Compress) (h : cp.union = Compress.tmpUnion 0 count)
    (hc : count < 65536) : cp.tmpCount = count := by
  rw [Compress.tmpCount, h, Compress.tmpUnion, field]; omega

theorem strideOf_dim3 (l : Layer) (tmm last : Nat) (h : l ∈ Layer.dim3) (hc : count < 2048) :
    strideOf (dim3Header l tmm last count).stored =
      some ⟨count, gyroRecordSize, count * gyroRecordSize⟩ := by
  have hu : (dim3Header l tmm last count).stored.union = Compress.gyrUnion 3 count 0 :=
    Nat.mod_eq_of_lt (Compress.gyrUnion_lt _ _ _)
  have ht : (dim3Header l tmm last count).stored.type = l.toNat :=
    Nat.mod_eq_of_lt (Nat.lt_trans l.toNat_lt (by decide))
  have hg := gyrCount_gyrUnion _ hu hc
  simp only [Layer.dim3, List.mem_cons, List.not_mem_nil, or_false] at h
  rw [strideOf, ht, Layer.ofNat?_toNat, hg]
  rcases h with rfl | rfl <;> rfl

theorem strideOf_temperature (tmm last : Nat) (hc : count < 65536) :
    strideOf (temperatureHeader tmm last count).stored =
      some ⟨count, temperatureRecordSize, count * temperatureRecordSize⟩ := by
  have hu : (temperatureHeader tmm last count).stored.union = Compress.tmpUnion 0 count :=
    Nat.mod_eq_of_lt (Compress.tmpUnion_lt _ _)
  have hg := tmpCount_tmpUnion _ hu hc
  rw [strideOf, hg]
  rfl

/-- Frames of a layer belong to it, and their headers are right as long as the
counts fit their bit fields. -/
theorem Layer.frames_wellFormed (l : Layer) (last : Nat) (rs : List (Record l))
    (h : rs.length < 2048) : ∀ f ∈ l.frames last rs, f.layer = l ∧ f.WellFormed := by
  have hantp : ∀ r : Record l, l ∈ Layer.antp →
      Frame.WellFormed ⟨l, antpHeader l r.time.toNat, r.payload⟩ := by
    intro r hl
    have hsize : l.recordSize = antpRecordSize := by
      simp only [Layer.antp, List.mem_cons, List.not_mem_nil, or_false] at hl
      rcases hl with rfl | rfl | rfl <;> rfl
    refine ⟨rfl, Nat.mod_eq_of_lt (Nat.lt_trans l.toNat_lt (by decide)), 1, ?_, ?_⟩
    · rw [strideOf_antp l _ hl, r.size, hsize]
    · rw [r.size, Nat.one_mul]
  intro f hf
  cases l
  case antpSpeed | antpPower | antpCadence =>
      obtain ⟨r, _, rfl⟩ := List.mem_map.1 hf
      exact ⟨rfl, hantp r (by simp [Layer.antp])⟩
  case gyro | accelerometer =>
      cases rs with
      | nil => cases hf
      | cons r rest =>
          obtain rfl := List.mem_singleton.1 hf
          have hc : rest.length + 1 < 2048 := h
          refine ⟨rfl, rfl, rfl, rest.length + 1, ?_, ?_⟩
          · refine (strideOf_dim3 _ _ _ (by simp [Layer.dim3]) hc).trans ?_
            rw [length_payloadBytes]; rfl
          · rw [length_payloadBytes]; rfl
  case temperature =>
      cases rs with
      | nil => cases hf
      | cons r rest =>
          obtain rfl := List.mem_singleton.1 hf
          have hc : rest.length + 1 < 2048 := h
          refine ⟨rfl, rfl, rfl, rest.length + 1, ?_, ?_⟩
          · refine (strideOf_temperature _ _ (by omega)).trans ?_
            rw [length_payloadBytes]; rfl
          · rw [length_payloadBytes]; rfl

/-- The payloads a layer's own frames carry are the layer's records. -/
theorem Layer.payloadOf_frames (l : Layer) (last : Nat) (rs : List (Record l)) :
    (l.frames last rs).flatMap (Frame.payloadOf l) = payloadBytes rs := by
  have hantp : ∀ rs : List (Record l),
      (rs.map fun r => (⟨l, antpHeader l r.time.toNat, r.payload⟩ : Frame)).flatMap
        (Frame.payloadOf l) = payloadBytes rs := by
    intro rs
    rw [List.flatMap_map, payloadBytes]
    simp only [Frame.payloadOf, if_true]
  cases l
  case antpSpeed | antpPower | antpCadence => exact hantp rs
  case gyro | accelerometer | temperature =>
      cases rs with
      | nil => rfl
      | cons r rest => simp [frames, Frame.payloadOf]

/-- Frames of one layer carry nothing of another. -/
theorem Layer.payloadOf_frames_ne {k l : Layer} (last : Nat) (rs : List (Record k)) (h : k ≠ l) :
    (k.frames last rs).flatMap (Frame.payloadOf l) = [] := by
  cases k
  case antpSpeed | antpPower | antpCadence =>
      rw [frames, List.flatMap_map]
      simp [Frame.payloadOf, h]
  case gyro | accelerometer | temperature =>
      cases rs with
      | nil => rfl
      | cons r rest => simp [frames, Frame.payloadOf, h]

namespace Batch

/-- The frames of a batch carry, for each layer, exactly its records in order. -/
theorem payloadOf_frames (p : Batch) (l : Layer) :
    p.frames.flatMap (Frame.payloadOf l) = (p.payloads l).flatten := by
  have hflat : (p.payloads l).flatten = payloadBytes (p l) := by
    rw [payloads, payloadBytes, ← List.flatMap_def]
  rw [hflat]
  simp only [frames, Layer.all, framesFrom, List.flatMap_append, List.flatMap_nil]
  cases l <;>
    simp only [Layer.payloadOf_frames, Layer.payloadOf_frames_ne, ne_eq, reduceCtorEq,
      not_false_eq_true, List.nil_append, List.append_nil]

theorem count_lt (p : Batch) (h : p.pageBytes ≤ 2000) (l : Layer) : (p l).length < 2048 := by
  have h1 := encodedSize_le_pageBytes p l
  have h2 := recordSize_mul_le l (p l).length
  have h3 := Nat.mul_le_mul_right (p l).length
    (show 2 ≤ l.recordSize by cases l <;> decide)
  omega

/-- All frames of a batch that fits the page are well formed. -/
theorem frames_wellFormed (p : Batch) (h : p.pageBytes ≤ 2000) : ∀ f ∈ p.frames, f.WellFormed := by
  have hls : ∀ (ls : List Layer) (last : Nat), ∀ f ∈ p.framesFrom ls last, f.WellFormed := by
    intro ls
    induction ls with
    | nil => intro last f hf; cases hf
    | cons l ls ih =>
        intro last f hf
        rcases List.mem_append.1 hf with hf | hf
        · exact (Layer.frames_wellFormed l last (p l) (count_lt p h l) f hf).2
        · exact ih _ f hf
  exact hls _ _

end Batch

/-! ## chains -/

/-- The walk finds at `offset` of the page `rbf` a record of layer `l` with `payload`. -/
structure ShowsAt (rbf : List UInt8) (offset : Nat) (l : Layer) (payload : List UInt8) : Prop where
  fits : offset + headerSize + payload.length ≤ rbf.length
  magic : (Compress.ofBytes (slice rbf offset headerSize)).magic = magic
  type : (Compress.ofBytes (slice rbf offset headerSize)).type = l.toNat
  stride : ∃ n, strideOf (Compress.ofBytes (slice rbf offset headerSize)) =
      some ⟨n, l.recordSize, payload.length⟩ ∧ n * l.recordSize = payload.length
  payload : slice rbf (offset + headerSize) payload.length = payload

/-- The walk finds, from `offset` on, the payloads `segs`, and then no header. -/
def Chain (rbf : List UInt8) : (offset : Nat) → List (Layer × List UInt8) → Prop
  | offset, [] => offset + 4 ≤ rbf.length ∧
      (Compress.ofBytes (slice rbf offset headerSize)).magic ≠ magic
  | offset, (l, payload) :: segs =>
      ShowsAt rbf offset l payload ∧ Chain rbf (offset + headerSize + payload.length) segs

theorem copyRecords_eq {rbf : List UInt8} (h : src + count * size ≤ rbf.length)
    (out : List UInt8) :
    copyRecords rbf size count src out = some (out ++ slice rbf src (count * size)) := by
  induction count generalizing src out with
  | zero => simp [copyRecords, slice]
  | succ count ih =>
      have hmul : (count + 1) * size = size + count * size := by rw [Nat.succ_mul, Nat.add_comm]
      rw [copyRecords, if_pos (by omega), ih (by omega), hmul, ← slice_append_slice,
        List.append_assoc]

/-- One round of the walk over a record it recognises. -/
theorem readLoop_showsAt {rbf : List UInt8} (hlen : rbf.length = pageSize)
    (h : ShowsAt rbf offset l payload) (layer bufferlen fuel : Nat) (out : List UInt8) :
    readLoop rbf layer bufferlen (fuel + 1) offset out =
      readLoop rbf layer bufferlen fuel (offset + headerSize + payload.length)
        (if l.toNat = layer then out ++ payload else out) := by
  obtain ⟨n, hstride, hn⟩ := h.stride
  have hfits := h.fits
  unfold pageSize at hlen
  unfold headerSize at hfits
  rw [readLoop, if_neg (by unfold pageSize; omega), if_neg (by omega)]
  simp only [h.magic, ne_eq, not_true_eq_false, if_false, hstride, h.type]
  rw [if_neg (by omega), if_neg (by unfold headerSize; omega)]
  split
  · rw [copyRecords_eq (by unfold headerSize; omega), hn, h.payload]
  · rfl

/-- **The walk reads the chain**: the payloads of the wanted layer, in order. -/
theorem readLoop_chain {rbf : List UInt8} (hlen : rbf.length = pageSize)
    (h : Chain rbf offset segs) (layer bufferlen : Nat) (hfuel : segs.length < fuel)
    (out : List UInt8) :
    readLoop rbf layer bufferlen fuel offset out =
      some (out ++ segs.flatMap fun x => if x.1.toNat = layer then x.2 else []) := by
  induction segs generalizing offset fuel out with
  | nil =>
      obtain ⟨fuel, rfl⟩ : ∃ k, fuel = k + 1 := ⟨fuel - 1, by simp at hfuel; omega⟩
      obtain ⟨hfits, hmagic⟩ := h
      rw [readLoop, if_neg (by omega), if_neg (by omega)]
      simp [hmagic]
  | cons x segs ih =>
      obtain ⟨l, payload⟩ := x
      obtain ⟨fuel, rfl⟩ : ∃ k, fuel = k + 1 := ⟨fuel - 1, by simp at hfuel; omega⟩
      rw [readLoop_showsAt hlen h.1, ih h.2 (by simp at hfuel; omega), List.flatMap_cons]
      split <;> simp

/-! ## the image is a chain -/

/-- A well-formed frame shows where it lies. -/
theorem showsAt_frame {f : Frame} (hf : f.WellFormed) {pre rest : List UInt8}
    (h : pre.length = offset) : ShowsAt (pre ++ (f.bytes ++ rest)) offset f.layer f.payload := by
  have hcp : Compress.ofBytes (slice (pre ++ (f.bytes ++ rest)) offset headerSize) =
      f.header.stored := by
    rw [Compress.ofBytes_slice (Nat.le_refl _), drop_append_of_length h, Frame.bytes,
      List.append_assoc, Compress.ofBytes_append]
  have hmagic : f.header.stored.magic = magic := by
    rw [Compress.stored, hf.magic]; rfl
  refine ⟨?_, hcp ▸ hmagic, hcp ▸ hf.type, hcp ▸ hf.stride, ?_⟩
  · simp [h]; omega
  · rw [Frame.bytes, List.append_assoc, ← List.append_assoc pre]
    exact slice_append_mid (by simp [h]) rfl

/-- No word of a constant filler is a magic. -/
theorem leNat_replicate_ne_magic (fill : UInt8) (n : Nat) :
    leNat ((List.replicate n fill).take 4) ≠ magic := by
  have hb : fill.toNat < 256 := fill.toNat_lt
  rw [List.take_replicate]
  have hm : min 4 n = 0 ∨ min 4 n = 1 ∨ min 4 n = 2 ∨ min 4 n = 3 ∨ min 4 n = 4 := by omega
  unfold magic
  rcases hm with h | h | h | h | h <;> rw [h] <;> simp only [List.replicate, leNat] <;> omega

/-- The chain of well-formed frames. -/
theorem chain_frames {fs : List Frame} (hfs : ∀ f ∈ fs, f.WellFormed) (pre : List UInt8)
    (h : pre.length = offset) (n : Nat) (hn : 4 ≤ n) (fill : UInt8) :
    Chain (pre ++ (fs.flatMap Frame.bytes ++ List.replicate n fill)) offset
      (fs.map fun f => (f.layer, f.payload)) := by
  induction fs generalizing offset pre with
  | nil =>
      refine ⟨by simp [h]; omega, ?_⟩
      rw [Compress.ofBytes_slice (Nat.le_refl _), List.flatMap_nil, List.nil_append,
        drop_append_of_length h]
      exact leNat_replicate_ne_magic fill n
  | cons f fs ih =>
      have hf := hfs f List.mem_cons_self
      refine ⟨?_, ?_⟩
      · rw [List.flatMap_cons, List.append_assoc]
        exact showsAt_frame hf h
      · have hlen : (pre ++ f.bytes).length = offset + headerSize + f.payload.length := by
          rw [List.length_append, Frame.length_bytes, h, Nat.add_assoc]
        rw [List.flatMap_cons, List.append_assoc, ← List.append_assoc pre]
        exact ih (fun g hg => hfs g (List.mem_cons_of_mem f hg)) (pre ++ f.bytes) hlen

/-- The segments a batch shows on a page. -/
def Batch.segments (p : Batch) : List (Layer × List UInt8) :=
  p.frames.map fun f => (f.layer, f.payload)

/-- **A flushed page is a chain** of the batch's frames, whatever the filler. -/
theorem chain_image (p : Batch) (h : p.pageBytes ≤ 2000) (fill : UInt8) :
    Chain (Page.image p.image fill).bytes 0 p.segments := by
  have hlen := p.length_image
  rw [Page.image_bytes (by unfold pageSize; omega)]
  exact chain_frames (p.frames_wellFormed h) [] rfl _ (by unfold pageSize; omega) fill

/-- A batch has fewer frames than the walk has rounds. -/
theorem Batch.length_segments_lt (p : Batch) (h : p.pageBytes ≤ 2000) :
    p.segments.length < pageSize := by
  have hle := p.length_frames_le
  have hlen := p.length_image
  rw [segments, List.length_map]
  unfold pageSize; omega

/-- A chain of the batch's segments is read as the batch's payloads of the layer. -/
theorem readLoop_segments {rbf : List UInt8} (hlen : rbf.length = pageSize) (p : Batch)
    (h : p.pageBytes ≤ 2000) (hchain : Chain rbf 0 p.segments) (l : Layer) (bufferlen : Nat) :
    readLoop rbf l.toNat bufferlen pageSize 0 [] = some (p.payloads l).flatten := by
  rw [readLoop_chain hlen hchain _ _ (p.length_segments_lt h), List.nil_append,
    ← p.payloadOf_frames l, Batch.segments, List.flatMap_map]
  congr 2
  funext f
  exact (Frame.payloadOf_eq l f).symm

/-- A batch that is not empty has a first frame. -/
theorem Batch.exists_frames (p : Batch) (hne : ¬ p.IsEmpty) : ∃ f fs, p.frames = f :: fs := by
  have hpos := pageBytes_pos hne
  rw [← p.length_image, image] at hpos
  cases hfs : p.frames with
  | nil => rw [hfs] at hpos; simp at hpos
  | cons f fs => exact ⟨f, fs, rfl⟩

/-- A page that shows a batch shows its magic. -/
theorem Chain.hasMagic {x : Page} {p : Batch} (h : Chain x.bytes 0 p.segments)
    (hne : ¬ p.IsEmpty) : x.HasMagic := by
  obtain ⟨f, fs, hfs⟩ := p.exists_frames hne
  rw [Batch.segments, hfs] at h
  have hmagic : leNat (slice (slice x.bytes 0 headerSize) 0 4) = magic := h.1.magic
  rwa [slice_slice _ (by decide)] at hmagic

/-- The image of a non-empty batch starts with the magic. -/
theorem Batch.slice_image_magic (p : Batch) (h : p.pageBytes ≤ 2000) (hne : ¬ p.IsEmpty)
    (rest : List UInt8) : leNat (slice (p.image ++ rest) 0 4) = Mxfs.magic := by
  obtain ⟨f, fs, hfs⟩ := p.exists_frames hne
  have hf : f.WellFormed := p.frames_wellFormed h f (by rw [hfs]; exact List.mem_cons_self)
  rw [image, hfs, List.flatMap_cons, Frame.bytes, List.append_assoc, List.append_assoc,
    Compress.slice_magic, hf.magic]
  exact leNat_leBytes_of_lt (by decide)

/-- A flushed page shows its magic. -/
theorem Batch.hasMagic_image (p : Batch) (h : p.pageBytes ≤ 2000) (hne : ¬ p.IsEmpty)
    (fill : UInt8) : (Page.image p.image fill).HasMagic := by
  have hlen := p.length_image
  rw [Page.HasMagic, Page.image_bytes (by unfold pageSize; omega)]
  exact p.slice_image_magic h hne _

/-! ## the records of a page -/

/-- The records in the bytes a read copied. -/
def Layer.split (l : Layer) (out : List UInt8) : List (List UInt8) :=
  (offsets 0 out.length l.recordSize).map fun n => slice out n l.recordSize

/-- The records of a layer on the page a program of `data` leaves, as `mxfs_read`
finds them. -/
def pagePayloads (data : List UInt8) (l : Layer) : List (List UInt8) :=
  match readLoop (Page.image data 0xFF).bytes l.toNat 65535 pageSize 0 [] with
  | some out => l.split out
  | none => []

/-- Fixed-width records are found again in their concatenation. -/
theorem Layer.split_flatten (l : Layer) {rs : List (List UInt8)}
    (h : ∀ r ∈ rs, r.length = l.recordSize) : l.split rs.flatten = rs := by
  have hlen : rs.flatten.length = rs.length * l.recordSize := by
    rw [← List.flatMap_id']
    exact length_flatMap_const h
  have htake : rs.flatten.take (rs.length * l.recordSize) = rs.flatMap fun r => r := by
    rw [← hlen, List.take_length, List.flatMap_id']
  have hall := offsets_forall₂ l.recordSize_pos h htake
  rw [split, hlen]
  exact List.forall₂_eq_eq_eq ▸ (List.forall₂_map_left_iff.2 hall)

/-- The page of a batch has the batch's records. -/
theorem pagePayloads_image (p : Batch) (h : p.pageBytes ≤ 2000) (l : Layer) :
    pagePayloads p.image l = p.payloads l := by
  have hsize : ∀ r ∈ p.payloads l, r.length = l.recordSize := by
    intro r hr
    obtain ⟨x, _, rfl⟩ := List.mem_map.1 hr
    exact x.size
  rw [pagePayloads, readLoop_segments (Page.image p.image 0xFF).size p h (chain_image p h 0xFF)]
  exact l.split_flatten hsize

end Mxfs
