import Mxfs.Leftover
import Mxfs.PowerLoss

/-!
# Mxfs.Harm

When a power loss does harm.  The condition of `power_loss_harmless` cannot be
weakened: whatever bit the torn front of a block lacks, there are records that
mxfs_append takes and that are read back wrongly when they are flushed over it
(`power_loss_harms`).

* Records of zeros find the bits that the type and the count or length of the
  first header need: where one is missing, the walk counts less than was
  written, goes on amid the zeros, and stops (`ReadsOver.type_and`,
  `ReadsOver.count_and`, `ReadsOver.antLength_and`).
* Records of ones find the bits behind it (`ReadsOver.gyroOnes`,
  `ReadsOver.speedGyroOnes`).
-/

namespace Mxfs

open Lib

/-! ## reading what was flushed over a page -/

/-- The page `x` after a flush of the batch. -/
def flushedOver (fill : UInt8) (x : Page) (p : Batch) : List UInt8 :=
  ((nandMedium fill).program x p.image).bytes

/-- The batch flushed over the page reads back. -/
def ReadsOver (fill : UInt8) (x : Page) (p : Batch) : Prop :=
  ∀ (l : Layer) (bufferlen : UInt16), bufferlen ≠ 0 →
    readLoop (flushedOver fill x p) l.toNat bufferlen.toNat pageSize 0 [] =
      some (p.payloads l).flatten

/-- Without a magic the walk stops. -/
theorem readLoop_not_magic {rbf : List UInt8} (hlen : rbf.length = pageSize)
    (h4 : offset + 4 ≤ rbf.length) (hmagic : (headerAt rbf offset).magic ≠ magic)
    (layer bufferlen fuel : Nat) (out : List UInt8) :
    readLoop rbf layer bufferlen fuel offset out = some out := by
  cases fuel with
  | zero => rfl
  | succ fuel =>
      have hcp : Compress.ofBytes (slice rbf offset headerSize) = headerAt rbf offset := rfl
      rw [readLoop]
      simp only [hcp]
      rw [if_neg (by omega), if_neg (by omega), if_pos hmagic]

/-- A byte of zeros is no magic. -/
theorem not_magic_of_zero {rbf : List UInt8} (h : rbf[offset]? = some 0) :
    (headerAt rbf offset).magic ≠ magic := by
  have hdrop : (rbf.drop offset).take headerSize =
      0 :: ((rbf.drop offset).drop 1).take (headerSize - 1) := by
    rw [List.getElem?_eq_some_iff] at h
    obtain ⟨hlt, hzero⟩ := h
    rw [List.drop_eq_getElem_cons hlt, hzero]
    rfl
  have hmod : (headerAt rbf offset).magic % 256 = 0 := by
    show leNat (slice (slice rbf offset headerSize) 0 4) % 256 = 0
    rw [slice, slice, List.drop_zero, hdrop]
    show (0 + 256 * _) % 256 = 0
    omega
  intro hmagic
  rw [hmagic] at hmod
  exact absurd hmod (by decide)

section flushed_over

variable {fill : UInt8} {x : Page} {p : Batch}

theorem length_over : (flushedOver fill x p).length = pageSize :=
  ((nandMedium fill).program x p.image).size

theorem over_eq : flushedOver fill x p = andBytes x.bytes (Page.image p.image fill).bytes := rfl

/-- Zeros stay zeros. -/
theorem over_zero {i : Nat} (h : (Page.image p.image fill).bytes[i]? = some 0) :
    (flushedOver fill x p)[i]? = some 0 := by
  have hi : i < x.bytes.length := by
    obtain ⟨hlt, -⟩ := List.getElem?_eq_some_iff.1 h
    rw [x.size]
    rwa [Page.size] at hlt
  rw [over_eq, andBytes, List.getElem?_zipWith, h, List.getElem?_eq_getElem hi]
  exact congrArg some (UInt8.and_zero)

/-- The header at the front is what of the batch's goes through the page's. -/
theorem headerAt_over :
    (headerAt (flushedOver fill x p) 0).magic =
        (headerAt x.bytes 0).magic &&& (headerAt (Page.image p.image fill).bytes 0).magic ∧
      (headerAt (flushedOver fill x p) 0).type =
        (headerAt x.bytes 0).type &&& (headerAt (Page.image p.image fill).bytes 0).type ∧
      (headerAt (flushedOver fill x p) 0).union =
        (headerAt x.bytes 0).union &&& (headerAt (Page.image p.image fill).bytes 0).union := by
  have hlen : (slice x.bytes 0 headerSize).length =
      (slice (Page.image p.image fill).bytes 0 headerSize).length := by
    rw [length_slice, length_slice, x.size, (Page.image p.image fill).size]
  have hheader := Compress.ofBytes_andBytes hlen
  rw [← slice_andBytes] at hheader
  exact hheader

/-- A page with the bits of the magic leaves the magic of a batch's first header, and of
its layer the bits that the page's type has. -/
theorem headerAt_over_of_showsAt (hmagic : (headerAt x.bytes 0).magic &&& magic = magic)
    {l : Layer} {payload : List UInt8}
    (h : ShowsAt (Page.image p.image fill).bytes 0 l payload) :
    (headerAt (flushedOver fill x p) 0).magic = magic ∧
      (headerAt (flushedOver fill x p) 0).type = (headerAt x.bytes 0).type &&& l.toNat := by
  have hshown : (headerAt (Page.image p.image fill).bytes 0).magic = magic ∧
      (headerAt (Page.image p.image fill).bytes 0).type = l.toNat := ⟨h.magic, h.type⟩
  exact ⟨by rw [headerAt_over.1, hshown.1, hmagic], by rw [headerAt_over.2.1, hshown.2]⟩

end flushed_over

/-- **The first round** over such a page, at a header that has become one of the
layer `k`: what is copied of it, and where the walk goes on. -/
theorem readLoop_first {rbf : List UInt8} {k : Layer} {count size advance : Nat}
    (hlen : rbf.length = pageSize) (hmagic : (headerAt rbf 0).magic = magic)
    (htype : (headerAt rbf 0).type = k.toNat)
    (hstride : strideOf (headerAt rbf 0) = some ⟨count, size, advance⟩)
    (hfits : headerSize + count * size ≤ pageSize) (layer bufferlen : Nat) :
    readLoop rbf layer bufferlen pageSize 0 [] =
      readLoop rbf layer bufferlen (pageSize - 1) (headerSize + advance)
        (if k.toNat = layer then slice rbf headerSize (count * size) else []) := by
  have hlt := k.toNat_lt
  have hconfig : ¬ layerConfig < (headerAt rbf 0).type := by
    rw [htype]; unfold layerConfig; omega
  have hnext : readNext (headerAt rbf 0) = some advance := by
    rw [readNext, if_neg (by rw [htype]; unfold layerConfig; omega), timesNext, hstride]
    rfl
  have hcopied : copied layer bufferlen (headerAt rbf 0) =
      if k.toNat = layer then count * size else 0 := by
    rw [copied, hstride, htype]
  have hround := readLoop_magic hlen (show 0 + 12 ≤ rbf.length by rw [hlen]; decide) hmagic layer
    bufferlen (pageSize - 1) []
  rw [if_neg hconfig, hcopied, hnext] at hround
  refine hround.trans ?_
  by_cases hk : k.toNat = layer
  · rw [if_pos hk, if_pos hk, if_neg (by rw [hlen]; omega), List.nil_append, Nat.zero_add]
  · rw [if_neg hk, if_neg hk, if_neg (by rw [hlen]; decide), Nat.zero_add]
    rfl

/-! ## records of equal bytes -/

/-- A record of equal bytes. -/
def Record.filled (l : Layer) (b : UInt8) : Record l :=
  ⟨0, List.replicate l.recordSize b, List.length_replicate⟩

theorem payloadBytes_filled (l : Layer) (b : UInt8) (n : Nat) :
    payloadBytes (List.replicate n (Record.filled l b)) = List.replicate (n * l.recordSize) b := by
  rw [payloadBytes, List.flatMap_replicate]
  exact List.flatten_replicate_replicate

/-- The payloads of copies. -/
theorem payloads_copies (l : Layer) (b : UInt8) (n : Nat) :
    ((Batch.copies l (Record.filled l b) n).payloads l).flatten =
      List.replicate (n * l.recordSize) b := by
  rw [Batch.payloads, Batch.copies_same, ← List.flatMap_def]
  exact payloadBytes_filled l b n

/-- A series shows one segment. -/
theorem segments_copies {l : Layer} (hl : l ∉ Layer.antp) (b : UInt8) {n : Nat} (hn : 0 < n) :
    (Batch.copies l (Record.filled l b) n).segments =
      [(l, List.replicate (n * l.recordSize) b)] := by
  obtain ⟨n, rfl⟩ := Nat.exists_eq_succ_of_ne_zero (Nat.pos_iff_ne_zero.1 hn)
  rw [← payloadBytes_filled]
  cases l
  case antpSpeed | antpPower | antpCadence => exact absurd (by simp [Layer.antp]) hl
  all_goals rfl

theorem pageBytes_filled {l : Layer} (hl : l ∉ Layer.antp) (b : UInt8) {n : Nat} (hn : 0 < n) :
    (Batch.copies l (Record.filled l b) n).pageBytes = headerSize + n * l.recordSize := by
  rw [Batch.pageBytes_copies]
  cases l
  case antpSpeed | antpPower | antpCadence => exact absurd (by simp [Layer.antp]) hl
  all_goals
    rw [Layer.encodedSize, if_neg (by omega), Nat.mul_comm n]
    rfl

/-- An ANTP header is one record of the length it says. -/
theorem strideOf_antp_type {l : Layer} (hl : l ∈ Layer.antp) {cp : Compress}
    (h : cp.type = l.toNat) : strideOf cp = some ⟨1, antpRecordSize, cp.antLength⟩ := by
  simp only [Layer.antp, List.mem_cons, List.not_mem_nil, or_false] at hl
  rw [strideOf, h, Layer.ofNat?_toNat]
  rcases hl with rfl | rfl | rfl <;> rfl

/-- The length an ANTP header says is that of its payload. -/
theorem antLength_of_showsAt {rbf : List UInt8} {offset : Nat} {l : Layer}
    {payload : List UInt8} (hl : l ∈ Layer.antp) (h : ShowsAt rbf offset l payload) :
    field 0 9 (headerAt rbf offset).union = payload.length := by
  obtain ⟨n, hstride, -⟩ := h.stride
  rw [strideOf_antp_type hl h.type] at hstride
  exact (Stride.mk.inj (Option.some.inj hstride)).2.2

/-- The image of a series shows its records at the front. -/
theorem showsAt_series {l : Layer} (hl : l ∉ Layer.antp) (b : UInt8) {n : Nat} (hn : 0 < n)
    (hfits : headerSize + n * l.recordSize ≤ 2000) (fill : UInt8) :
    ShowsAt (Page.image (Batch.copies l (Record.filled l b) n).image fill).bytes 0 l
      (List.replicate (n * l.recordSize) b) := by
  have hchain := chain_image (Batch.copies l (Record.filled l b) n)
    (by rw [pageBytes_filled hl b hn]; exact hfits) fill
  rw [segments_copies hl b hn] at hchain
  exact hchain.1

/-! ## records of zeros -/

section zeros

variable {fill : UInt8} {x : Page} {p : Batch}

/-- Zeros of the image are met as such. -/
theorem over_zeros {src len : Nat}
    (h : slice (Page.image p.image fill).bytes src len = List.replicate len 0) {i : Nat}
    (hi : i < len) : (flushedOver fill x p)[src + i]? = some 0 := by
  refine over_zero ?_
  have hget : (slice (Page.image p.image fill).bytes src len)[i]? = some 0 := by
    rw [h, List.getElem?_replicate, if_pos hi]
  rwa [slice, List.getElem?_take, if_pos hi, List.getElem?_drop] at hget

/-- **Zeros behind the first header**: where the walk goes on amid them it stops, and
has read what the header, as the page shows it, says of its layer. -/
theorem ReadsOver.length_of_zeros (h : ReadsOver fill x p) (l : Layer) {len : Nat} {k : Layer}
    {count size advance : Nat}
    (hzeros : slice (Page.image p.image fill).bytes headerSize len = List.replicate len 0)
    (hlen : len ≤ 1984) (hmagic : (headerAt (flushedOver fill x p) 0).magic = magic)
    (htype : (headerAt (flushedOver fill x p) 0).type = k.toNat)
    (hstride : strideOf (headerAt (flushedOver fill x p) 0) = some ⟨count, size, advance⟩)
    (hadvance : advance < len) (hcopied : count * size ≤ len) :
    (p.payloads l).flatten.length = if k = l then count * size else 0 := by
  have hsize : (flushedOver fill x p).length = pageSize := length_over
  have hread := h l 1 (by decide)
  rw [readLoop_first hsize hmagic htype hstride (by unfold headerSize pageSize; omega),
    readLoop_not_magic hsize (by rw [hsize]; unfold headerSize pageSize; omega)
      (not_magic_of_zero (over_zeros hzeros hadvance))] at hread
  rw [← Option.some.inj hread]
  by_cases hk : k = l
  · rw [if_pos hk, if_pos (congrArg _ hk)]
    exact length_slice_of_le (by rw [hsize]; unfold headerSize pageSize; omega)
  · rw [if_neg hk, if_neg fun heq => hk (Layer.toNat_inj heq)]
    rfl

variable (hmagic : (headerAt x.bytes 0).magic &&& magic = magic)
include hmagic

/-- **The bits of the type** of a gyro or accelerometer series are set. -/
theorem ReadsOver.type_and {l : Layer} (hl : l ∈ Layer.dim3)
    (h : ReadsOver fill x (Batch.copies l (Record.filled l 0) 100)) :
    (headerAt x.bytes 0).type &&& l.toNat = l.toNat := by
  have hseries : l ∉ Layer.antp ∧ l.recordSize = 6 := by
    simp only [Layer.dim3, List.mem_cons, List.not_mem_nil, or_false] at hl
    rcases hl with rfl | rfl <;> exact ⟨by decide, rfl⟩
  have hshows := showsAt_series hseries.1 0 (n := 100) (by decide) (by rw [hseries.2]; decide) fill
  obtain ⟨hmagic', htype'⟩ := headerAt_over_of_showsAt hmagic hshows
  by_contra hne
  -- a type with a bit less is that of an ANTP layer, and its length is 9 bits
  have hlt : (headerAt x.bytes 0).type < 32 := Nat.mod_lt _ (by decide)
  have hantp : ∀ t < 32, ∀ l ∈ Layer.dim3, t &&& l.toNat ≠ l.toNat →
      ∃ k ∈ Layer.antp, t &&& l.toNat = k.toNat := by decide
  obtain ⟨k, hk, htype⟩ := hantp _ hlt l hl hne
  rw [htype] at htype'
  have hstride := strideOf_antp_type hk htype'
  have hzeros := hshows.payload
  rw [List.length_replicate, hseries.2] at hzeros
  have hlength := h.length_of_zeros l hzeros (by decide) hmagic' htype' hstride
    (Nat.lt_trans (Nat.mod_lt _ (by decide)) (by decide)) (by decide)
  have hkl : k ≠ l := fun heq => hseries.1 (heq ▸ hk)
  rw [if_neg hkl, payloads_copies, List.length_replicate, hseries.2] at hlength
  exact absurd hlength (by decide)

/-- **The bits of the count** of a series are set, if those of its type are. -/
theorem ReadsOver.count_and {l : Layer} (hl : l ∉ Layer.antp) {lo len n : Nat}
    (hcount : ∀ cp : Compress, cp.type = l.toNat → strideOf cp =
      some ⟨field lo len cp.union, l.recordSize, field lo len cp.union * l.recordSize⟩)
    (htype : (headerAt x.bytes 0).type &&& l.toNat = l.toNat) (hn : 0 < n)
    (hfits : headerSize + n * l.recordSize ≤ 2000)
    (h : ReadsOver fill x (Batch.copies l (Record.filled l 0) n)) :
    field lo len (headerAt x.bytes 0).union &&& n = n := by
  have hshows := showsAt_series hl 0 hn hfits fill
  obtain ⟨hmagic', htype'⟩ := headerAt_over_of_showsAt hmagic hshows
  rw [htype] at htype'
  have hpos := l.recordSize_pos
  have hzeros := hshows.payload
  obtain ⟨m, hstride, hm⟩ := hshows.stride
  rw [List.length_replicate] at hm hzeros
  obtain rfl : m = n := Nat.eq_of_mul_eq_mul_right hpos hm
  rw [hcount _ hshows.type] at hstride
  have hunion : field lo len
      (headerAt (Page.image (Batch.copies l (Record.filled l 0) m).image fill).bytes 0).union = m :=
    (Stride.mk.inj (Option.some.inj hstride)).1
  have hcount' := hcount _ htype'
  rw [headerAt_over.2.2, field_and, hunion] at hcount'
  by_contra hne
  have hlt : (field lo len (headerAt x.bytes 0).union &&& m) * l.recordSize < m * l.recordSize :=
    Nat.mul_lt_mul_of_pos_right (Nat.lt_of_le_of_ne Nat.and_le_right hne) hpos
  have hlength := h.length_of_zeros l hzeros (by unfold headerSize at hfits; omega) hmagic' htype'
    hcount' hlt (Nat.le_of_lt hlt)
  rw [if_pos rfl, payloads_copies, List.length_replicate] at hlength
  omega

/-- **The bits of the length** of an ANTP record are set. -/
theorem ReadsOver.antLength_and
    (h : ReadsOver fill x (Batch.copies .antpSpeed (Record.filled .antpSpeed 0) 2)) :
    field 0 9 (headerAt x.bytes 0).union &&& 18 = 18 := by
  have hchain := chain_image (Batch.copies .antpSpeed (Record.filled .antpSpeed 0) 2) (by decide)
    fill
  obtain ⟨hshows, -⟩ : ShowsAt _ 0 .antpSpeed (List.replicate 18 0) ∧ _ := hchain
  have hantp : Layer.antpSpeed ∈ Layer.antp := by decide
  have hunion := (antLength_of_showsAt hantp hshows).trans List.length_replicate
  obtain ⟨hmagic', htype⟩ := headerAt_over_of_showsAt hmagic hshows
  -- whatever the page's type, it lets a type of zero through
  have htype' : (headerAt
      (flushedOver fill x (Batch.copies .antpSpeed (Record.filled .antpSpeed 0) 2)) 0).type =
        Layer.antpSpeed.toNat := htype.trans (Nat.and_zero _)
  have hstride' := strideOf_antp_type hantp htype'
  rw [Compress.antLength, headerAt_over.2.2, field_and, hunion] at hstride'
  by_contra hne
  have hlength := h.length_of_zeros .antpSpeed hshows.payload (by decide) hmagic' htype' hstride'
    (Nat.lt_of_le_of_ne Nat.and_le_right hne) (by decide)
  rw [payloads_copies] at hlength
  exact absurd hlength (by decide)

end zeros

/-! ## records of ones -/

section ones

variable {fill : UInt8} {x : Page} {p : Batch}

/-- Ones are read only where the page has them. -/
theorem ones_of_over {src len : Nat} (hfits : src + len ≤ pageSize)
    (h : slice (flushedOver fill x p) src len = List.replicate len 0xFF) :
    slice x.bytes src len = List.replicate len 0xFF := by
  have hlen : (slice x.bytes src len).length = len :=
    length_slice_of_le (by rw [x.size]; exact hfits)
  rw [over_eq, slice_andBytes] at h
  calc slice x.bytes src len
      = andBytes (List.replicate (slice x.bytes src len).length 0xFF) (slice x.bytes src len) :=
        (andBytes_ones _).symm
    _ = andBytes (andBytes (slice x.bytes src len) (slice (Page.image p.image fill).bytes src len))
          (slice x.bytes src len) := by rw [hlen, h]
    _ = List.replicate len 0xFF := by rw [andBytes_absorb, h]

/-- What a walk that reads ones has copied so far. -/
theorem ones_of_readLoop {src len : Nat} (hfits : src + len ≤ pageSize) {layer bufferlen fuel : Nat}
    {offset : Nat} (h : readLoop (flushedOver fill x p) layer bufferlen fuel offset
      (slice (flushedOver fill x p) src len) = some (List.replicate len 0xFF)) :
    slice x.bytes src len = List.replicate len 0xFF := by
  have hread : slice (flushedOver fill x p) src len = List.replicate len 0xFF := by
    refine (readLoop_extends h).eq_of_length ?_
    rw [List.length_replicate]
    exact length_slice_of_le (by rw [length_over]; exact hfits)
  exact ones_of_over hfits hread

/-- As many gyro records of ones as the buffer takes. -/
def gyroOnes : Batch := Batch.copies .gyro (Record.filled .gyro 0xFF) 328

/-- Gyro records of ones, up to the last byte a flush can program. -/
def speedGyroOnes : Batch :=
  (Batch.copies .gyro (Record.filled .gyro 0xFF) 325).push .antpSpeed (Record.filled .antpSpeed 0)

variable (hmagic : (headerAt x.bytes 0).magic &&& magic = magic)
include hmagic

/-- **The bits behind the first header**, as far as a gyro series goes. -/
theorem ReadsOver.gyroOnes (htype : (headerAt x.bytes 0).type &&& 3 = 3)
    (hcount : field 3 11 (headerAt x.bytes 0).union &&& 328 = 328)
    (h : ReadsOver fill x gyroOnes) : slice x.bytes 16 1968 = List.replicate 1968 0xFF := by
  have hl : Layer.gyro ∉ Layer.antp := by decide
  have hshows : ShowsAt (Page.image Mxfs.gyroOnes.image fill).bytes 0 .gyro _ :=
    showsAt_series hl 0xFF (by decide) (by decide) fill
  obtain ⟨hmagic', hand⟩ := headerAt_over_of_showsAt hmagic hshows
  have htype' : (headerAt (flushedOver fill x Mxfs.gyroOnes) 0).type = Layer.gyro.toNat :=
    hand.trans htype
  obtain ⟨n, hstride, hn⟩ := hshows.stride
  rw [List.length_replicate] at hn
  obtain rfl : n = 328 := Nat.eq_of_mul_eq_mul_right (by decide) hn
  have hunion : (headerAt (Page.image Mxfs.gyroOnes.image fill).bytes 0).gyrCount = 328 := by
    rw [strideOf, hshows.type, Layer.ofNat?_toNat] at hstride
    exact (Stride.mk.inj (Option.some.inj hstride)).1
  have hcount' : (headerAt (flushedOver fill x Mxfs.gyroOnes) 0).gyrCount = 328 := by
    rw [Compress.gyrCount] at hunion
    rw [Compress.gyrCount, headerAt_over.2.2, field_and, hunion, hcount]
  have hstride' : strideOf (headerAt (flushedOver fill x Mxfs.gyroOnes) 0) =
      some ⟨328, gyroRecordSize, 328 * gyroRecordSize⟩ := by
    rw [strideOf, htype', Layer.ofNat?_toNat, hcount']
  have hread := h .gyro 1 (by decide)
  rw [readLoop_first length_over hmagic' htype' hstride' (by decide), if_pos rfl, Mxfs.gyroOnes,
    payloads_copies, ← Mxfs.gyroOnes] at hread
  exact ones_of_readLoop (by decide) hread

omit hmagic in
theorem segments_speedGyroOnes : speedGyroOnes.segments =
    [(.antpSpeed, List.replicate 18 0), (.gyro, List.replicate 1950 0xFF)] := by
  have hgyro : payloadBytes (List.replicate 325 (Record.filled .gyro 0xFF)) =
      List.replicate 1950 0xFF := payloadBytes_filled .gyro 0xFF 325
  rw [← hgyro]
  rfl

omit hmagic in
theorem pageBytes_speedGyroOnes : speedGyroOnes.pageBytes ≤ 2000 := by
  have hpush := (Batch.copies .gyro (Record.filled .gyro 0xFF) 325).pageBytes_push_le .antpSpeed
    (Record.filled .antpSpeed 0)
  rwa [Batch.pageBytes_copies] at hpush

omit hmagic in
theorem payloads_speedGyroOnes :
    (speedGyroOnes.payloads .gyro).flatten = List.replicate 1950 0xFF := by
  have hne : Layer.gyro ≠ .antpSpeed := by decide
  rw [speedGyroOnes, Batch.payloads, Batch.push_ne _ _ hne]
  exact payloads_copies .gyro 0xFF 325

/-- **The bits behind the second header**, up to the last that a flush can program. -/
theorem ReadsOver.speedGyroOnes (hlength : field 0 9 (headerAt x.bytes 0).union &&& 18 = 18)
    (hones : slice x.bytes 16 1968 = List.replicate 1968 0xFF)
    (h : ReadsOver fill x speedGyroOnes) : slice x.bytes 50 1950 = List.replicate 1950 0xFF := by
  have hchain := chain_image Mxfs.speedGyroOnes pageBytes_speedGyroOnes fill
  rw [segments_speedGyroOnes] at hchain
  obtain ⟨hspeed, hgyro, -⟩ : ShowsAt _ 0 .antpSpeed (List.replicate 18 0) ∧
    ShowsAt _ 34 .gyro (List.replicate 1950 0xFF) ∧ _ := hchain
  have hantp : Layer.antpSpeed ∈ Layer.antp := by decide
  -- the first header leads to the second
  have hunion := (antLength_of_showsAt hantp hspeed).trans List.length_replicate
  obtain ⟨hmagic', htype⟩ := headerAt_over_of_showsAt hmagic hspeed
  have htype' : (headerAt (flushedOver fill x Mxfs.speedGyroOnes) 0).type = Layer.antpSpeed.toNat :=
    htype.trans (Nat.and_zero _)
  have hstride' : strideOf (headerAt (flushedOver fill x Mxfs.speedGyroOnes) 0) =
      some ⟨1, antpRecordSize, 18⟩ := by
    rw [strideOf_antp_type hantp htype', Compress.antLength, headerAt_over.2.2, field_and, hunion,
      hlength]
  -- the second header is as it was written
  have hsecond : slice (flushedOver fill x Mxfs.speedGyroOnes) 34 headerSize =
      slice (Page.image Mxfs.speedGyroOnes.image fill).bytes 34 headerSize := by
    have hx : slice x.bytes 34 headerSize = List.replicate 16 0xFF := by
      have hmid := slice_slice x.bytes (i := 16) (show 18 + headerSize ≤ 1968 by decide)
      rw [hones, slice, List.drop_replicate, List.take_replicate] at hmid
      exact hmid.symm
    have hlen : (slice (Page.image Mxfs.speedGyroOnes.image fill).bytes 34 headerSize).length =
        16 := length_slice_of_le (by rw [Page.size]; decide)
    rw [over_eq, slice_andBytes, hx]
    exact hlen ▸ andBytes_ones _
  have hshows : ShowsAt (flushedOver fill x Mxfs.speedGyroOnes) 34 .gyro
      (slice (flushedOver fill x Mxfs.speedGyroOnes) 50 1950) := by
    have hlen : (slice (flushedOver fill x Mxfs.speedGyroOnes) 50 1950).length = 1950 :=
      length_slice_of_le (by rw [length_over]; decide)
    refine ⟨by rw [hlen, length_over]; decide, ?_, ?_, ?_, by rw [hlen]; rfl⟩
    · rw [hsecond]; exact hgyro.magic
    · rw [hsecond]; exact hgyro.type
    · have hstride := hgyro.stride
      rw [List.length_replicate] at hstride
      rw [hsecond, hlen]
      exact hstride
  have hread := h .gyro 1 (by decide)
  have hne : ¬ Layer.antpSpeed.toNat = Layer.gyro.toNat := by decide
  have hround := readLoop_showsAt length_over hshows Layer.gyro.toNat (1 : UInt16).toNat
    (pageSize - 2) []
  rw [if_pos rfl, List.nil_append] at hround
  rw [readLoop_first length_over hmagic' htype' hstride' (by decide), if_neg hne,
    payloads_speedGyroOnes, show pageSize - 1 = pageSize - 2 + 1 from rfl,
    show headerSize + 18 = 34 from rfl, hround] at hread
  exact ones_of_readLoop (by decide) hread

end ones

/-! ## what appends can leave pending -/

/-- A batch with records that appends leave in the buffers, in every build. -/
structure Batch.Appended (p : Batch) : Prop where
  nonempty : ¬ p.IsEmpty
  run : ∀ B, ∃ ops : List Op, (∀ op ∈ ops, op.IsLog) ∧ LogState.init.run B ops = ⟨p, []⟩

theorem appended_copies {l : Layer} (r : Record l) {n : Nat} (hn : 0 < n)
    (hpage : ∀ k < n, l.encodedSize k + l.recordSize ≤ pageSize - 64)
    (hroom : n * l.stride ≤ 8192) : (Batch.copies l r n).Appended := by
  constructor
  · intro hempty
    have hnil := hempty l
    rw [Batch.copies_same, List.replicate_eq_nil_iff] at hnil
    omega
  · intro B
    have hsize : 8192 ≤ B.mxfsBufferSize := by
      unfold Build.mxfsBufferSize; split <;> decide
    refine ⟨List.replicate n (.ofRecord l r), fun op hop => ?_,
      run_copies B l r hpage (Nat.le_trans hroom hsize)⟩
    rw [List.eq_of_mem_replicate hop]
    trivial

/-- A series that fits the page and the smaller buffers. -/
theorem appended_series {l : Layer} (hl : l ∉ Layer.antp) (r : Record l) {n : Nat} (hn : 0 < n)
    (hpage : headerSize + n * l.recordSize ≤ 1984) (hroom : n * l.stride ≤ 8192) :
    (Batch.copies l r n).Appended := by
  refine appended_copies r hn (fun k hk => ?_) hroom
  have hmul : (k + 1) * l.recordSize ≤ n * l.recordSize := Nat.mul_le_mul_right _ hk
  rw [Nat.succ_mul] at hmul
  have hsize : l.encodedSize k ≤ headerSize + k * l.recordSize := by
    cases l
    case antpSpeed | antpPower | antpCadence => exact absurd (by simp [Layer.antp]) hl
    all_goals
      rw [Layer.encodedSize, Nat.mul_comm k]
      split
      · exact Nat.zero_le _
      · exact Nat.le_refl _
  unfold pageSize
  omega

/-- One record more. -/
theorem Batch.Appended.push {p : Batch} (h : p.Appended) {l : Layer} (r : Record l)
    (hpage : ¬ LogState.Full p l) (hroom : ∀ B, LogState.HasRoom B p l) :
    (p.push l r).Appended := by
  constructor
  · intro hempty
    have hnil := hempty l
    rw [Batch.push_same] at hnil
    exact List.append_ne_nil_of_right_ne_nil _ (List.cons_ne_nil r []) hnil
  · intro B
    obtain ⟨ops, hops, hrun⟩ := h.run B
    refine ⟨ops ++ [.ofRecord l r], fun op hop => ?_, ?_⟩
    · rcases List.mem_append.1 hop with hop | hop
      · exact hops op hop
      · rw [List.mem_singleton.1 hop]
        trivial
    · rw [LogState.run_concat, hrun, LogState.next, step_ofRecord,
        LogState.append_of_room B (a := ⟨p, []⟩) r hpage (hroom B)]

theorem appended_gyroOnes : gyroOnes.Appended :=
  appended_series (by decide) _ (by decide) (by decide) (by decide)

theorem appended_speedGyroOnes : speedGyroOnes.Appended := by
  have hgyro : (Batch.copies .gyro (Record.filled .gyro 0xFF) 325).Appended :=
    appended_series (by decide) _ (by decide) (by decide) (by decide)
  have hpage : ¬ LogState.Full (Batch.copies .gyro (Record.filled .gyro 0xFF) 325) .antpSpeed := by
    rw [LogState.Full, Batch.pageBytes_copies]
    decide
  refine hgyro.push _ hpage fun B => ?_
  rw [LogState.hasRoom_iff hpage]
  exact fun hno => absurd hno.2.1 (by decide)

/-! ## the bits found -/

/-- **A page over which all batches read back is programmable.** -/
theorem programmable_of_readsOver {fill : UInt8} {x : Page}
    (hmagic : (headerAt x.bytes 0).magic &&& magic = magic)
    (h : ∀ p : Batch, p.Appended → ReadsOver fill x p) : x.Programmable := by
  -- the type
  have hthree : (headerAt x.bytes 0).type &&& 3 = 3 :=
    @ReadsOver.type_and fill x hmagic .gyro (by decide)
      (h _ (appended_series (by decide) _ (by decide) (by decide) (by decide)))
  have hfour : (headerAt x.bytes 0).type &&& 4 = 4 :=
    @ReadsOver.type_and fill x hmagic .accelerometer (by decide)
      (h _ (appended_series (by decide) _ (by decide) (by decide) (by decide)))
  have htype : 7 &&& (headerAt x.bytes 0).type = 7 :=
    calc 7 &&& (headerAt x.bytes 0).type
        = (headerAt x.bytes 0).type &&& (3 ||| 4) := Nat.and_comm _ _
      _ = 3 ||| 4 := by rw [Nat.and_or_distrib_left, hthree, hfour]
      _ = 7 := rfl
  -- the counts and the length
  have hgyro : ∀ n, 0 < n → n ≤ 328 → field 3 11 (headerAt x.bytes 0).union &&& n = n := by
    intro n hpos hn
    refine ReadsOver.count_and (l := .gyro) hmagic (by decide) (fun cp hcp => ?_) hthree hpos ?_
      (h _ (appended_series (by decide) _ hpos ?_ ?_))
    · rw [strideOf, hcp]
      rfl
    all_goals
      simp only [Layer.recordSize, Layer.stride, headerSize, gyroRecordSize, timeSize]
      omega
  have htemperature : ∀ n, 0 < n → n ≤ 512 →
      field 16 16 (headerAt x.bytes 0).union &&& n = n := by
    intro n hpos hn
    refine ReadsOver.count_and (l := .temperature) hmagic (by decide) (fun cp hcp => ?_)
      (and_eq_of_mask htype (by decide)) hpos ?_ (h _ (appended_series (by decide) _ hpos ?_ ?_))
    · rw [strideOf, hcp]
      rfl
    all_goals
      simp only [Layer.recordSize, Layer.stride, headerSize, temperatureRecordSize, timeSize]
      omega
  have hlength : field 0 9 (headerAt x.bytes 0).union &&& 18 = 18 :=
    ReadsOver.antLength_and hmagic (h _ (appended_copies _ (by decide) (by decide) (by decide)))
  have hunion : 0x03FF0FFA &&& (headerAt x.bytes 0).union = 0x03FF0FFA := by
    refine and_eq_of_testBit fun i hi => ?_
    have hbits : ∀ i < 26, Nat.testBit 0x03FF0FFA i = true →
        i = 1 ∨ 3 ≤ i ∧ i < 12 ∨ 16 ≤ i := by decide
    have hlt : i < 26 := by
      by_contra hge
      have hzero := Nat.testBit_lt_two_pow (x := 0x03FF0FFA) (i := i)
        (Nat.lt_of_lt_of_le (by decide) (Nat.pow_le_pow_right (by decide) (Nat.not_lt.1 hge)))
      exact absurd (hzero.symm.trans hi) Bool.false_ne_true
    have hfield : ∀ {lo len n k : Nat}, field lo len (headerAt x.bytes 0).union &&& n = n →
        n.testBit k = true → (headerAt x.bytes 0).union.testBit (lo + k) = true := by
      intro lo len n k hand hn
      have hbit := testBit_of_and_eq hand hn
      rw [testBit_field, Bool.and_eq_true] at hbit
      exact hbit.2
    rcases hbits i hlt hi with rfl | ⟨hge, hlt'⟩ | hge
    · exact @hfield 0 9 18 1 hlength (by decide)
    · have hpow : 2 ^ (i - 3) ≤ 2 ^ 8 := Nat.pow_le_pow_right (by decide) (by omega)
      have hbit := hfield (hgyro (2 ^ (i - 3)) (Nat.two_pow_pos _) (by omega))
        Nat.testBit_two_pow_self
      rwa [Nat.add_sub_cancel' hge] at hbit
    · have hpow : 2 ^ (i - 16) ≤ 2 ^ 9 := Nat.pow_le_pow_right (by decide) (by omega)
      have hbit := hfield (htemperature (2 ^ (i - 16)) (Nat.two_pow_pos _) (by omega))
        Nat.testBit_two_pow_self
      rwa [Nat.add_sub_cancel' hge] at hbit
  -- the bytes behind the header
  have hfront := ReadsOver.gyroOnes hmagic hthree (hgyro 328 (by decide) (by decide))
    (h _ appended_gyroOnes)
  have hback := ReadsOver.speedGyroOnes hmagic hlength hfront (h _ appended_speedGyroOnes)
  have hones : slice x.bytes 16 1984 = List.replicate 1984 0xFF := by
    have hmid := slice_slice x.bytes (i := 16) (show 0 + 34 ≤ 1968 by decide)
    rw [hfront, slice, List.drop_replicate, List.take_replicate] at hmid
    calc slice x.bytes 16 1984 = slice x.bytes 16 34 ++ slice x.bytes 50 1950 :=
          (slice_append_slice x.bytes 16 34 1950).symm
      _ = List.replicate 34 0xFF ++ List.replicate 1950 0xFF := by rw [hback, ← hmid]; rfl
      _ = List.replicate 1984 0xFF := List.replicate_append_replicate
  exact Page.programmable_of ((Nat.and_comm _ _).trans hmagic) htype hunion hones

/-! ## after the power loss -/

/-- A page that lets a batch through has the bits of its magic. -/
theorem magic_of_below {fill : UInt8} {x : Page} {p : Batch}
    (hbelow : (Page.image p.image fill).Below x) (hmagic : (Page.image p.image fill).HasMagic) :
    (headerAt x.bytes 0).magic &&& magic = magic := by
  have hshown : (headerAt (Page.image p.image fill).bytes 0).magic = magic := by
    show leNat (slice (slice _ 0 headerSize) 0 4) = magic
    rw [slice_slice _ (by decide)]
    exact hmagic
  have hand : (headerAt (flushedOver fill x p) 0).magic =
      (headerAt x.bytes 0).magic &&& (headerAt (Page.image p.image fill).bytes 0).magic :=
    headerAt_over.1
  rw [over_eq, andBytes_comm, hbelow, hshown] at hand
  exact hand.symm

/-- **What is flushed to a page that is not erased first** reads back only if it does
over the page. -/
theorem readsOver_of_flushed {B : Build} {fill : UInt8} {st : Store} {w : World (Logged Flash)}
    (hw : Model.Abstracts B ⟨LogState.init, st⟩ w)
    (hunmarked : st.marked st.cursor.block = false) {p : Batch} (hp : p.Appended) :
    ∃ xs : List Op, (∀ x ∈ xs, x.IsLog) ∧
      (run (next B (pageArray (nandMedium fill)).logged) w xs).Programs .flush ∧
      (ReadsBack (nandMedium fill)
          (run (next B (pageArray (nandMedium fill)).logged) w (xs ++ [.flush])).dev
          (run (next B (pageArray (nandMedium fill)).logged) w xs).inst.mxfsCurrentBlock
          (run (next B (pageArray (nandMedium fill)).logged) w xs).inst.mxfsCurrentPage
          (buffered (run (next B (pageArray (nandMedium fill)).logged) w xs).inst) →
        ReadsOver fill st.page p) := by
  obtain ⟨xs, hxs, hrun⟩ := hp.run B
  -- the appends leave the store, and the batch pending
  have hbatches : (LogState.init.run B xs).batches = LogState.init.batches := by
    rw [hrun]
    rfl
  have hmodel : (Model.run B (nandMedium fill) ⟨LogState.init, st⟩ xs) = ⟨⟨p, []⟩, st⟩ :=
    Model.ext ((Model.run_log B (nandMedium fill) ⟨LogState.init, st⟩ xs).trans hrun)
      (Model.run_store_of_log B (nandMedium fill) hxs hbatches)
  have hm := hw.run (M := nandMedium fill) xs
  rw [hmodel] at hm
  have hputs : LogState.Puts ⟨p, []⟩ .flush := hp.nonempty
  refine ⟨xs, hxs, (World.programs_iff hm.buffers .flush).2 hputs, fun hread => ?_⟩
  have hflush := Model.abstracts_next (M := nandMedium fill) hm .flush
  rw [run_append, run_cons, run_nil] at hread
  generalize run (next B (pageArray (nandMedium fill)).logged) w xs = v at hm hflush hread
  -- the flush programs the page under the cursor
  have hlog : Op.IsLog .flush := trivial
  have hpage : ((next B (pageArray (nandMedium fill)).logged v .flush).dev.dev
      v.inst.mxfsCurrentBlock v.inst.mxfsCurrentPage).bytes = flushedOver fill st.page p := by
    rw [hflush.shows.flash, hm.shows.block, hm.shows.page, Model.next_store_of_log hlog,
      if_pos hputs, Store.put_flash_self, Store.clean_of_not_marked hunmarked]
    rfl
  intro l bufferlen hpos
  have hl := hread l bufferlen hpos
  have hlayer : (UInt8.ofNat l.toNat).toNat = l.toNat := by cases l <;> rfl
  rw [mxfsRead_pageArray _ _ _ _ _ hpos, hpage, hlayer, buffered_eq hm.buffers] at hl
  obtain ⟨out, hout, heq⟩ := Option.map_eq_some_iff.1 hl
  rw [hout, (Prod.mk.inj heq).2]

/-- **A power loss that is not harmless does harm**: there are appends after the next
mount whose records, flushed over the torn page, do not read back. -/
theorem power_loss_harms (B : Build) {fill : UInt8} (T : Tear fill) {f : Flash}
    (hf : ∀ b, IsData b → f.Blank b) {ops : List Op} (hops : ∀ op ∈ ops, op.IsLog) {op : Op}
    (hop : (pageSession B (nandMedium fill) f ops).Programs op)
    (h : ¬ TornHarmless B T f ops op) :
    ∃ xs, (∀ x ∈ xs, x.IsLog) ∧ (resumed B T f ops op xs).Programs .flush ∧
      ¬ ReadsBack (nandMedium fill) (resumed B T f ops op (xs ++ [.flush])).dev
        (resumed B T f ops op xs).inst.mxfsCurrentBlock
        (resumed B T f ops op xs).inst.mxfsCurrentPage
        (buffered (resumed B T f ops op xs).inst) := by
  obtain ⟨hm, hs⟩ := safe_session B (nandMedium fill) (fun b hb => Or.inr (hf b hb))
    (not_erase_of_isLog hops)
  have hbehind := behind_session B (nandMedium fill) hf hops
  have hputs := (World.programs_iff hm.buffers op).1 hop
  have hdev := dev_powerLoss T hm (World.isLog_of_programs hop) hputs
  rw [TornHarmless, tornPage, powerLoss, hdev, hm.shows.block, hm.shows.page,
    Store.tornFlash_self] at h
  generalize (Model.init B f).run B (nandMedium fill) ops = m at hm hs hbehind hputs hdev h
  simp only [not_or, not_not] at h
  obtain ⟨hpage, hlinux, hnomagic, hnot⟩ := h
  -- the torn page lets the interrupted batch through
  have hbelow : (Page.image m.log.pending.image fill).Below
      (T.leave m.store.clean.page m.log.pending.image) := by
    have hlen := hm.buffers.fits
    rw [← Batch.length_image] at hlen
    have habove := T.above m.store.clean.page m.log.pending.image
    rw [hs.ready.clean_page] at habove ⊢
    rwa [(nandMedium fill).program_blank _ (Nat.le_trans hlen (by decide))] at habove
  -- and it is the page under the cursor after the mount
  obtain ⟨-, hunmarked, hfront⟩ := Store.mount_tornFlash_front hbehind hlinux hpage hnomagic
    (powerLoss B T f ops op).calls
  by_contra hnone
  refine hnot (@programmable_of_readsOver fill _ (magic_of_below hbelow (hm.data hputs fill).2)
    fun p hp => ?_)
  obtain ⟨xs, hxs, hprograms, hread⟩ := readsOver_of_flushed (abstracts_resumed hdev) hunmarked hp
  rw [← hfront]
  exact hread (by_contra fun hno => hnone ⟨xs, hxs, hprograms, hno⟩)

end Mxfs
