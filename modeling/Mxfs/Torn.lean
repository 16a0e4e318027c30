import Mxfs.EraseFirst

/-!
# Mxfs.Torn

Programs on top of a page that is not erased.  A NAND part clears bits only,
so a program over what an interrupted one left shows the new data masked by the
old.  `chain_over` says that a batch is still read back from it when the bits a
flush relies on are all set (`Page.Programmable`).
-/

namespace Mxfs

open Lib

namespace Page

/-- Every bit of `x` is set in `y`. -/
def Below (x y : Page) : Prop := andBytes x.bytes y.bytes = x.bytes

/-- Magic, type, and the union of the first header as far as a flush uses them,
then every bit of the bytes a flush can reach. -/
def programmableMask : List UInt8 :=
  [0xde, 0xc0, 0xad, 0xde, 0, 0, 0, 0, 0x0E, 0, 0, 0, 0xFA, 0x0F, 0xFF, 0x03] ++
    List.replicate 1984 0xFF

/-- The bits a first flush to the page relies on are all set. -/
def Programmable (x : Page) : Prop := andBytes programmableMask x.bytes = programmableMask

instance (x : Page) : Decidable x.Programmable := inferInstanceAs (Decidable (_ = _))

theorem programmableMask_words : leNat (slice programmableMask 0 4) = magic ∧
    leNat (slice programmableMask 8 4) = 0x0E ∧
    leNat (slice programmableMask 12 4) = 0x03FF0FFA := by
  refine ⟨?_, ?_, ?_⟩
  all_goals
    rw [programmableMask, slice_append_left (by decide)]
    decide

theorem length_programmableMask : programmableMask.length = 2000 := by
  rw [programmableMask, List.length_append, List.length_replicate]
  rfl

/-- Behind the header the mask is ones. -/
theorem programmableMask_ones : slice programmableMask 16 1984 = List.replicate 1984 0xFF := by
  have hdrop : programmableMask.drop 16 = List.replicate 1984 0xFF :=
    drop_append_of_length (k := 16) rfl
  rw [slice, hdrop]
  exact List.take_of_length_le (by rw [List.length_replicate])

/-- The words of the mask are set in the page. -/
theorem Programmable.word {x : Page} (h : x.Programmable) (hj : j + 4 ≤ 16) :
    leNat (slice programmableMask j 4) &&& leNat (slice x.bytes j 4) =
      leNat (slice programmableMask j 4) := by
  have hsize := x.size
  unfold pageSize at hsize
  have hmask := length_programmableMask
  have hlen : (slice programmableMask j 4).length = (slice x.bytes j 4).length := by
    rw [length_slice_of_le (by omega), length_slice_of_le (by omega)]
  rw [← leNat_andBytes hlen, ← slice_andBytes, h]

/-- The header at the front of a programmable page has the bits of the mask set. -/
theorem Programmable.words {x : Page} (h : x.Programmable) :
    magic &&& (Compress.ofBytes (slice x.bytes 0 headerSize)).magic = magic ∧
      7 &&& (Compress.ofBytes (slice x.bytes 0 headerSize)).type = 7 ∧
      0x03FF0FFA &&& (Compress.ofBytes (slice x.bytes 0 headerSize)).union = 0x03FF0FFA := by
  obtain ⟨hmask0, hmask8, hmask12⟩ := programmableMask_words
  have hword : ∀ j, j + 4 ≤ headerSize →
      leNat (slice programmableMask j 4) &&& leNat (slice (slice x.bytes 0 headerSize) j 4) =
        leNat (slice programmableMask j 4) := by
    intro j hj
    rw [slice_slice _ hj, Nat.zero_add]
    exact h.word hj
  have hword0 := hword 0 (by decide)
  have hword8 := hword 8 (by decide)
  have hword12 := hword 12 (by decide)
  rw [hmask0] at hword0
  rw [hmask8] at hword8
  rw [hmask12] at hword12
  have hbits := congrArg (field 1 5) hword8
  rw [field_and] at hbits
  exact ⟨hword0, hbits, hword12⟩

/-- The bytes behind the first header are all ones. -/
theorem Programmable.ones {x : Page} (h : x.Programmable) :
    slice x.bytes 16 1984 = List.replicate 1984 0xFF := by
  have hsize := x.size
  unfold pageSize at hsize
  have hlen : (slice x.bytes 16 1984).length = 1984 := length_slice_of_le (by omega)
  have hand := andBytes_ones (slice x.bytes 16 1984)
  rw [hlen] at hand
  rw [← hand, ← programmableMask_ones, ← slice_andBytes, h]

/-- A page with the bits of the mask in its first header, and ones behind it, is
programmable. -/
theorem programmable_of {x : Page}
    (hmagic : magic &&& (Compress.ofBytes (slice x.bytes 0 headerSize)).magic = magic)
    (htype : 7 &&& (Compress.ofBytes (slice x.bytes 0 headerSize)).type = 7)
    (hunion : 0x03FF0FFA &&& (Compress.ofBytes (slice x.bytes 0 headerSize)).union = 0x03FF0FFA)
    (hones : slice x.bytes 16 1984 = List.replicate 1984 0xFF) : x.Programmable := by
  obtain ⟨hmask0, hmask8, hmask12⟩ := programmableMask_words
  have hmask := length_programmableMask
  have hmask4 : leNat (slice programmableMask 4 4) = 0 := by
    rw [programmableMask, slice_append_left (by decide)]
    rfl
  -- each word of the header, then the bytes behind it
  have hword : ∀ j, j + 4 ≤ headerSize → leNat (slice programmableMask j 4) &&&
        leNat (slice (slice x.bytes 0 headerSize) j 4) = leNat (slice programmableMask j 4) →
      slice (andBytes programmableMask x.bytes) j 4 = slice programmableMask j 4 := by
    intro j hj hand
    have hsize := x.size
    rw [slice_slice _ hj, Nat.zero_add] at hand
    unfold headerSize at hj
    unfold pageSize at hsize
    have hlen : (slice programmableMask j 4).length = (slice x.bytes j 4).length := by
      rw [length_slice_of_le (by omega), length_slice_of_le (by omega)]
    rw [slice_andBytes]
    refine leNat_inj (by rw [length_andBytes, ← hlen, Nat.min_self]) ?_
    rw [leNat_andBytes hlen, hand]
  have hrest : slice (andBytes programmableMask x.bytes) 16 1984 =
      slice programmableMask 16 1984 := by
    rw [slice_andBytes, programmableMask_ones, hones, andBytes_self]
  have hwhole : ∀ xs : List UInt8, xs.length = 2000 → xs = slice xs 0 4 ++ slice xs 4 4 ++
      slice xs 8 4 ++ slice xs 12 4 ++ slice xs 16 1984 := by
    intro xs hxs
    rw [slice_append_slice xs 0 4 4, slice_append_slice xs 0 8 4, slice_append_slice xs 0 12 4,
      slice_append_slice xs 0 16 1984, slice, List.drop_zero, List.take_of_length_le (by omega)]
  have hsize : (andBytes programmableMask x.bytes).length = 2000 := by
    rw [length_andBytes, hmask, x.size]
    rfl
  rw [Programmable, hwhole _ hsize, hword 0 (by decide) (by rw [hmask0]; exact hmagic),
    hword 4 (by decide) (by rw [hmask4, Nat.zero_and]),
    hword 8 (by decide) (by rw [hmask8]; exact and_field htype),
    hword 12 (by decide) (by rw [hmask12]; exact hunion), hrest, ← hwhole _ hmask]

end Page

/-! ## the first header -/

/-- A program over a torn page leaves of a header what goes through the torn one. -/
theorem Compress.ofBytes_andBytes {xs ys : List UInt8} (h : xs.length = ys.length) :
    (ofBytes (andBytes xs ys)).magic = (ofBytes xs).magic &&& (ofBytes ys).magic ∧
      (ofBytes (andBytes xs ys)).type = (ofBytes xs).type &&& (ofBytes ys).type ∧
      (ofBytes (andBytes xs ys)).union = (ofBytes xs).union &&& (ofBytes ys).union := by
  have hword : ∀ j, leNat (slice (andBytes xs ys) j 4) =
      leNat (slice xs j 4) &&& leNat (slice ys j 4) := by
    intro j
    rw [slice_andBytes, leNat_andBytes (by rw [length_slice, length_slice, h])]
  refine ⟨hword 0, ?_, hword 12⟩
  calc _ = field 1 5 (leNat (slice xs 8 4) &&& leNat (slice ys 8 4)) :=
        congrArg (field 1 5) (hword 8)
    _ = _ := field_and 1 5 _ _

/-- The stride of a header whose union went through a mask that has the bits of
every count and length a flush writes. -/
theorem strideOf_masked {cp cp' : Compress} {l : Layer} {U n len : Nat}
    (htype : cp.type = l.toNat) (htype' : cp'.type = l.toNat) (hunion : cp'.union = U &&& cp.union)
    (hU : 0x03FF0FFA &&& U = 0x03FF0FFA) (hs : strideOf cp = some ⟨n, l.recordSize, len⟩)
    (hn : n * l.recordSize = len) (hlen : len ≤ 1984) :
    strideOf cp' = some ⟨n, l.recordSize, len⟩ := by
  have hmask : ∀ lo bits c, field lo bits 0x03FF0FFA &&& c = c →
      field lo bits cp.union = c → field lo bits cp'.union = c := by
    intro lo bits c hc hfield
    rw [hunion, field_and, hfield]
    refine and_eq_of_mask (m := field lo bits 0x03FF0FFA) ?_ hc
    rw [← field_and, hU]
  have hlow : ∀ c k, c < 2 ^ k → (2 ^ k - 1) &&& c = c := by
    intro c k hc
    rw [Nat.and_comm, Nat.and_two_pow_sub_one_eq_mod, Nat.mod_eq_of_lt hc]
  rw [strideOf, htype, Layer.ofNat?_toNat] at hs
  rw [strideOf, htype', Layer.ofNat?_toNat]
  cases l
  case antpSpeed | antpPower | antpCadence =>
      simp only [Option.some.injEq, Stride.mk.injEq, true_and, Layer.recordSize] at hs hn ⊢
      obtain ⟨rfl, hlength⟩ := hs
      rw [← hn] at hlength ⊢
      exact ⟨rfl, hmask 0 9 _ (by decide) hlength⟩
  case gyro | accelerometer =>
      simp only [Option.some.injEq, Stride.mk.injEq, true_and, Layer.recordSize,
        gyroRecordSize] at hs hn ⊢
      obtain ⟨hcount, _⟩ := hs
      have hcount' : cp'.gyrCount = n := hmask 3 11 n (hlow n 9 (by omega)) hcount
      rw [hcount', hn]
      exact ⟨rfl, rfl⟩
  case temperature =>
      simp only [Option.some.injEq, Stride.mk.injEq, true_and, Layer.recordSize,
        temperatureRecordSize] at hs hn ⊢
      obtain ⟨hcount, _⟩ := hs
      have hcount' : cp'.tmpCount = n := hmask 16 16 n (hlow n 10 (by omega)) hcount
      rw [hcount', hn]
      exact ⟨rfl, rfl⟩

/-! ## a batch over a torn page -/

/-- A chain does not look at the bytes before it. -/
theorem chain_congr {rbf rbf' : List UInt8} (hlen : rbf.length = rbf'.length)
    (h : rbf.drop k = rbf'.drop k) (hk : k ≤ offset) (hchain : Chain rbf offset segs) :
    Chain rbf' offset segs := by
  induction segs generalizing offset with
  | nil =>
      obtain ⟨hfits, hmagic⟩ := hchain
      refine ⟨by omega, ?_⟩
      rw [← slice_congr h hk]
      exact hmagic
  | cons x segs ih =>
      obtain ⟨l, payload⟩ := x
      obtain ⟨⟨hfits, hmagic, htype, hstride, hpayload⟩, hrest⟩ := hchain
      refine ⟨⟨by omega, ?_, ?_, ?_, ?_⟩, ih (by omega) hrest⟩
      · rw [← slice_congr h hk]; exact hmagic
      · rw [← slice_congr h hk]; exact htype
      · rw [← slice_congr h hk]; exact hstride
      · rw [← slice_congr h (by omega)]; exact hpayload

/-- The filler behind a program is not masked by what an interrupted one left. -/
def Page.TailBelow (fill : UInt8) (x : Page) : Prop :=
  andBytes (List.replicate 48 fill) (x.bytes.drop 2000) = List.replicate 48 fill

theorem Page.drop_image {data : List UInt8} (hlen : data.length ≤ 2000) (fill : UInt8) :
    (Page.image data fill).bytes.drop 2000 = List.replicate 48 fill := by
  rw [Page.image_bytes (by unfold pageSize; omega), List.drop_append,
    List.drop_eq_nil_of_le hlen, List.nil_append, List.drop_replicate]
  unfold pageSize
  congr 1; omega

/-- What an interrupted program of a batch leaves lets the filler through. -/
theorem Page.Below.tail {data : List UInt8} {fill : UInt8} {x : Page}
    (h : (Page.image data fill).Below x) (hlen : data.length ≤ 2000) : x.TailBelow fill := by
  have hand := congrArg (List.drop 2000) h
  rwa [andBytes, List.drop_zipWith, Page.drop_image hlen] at hand

/-- Behind the first header a program over a torn page leaves its own data. -/
theorem drop_over {torn : Page} {fill : UInt8} (ht : torn.Programmable)
    (htail : torn.TailBelow fill) {data : List UInt8} (hlen : data.length ≤ 2000) :
    (andBytes torn.bytes (Page.image data fill).bytes).drop 16 =
      (Page.image data fill).bytes.drop 16 := by
  have hsize := torn.size
  have hsize' := (Page.image data fill).size
  unfold pageSize at hsize hsize'
  have hsplit : ∀ xs : List UInt8, xs.drop 16 = slice xs 16 1984 ++ xs.drop 2000 := by
    intro xs
    have htake := List.take_append_drop 1984 (xs.drop 16)
    rw [List.drop_drop] at htake
    exact htake.symm
  have hmid : (slice (Page.image data fill).bytes 16 1984).length = 1984 :=
    length_slice_of_le (by omega)
  have hones := andBytes_ones (slice (Page.image data fill).bytes 16 1984)
  rw [hmid, ← ht.ones] at hones
  rw [andBytes, List.drop_zipWith, ← andBytes, hsplit torn.bytes,
    hsplit (Page.image data fill).bytes, andBytes_append (by
      rw [hmid, length_slice_of_le (by omega)]), hones, Page.drop_image hlen, andBytes_comm, htail]

/-- **A batch flushed over a torn page** is read back if the page is programmable. -/
theorem chain_over {torn : Page} {fill : UInt8} (ht : torn.Programmable)
    (htail : torn.TailBelow fill) {p : Batch} (h : p.pageBytes ≤ 2000) (hne : ¬ p.IsEmpty) :
    Chain ((nandMedium fill).program torn p.image).bytes 0 p.segments := by
  have hlen : p.image.length ≤ 2000 := by rw [p.length_image]; exact h
  have hdrop := drop_over ht htail hlen
  have hchain := chain_image p h fill
  have hpages : (andBytes torn.bytes (Page.image p.image fill).bytes).length =
      (Page.image p.image fill).bytes.length := by
    rw [length_andBytes, torn.size, (Page.image p.image fill).size, Nat.min_self]
  show Chain (andBytes torn.bytes (Page.image p.image fill).bytes) 0 p.segments
  have hfront : (slice torn.bytes 0 headerSize).length =
      (slice (Page.image p.image fill).bytes 0 headerSize).length := by
    rw [length_slice, length_slice, torn.size, (Page.image p.image fill).size]
  have hheader := Compress.ofBytes_andBytes hfront
  rw [← slice_andBytes] at hheader
  obtain ⟨hmagic', htype', hunion'⟩ := hheader
  generalize (Page.image p.image fill).bytes = img at hdrop hchain hpages hmagic' htype' hunion'
  obtain ⟨f, fs, hfs⟩ := p.exists_frames hne
  have hbound : f.payload.length ≤ 1984 := by
    rw [Batch.image, hfs, List.flatMap_cons, List.length_append, Frame.length_bytes] at hlen
    unfold headerSize at hlen
    omega
  rw [Batch.segments, hfs, List.map_cons] at hchain ⊢
  obtain ⟨⟨hfits, hmagic, htype, ⟨n, hstride, hn⟩, hpayload⟩, hrest⟩ := hchain
  obtain ⟨hword0, hword8, hword12⟩ := ht.words
  have hmagic : (Compress.ofBytes (slice (andBytes torn.bytes img) 0 headerSize)).magic =
      magic := by
    rw [hmagic', hmagic]
    exact and_eq_of_mask hword0 (Nat.and_self magic)
  have htype'' : (Compress.ofBytes (slice (andBytes torn.bytes img) 0 headerSize)).type =
      f.layer.toNat := by
    rw [htype', htype]
    exact and_eq_of_mask hword8 (by cases f.layer <;> rfl)
  refine ⟨⟨by omega, hmagic, htype'', ⟨n, ?_, hn⟩, ?_⟩,
    chain_congr hpages.symm hdrop.symm (by unfold headerSize; omega) hrest⟩
  · exact strideOf_masked htype htype'' hunion' hword12 hstride hn hbound
  · rw [slice_congr hdrop (by unfold headerSize; omega)]
    exact hpayload

end Mxfs
