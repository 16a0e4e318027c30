import Mxfs.Config

/-!
# Mxfs.Direct

`mxfs_write` (`mxfs_write.cc`): a payload of the caller goes to a page behind a
header, and comes back as `LAYER_DIRECT`.

The page is built in a work buffer of `PAGE_SIZE` bytes, allocated or, under
`__RP2040__`, static.  Nothing compares the payload with it, and only three
fields of the header are set, so what the buffer held before is a parameter.
`direct_roundtrip_iff` says which payloads come back.
-/

namespace Mxfs

open Lib

/-! ## the write -/

/-- `LAYER_DIRECT`. -/
def layerDirect : Nat := layerConfig

/-- The header: what `old` has, with the magic, the type and `tmp.base` set. -/
def directHeader (old : Compress) (bufferlen : Nat) : Compress :=
  { old with
    magic := magic
    type := layerDirect
    union := Compress.tmpUnion bufferlen old.tmpCount }

/-- The work buffer with the page in it; `none` if the payload is copied past its
end, or from behind the caller's bytes. -/
def directPage (wbf : Page) (buffer : List UInt8) (bufferlen : Nat) : Option (List UInt8) :=
  let wbf := patch wbf.bytes 0 (directHeader (Compress.ofBytes wbf.bytes) bufferlen).bytes
  if wbf.length < headerSize + bufferlen then none
  else if buffer.length < bufferlen then none
  else some (patch wbf headerSize (buffer.take bufferlen))

/-- `mxfs_write` at `timerange->block`, `timerange->page`, over the work buffer
`wbf`: the return code, if the behaviour is defined, and the device.  The length
given to the driver is 16 bits wide. -/
def mxfsWrite (D : Driver σ) (dev : σ) (wbf : Page) (layer : UInt8)
    (buffer : Option (List UInt8)) (bufferlen : UInt16) (block page : Nat) : Option Int × σ :=
  match buffer with
  | none => (some ERR, dev)
  | some buffer =>
    if bufferlen = 0 then (some ERR, dev)
    else if layer.toNat ≠ layerDirect then (some ERR, dev)
    else
      match directPage wbf buffer bufferlen.toNat with
      | none => (none, dev)
      | some wbf =>
        let (ret, dev) :=
          D.write dev block page (wbf.take ((bufferlen.toNat + headerSize) % 65536))
        (some ret, dev)

/-- The write refuses and leaves the flash alone, or it stays within the work
buffer and the payload is read back. -/
def DirectRoundTrips (f : Flash) (wbf : Page) (buffer : List UInt8) (bufferlen : UInt16)
    (block page : Nat) : Prop :=
  ∃ ret f', mxfsWrite (pageArray fakeMedium) f wbf (UInt8.ofNat layerDirect) (some buffer)
      bufferlen block page = (some ret, f') ∧
    (ret ≠ OK ∧ f' = f ∨ ∀ n : UInt16, bufferlen ≤ n →
      (mxfsRead (pageArray fakeMedium) f' (UInt8.ofNat layerDirect) n block page).1 =
        some ((buffer.length : Int), buffer))

/-! ## the page -/

section page

variable {wbf : Page} {buffer : List UInt8}

/-- A payload that fits stands in the buffer behind its header. -/
theorem directPage_of_le (h : buffer.length ≤ 2032) :
    directPage wbf buffer buffer.length =
      some ((directHeader (Compress.ofBytes wbf.bytes) buffer.length).bytes ++ buffer ++
        wbf.bytes.drop (headerSize + buffer.length)) := by
  have hsize := wbf.size
  unfold pageSize at hsize
  generalize hcp : directHeader (Compress.ofBytes wbf.bytes) buffer.length = cp
  have hheader : patch wbf.bytes 0 cp.bytes = cp.bytes ++ wbf.bytes.drop headerSize := by
    rw [patch, List.take_zero, List.nil_append, Compress.length_bytes, Nat.zero_add]
  have hlen : (cp.bytes ++ wbf.bytes.drop headerSize).length = 2048 := by
    rw [List.length_append, Compress.length_bytes, List.length_drop, hsize]
    rfl
  rw [directPage]
  simp only [hcp, hheader, hlen]
  rw [if_neg (by unfold headerSize; omega), if_neg (Nat.lt_irrefl _), List.take_length, patch,
    ← List.drop_drop, take_append_of_length (Compress.length_bytes _),
    drop_append_of_length (Compress.length_bytes _), List.drop_drop]

/-- A longer one is copied past the end. -/
theorem directPage_of_gt {bufferlen : Nat} (h : 2032 < bufferlen) :
    directPage wbf buffer bufferlen = none := by
  have hsize := wbf.size
  have hheader : (patch wbf.bytes 0
      (directHeader (Compress.ofBytes wbf.bytes) bufferlen).bytes).length = pageSize := by
    rw [length_patch (by rw [Compress.length_bytes, hsize]; decide), hsize]
  rw [directPage]
  simp only [hheader]
  exact if_pos (by unfold pageSize headerSize; omega)

/-- The page that is built is one page long. -/
theorem length_directPage {bufferlen : Nat} {data : List UInt8}
    (h : directPage wbf buffer bufferlen = some data) : data.length = pageSize := by
  have hheader : (patch wbf.bytes 0
      (directHeader (Compress.ofBytes wbf.bytes) bufferlen).bytes).length = pageSize := by
    rw [length_patch (by rw [Compress.length_bytes, wbf.size]; decide), wbf.size]
  rw [directPage] at h
  simp only [hheader] at h
  split at h
  · cases h
  · split at h
    · cases h
    · rw [← Option.some.inj h, length_patch, hheader]
      rw [hheader, List.length_take]
      omega

/-- What goes to the driver starts with the magic. -/
theorem magic_directPage {bufferlen : Nat} {data : List UInt8}
    (h : directPage wbf buffer bufferlen = some data) :
    leNat (slice (data.take ((bufferlen + headerSize) % 65536)) 0 4) = magic := by
  have hheader : patch wbf.bytes 0 (directHeader (Compress.ofBytes wbf.bytes) bufferlen).bytes =
      (directHeader (Compress.ofBytes wbf.bytes) bufferlen).bytes ++ wbf.bytes.drop headerSize := by
    rw [patch, List.take_zero, List.nil_append, Compress.length_bytes, Nat.zero_add]
  have hlen : ((directHeader (Compress.ofBytes wbf.bytes) bufferlen).bytes ++
      wbf.bytes.drop headerSize).length = 2048 := by
    rw [List.length_append, Compress.length_bytes, List.length_drop, wbf.size]
    rfl
  rw [directPage] at h
  simp only [hheader, hlen] at h
  split at h
  · cases h
  · split at h
    · cases h
    · rename_i hfits _
      have hkeep : bufferlen + headerSize < 65536 := by omega
      have hfront : 0 + 4 ≤ bufferlen + headerSize := by unfold headerSize; omega
      rw [Nat.mod_eq_of_lt hkeep, slice_take hfront, ← Option.some.inj h, patch,
        take_append_of_length (Compress.length_bytes _), List.append_assoc, Compress.slice_magic]
      exact leNat_leBytes_of_lt (show magic < 256 ^ 4 by decide)

end page

/-! ## the write and the read -/

/-- The macOS driver keeps what stands behind the data. -/
theorem program_fake (old : Page) {data : List UInt8} (h : data.length ≤ pageSize) :
    (fakeMedium.program old data).bytes = data ++ old.bytes.drop data.length := by
  have hprogram : (fakeMedium.program old data).bytes = patch old.bytes 0 (data.take pageSize) :=
    rfl
  rw [hprogram, List.take_of_length_le h, patch, List.take_zero, List.nil_append, Nat.zero_add]

section roundtrip

variable {f : Flash} {wbf : Page} {buffer : List UInt8} {bufferlen : UInt16}

/-- A payload that fits is given to the driver behind its header. -/
theorem mxfsWrite_eq {σ : Type} (D : Driver σ) (dev : σ) (hlen : buffer.length = bufferlen.toNat)
    (hpos : bufferlen ≠ 0) (hle : buffer.length ≤ 2032) (block page : Nat) :
    mxfsWrite D dev wbf (UInt8.ofNat layerDirect) (some buffer) bufferlen block page =
      (some (D.write dev block page
          ((directHeader (Compress.ofBytes wbf.bytes) buffer.length).bytes ++ buffer)).1,
        (D.write dev block page
          ((directHeader (Compress.ofBytes wbf.bytes) buffer.length).bytes ++ buffer)).2) := by
  have hmod : (buffer.length + headerSize) % 65536 = (headerSize + buffer.length) := by
    unfold headerSize
    omega
  have htake : ∀ rest : List UInt8,
      ((directHeader (Compress.ofBytes wbf.bytes) buffer.length).bytes ++ buffer ++ rest).take
          (headerSize + buffer.length) =
        (directHeader (Compress.ofBytes wbf.bytes) buffer.length).bytes ++ buffer :=
    fun rest => take_append_of_length (by rw [List.length_append, Compress.length_bytes])
  rw [mxfsWrite, if_neg hpos, if_neg (by decide), ← hlen, directPage_of_le hle]
  dsimp only
  rw [hmod, htake]

/-- A payload that fits is written. -/
theorem mxfsWrite_of_le (hlen : buffer.length = bufferlen.toNat) (hpos : bufferlen ≠ 0)
    (hle : buffer.length ≤ 2032) (block page : Nat) :
    mxfsWrite (pageArray fakeMedium) f wbf (UInt8.ofNat layerDirect) (some buffer) bufferlen block
        page =
      (some OK, f.setPage block page (fakeMedium.program (f block page)
        ((directHeader (Compress.ofBytes wbf.bytes) buffer.length).bytes ++ buffer))) := by
  rw [mxfsWrite_eq (pageArray fakeMedium) f hlen hpos hle]
  rfl

/-- **What was written is read back.** -/
theorem mxfsRead_direct (old : Compress) (hpos : bufferlen ≠ 0)
    (hle : buffer.length ≤ 2032) (hroom : buffer.length ≤ bufferlen.toNat) {block page : Nat}
    {rest : List UInt8}
    (hpage : (f block page).bytes = (directHeader old buffer.length).bytes ++ (buffer ++ rest)) :
    (mxfsRead (pageArray fakeMedium) f (UInt8.ofNat layerDirect) bufferlen block page).1 =
      some ((buffer.length : Int), buffer) := by
  have hsize := (f block page).size
  have hread : (pageArray fakeMedium).read f block page pageSize =
      (OK, (f block page).bytes, f) := by
    have htake : (f block page).bytes.take pageSize = (f block page).bytes :=
      List.take_of_length_le (Nat.le_of_eq hsize)
    exact Prod.ext rfl (Prod.ext htake rfl)
  have hbase : (directHeader old buffer.length).stored.tmpBase = buffer.length := by
    show field 0 16 (Compress.tmpUnion buffer.length old.tmpCount % 4294967296) = _
    rw [field, Compress.tmpUnion]
    omega
  have hmin : min buffer.length bufferlen.toNat = buffer.length := Nat.min_eq_left hroom
  rw [hpage] at hsize
  have hloop := readLoop_json (directHeader old buffer.length) rfl rfl hsize
    (by rw [hbase, hmin]; simp)
  rw [hbase, hmin, take_append_of_length rfl] at hloop
  rw [mxfsRead_eq hpos (by rw [hread]), hread, hpage]
  show (readLoop _ layerConfig bufferlen.toNat pageSize 0 []).map _ = _
  rw [hloop]
  rfl

end roundtrip

/-- **A direct write is read back**, or refused, exactly if the payload has at
most 2032 bytes; a longer one overruns the work buffer. -/
theorem direct_roundtrip_iff (f : Flash) (wbf : Page) {buffer : List UInt8} {bufferlen : UInt16}
    (hlen : buffer.length = bufferlen.toNat) (hpos : bufferlen ≠ 0) (block page : Nat) :
    DirectRoundTrips f wbf buffer bufferlen block page ↔ buffer.length ≤ 2032 := by
  constructor
  · rintro ⟨ret, f', hwrite, _⟩
    by_contra hgt
    rw [mxfsWrite, if_neg hpos, if_neg (by decide), ← hlen, directPage_of_gt (by omega)] at hwrite
    cases hwrite
  · intro hle
    refine ⟨OK, _, mxfsWrite_of_le hlen hpos hle block page, Or.inr fun n hn => ?_⟩
    have hroom : buffer.length ≤ n.toNat := by
      rw [hlen]
      exact UInt16.le_iff_toNat_le.1 hn
    have hne : n ≠ 0 := by
      rintro rfl
      exact hpos (UInt16.le_zero_iff.1 hn)
    have hdata : ((directHeader (Compress.ofBytes wbf.bytes) buffer.length).bytes ++
        buffer).length ≤ pageSize := by
      rw [List.length_append, Compress.length_bytes]
      unfold headerSize pageSize
      omega
    have hpage := program_fake (f block page) hdata
    rw [List.append_assoc, ← f.setPage_same block page (fakeMedium.program (f block page)
      ((directHeader (Compress.ofBytes wbf.bytes) buffer.length).bytes ++ buffer))] at hpage
    exact mxfsRead_direct (Compress.ofBytes wbf.bytes) hne hle hroom hpage

/-- The string of the self-test. -/
theorem direct_roundtrip_test :
    DirectRoundTrips Flash.erased Page.blank [0x74, 0x65, 0x73, 0x74] 4 1 0 :=
  (direct_roundtrip_iff Flash.erased Page.blank rfl (by decide) 1 0).2 (by decide)

/-- A payload of a page. -/
theorem direct_overrun :
    ¬ DirectRoundTrips Flash.erased Page.blank (List.replicate 2048 0) 2048 1 0 := by
  rintro ⟨ret, f', hwrite, _⟩
  have hlen : (2048 : UInt16).toNat = 2048 := rfl
  rw [mxfsWrite, if_neg (by decide), if_neg (by decide), hlen, directPage_of_gt (by decide)]
    at hwrite
  cases hwrite

end Mxfs
