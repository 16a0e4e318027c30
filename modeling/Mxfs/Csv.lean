import Mxfs.Step

/-!
# Mxfs.Csv

The csv export of the formatter (`format.cc` of the parent).

A page is decoded in one walk and printed in a second pass.  The walk prints the
ANTP records as it meets them and collects the values of each series in a vector
of 4096 values; `csvPage` is `none` where it leaves the read buffer, or where a
vector throws.  The raw bytes are printed before them (`CsvOut.dump`).

The second pass takes the count of gyro and accelerometer records, which is a
third of their values, for the count of values, and so prints every third
record's row only: `csv_complete_iff`.
-/

namespace Mxfs

open Lib

/-! ## the lines -/

/-- What one `printf` of the export shows: an ANTP record, the header of a series,
a row of a series, or a header of another type. -/
inductive CsvLine where
  | antp (l : Layer) (length time : Nat) (bytes : List UInt8)
  | head (l : Layer) (time : Nat) (numbers : List Nat)
  | series (l : Layer) (n time : Nat) (values : List Int)
  | notSupport
deriving DecidableEq, Repr

/-- Two bytes as an `int16_t`. -/
def int16 (bs : List UInt8) : Int := (BitVec.ofNat 16 (leNat bs)).toInt

/-- `gyr.dim`. -/
def Compress.gyrDim (cp : Compress) : Nat := field 0 3 cp.union

/-- The time of a header, in 64 bits. -/
def Compress.time64 (cp : Compress) : Nat := cp.time * 1000 + cp.msec

/-! ## the walk -/

/-- `std::vector<int16_t> gyrv(4096)`: the size of the vectors. -/
def vectorSize : Nat := 4096

/-- `gyrv`, `gyrvcnt`, `gyrvtime` and `gyrvstep`, or their like of another layer. -/
structure Series where
  v : Nat → Int
  cnt : Nat
  time : Nat
  step : Nat

/-- What the walk leaves behind. -/
structure CsvState where
  lines : List CsvLine
  series : Layer → Series

def CsvState.init : CsvState := ⟨[], fun _ => ⟨fun _ => 0, 0, 0, 0⟩⟩

/-- `v.at(i) = ((int16_t*)&decbf[src])[0]`. -/
def assignAt (decbf : List UInt8) (v : Nat → Int) (i src : Nat) : Option (Nat → Int) :=
  if decbf.length < src + 2 then none
  else if vectorSize ≤ i then none
  else some (Function.update v i (int16 (slice decbf src 2)))

/-- The loop over the `count` records of `dim` values each at `bp`. -/
def readSeries (decbf : List UInt8) (dim bp count : Nat) (v : Nat → Int) : Option (Nat → Int) :=
  (List.range count).foldlM (fun v n =>
    (List.range dim).foldlM (fun v k =>
      assignAt decbf v (n * dim + k) (bp + n * (2 * dim) + 2 * k)) v) v

/-- What the line of a header shows behind its time. -/
def headNumbers (cp : Compress) (cnt : Nat) : Layer → List Nat
  | .temperature => [cp.tmpCount]
  | _ => [cp.gyrCount, cp.gyrDim, cnt]

/-- The cases of the gyro, accelerometer and temperature series. -/
def csvSeries (decbf : List UInt8) (bp : Nat) (l : Layer) (dim count : Nat) (cp : Compress)
    (s : CsvState) : Option CsvState :=
  (readSeries decbf dim bp count (s.series l).v).map fun v =>
    { lines := s.lines ++ [.head l cp.time64 (headNumbers cp (s.series l).cnt l)]
      series := Function.update s.series l ⟨v, (s.series l).cnt + count, cp.time64, cp.step⟩ }

/-- The cases of the ANTP records. -/
def csvAntp (decbf : List UInt8) (bp : Nat) (l : Layer) (cp : Compress) (s : CsvState) :
    Option CsvState :=
  if decbf.length < bp + antpRecordSize then none
  else some { s with
    lines := s.lines ++ [.antp l cp.antLength cp.time64 (slice decbf bp antpRecordSize)] }

/-- The case of a header with its payload at `bp`. -/
def csvCase (decbf : List UInt8) (bp : Nat) (cp : Compress) (s : CsvState) :
    Layer → Option CsvState
  | .antpSpeed => csvAntp decbf bp .antpSpeed cp s
  | .antpPower => csvAntp decbf bp .antpPower cp s
  | .antpCadence => csvAntp decbf bp .antpCadence cp s
  | .gyro => csvSeries decbf bp .gyro 3 cp.gyrCount cp s
  | .accelerometer => csvSeries decbf bp .accelerometer 3 cp.gyrCount cp s
  | .temperature => csvSeries decbf bp .temperature 1 cp.tmpCount cp s

/-- By how much a case moves `offset`. -/
def csvAdvance (cp : Compress) : Layer → Nat
  | .antpSpeed | .antpPower | .antpCadence => cp.antLength
  | .gyro | .accelerometer => cp.gyrCount * 2 * 3
  | .temperature => cp.tmpCount * 2

/-- The walk over `decbf` from `offset`. -/
def csvLoop (decbf : List UInt8) : (fuel offset : Nat) → CsvState → Option CsvState
  | 0, _, s => some s
  | fuel + 1, offset, s =>
    if decbf.length ≤ offset then some s
    -- the magic, the field word and the union are looked at in turn
    else if decbf.length < offset + 4 then none
    else
      let cp := headerAt decbf offset
      if cp.magic ≠ magic then some s
      else if decbf.length < offset + 12 then none
      else
        let bp := offset + headerSize
        match Layer.ofNat? cp.type with
        | some l =>
          if decbf.length < bp then none
          else (csvCase decbf bp cp s l).bind fun s =>
            csvLoop decbf fuel (offset + csvAdvance cp l + headerSize) s
        | none => csvLoop decbf fuel bp { s with lines := s.lines ++ [.notSupport] }

/-! ## the rows -/

/-- The row of the `dim` values from the `n`-th on. -/
def seriesLine (l : Layer) (dim : Nat) (x : Series) (n : Nat) : CsvLine :=
  .series l n (x.time + x.step * n) ((List.range dim).map fun k => x.v (n + k))

/-- `for (n = 0; n < cnt; n += dim)`. -/
def printSeries (l : Layer) (dim : Nat) (x : Series) : Option (List CsvLine) :=
  (offsets 0 x.cnt dim).mapM fun n =>
    if vectorSize < n + dim then none else some (seriesLine l dim x n)

/-- The export of the page in `decbf`. -/
def csvPage (decbf : List UInt8) : Option (List CsvLine) := do
  let s ← csvLoop decbf decbf.length 0 CsvState.init
  let gyr ← printSeries .gyro 3 (s.series .gyro)
  let acc ← printSeries .accelerometer 3 (s.series .accelerometer)
  let tmp ← printSeries .temperature 1 (s.series .temperature)
  return s.lines ++ gyr ++ acc ++ tmp

/-! ## the series of a page -/

/-- The values at `bp` in front, and what `v` has behind them. -/
def withValues (decbf : List UInt8) (bp : Nat) (v : Nat → Int) (m : Nat) : Nat → Int :=
  fun i => if i < m then int16 (slice decbf (bp + 2 * i) 2) else v i

section vectors

variable {decbf : List UInt8} {dim bp count m : Nat}

theorem assignAt_withValues (hv : m < vectorSize) (hlen : bp + 2 * m + 2 ≤ decbf.length)
    (v : Nat → Int) :
    assignAt decbf (withValues decbf bp v m) m (bp + 2 * m) =
      some (withValues decbf bp v (m + 1)) := by
  have hupdate : Function.update (withValues decbf bp v m) m
      (int16 (slice decbf (bp + 2 * m) 2)) = withValues decbf bp v (m + 1) := by
    funext i
    by_cases hi : i = m
    · subst hi
      simp [withValues]
    · rw [Function.update_of_ne hi, withValues, withValues]
      have hiff : i < m + 1 ↔ i < m := by omega
      simp [hiff]
  rw [assignAt, if_neg (by omega), if_neg (by omega), hupdate]

/-- The values of one record. -/
theorem foldlM_assignAt (k : Nat) (hv : m + k ≤ vectorSize)
    (hlen : bp + 2 * (m + k) ≤ decbf.length) (v : Nat → Int) :
    (List.range k).foldlM (fun v k => assignAt decbf v (m + k) (bp + 2 * m + 2 * k))
        (withValues decbf bp v m) = some (withValues decbf bp v (m + k)) := by
  induction k with
  | zero => rfl
  | succ k ih =>
      have hsrc : bp + 2 * m + 2 * k = bp + 2 * (m + k) := by omega
      have hassign : assignAt decbf (withValues decbf bp v (m + k)) (m + k) (bp + 2 * (m + k)) =
          some (withValues decbf bp v (m + k + 1)) := assignAt_withValues (by omega) (by omega) v
      rw [← hsrc] at hassign
      rw [List.range_succ, List.foldlM_append, ih (by omega) (by omega), ← Nat.add_assoc m k 1]
      simpa using hassign

/-- **The loop over a series** fills the front of its vector. -/
theorem readSeries_eq (hv : count * dim ≤ vectorSize)
    (hlen : bp + 2 * (count * dim) ≤ decbf.length) (v : Nat → Int) :
    readSeries decbf dim bp count v = some (withValues decbf bp v (count * dim)) := by
  induction count with
  | zero =>
      rw [Nat.zero_mul]
      rfl
  | succ count ih =>
      have hmul : (count + 1) * dim = count * dim + dim := Nat.succ_mul count dim
      have hsrc : count * (2 * dim) = 2 * (count * dim) := Nat.mul_left_comm _ _ _
      rw [hmul] at hv hlen ⊢
      have ih := ih (by omega) (by omega)
      have hrecord := foldlM_assignAt dim hv hlen v
      rw [readSeries] at ih ⊢
      rw [List.range_succ, List.foldlM_append, ih]
      simpa [hsrc] using hrecord

/-- Only the bytes of the values are looked at. -/
theorem withValues_slice {payload : List UInt8} (h : slice decbf bp payload.length = payload)
    (hm : 2 * m ≤ payload.length) (v : Nat → Int) :
    withValues decbf bp v m = withValues payload 0 v m := by
  funext i
  rw [withValues, withValues]
  by_cases hi : i < m
  · have hslice := slice_slice decbf (i := bp) (j := 2 * i) (m := 2) (n := payload.length)
      (by omega)
    rw [h] at hslice
    simp [hi, hslice]
  · simp [hi]

end vectors

/-! ## the walk over a page -/

/-- The series after the frame. -/
def Series.read (x : Series) (f : Frame) : Series where
  v := withValues f.payload 0 x.v (f.payload.length / 2)
  cnt := x.cnt + f.payload.length / f.layer.recordSize
  time := f.header.stored.time64
  step := f.header.stored.step

/-- What the walk does at a frame. -/
def csvFrame (s : CsvState) (f : Frame) : CsvState :=
  let cp := f.header.stored
  if f.layer ∈ Layer.antp then
    { s with lines := s.lines ++ [.antp f.layer cp.antLength cp.time64 f.payload] }
  else
    { lines := s.lines ++
        [.head f.layer cp.time64 (headNumbers cp (s.series f.layer).cnt f.layer)]
      series := Function.update s.series f.layer ((s.series f.layer).read f) }

section walk

variable {decbf : List UInt8} {offset : Nat}

/-- The loop over the records of a payload. -/
theorem readSeries_payload (dim count : Nat) {payload : List UInt8} {bp : Nat}
    (hfits : bp + payload.length ≤ decbf.length)
    (hpayload : slice decbf bp payload.length = payload) (hsize : payload.length ≤ 2000)
    (hcount : payload.length = 2 * (count * dim)) (v : Nat → Int) :
    readSeries decbf dim bp count v = some (withValues payload 0 v (payload.length / 2)) := by
  have hdiv : payload.length / 2 = count * dim := by omega
  rw [readSeries_eq (by unfold vectorSize; omega) (by omega),
    withValues_slice hpayload (by omega), hdiv]

/-- The case of a frame. -/
theorem csvCase_showsAt {f : Frame} (h : ShowsAt decbf offset f.layer f.payload)
    (hheader : headerAt decbf offset = f.header.stored) (hsize : f.payload.length ≤ 2000)
    (s : CsvState) :
    csvCase decbf (offset + headerSize) f.header.stored s f.layer = some (csvFrame s f) ∧
      csvAdvance f.header.stored f.layer = f.payload.length := by
  obtain ⟨n, hstride, hn⟩ := h.stride
  have hfits := h.fits
  have hpayload := h.payload
  have htype := h.type
  rw [← headerAt, hheader] at hstride htype
  obtain ⟨l, header, payload⟩ := f
  dsimp only at *
  rw [strideOf, htype, Layer.ofNat?_toNat] at hstride
  cases l
  case antpSpeed | antpPower | antpCadence =>
      simp only [Option.some.injEq, Stride.mk.injEq] at hstride
      obtain ⟨rfl, _, hlength⟩ := hstride
      have hbytes : antpRecordSize = payload.length := by rw [← hn, Nat.one_mul]; rfl
      refine ⟨?_, hlength⟩
      rw [csvCase, csvAntp, if_neg (by omega), hbytes, hpayload]
      rfl
  case gyro | accelerometer =>
      simp only [Option.some.injEq, Stride.mk.injEq] at hstride
      obtain ⟨_, _, hlength⟩ := hstride
      unfold gyroRecordSize at hlength
      have hseries := readSeries_payload 3 header.stored.gyrCount hfits hpayload hsize
        (by omega)
      have hcount : header.stored.gyrCount = payload.length / 6 := by omega
      refine ⟨?_, by rw [csvAdvance]; omega⟩
      rw [csvCase, csvSeries, hseries]
      simp [csvFrame, Layer.antp, Series.read, Layer.recordSize, gyroRecordSize, hcount]
  case temperature =>
      simp only [Option.some.injEq, Stride.mk.injEq] at hstride
      obtain ⟨_, _, hlength⟩ := hstride
      unfold temperatureRecordSize at hlength
      have hseries := readSeries_payload 1 header.stored.tmpCount hfits hpayload hsize
        (by omega)
      have hcount : header.stored.tmpCount = payload.length / 2 := by omega
      refine ⟨?_, by rw [csvAdvance]; omega⟩
      rw [csvCase, csvSeries, hseries]
      simp [csvFrame, Layer.antp, Series.read, Layer.recordSize, temperatureRecordSize, hcount]

/-- **A round of the walk** at a frame. -/
theorem csvLoop_showsAt {f : Frame} (h : ShowsAt decbf offset f.layer f.payload)
    (hheader : headerAt decbf offset = f.header.stored) (hsize : f.payload.length ≤ 2000)
    (fuel : Nat) (s : CsvState) :
    csvLoop decbf (fuel + 1) offset s =
      csvLoop decbf fuel (offset + headerSize + f.payload.length) (csvFrame s f) := by
  have hfits := h.fits
  have hmagic := h.magic
  have htype := h.type
  rw [← headerAt, hheader] at hmagic htype
  obtain ⟨hcase, hadvance⟩ := csvCase_showsAt h hheader hsize s
  have hoffset : offset + f.payload.length + headerSize =
      offset + headerSize + f.payload.length := by omega
  unfold headerSize at hfits
  rw [csvLoop, if_neg (by omega), if_neg (by omega)]
  simp only [hheader, htype, Layer.ofNat?_toNat, hcase, hadvance, hoffset, Option.bind_some]
  rw [if_neg (not_not.2 hmagic), if_neg (by omega), if_neg (by unfold headerSize; omega)]

/-- **The walk over a page that shows a batch.** -/
theorem csvLoop_shows {p : Batch} (h : Shows decbf p) (hfits : p.pageBytes ≤ 2000)
    (s : CsvState) : csvLoop decbf decbf.length 0 s = some (p.frames.foldl csvFrame s) := by
  have hpayload : ∀ f ∈ p.frames, f.payload.length ≤ 2000 := by
    intro f hf
    have himage := p.length_image
    obtain ⟨before, after, hsplit⟩ := List.append_of_mem hf
    rw [Batch.image, hsplit] at himage
    simp at himage
    omega
  obtain ⟨hend, hmagic⟩ := h.not_magic
  obtain ⟨left, hwalk⟩ := walk_shows (csvLoop decbf) csvFrame h hfits
    (fun f hf offset fuel s hshows hheader =>
      csvLoop_showsAt hshows hheader (hpayload f hf) fuel s)
    (show p.image.length < decbf.length by omega) s
  rw [hwalk, csvLoop, if_neg (by omega), if_neg (by omega)]
  exact if_pos hmagic

end walk

/-! ## the rows of a layer -/

/-- What a row shows: its time, and the bytes of an ANTP record or the values of a
series. -/
structure CsvRow where
  time : Nat
  bytes : List UInt8
  values : List Int
deriving DecidableEq, Repr

/-- The row of the layer on a line. -/
def CsvLine.row? (l : Layer) : CsvLine → Option CsvRow
  | .antp k _ time bytes => if k = l then some ⟨time, bytes, []⟩ else none
  | .series k _ time values => if k = l then some ⟨time, [], values⟩ else none
  | .head _ _ _ | .notSupport => none

/-- The rows of the layer. -/
def rowsOf (l : Layer) (lines : List CsvLine) : List CsvRow := lines.filterMap (CsvLine.row? l)

@[simp] theorem rowsOf_append (l : Layer) (xs ys : List CsvLine) :
    rowsOf l (xs ++ ys) = rowsOf l xs ++ rowsOf l ys := List.filterMap_append

section rows

variable (l : Layer) (p : Batch) (s : CsvState) (f : Frame)

/-- The row of an ANTP frame of the layer. -/
def antpRow (f : Frame) : List CsvRow :=
  if f.layer = l ∧ l ∈ Layer.antp then [⟨f.header.stored.time64, f.payload, []⟩] else []

theorem rowsOf_csvFrame : rowsOf l (csvFrame s f).lines = rowsOf l s.lines ++ antpRow l f := by
  rw [csvFrame, antpRow]
  by_cases hlayer : f.layer = l
  · subst hlayer
    by_cases hantp : f.layer ∈ Layer.antp
    · simp [hantp, rowsOf, CsvLine.row?]
    · simp [hantp, rowsOf, CsvLine.row?]
  · by_cases hantp : f.layer ∈ Layer.antp
    · simp [hlayer, hantp, rowsOf, CsvLine.row?]
    · simp [hlayer, hantp, rowsOf, CsvLine.row?]

theorem series_csvFrame (hl : l ∉ Layer.antp) : (csvFrame s f).series l =
    if f.layer = l then (s.series l).read f else s.series l := by
  rw [csvFrame]
  by_cases hlayer : f.layer = l
  · subst hlayer
    simp [hl]
  · by_cases hantp : f.layer ∈ Layer.antp
    · simp [hlayer, hantp]
    · simp [hlayer, hantp, Function.update_of_ne (Ne.symm hlayer)]

/-- **The walk shows** the records of the ANTP layers, and no row of another layer. -/
theorem rowsOf_walk : rowsOf l (p.frames.foldl csvFrame CsvState.init).lines =
    if l ∈ Layer.antp then (p l).map fun r => ⟨stamp r.time.toNat, r.payload, []⟩ else [] := by
  have hfold : rowsOf l (p.frames.foldl csvFrame CsvState.init).lines =
      p.frames.foldl (fun rows f => rows ++ antpRow l f) (rowsOf l CsvState.init.lines) :=
    (List.foldl_hom (fun s => rowsOf l s.lines) fun s f => (rowsOf_csvFrame l s f).symm).symm
  have hframes := p.foldl_frames (l := l) (g := fun rows f => rows ++ antpRow l f)
    (fun f _ hne rows => by simp [antpRow, hne]) (rowsOf l CsvState.init.lines)
  rw [hfold, hframes, List.foldl_append_eq_append]
  by_cases hl : l ∈ Layer.antp
  · have htime : ∀ t : Nat, (antpHeader l t).stored.time64 = stamp t :=
      fun t => stored_time _ t rfl rfl
    have hmap : l.frames (p.lastBefore l) (p l) =
        (p l).map fun r => ⟨l, antpHeader l r.time.toNat, r.payload⟩ := by
      simp only [Layer.antp, List.mem_cons, List.not_mem_nil, or_false] at hl
      rcases hl with rfl | rfl | rfl <;> rfl
    have hrow : ∀ r : Record l, antpRow l ⟨l, antpHeader l r.time.toNat, r.payload⟩ =
        [⟨stamp r.time.toNat, r.payload, []⟩] := by
      intro r
      rw [antpRow, if_pos ⟨rfl, hl⟩, htime]
    rw [hmap, List.map_map, if_pos hl]
    simp only [Function.comp_def, hrow]
    exact List.map_eq_flatMap.symm
  · simp [antpRow, hl, rowsOf, CsvState.init]

/-- **The walk collects** the series of a layer. -/
theorem series_walk (hl : l ∉ Layer.antp) : (p.frames.foldl csvFrame CsvState.init).series l =
    (l.frames (p.lastBefore l) (p l)).foldl Series.read (CsvState.init.series l) := by
  have hfold : (p.frames.foldl csvFrame CsvState.init).series l =
      p.frames.foldl (fun x f => if f.layer = l then x.read f else x) (CsvState.init.series l) :=
    (List.foldl_hom (fun s => s.series l) fun s f => (series_csvFrame l s f hl).symm).symm
  have hframes := p.foldl_frames (l := l)
    (g := fun (x : Series) f => if f.layer = l then x.read f else x)
    (fun f _ hne x => by simp [hne]) (CsvState.init.series l)
  rw [hfold, hframes]
  exact List.foldl_ext _ _ _ fun x f hf => by simp [Layer.layer_of_mem_frames hf]

/-- The frame of a series holds all of its records. -/
theorem Layer.frames_series {l : Layer} (hl : l ∉ Layer.antp) (last : Nat)
    {rs : List (Record l)} (hne : rs ≠ []) :
    ∃ header, l.frames last rs = [⟨l, header, payloadBytes rs⟩] := by
  obtain ⟨r, rest, rfl⟩ := List.exists_cons_of_ne_nil hne
  cases l
  case antpSpeed | antpPower | antpCadence => simp [Layer.antp] at hl
  case gyro | accelerometer | temperature => exact ⟨_, rfl⟩

end rows

/-! ## the rows of a series -/

/-- The values of a record. -/
def Record.values {l : Layer} (r : Record l) : List Int :=
  (List.range (l.recordSize / 2)).map fun k => int16 (slice r.payload (2 * k) 2)

/-- The rows of a series, under the header `cp`. -/
def seriesRows {l : Layer} (cp : Compress) (dim : Nat) (rs : List (Record l)) : List CsvRow :=
  (rs.take ((rs.length + (dim - 1)) / dim)).zipIdx.map fun y =>
    ⟨cp.time64 + cp.step * (y.2 * dim), [], y.1.values⟩

section series

variable {l : Layer} {rs : List (Record l)} {dim : Nat}

theorem mapM_eq_some {f : α → Option β} {g : α → β} {xs : List α}
    (h : ∀ x ∈ xs, f x = some (g x)) : xs.mapM f = some (xs.map g) := by
  induction xs with
  | nil => rfl
  | cons x xs ih =>
      rw [List.mapM_cons, h x List.mem_cons_self, ih fun y hy => h y (List.mem_cons_of_mem x hy)]
      rfl

/-- The values of the `j`-th record stand at `j * dim`. -/
theorem values_at (hdim : l.recordSize = 2 * dim) (v : Nat → Int) {j : Nat} (hj : j < rs.length) :
    ((List.range dim).map fun k =>
      withValues (payloadBytes rs) 0 v ((payloadBytes rs).length / 2) (j * dim + k)) =
      rs[j].values := by
  have hlen := length_payloadBytes rs
  have hhalf : (payloadBytes rs).length / 2 = rs.length * dim := by
    rw [hlen, hdim, Nat.mul_left_comm, Nat.mul_div_cancel_left _ (by decide)]
  have hrecord : slice (payloadBytes rs) (j * l.recordSize) l.recordSize = rs[j].payload :=
    slice_flatMap (fun r _ => r.size) hj
  have hmul : j * l.recordSize = 2 * (j * dim) := by rw [hdim, Nat.mul_left_comm]
  have hlast : (j + 1) * dim ≤ rs.length * dim := Nat.mul_le_mul_right dim hj
  rw [Nat.succ_mul] at hlast
  rw [Record.values, hdim, Nat.mul_div_cancel_left _ (by decide : 0 < 2)]
  refine List.map_congr_left fun k hk => ?_
  have hk := List.mem_range.1 hk
  have hslice := slice_slice (payloadBytes rs) (i := j * l.recordSize) (j := 2 * k) (m := 2)
    (n := l.recordSize) (by omega)
  rw [hrecord, hmul, ← Nat.mul_add] at hslice
  rw [withValues, if_pos (by omega), Nat.zero_add, hslice]

/-- The lines of a series. -/
def seriesLines (l : Layer) (dim : Nat) (x : Series) : List CsvLine :=
  (offsets 0 x.cnt dim).map (seriesLine l dim x)

/-- The rows of a count that fits the vector. -/
theorem printSeries_eq {x : Series} (hpos : 0 < dim) (hle : dim ≤ 3) (hcnt : x.cnt < 2048) :
    printSeries l dim x = some (seriesLines l dim x) := by
  refine mapM_eq_some fun n hn => if_neg ?_
  rw [offsets, Nat.sub_zero] at hn
  obtain ⟨k, hk, rfl⟩ := List.mem_map.1 hn
  have hk := Nat.mul_le_mul_right dim (Nat.le_of_lt (List.mem_range.1 hk))
  have hdiv := Nat.div_mul_le_self (x.cnt + (dim - 1)) dim
  unfold vectorSize
  omega

theorem rowsOf_seriesLines_ne {k : Layer} (h : k ≠ l) (x : Series) :
    rowsOf l (seriesLines k dim x) = [] := by
  simp [rowsOf, seriesLines, seriesLine, CsvLine.row?, List.filterMap_map, Function.comp_def, h]

/-- The loop takes no more rows than records. -/
theorem rows_le (hpos : 0 < dim) (c : Nat) : (c + (dim - 1)) / dim ≤ c := by
  cases c with
  | zero => rw [Nat.div_eq_of_lt (by omega)]
  | succ c =>
      obtain ⟨d, rfl⟩ : ∃ d, dim = d + 1 := ⟨dim - 1, by omega⟩
      have hmul : (d + 1) * (c + 1) = d * c + d + (c + 1) := by
        rw [Nat.succ_mul, Nat.mul_succ]
      exact Nat.div_le_of_le_mul (by rw [hmul]; omega)

/-- **The rows printed for a series**: the first `rs.length / dim` records, rounded
up, each `dim` steps behind the one before it. -/
theorem rowsOf_read (hdim : l.recordSize = 2 * dim) (hpos : 0 < dim) (header : Compress)
    {x : Series} (hx : x = Series.read ⟨fun _ => 0, 0, 0, 0⟩ ⟨l, header, payloadBytes rs⟩) :
    rowsOf l (seriesLines l dim x) = seriesRows header.stored dim rs := by
  have hcnt : x.cnt = rs.length := by
    rw [hx, Series.read]
    dsimp only
    rw [length_payloadBytes, Nat.zero_add, Nat.mul_div_cancel _ (by omega)]
  have hrows := rows_le hpos rs.length
  rw [seriesLines, seriesRows, hcnt, offsets, Nat.sub_zero]
  refine List.ext_getElem ?_ fun j h1 h2 => ?_
  · simp [rowsOf, seriesLine, CsvLine.row?, Function.comp_def, List.filterMap_map, hrows]
  · have hj : j < rs.length := by simp at h2; omega
    have hvalues := values_at hdim (fun _ => 0) hj
    simpa [rowsOf, seriesLine, CsvLine.row?, Function.comp_def, List.filterMap_map, hx,
      Series.read] using hvalues

end series

/-! ## the export of a page -/

/-- The steps of the print loops. -/
def printStep : Layer → Nat
  | .gyro | .accelerometer => 3
  | .antpSpeed | .antpPower | .antpCadence | .temperature => 1

section page

variable {decbf : List UInt8} {p : Batch}

/-- The series of a layer after the walk. -/
theorem series_walk_eq (hl : l ∉ Layer.antp) :
    (p l = [] ∧ (p.frames.foldl csvFrame CsvState.init).series l = ⟨fun _ => 0, 0, 0, 0⟩) ∨
      ∃ header, l.frames (p.lastBefore l) (p l) = [⟨l, header, payloadBytes (p l)⟩] ∧
        (p.frames.foldl csvFrame CsvState.init).series l =
          Series.read ⟨fun _ => 0, 0, 0, 0⟩ ⟨l, header, payloadBytes (p l)⟩ := by
  rw [series_walk l p hl]
  by_cases hne : p l = []
  · refine Or.inl ⟨hne, ?_⟩
    rw [hne]
    cases l <;> rfl
  · obtain ⟨header, hframes⟩ := l.frames_series hl (p.lastBefore l) hne
    refine Or.inr ⟨header, hframes, ?_⟩
    rw [hframes]
    rfl

theorem cnt_walk_lt (hfits : p.pageBytes ≤ 2000) (hl : l ∉ Layer.antp) :
    ((p.frames.foldl csvFrame CsvState.init).series l).cnt < 2048 := by
  have hcount := p.count_lt hfits l
  rcases series_walk_eq (p := p) hl with ⟨_, hseries⟩ | ⟨header, _, hseries⟩
  · rw [hseries]
    decide
  · rw [hseries, Series.read]
    dsimp only
    rw [length_payloadBytes, Nat.zero_add, Nat.mul_div_cancel _ l.recordSize_pos]
    exact hcount

/-- The rows printed for a series after the walk. -/
theorem rowsOf_series_walk (hfits : p.pageBytes ≤ 2000) (hl : l ∉ Layer.antp) :
    rowsOf l (seriesLines l (printStep l)
        ((p.frames.foldl csvFrame CsvState.init).series l)) =
      ((pageHeaders p.image).filter fun cp => cp.type = l.toNat).flatMap fun cp =>
        seriesRows cp (printStep l) (p l) := by
  rw [pageHeaders_layer hfits]
  rcases series_walk_eq (p := p) hl with ⟨hnil, hseries⟩ | ⟨header, hframes, hseries⟩
  · have hno : seriesLines l (printStep l) ⟨fun _ => 0, 0, 0, 0⟩ = [] := by cases l <;> rfl
    rw [hseries, hno, hnil]
    simp [rowsOf, seriesRows]
  · have hdim : l.recordSize = 2 * printStep l := by
      cases l
      case antpSpeed | antpPower | antpCadence => simp [Layer.antp] at hl
      case gyro | accelerometer | temperature => rfl
    rw [rowsOf_read hdim (by cases l <;> decide) header hseries, hframes]
    simp

/-- The lines of a page with the batch. -/
def Batch.csvLines (p : Batch) : List CsvLine :=
  let s := p.frames.foldl csvFrame CsvState.init
  s.lines ++ seriesLines .gyro 3 (s.series .gyro) ++
    seriesLines .accelerometer 3 (s.series .accelerometer) ++
    seriesLines .temperature 1 (s.series .temperature)

/-- **The export of a page that shows a batch** is settled by the batch. -/
theorem csvPage_eq (h : Shows decbf p) (hfits : p.pageBytes ≤ 2000) :
    csvPage decbf = some p.csvLines := by
  rw [Batch.csvLines]
  generalize hs : p.frames.foldl csvFrame CsvState.init = s
  have hprint : ∀ l, l ∉ Layer.antp →
      printSeries l (printStep l) (s.series l) = some (seriesLines l (printStep l) (s.series l)) :=
    fun l hl => printSeries_eq (by cases l <;> decide) (by cases l <;> decide)
      (hs ▸ cnt_walk_lt hfits hl)
  have hgyr := hprint .gyro (by decide)
  have hacc := hprint .accelerometer (by decide)
  have htmp := hprint .temperature (by decide)
  simp only [printStep] at hgyr hacc htmp
  rw [csvPage, csvLoop_shows h hfits, hs]
  simp only [Option.bind_eq_bind, Option.bind_some, hgyr, hacc, htmp]
  rfl

/-- The rows of a layer among these lines. -/
theorem rowsOf_csvLines (hfits : p.pageBytes ≤ 2000) (l : Layer) : rowsOf l p.csvLines =
    if l ∈ Layer.antp then (p l).map fun r => ⟨stamp r.time.toNat, r.payload, []⟩
    else (((pageHeaders p.image).filter fun cp => cp.type = l.toNat).flatMap fun cp =>
      seriesRows cp (printStep l) (p l)) := by
  simp only [Batch.csvLines, rowsOf_append, rowsOf_walk l p]
  by_cases hl : l ∈ Layer.antp
  · have hne : ∀ k, k ∉ Layer.antp → k ≠ l := fun k hk he => hk (he ▸ hl)
    simp [hl, rowsOf_seriesLines_ne (hne .gyro (by decide)),
      rowsOf_seriesLines_ne (hne .accelerometer (by decide)),
      rowsOf_seriesLines_ne (hne .temperature (by decide))]
  · rw [if_neg hl, if_neg hl, List.nil_append, ← rowsOf_series_walk hfits hl]
    cases l
    case antpSpeed | antpPower | antpCadence => simp [Layer.antp] at hl
    case gyro | accelerometer | temperature => simp [rowsOf_seriesLines_ne, printStep]

/-- The rows of a series: its records in order, with their values and the times the
header gives them. -/
def SeriesExported (p : Batch) (l : Layer) (out : List CsvLine) : Prop :=
  p l = [] ∧ rowsOf l out = [] ∨
    ∃ cp, ((pageHeaders p.image).filter fun cp => cp.type = l.toNat) = [cp] ∧
      rowsOf l out = (p l).zipIdx.map fun x => ⟨cp.time64 + cp.step * x.2, [], x.1.values⟩

/-- The export has, for each layer, a row for each record in order, those of the
ANTP layers with their timestamps and payloads. -/
def CsvComplete (decbf : List UInt8) (p : Batch) : Prop :=
  ∃ out, csvPage decbf = some out ∧
    (∀ l ∈ Layer.antp, rowsOf l out = (p l).map fun r => ⟨r.time.toNat, r.payload, []⟩) ∧
    ∀ l ∉ Layer.antp, SeriesExported p l out

/-- The rows are complete exactly if the loop is at its end after the records. -/
theorem seriesRows_eq_iff {rs : List (Record l)} (hl : l ∉ Layer.antp) (cp : Compress) :
    seriesRows cp (printStep l) rs =
        (rs.zipIdx.map fun x => ⟨cp.time64 + cp.step * x.2, [], x.1.values⟩) ↔
      (l ∈ Layer.dim3 → rs.length ≤ 1) := by
  by_cases hdim : l ∈ Layer.dim3
  · have hstep : printStep l = 3 := by
      simp only [Layer.dim3, List.mem_cons, List.not_mem_nil, or_false] at hdim
      rcases hdim with rfl | rfl <;> rfl
    rw [seriesRows, hstep]
    constructor
    · intro heq _
      have hlen := congrArg List.length heq
      simp at hlen
      omega
    · intro hone
      have hone := hone hdim
      cases rs with
      | nil => simp
      | cons r rest =>
          obtain rfl : rest = [] := List.eq_nil_of_length_eq_zero (by simpa using hone)
          simp
  · have hstep : printStep l = 1 := by
      cases l
      case gyro | accelerometer => simp [Layer.dim3] at hdim
      case antpSpeed | antpPower | antpCadence | temperature => rfl
    simp [seriesRows, hstep, hdim]

/-- **A series is exported** exactly if the loop takes each of its records. -/
theorem seriesExported_iff (h : Shows decbf p) (hfits : p.pageBytes ≤ 2000)
    {out : List CsvLine} (hout : csvPage decbf = some out) (hl : l ∉ Layer.antp) :
    SeriesExported p l out ↔ (l ∈ Layer.dim3 → (p l).length ≤ 1) := by
  obtain rfl : out = p.csvLines := Option.some.inj (hout.symm.trans (csvPage_eq h hfits))
  rw [SeriesExported, rowsOf_csvLines hfits l, if_neg hl, pageHeaders_layer hfits]
  by_cases hne : p l = []
  · simp [hne, seriesRows]
  · obtain ⟨header, hframes⟩ := l.frames_series hl (p.lastBefore l) hne
    simp [hframes, hne, seriesRows_eq_iff hl]

theorem stamp_iff (t : Nat) : stamp t = t ↔ t / 1000 < 4294967296 := by
  unfold stamp u32
  omega

/-- **The csv export is complete**, on a page that shows a batch, exactly if the
timestamps of its ANTP records are less than `2 ^ 32` seconds, and it has one gyro
and one accelerometer record at most. -/
theorem csv_complete_iff (h : Shows decbf p) (hfits : p.pageBytes ≤ 2000) :
    CsvComplete decbf p ↔
      (∀ l ∈ Layer.antp, ∀ r ∈ p l, r.time.toNat / 1000 < 4294967296) ∧
        ∀ l ∈ Layer.dim3, (p l).length ≤ 1 := by
  have hout := csvPage_eq h hfits
  have hantp : ∀ l ∈ Layer.antp,
      (rowsOf l p.csvLines = (p l).map fun r => ⟨r.time.toNat, r.payload, []⟩) ↔
        ∀ r ∈ p l, r.time.toNat / 1000 < 4294967296 := by
    intro l hl
    rw [rowsOf_csvLines hfits l, if_pos hl, List.map_inj_left]
    simp [stamp_iff]
  have hseries := fun l (hl : l ∉ Layer.antp) => seriesExported_iff h hfits hout hl
  have hdim3 : ∀ l ∈ Layer.dim3, l ∉ Layer.antp := by decide
  constructor
  · rintro ⟨out', hout', hrows', hseries'⟩
    obtain rfl : p.csvLines = out' := Option.some.inj (hout.symm.trans hout')
    exact ⟨fun l hl => (hantp l hl).1 (hrows' l hl),
      fun l hl => (hseries l (hdim3 l hl)).1 (hseries' l (hdim3 l hl)) hl⟩
  · rintro ⟨hseconds, hone⟩
    exact ⟨p.csvLines, hout, fun l hl => (hantp l hl).2 (hseconds l hl),
      fun l hl => (hseries l hl).2 (hone l)⟩

end page

/-- The read buffer after a page of gyro records was read. -/
def gyroBuffer (n : Nat) : List UInt8 :=
  (Page.image (Batch.copies .gyro gyroSample n).image 0xFF).bytes ++ List.replicate 2048 0

theorem shows_gyroBuffer {n : Nat} (h : (Batch.copies .gyro gyroSample n).pageBytes ≤ 2000) :
    Shows (gyroBuffer n) (Batch.copies .gyro gyroSample n) :=
  (shows_image h 0xFF).append _

/-- A page of one gyro record. -/
theorem csv_complete_gyro : CsvComplete (gyroBuffer 1) (Batch.copies .gyro gyroSample 1) := by
  have hfits : (Batch.copies .gyro gyroSample 1).pageBytes ≤ 2000 := by
    rw [Batch.pageBytes_copies]; decide
  exact (csv_complete_iff (shows_gyroBuffer hfits) hfits).2 ⟨by decide, by decide⟩

/-- The second of two gyro records has no row. -/
theorem csv_incomplete_gyro : ¬ CsvComplete (gyroBuffer 2) (Batch.copies .gyro gyroSample 2) := by
  have hfits : (Batch.copies .gyro gyroSample 2).pageBytes ≤ 2000 := by
    rw [Batch.pageBytes_copies]; decide
  rintro ⟨out, hout, _, hseries⟩
  have hone := (seriesExported_iff (shows_gyroBuffer hfits) hfits hout (l := .gyro)
    (by decide)).1 (hseries .gyro (by decide))
  exact absurd (hone (by decide)) (by decide)

end Mxfs
