import Mxfs.Read

/-!
# Mxfs.Timerange

The page searches (`mxfs_timerange.cc`).

* `mxfsTimerange` — over the whole data area.  `__LINUX__` looks at the page
  table only, the other builds also read the first header of every page.
* `mxfsTimerangeByBlock` — over one block, walking the headers of each page.

Both fill in the caller's array from its start and give up when it is full.
A search that does not return is `none`: it aborts, or it accesses an array, in
particular the page buffer, outside its bounds, which is undefined behaviour.
-/

namespace Mxfs

open Lib

/-- `mxfs_timerange_t`. -/
structure TimeRange where
  startTime : Nat
  lastTime : Nat
  block : Nat
  page : Nat
  recordCount : Nat
deriving DecidableEq, Repr

/-- Writing the entry behind those filled in. -/
theorem modify_length_append (filled rest : List TimeRange) (t : TimeRange)
    (f : TimeRange → TimeRange) :
    (filled ++ t :: rest).modify filled.length f = (filled ++ [f t]) ++ rest := by
  rw [List.modify_eq_take_cons_drop (by simp)]
  simp

/-! ## the search over the data area -/

/-- The pages of the data area, in scan order. -/
def dataPages : List (Nat × Nat) :=
  dataBlocks.flatMap fun block => (List.range pageCount).map fun page => (block, page)

/-- `flags[layer]`, if the table has it. -/
def layerFlag (layer : UInt8) : Option UInt32 := (Layer.ofNat? layer.toNat).map Layer.pageFlag

/-- The tests one page has to pass. -/
def pageListed (B : Build) (D : Driver σ) (inst : Inst) (layer : UInt8) (dev : σ)
    (block page : Nat) : Option Bool × σ :=
  let flags := ((inst.blocks block).pages page).flags
  if B.linux then ((layerFlag layer).map fun flag => flags &&& (pageValid ||| flag) != 0, dev)
  else
    -- first check if the page has valid data by reading its magic
    let (ret, rbf, dev) := D.read dev block page headerSize
    if ret ≠ OK then (some false, dev)
    else if (Compress.ofBytes rbf).magic ≠ magic then (some false, dev)
    else ((layerFlag layer).map fun flag => flags &&& flag != 0, dev)

/-- What is filled in for a page.  `last_time` is the start time here. -/
def TimeRange.ofPage (B : Build) (inst : Inst) (block page : Nat) (t : TimeRange) : TimeRange :=
  let status := (inst.blocks block).pages page
  { t with
    block := block
    page := page
    startTime := if B.linux then status.startTime else 0
    lastTime := if B.linux then status.startTime else 0 }

/-- The search over the pages still to look at, `cnt` being filled in already. -/
def searchLoop (B : Build) (D : Driver σ) (inst : Inst) (layer : UInt8) (timerangecount : Nat) :
    List (Nat × Nat) → (cnt : Nat) → List TimeRange → σ → Option (Int × List TimeRange) × σ
  | [], cnt, timerange, dev => (some (cnt, timerange), dev)
  | (block, page) :: rest, cnt, timerange, dev =>
    let (listed, dev) := pageListed B D inst layer dev block page
    match listed with
    | none => (none, dev)
    | some false => searchLoop B D inst layer timerangecount rest cnt timerange dev
    | some true =>
      if cnt < timerangecount then
        searchLoop B D inst layer timerangecount rest (cnt + 1)
          (timerange.modify cnt (TimeRange.ofPage B inst block page)) dev
      else (some (NEED_MORE_BUFFER, timerange), dev)

/-- `mxfs_timerange`, with the caller's array before and after. -/
def mxfsTimerange (B : Build) (D : Driver σ) (inst : Inst) (dev : σ) (layer : UInt8)
    (timerange : List TimeRange) (timerangecount : UInt16) :
    Option (Int × List TimeRange) × σ :=
  if timerangecount = 0 then (some (ERR, timerange), dev)
  else searchLoop B D inst layer timerangecount.toNat dataPages 0 timerange dev

/-! ## the search over a block -/

/-- The size of the buffer a page is read into: page and spare area. -/
def pageBufferSize : Nat := 2112

/-- The variables the walk over a page sets. -/
structure PageTimes where
  startTime : Nat
  lastTime : Nat
  recordCount : Nat
deriving DecidableEq, Repr

namespace PageTimes

def init : PageTimes := ⟨0, 0, 0⟩

/-- `count` records, from `start` to `last`. -/
def note (t : PageTimes) (start last count : Nat) : PageTimes where
  startTime := if t.startTime = 0 then start else t.startTime
  lastTime := last
  recordCount := u16 (t.recordCount + count)

/-- The case of a header.  The time of an ANTP header is computed in 64 bits,
that of a series in 32. -/
def add (t : PageTimes) (layer : UInt8) (cp : Compress) : PageTimes :=
  if cp.type = layer.toNat then
    match Layer.ofNat? cp.type with
    | some .antpSpeed | some .antpPower | some .antpCadence =>
      t.note (cp.time * 1000 + cp.msec) (cp.time * 1000 + cp.msec) 1
    | some .gyro | some .accelerometer =>
      t.note (u32 (cp.time * 1000 + cp.msec))
        (u32 (cp.time * 1000 + cp.msec) + cp.gyrCount * cp.step) cp.gyrCount
    | some .temperature =>
      t.note (u32 (cp.time * 1000 + cp.msec))
        (u32 (cp.time * 1000 + cp.msec) + cp.tmpCount * cp.step) cp.tmpCount
    | none => t
  else t

end PageTimes

/-- The walk over the headers in `rbf` from `offset`.  Every round moves
`offset` by a header at least.  A type without a case is stepped over. -/
def timesLoop (rbf : List UInt8) (layer : UInt8) : (fuel offset : Nat) → PageTimes →
    Option PageTimes
  | 0, _, t => some t
  | fuel + 1, offset, t =>
    if rbf.length ≤ offset then some t
    -- the magic, the field word and the union are looked at in turn
    else if rbf.length < offset + 4 then none
    else
      let cp := Compress.ofBytes (slice rbf offset headerSize)
      if cp.magic ≠ magic then some t
      else if rbf.length < offset + 12 then none
      else
        match strideOf cp with
        | some st =>
          if rbf.length < offset + headerSize then none
          else timesLoop rbf layer fuel (offset + headerSize + st.advance) (t.add layer cp)
        | none => timesLoop rbf layer fuel (offset + headerSize) t

/-- One page of the block: its times, `some none` when it cannot be read and the
`PANIC` there does not abort. -/
def pageTimes (B : Build) (D : Driver σ) (inst : Inst) (layer : UInt8) (dev : σ)
    (block page : Nat) : Option (Option PageTimes) × σ :=
  if inst.blockFlagged block then
    let (ret, data, dev) := D.read dev block page pageBufferSize
    if ret ≠ OK then (if B.driverInfo then none else some none, dev)
    else
      let rbf := patch (List.replicate pageBufferSize 0) 0 (data.take pageBufferSize)
      ((timesLoop rbf layer pageBufferSize 0 PageTimes.init).map some, dev)
  else (some (some PageTimes.init), dev)

/-- What is filled in for a page with records. -/
def TimeRange.ofTimes (block page : Nat) (t : PageTimes) (_ : TimeRange) : TimeRange :=
  ⟨t.startTime, t.lastTime, block, page, t.recordCount⟩

/-- The search over the pages of the block still to look at. -/
def blockLoop (B : Build) (D : Driver σ) (inst : Inst) (layer : UInt8)
    (block timerangecount : Nat) :
    List Nat → (cnt : Nat) → List TimeRange → σ → Option (Int × List TimeRange) × σ
  | [], cnt, timerange, dev => (some (cnt, timerange), dev)
  | page :: rest, cnt, timerange, dev =>
    let (times, dev) := pageTimes B D inst layer dev block page
    match times with
    | none => (none, dev)
    | some none => (some (ERR, timerange), dev)
    | some (some t) =>
      if t.recordCount > 0 then
        if cnt < timerangecount then
          blockLoop B D inst layer block timerangecount rest (cnt + 1)
            (timerange.modify cnt (TimeRange.ofTimes block page t)) dev
        else (some (NEED_MORE_BUFFER, timerange), dev)
      else blockLoop B D inst layer block timerangecount rest cnt timerange dev

/-- `PANIC("not implemented.")` aborts the search over a block. -/
def Build.ByBlockPanics (B : Build) : Prop := B.linux = true ∧ B.driverInfo = true

instance (B : Build) : Decidable B.ByBlockPanics := inferInstanceAs (Decidable (_ ∧ _))

/-- `mxfs_timerange_by_block`. -/
def mxfsTimerangeByBlock (B : Build) (D : Driver σ) (inst : Inst) (dev : σ) (layer : UInt8)
    (block : Nat) (timerange : List TimeRange) (timerangecount : UInt16) :
    Option (Int × List TimeRange) × σ :=
  if timerangecount = 0 then (some (ERR, timerange), dev)
  else if block < blockStartDataArea then (some (ERR, timerange), dev)
  else if B.ByBlockPanics then (none, dev)
  else if blockCount ≤ block then (none, dev)
  else blockLoop B D inst layer block timerangecount.toNat (List.range pageCount) 0 timerange dev

/-- Outside `__LINUX__` the search over a block is implemented. -/
theorem Build.not_byBlockPanics {B : Build} (h : B.linux = false) : ¬ B.ByBlockPanics := by
  rintro ⟨hlinux, -⟩
  rw [h] at hlinux
  cases hlinux

/-- A build that panics reports no page. -/
theorem mxfsTimerangeByBlock_panics {B : Build} (h : B.ByBlockPanics) (D : Driver σ) (inst : Inst)
    (dev : σ) (layer : UInt8) {block : Nat} (hblock : blockStartDataArea ≤ block)
    (timerange : List TimeRange) {timerangecount : UInt16} (hcount : timerangecount ≠ 0) :
    mxfsTimerangeByBlock B D inst dev layer block timerange timerangecount = (none, dev) := by
  rw [mxfsTimerangeByBlock, if_neg hcount, if_neg (Nat.not_lt.2 hblock), if_pos h]

end Mxfs
