import Mxfs.Compress
import Mxfs.Driver

/-!
# Mxfs.Flush

`mxfs_flush` (`mxfs_flush.cc`): the buffered records of all six layers are
encoded into the work buffer, which empties the layers, and the work buffer
is then programmed at the cursor, after an erase when the current block is
marked.

The encoding loops share the variables `tmm`, `start_tmm`, `last_tmm`,
`page_flags` and `work_len`, collected in `FlushState`; `prepare` is everything up to
the first driver call and `commit` everything from it on.
-/

namespace Mxfs

open Lib

/-! ## the record totals -/

/-- The three sums at the top of `mxfs_flush`. -/
structure FlushTotals where
  currentLength : Nat
  gyroCount : Nat
  antpCount : Nat
deriving DecidableEq, Repr

/-- One round of the summing loop; each `+=` truncates to 16 bits. -/
def FlushTotals.add (inst : Inst) (t : FlushTotals) (n : Layer) : FlushTotals :=
  match n with
  | .antpSpeed | .antpPower | .antpCadence =>
    { t with
      currentLength := u16 (t.currentLength + antpRecordSize * inst.mxfsCount n)
      antpCount := u16 (t.antpCount + inst.mxfsCount n) }
  | .gyro | .accelerometer =>
    { t with
      currentLength := u16 (t.currentLength + inst.mxfsCount n * layerDimMax * 2)
      gyroCount := u16 (t.gyroCount + inst.mxfsCount n) }
  | .temperature =>
    { t with
      currentLength := u16 (t.currentLength + inst.mxfsCount n * 2)
      gyroCount := u16 (t.gyroCount + inst.mxfsCount n) }

def flushTotals (inst : Inst) : FlushTotals :=
  Layer.all.foldl (FlushTotals.add inst) ⟨0, 0, 0⟩

/-! ## the encoding loops -/

/-- The local variables of the encoding loops.  `work` holds what was copied
to the work buffer, the bytes before `work_len`. -/
structure FlushState where
  tmm : Nat
  startTmm : Nat
  lastTmm : Nat
  pageFlags : UInt32
  work : List UInt8
  workLen : Nat
deriving DecidableEq, Repr

namespace FlushState

/-- The declarations at the top of `mxfs_flush`.  `tmm` is uninitialised there
and always assigned before it is used. -/
def init : FlushState := ⟨0, 0, 0, 0, [], 0⟩

/-- `memcpy(work_buffer + work_len, ..)` followed by `work_len += ..`. -/
def put (s : FlushState) (bs : List UInt8) : FlushState :=
  { s with
    work := patch s.work s.workLen bs
    workLen := u16 (s.workLen + bs.length) }

/-- `page_flags |= page_flags_array[layer]`. -/
def flag (s : FlushState) (layer : Layer) : FlushState :=
  { s with pageFlags := s.pageFlags ||| layer.pageFlag }

end FlushState

/-- The timestamp of the record buffered at offset `n`. -/
def tmmAt (inst : Inst) (layer : Layer) (n : Nat) : Nat :=
  leNat (slice (inst.mxfsBuffer layer) n timeSize)

/-- The payload of the record buffered at offset `n`. -/
def payloadAt (inst : Inst) (layer : Layer) (n : Nat) : List UInt8 :=
  slice (inst.mxfsBuffer layer) (n + timeSize) layer.recordSize

/-- The distance from one buffered record to the next. -/
def Layer.stride (layer : Layer) : Nat := layer.recordSize + timeSize

/-- The header of one ANTP record. -/
def antpHeader (layer : Layer) (tmm : Nat) : Compress where
  magic := magic
  time := u32 (tmm / 1000)
  comp := 0
  type := layer.toNat
  step := 0
  msec := u32 (tmm % 1000) % 1024
  union := Compress.antUnion antpRecordSize

/-- `cp.step`: the average distance of the records, saturated. -/
def stepField (tmm lastTmm count : Nat) : Nat :=
  if u32 (u64 (lastTmm + (18446744073709551616 - tmm)) / count) > 0xFFFF then 0xFFFF
  else u32 (u64 (lastTmm + (18446744073709551616 - tmm)) / count) % 65536

/-- The header of a gyro or accelerometer series. -/
def dim3Header (layer : Layer) (tmm lastTmm count : Nat) : Compress where
  magic := magic
  time := u32 (tmm / 1000)
  comp := 1
  type := layer.toNat
  step := stepField tmm lastTmm count
  msec := u32 (tmm % 1000) % 1024
  union := Compress.gyrUnion 3 count 0

/-- The header of the temperature series. -/
def temperatureHeader (tmm lastTmm count : Nat) : Compress where
  magic := magic
  time := u32 (tmm / 1000)
  comp := 1
  type := Layer.temperature.toNat
  step := stepField tmm lastTmm count
  msec := u32 (tmm % 1000) % 1024
  union := Compress.tmpUnion 0 count

/-- One ANTP record: its own header, then the payload. -/
def antpPut (layer : Layer) (s : FlushState) (tmm : Nat) (payload : List UInt8) : FlushState :=
  let s := s.flag layer
  let s := { s with
    tmm := tmm
    startTmm := if s.startTmm = 0 then tmm else s.startTmm
    lastTmm := tmm }
  (s.put (antpHeader layer tmm).bytes).put payload

/-- Speed, power and cadence: one round of the layer loop. -/
def encodeAntp (x : Inst × FlushState) (layer : Layer) : Inst × FlushState :=
  let (inst, s) := x
  let s := (offsets 0 (inst.mxfsLength layer) layer.stride).foldl
    (fun s n => antpPut layer s (tmmAt inst layer n) (payloadAt inst layer n)) s
  (inst.reset layer, s)

/-- Gyro and accelerometer: one header for the series, then its payloads. -/
def encodeDim3 (x : Inst × FlushState) (layer : Layer) : Inst × FlushState :=
  let (inst, s) := x
  if inst.mxfsLength layer > 0 then
    let step := layer.stride
    let s := s.flag layer
    let s := { s with tmm := tmmAt inst layer 0 }
    let s := (offsets 0 (inst.mxfsLength layer) step).foldl
      (fun s n => { s with lastTmm := tmmAt inst layer n }) s
    let s := s.put (dim3Header layer s.tmm s.lastTmm (inst.mxfsLength layer / step)).bytes
    let s := (offsets 0 (inst.mxfsLength layer) step).foldl
      (fun s n => s.put (payloadAt inst layer n)) s
    (inst.reset layer, s)
  else (inst, s)

/-- Temperature: as `encodeDim3`, but the loop that looks for the last
timestamp starts at the second record. -/
def encodeTemperature (x : Inst × FlushState) : Inst × FlushState :=
  let (inst, s) := x
  if inst.mxfsLength .temperature > 0 then
    let step := Layer.temperature.stride
    let s := s.flag .temperature
    let s := { s with tmm := tmmAt inst .temperature 0 }
    let s := (offsets step (inst.mxfsLength .temperature) step).foldl
      (fun s n => { s with lastTmm := tmmAt inst .temperature n }) s
    let s := s.put
      (temperatureHeader s.tmm s.lastTmm (inst.mxfsLength .temperature / step)).bytes
    let s := (offsets 0 (inst.mxfsLength .temperature) step).foldl
      (fun s n => s.put (payloadAt inst .temperature n)) s
    (inst.reset .temperature, s)
  else (inst, s)

/-- Everything between the emptiness test and the first driver call. -/
def prepare (inst : Inst) : Inst × FlushState :=
  let x := Layer.antp.foldl encodeAntp (inst, FlushState.init)
  let x := Layer.dim3.foldl encodeDim3 x
  encodeTemperature x

/-! ## the driver calls -/

/-- `blocks[pblock].pages[ppage]` after a program: times and flags under
`__LINUX__`, the flag byte otherwise. -/
def notePage (B : Build) (inst : Inst) (s : FlushState) : Inst :=
  let status : PageStatus :=
    if B.linux then ⟨s.pageFlags, s.startTmm, s.lastTmm⟩ else ⟨s.pageFlags &&& 0xFF, 0, 0⟩
  inst.setBlock inst.mxfsCurrentBlock fun b =>
    { b with pages := Function.update b.pages inst.mxfsCurrentPage status }

/-- The page cursor after a program; entering a block marks it for erase. -/
def advance (inst : Inst) : Inst :=
  let page := u16 (inst.mxfsCurrentPage + 1)
  if pageCount ≤ page then
    let block := u16 (inst.mxfsCurrentBlock + 1)
    let block := if blockCount ≤ block then blockStartDataArea else block
    { inst with mxfsCurrentPage := 0, mxfsCurrentBlock := block }.setBlock block BlockStatus.mark
  else { inst with mxfsCurrentPage := page }

/-- `mxfs_driver_write` and the bookkeeping of its success. -/
def program (B : Build) (D : Driver σ) (inst : Inst) (s : FlushState) (dev : σ) :
    Int × Inst × σ :=
  let (ret, dev) := D.write dev inst.mxfsCurrentBlock inst.mxfsCurrentPage (s.work.take s.workLen)
  if ret = OK then (ret, advance (notePage B inst s), dev) else (ret, inst, dev)

/-- The erase of a marked block, then the program. -/
def commit (B : Build) (D : Driver σ) (inst : Inst) (s : FlushState) (dev : σ) :
    Int × Inst × σ :=
  if inst.blockFlagged inst.mxfsCurrentBlock then
    let inst := inst.setBlock inst.mxfsCurrentBlock BlockStatus.unmark
    let (ret, dev) := D.erase dev inst.mxfsCurrentBlock
    if ret ≠ OK then (ERR, inst, dev) else program B D inst s dev
  else program B D inst s dev

/-- `mxfs_flush`. -/
def mxfsFlush (B : Build) (D : Driver σ) (inst : Inst) (dev : σ) : Int × Inst × σ :=
  if (flushTotals inst).currentLength = 0 then (OK, inst, dev)
  else
    let (inst, s) := prepare inst
    commit B D inst s dev

/-! ### the three ways of a commit -/

section commit

variable (B : Build) (D : Driver σ) {inst : Inst} (s : FlushState) {dev : σ}

theorem commit_of_not_flagged (h : inst.blockFlagged inst.mxfsCurrentBlock = false) :
    commit B D inst s dev = program B D inst s dev := by
  rw [commit, if_neg (by rw [h]; decide)]

theorem commit_of_erased (h : inst.blockFlagged inst.mxfsCurrentBlock = true)
    (hret : (D.erase dev inst.mxfsCurrentBlock).1 = OK) :
    commit B D inst s dev =
      program B D (inst.setBlock inst.mxfsCurrentBlock BlockStatus.unmark) s
        (D.erase dev inst.mxfsCurrentBlock).2 := by
  rw [commit, if_pos h]; exact if_neg (not_not.2 hret)

theorem commit_of_not_erased (h : inst.blockFlagged inst.mxfsCurrentBlock = true)
    (hret : (D.erase dev inst.mxfsCurrentBlock).1 ≠ OK) :
    commit B D inst s dev =
      (ERR, inst.setBlock inst.mxfsCurrentBlock BlockStatus.unmark,
        (D.erase dev inst.mxfsCurrentBlock).2) := by
  rw [commit, if_pos h]; exact if_pos hret

end commit

end Mxfs
