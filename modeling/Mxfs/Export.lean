import Mathlib.Data.List.Rotate
import Mxfs.Csv
import Mxfs.PowerOn

/-!
# Mxfs.Export

What the formatter's csv command prints of a part that a child has logged to.

`export_from_power_on` follows a record from the child's append through the part to
the parent's row: both programs start the part anew, and the rows of the export are
those of the log, but for what is still buffered and what the ring has reclaimed.
-/

namespace Mxfs

open Lib Instruction Formatter

/-! ## the rows of a log -/

/-- The rows of a layer that the export of a page with the batch shows. -/
def exportRows (l : Layer) (p : Batch) : List CsvRow :=
  if l ∈ Layer.antp then (p l).map fun r => ⟨stamp r.time.toNat, r.payload, []⟩
  else ((pageHeaders p.image).filter fun cp => cp.type = l.toNat).flatMap fun cp =>
    seriesRows cp (printStep l) (p l)

theorem exportRows_empty (l : Layer) : exportRows l Batch.empty = [] := by
  simp [exportRows, seriesRows]

/-- The rows of an ANTP layer show the payloads. -/
theorem exportRows_bytes (hl : l ∈ Layer.antp) (p : Batch) :
    (exportRows l p).map CsvRow.bytes = p.payloads l := by
  rw [exportRows, if_pos hl, List.map_map]
  rfl

theorem rotate_range (N n : Nat) :
    (List.range N).rotate n = (List.range N).map fun j => (n + j) % N := by
  refine List.ext_getElem (by simp) fun j h1 h2 => ?_
  simp [List.getElem_rotate, Nat.add_comm]

/-- All data pages, from that of the `n`-th batch on. -/
theorem rotate_dataPages (n : Nat) :
    dataPages.rotate n = (List.range (1023 * 64)).map fun j => ringAddr (n + j) := by
  rw [dataPages_eq, ← List.map_rotate, rotate_range, List.map_map]
  refine List.map_congr_left fun j _ => ?_
  show ringAddr ((n + j) % (1023 * 64)) = ringAddr (n + j)
  rw [ringAddr_eq, ringAddr_eq]
  refine Prod.ext ?_ ?_
  · dsimp only
    omega
  · dsimp only
    omega

section session

variable {B : Build} {ops : List Op} (hops : ∀ op ∈ ops, op.IsLog)
include hops

/-- The export of a data page. -/
theorem csvPage_session (M : Medium) {f : Flash} (hf : ∀ b, IsData b → f.Blank b)
    {x : Nat × Nat} (hx : x ∈ dataPages) {c : Chip}
    (hc : c.flash x.1 x.2 = (pageSession B M f ops).dev.dev x.1 x.2) :
    csvPage (c.array x.1 x.2).decbf =
      some (flashBatch (LogState.init.run B ops).batches x.1 x.2).csvLines := by
  obtain ⟨hb, hp⟩ := mem_dataPages.1 hx
  have hshows := shows_flashBatch B hops M hf hb hp
  rw [← hc] at hshows
  have hsplit : (c.array x.1 x.2).decbf = (c.flash x.1 x.2).bytes ++
      ((c.array x.1 x.2).bytes.drop pageSize ++
        List.replicate (decbfSize - chipPageSize) 0xFF) := by
    rw [← List.append_assoc, ChipPage.decbf]
    exact congrArg (· ++ _) (List.take_append_drop pageSize _).symm
  rw [hsplit]
  exact csvPage_eq (hshows.append _) (flashBatch_fits B hops x.1 x.2)

/-- The rows of a page of the session are those of the batch on it. -/
theorem rowsOf_session {x : Nat × Nat} (hx : x ∈ dataPages) (l : Layer) :
    rowsOf l (flashBatch (LogState.init.run B ops).batches x.1 x.2).csvLines =
      (heldBatch (LogState.init.run B ops).batches x.1 x.2).elim [] (exportRows l) := by
  have hzero : ¬ x.1 = 0 := by
    have := (isData_iff.1 (mem_dataPages.1 hx).1).1
    omega
  have hrows : rowsOf l (flashBatch (LogState.init.run B ops).batches x.1 x.2).csvLines =
      exportRows l (flashBatch (LogState.init.run B ops).batches x.1 x.2) :=
    rowsOf_csvLines (flashBatch_fits B hops x.1 x.2) l
  rw [hrows, flashBatch, if_neg hzero]
  cases heldBatch (LogState.init.run B ops).batches x.1 x.2 with
  | none => exact exportRows_empty l
  | some q => rfl

end session

/-! ## from the child to the parent -/

/-- The command's loops over the data area. -/
theorem pagesFrom_data : pagesFrom (blocksFrom 1 1024) 0 64 = dataPages := by
  rw [pagesFrom, blocksFrom, dataPages, dataBlocks_eq, List.range_eq_range']
  rfl

theorem rowsOf_flatMap {α : Type} (l : Layer) (xs : List α) (g : α → List CsvLine) :
    rowsOf l (xs.flatMap g) = xs.flatMap fun x => rowsOf l (g x) := by
  rw [rowsOf, List.filterMap_flatMap]
  rfl

section power

variable (B : Build) {R : StartParams} (hid : R.id.take 3 = w25n01gvId) (c : Chip)
variable {ops : List Op}
include hid

/-- The command over the data area, on a part at rest. -/
theorem csvData_ends (hrest : c.busy = 0) {lines : Nat × Nat → List CsvLine}
    (hlines : ∀ x ∈ dataPages, csvPage (c.array x.1 x.2).decbf = some (lines x)) :
    ∃ c', Ends (fun fuel => formatterMain (startPart R) Chip.rested fuel (.csv 1 1024 0 64) c)
        (.fin, .csv (dataPages.map fun x => ⟨(c.array x.1 x.2).decbf, lines x⟩), c') ∧
      c'.array = c.array := by
  obtain ⟨c₁, hopen, harray, hmain⟩ := formatterMain_ends hid hrest (.csv 1 1024 0 64)
  have hmod : ∀ x ∈ dataPages,
      c₁.array (x.1 % blockCount) (x.2 % pageCount) = c.array x.1 x.2 := by
    intro x hx
    obtain ⟨hb, hp⟩ := mem_dataPages.1 hx
    rw [harray, Nat.mod_eq_of_lt hb.2, Nat.mod_eq_of_lt hp]
  have hpages : ∀ x ∈ dataPages,
      csvPage (c₁.array (x.1 % blockCount) (x.2 % pageCount)).decbf = some (lines x) := fun x hx =>
    (congrArg (fun y : ChipPage => csvPage y.decbf) (hmod x hx)).trans (hlines x hx)
  obtain ⟨r', hcsv, -, harray'⟩ := csvPages_ends R.part dataPages
    (r := ⟨deviceReset, startCmd, c₁⟩) hopen hpages
  have hshown : (dataPages.map fun x => CsvOut.mk
      (c₁.array (x.1 % blockCount) (x.2 % pageCount)).decbf (lines x)) =
      dataPages.map fun x => ⟨(c.array x.1 x.2).decbf, lines x⟩ :=
    List.map_congr_left fun x hx => by rw [hmod x hx]
  rw [hshown] at hcsv
  refine ⟨r'.dev, hmain (.fin, .csv _, r') ?_, harray'.trans harray⟩
  refine (hcsv.map fun x => (Exit.fin, Shown.csv x.1, x.2)).congr fun fuel => ?_
  have hcommand : Formatter.csv (loops (w25n01gv R.part) fuel) 1 1024 0 64 =
      csvPages (loops (w25n01gv R.part) fuel) dataPages := by
    funext r
    rw [Formatter.csv, pagesFrom_data]
  exact congrArg (Option.map _) (congrFun hcommand _)

variable (hf : ∀ b, IsData b → c.flash.Blank b) (hops : ∀ op ∈ ops, op.IsLog)
include hf hops

/-- **What the parent exports is the child's log.**  After any appends and flushes of a
child that started on a part with an erased data area, whatever state it was in, the
parent's csv command ends, and its rows are those of the kept batches, in order from
the cursor on: with what is still buffered, the ANTP rows show all records taken in,
but those that the ring has reclaimed. -/
theorem export_from_power_on :
    ∃ s, rp2040CreateSpi (startPart R) c = some (.fin, s) ∧
      let D := rp2040Driver (startPart R)
      let w := session B D s ops
      let bs := (LogState.init.run B ops).batches
      ∃ outs c', Ends (fun fuel => formatterMain (startPart R) Chip.rested fuel
          (.csv 1 1024 0 64) w.dev) (.fin, .csv outs, c') ∧
        c'.flash = w.dev.flash ∧
        ∀ l, rowsOf l ((outs.rotate bs.length).flatMap CsvOut.lines) =
            (bs.drop (oldestKept bs)).flatMap (exportRows l) ∧
          (l ∈ Layer.antp →
            (rowsOf l ((outs.rotate bs.length).flatMap CsvOut.lines)).map CsvRow.bytes ++
                buffered w.inst l =
              (acceptedBy B D (World.mounted B D s) ops l).drop
                (reclaimedRecords bs l).length) := by
  obtain ⟨s, hstart, hs⟩ := rp2040CreateSpi_rests hid c
  refine ⟨s, hstart, ?_⟩
  rw [rp2040Driver_start]
  intro D w bs
  -- the session, over the page array
  obtain ⟨hw, haccepted⟩ := session_on_rp2040 B (rp2040_rests R.part) hs
    fun op hop => (hops op hop).onPart
  have hflash : w.dev.flash = (pageSession B (nandMedium 0) c.flash ops).dev.dev := hw.dev.flash
  -- the export of each page
  have hpage := fun x hx => csvPage_session (B := B) hops (nandMedium 0) hf (x := x) hx (c := w.dev)
    (congrFun (congrFun hflash x.1) x.2)
  let lines : Nat × Nat → List CsvLine := fun x => (flashBatch bs x.1 x.2).csvLines
  obtain ⟨c', hends, harray⟩ := csvData_ends hid w.dev hw.dev.busy hpage
  refine ⟨_, c', hends, flash_of_array harray, ?_⟩
  have hrows : ∀ l, rowsOf l (((dataPages.map fun x => CsvOut.mk (w.dev.array x.1 x.2).decbf
      (lines x)).rotate bs.length).flatMap CsvOut.lines) =
      (bs.drop (oldestKept bs)).flatMap (exportRows l) := by
    intro l
    rw [← around_held, ← rotate_dataPages, ← List.map_rotate, List.flatMap_map, rowsOf_flatMap]
    refine List.flatMap_congr fun x hx => ?_
    exact rowsOf_session hops (List.mem_rotate.1 hx) l
  refine fun l => ⟨hrows l, fun hl => ?_⟩
  rw [hrows, List.map_flatMap]
  simp only [exportRows_bytes hl]
  rw [haccepted, ← kept_records (nandMedium 0) hf hops l]
  exact congrArg (_ ++ buffered · l) hw.inst

omit hid hf hops in
/-- A part that would not take a write as the child finds it, with a gyro and an ANTP
record put away and a further gyro record still buffered. -/
theorem export_from_power_on_protected :
    let B : Build := { linux := false, rp2040 := true }
    let ops : List Op := [.ofRecord .gyro gyroSample, .ofRecord .antpSpeed speedSample, .flush,
      .ofRecord .gyro gyroSample]
    ∃ s, rp2040CreateSpi (startPart protectedStart) otpChip = some (.fin, s) ∧
      let D := rp2040Driver (startPart protectedStart)
      let w := session B D s ops
      let bs := (LogState.init.run B ops).batches
      ∃ outs c', Ends (fun fuel => formatterMain (startPart protectedStart) Chip.rested fuel
          (.csv 1 1024 0 64) w.dev) (.fin, .csv outs, c') ∧
        c'.flash = w.dev.flash ∧
        ∀ l, rowsOf l ((outs.rotate bs.length).flatMap CsvOut.lines) =
            (bs.drop (oldestKept bs)).flatMap (exportRows l) ∧
          (l ∈ Layer.antp →
            (rowsOf l ((outs.rotate bs.length).flatMap CsvOut.lines)).map CsvRow.bytes ++
                buffered w.inst l =
              (acceptedBy B D (World.mounted B D s) ops l).drop
                (reclaimedRecords bs l).length) := by
  intro B ops
  have hops : ∀ op ∈ ops, op.IsLog := by simp [ops, Op.ofRecord, Op.IsLog]
  exact export_from_power_on B (R := protectedStart) rfl otpChip
    (fun _ _ _ _ => ChipPage.main_blank) hops

end power

end Mxfs
