import Mathlib.Data.List.TakeWhile
import Mxfs.PowerOn

/-!
# Mxfs.Find

What the formatter's search finds of a part that a child has logged to.

The search goes wrong behind the first series of a page, so a child that logs ANTP
records only is one whose log it can be trusted with: `search_from_power_on` follows
the second of a record from the child's append through the part to the entry that the
parent makes of its page.
-/

namespace Mxfs

open Lib Formatter

/-! ## logs of ANTP records -/

/-- A flush, or an append to a layer below `LAYER_ANTP_MAX`. -/
def Op.IsAntp : Op → Prop
  | .append layer _ _ => layer.toNat < Layer.gyro.toNat
  | .flush => True
  | .remount | .erase _ => False

theorem Op.IsAntp.isLog {op : Op} (h : op.IsAntp) : op.IsLog := by
  cases op with
  | append layer tmm buffer => trivial
  | flush => trivial
  | remount => exact h.elim
  | erase block => exact h.elim

namespace Batch

/-- No records but those of the ANTP layers. -/
def AntpOnly (p : Batch) : Prop := ∀ l, l ∉ Layer.antp → p l = []

/-- The seconds of the ANTP records, in page order. -/
def antpSeconds (p : Batch) : List Nat :=
  Layer.antp.flatMap fun l => (p l).map fun r => u32 (r.time.toNat / 1000)

section antp

variable {p : Batch}

theorem antpOnly_empty : Batch.empty.AntpOnly := fun _ _ => rfl

theorem AntpOnly.push (h : p.AntpOnly) {l : Layer} (hl : l ∈ Layer.antp) (r : Record l) :
    (p.push l r).AntpOnly := by
  intro k hk
  have hne : k ≠ l := fun heq => hk (heq.symm ▸ hl)
  rw [push_ne p r hne]
  exact h k hk

/-- The frames are those of the ANTP records. -/
theorem AntpOnly.frames (h : p.AntpOnly) : p.frames =
    Layer.antp.flatMap fun l => (p l).map fun r => ⟨l, antpHeader l r.time.toNat, r.payload⟩ := by
  simp [Batch.frames, framesFrom, Layer.all, Layer.antp, Layer.frames, h .gyro (by decide),
    h .accelerometer (by decide), h .temperature (by decide)]

theorem AntpOnly.seriesFrames (h : p.AntpOnly) : p.seriesFrames = [] := by
  rw [Batch.seriesFrames, List.dropWhile_eq_nil_iff, h.frames]
  intro f hf
  obtain ⟨l, hl, hf⟩ := List.mem_flatMap.1 hf
  obtain ⟨r, -, rfl⟩ := List.mem_map.1 hf
  exact decide_eq_true hl

/-- The headers of an ANTP batch show its records' seconds. -/
theorem AntpOnly.times (h : p.AntpOnly) (hfits : p.pageBytes ≤ 2000) :
    (pageHeaders p.image).map Compress.time = p.antpSeconds := by
  rw [pageHeaders_image hfits, h.frames, antpSeconds, List.map_map, List.map_flatMap]
  refine List.flatMap_congr fun l _ => ?_
  rw [List.map_map]
  refine List.map_congr_left fun r _ => ?_
  show u32 (r.time.toNat / 1000) % 4294967296 = u32 (r.time.toNat / 1000)
  exact Nat.mod_mod _ _

end antp

end Batch

/-- All that a log holds. -/
def LogState.AntpOnly (a : LogState) : Prop :=
  a.pending.AntpOnly ∧ ∀ q ∈ a.batches, q.AntpOnly

theorem LogState.AntpOnly.flush {a : LogState} (h : a.AntpOnly) : a.flush.AntpOnly := by
  rw [LogState.flush]
  split
  · exact h
  · refine ⟨Batch.antpOnly_empty, fun q hq => ?_⟩
    rcases List.mem_append.1 hq with hq | hq
    · exact h.2 q hq
    · exact List.mem_singleton.1 hq ▸ h.1

theorem LogState.AntpOnly.append {B : Build} {a : LogState} (h : a.AntpOnly) {l : Layer}
    (hl : l ∈ Layer.antp) (r : Record l) : (a.append B l r).2.AntpOnly := by
  have hplace : (a.makePlace l).AntpOnly := by
    rw [makePlace]
    split
    · exact h.flush
    · exact h
  rw [LogState.append]
  split
  · exact ⟨hplace.1.push hl r, hplace.2⟩
  · exact hplace

theorem LogState.AntpOnly.next {B : Build} {a : LogState} (h : a.AntpOnly) {op : Op}
    (hop : op.IsAntp) : (a.next B op).AntpOnly := by
  cases op with
  | append layer tmm buffer =>
      cases hr : record? layer tmm buffer with
      | none =>
          rw [LogState.next, LogState.step, hr]
          exact h
      | some x =>
          obtain ⟨l, r⟩ := x
          have hl : l.toNat = layer.toNat := (Layer.toNat_of_ofNat? (record?_eq_some hr).1).symm
          rw [LogState.next, LogState.step, hr]
          refine h.append ?_ r
          have hlow : l.toNat < Layer.gyro.toNat := hl ▸ hop
          cases l <;> first | decide | exact absurd hlow (by decide)
  | flush => exact h.flush
  | remount => exact hop.elim
  | erase block => exact hop.elim

/-- **A log of ANTP records** holds nothing else. -/
theorem LogState.antpOnly_run (B : Build) {ops : List Op} (hops : ∀ op ∈ ops, op.IsAntp) :
    (LogState.init.run B ops).AntpOnly :=
  run_invariant (fun _ _ h hop => h.next hop)
    ⟨Batch.antpOnly_empty, fun _ hq => absurd hq List.not_mem_nil⟩ (along_of_forall hops _)

theorem flashBatch_antpOnly (B : Build) {ops : List Op} (hops : ∀ op ∈ ops, op.IsAntp)
    (block page : Nat) : (flashBatch (LogState.init.run B ops).batches block page).AntpOnly := by
  rw [flashBatch]
  split
  · exact Batch.antpOnly_empty
  · cases hq : heldBatch (LogState.init.run B ops).batches block page with
    | none => exact Batch.antpOnly_empty
    | some q =>
        exact (LogState.antpOnly_run B hops).2 q (mem_of_ringStore (by decide) (by decide) hq)

/-! ## from the child to the parent -/

section power

variable {R : StartParams} (hid : R.id.take 3 = w25n01gvId) (c : Chip)
include hid

/-- The command on a part at rest finds what the walk over its pages does. -/
theorem formatterSearch_ends (hrest : c.busy = 0) {epochS epochE : UInt32} {timestamps : Timestamps}
    (hsearch : searchEpochs c.pageBytes epochS.toNat epochE.toNat = some timestamps) :
    ∃ c', Ends (fun fuel => formatterMain (startPart R) Chip.rested fuel
        (.search epochS epochE) c) (.fin, .found timestamps, c') ∧ c'.array = c.array := by
  obtain ⟨c₁, hopen, harray, hmain⟩ := formatterMain_ends hid hrest (.search epochS epochE)
  have hbytes : c₁.pageBytes = c.pageBytes := by
    funext b p
    rw [Chip.pageBytes, Chip.pageBytes, harray]
  rw [← hbytes] at hsearch
  obtain ⟨r', hends, -, harray'⟩ := search_chip R.part
    (r := ⟨deviceReset, startCmd, c₁⟩) hopen hsearch
  exact ⟨r'.dev, hmain _ (hends.map fun x => (Exit.fin, Shown.found x.1, x.2)),
    harray'.trans harray⟩

variable (B : Build) (hf : ∀ b < blockCount, c.flash.Blank b) {ops : List Op}
variable (hops : ∀ op ∈ ops, op.IsAntp)
include hf hops

/-- **The parent's search finds the child's records by their seconds.**  After any
appends of ANTP records and flushes of a child that started on an erased part, whatever
state it was in, the search ends and changes no page, and the entry it makes of a page
lists the seconds in the range of just the records that the page holds, each once. -/
theorem search_from_power_on (epochS epochE : UInt32) :
    ∃ s, rp2040CreateSpi (startPart R) c = some (.fin, s) ∧
      let w := session B (rp2040Driver (startPart R)) s ops
      ∃ found c', Ends (fun fuel => formatterMain (startPart R) Chip.rested fuel
          (.search epochS epochE) w.dev) (.fin, .found found, c') ∧
        c'.flash = w.dev.flash ∧
        ∀ block < blockCount, ∀ page < pageCount, found (blockpage block page) =
          entryOf ((flashBatch (LogState.init.run B ops).batches block page).antpSeconds.filter
            (inEpoch epochS.toNat epochE.toNat)) := by
  have hlog : ∀ op ∈ ops, op.IsLog := fun op hop => (hops op hop).isLog
  obtain ⟨s, hstart, hs⟩ := rp2040CreateSpi_rests hid c
  refine ⟨s, hstart, ?_⟩
  rw [rp2040Driver_start]
  intro w
  -- the session, over the page array
  obtain ⟨hw, -⟩ := session_on_rp2040 B (rp2040_rests R.part) hs
    fun op hop => (hlog op hop).onPart
  have hflash : w.dev.flash = (pageSession B (nandMedium 0) c.flash ops).dev.dev := hw.dev.flash
  have hshows : FlashShows w.dev.pageBytes (flashBatch (LogState.init.run B ops).batches) := by
    refine flashShows_pages B hlog (nandMedium 0) hf fun b p => ?_
    rw [← hflash]
    exact ⟨(w.dev.array b p).bytes.drop pageSize, (List.take_append_drop pageSize _).symm⟩
  -- the walk over each page
  have hwalk : ∀ block < blockCount, ∀ page < pageCount, ∃ hs,
      pageWalk w.dev.pageBytes block page = some hs ∧
        entryOf (timesIn epochS.toNat epochE.toNat hs) =
          entryOf (timesIn epochS.toNat epochE.toNat
            (pageHeaders (flashBatch (LogState.init.run B ops).batches block page).image)) := by
    intro block hb page hp
    refine (pageFound_iff (hshows.shows block hb page hp) (hshows.fits block hb page hp)).2 ?_
    rw [PageFound, (flashBatch_antpOnly B hops block page).seriesFrames]
    trivial
  obtain ⟨found, hsearch, hfound⟩ := (epochsFound_iff hshows).2 hwalk
  obtain ⟨c', hends, harray⟩ := formatterSearch_ends hid w.dev hw.dev.busy hsearch
  refine ⟨found, c', hends, flash_of_array harray, fun block hb page hp => ?_⟩
  rw [hfound block hb page hp, timesIn,
    (flashBatch_antpOnly B hops block page).times (hshows.fits block hb page hp)]

omit hid hf hops in
/-- A part that would not take a write as the child finds it, with a record of the first
second put away. -/
theorem search_from_power_on_protected :
    let B : Build := { linux := false, rp2040 := true }
    let ops : List Op := [.ofRecord .antpSpeed speedSample, .flush]
    ∃ s, rp2040CreateSpi (startPart protectedStart) otpChip = some (.fin, s) ∧
      let w := session B (rp2040Driver (startPart protectedStart)) s ops
      ∃ found c', Ends (fun fuel => formatterMain (startPart protectedStart) Chip.rested fuel
          (.search 1 10) w.dev) (.fin, .found found, c') ∧
        c'.flash = w.dev.flash ∧
        ∀ block < blockCount, ∀ page < pageCount, found (blockpage block page) =
          entryOf ((flashBatch (LogState.init.run B ops).batches block page).antpSeconds.filter
            (inEpoch 1 10)) := by
  intro B ops
  have hops : ∀ op ∈ ops, op.IsAntp := by simp [ops, Op.ofRecord, Op.IsAntp, Layer.toNat]
  exact search_from_power_on (R := protectedStart) rfl otpChip B
    (fun _ _ _ _ => ChipPage.main_blank) hops 1 10

end power

end Mxfs
