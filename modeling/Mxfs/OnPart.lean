import Mxfs.OwnPage
import Mxfs.Simulate

/-!
# Mxfs.OnPart

The file system on the flash part, unlocked.  The RP2040 driver cannot be told
from the page array by any client (`client_on_rp2040`), and what a client fetches
over it is its log (`fetch_on_rp2040`).
-/

namespace Mxfs

open Lib

/-- The part, unlocked, with the pages `f`. -/
structure Chip.Holds (c : Chip) (f : Flash) : Prop extends c.Open where
  flash : c.flash = f

/-- The part, unlocked and at rest, with the pages `f`. -/
structure Chip.Rests (c : Chip) (f : Flash) : Prop extends c.Idle where
  flash : c.flash = f

theorem Chip.Rests.holds {c : Chip} {f : Flash} (h : c.Rests f) : c.Holds f := ⟨h.toOpen, h.flash⟩

theorem rp2040_simulates (P : ChipParams) :
    (rp2040Driver (w25n01gv P)).Simulates (pageArray (nandMedium 0)) Chip.Holds
      DeviceCall.InRange := by
  refine ⟨fun c f call hc hcall => ?_⟩
  obtain ⟨hopen, rfl⟩ := hc
  obtain ⟨hanswer, hidle, hflash⟩ := rp2040_call P hopen hcall
  exact ⟨hanswer, hidle.toOpen, hflash⟩

/-- The driver waits for the part, and so leaves it at rest. -/
theorem rp2040_rests (P : ChipParams) :
    (rp2040Driver (w25n01gv P)).Simulates (pageArray (nandMedium 0)) Chip.Rests
      DeviceCall.InRange := by
  refine ⟨fun c f call hc hcall => ?_⟩
  obtain ⟨hidle, rfl⟩ := hc
  obtain ⟨hanswer, hidle', hflash⟩ := rp2040_call P hidle.toOpen hcall
  exact ⟨hanswer, hidle', hflash⟩

/-- A session over the driver is one over the pages, and takes in the same records. -/
theorem session_on_rp2040 (B : Build) {P : ChipParams} {R : Chip → Flash → Prop}
    (hsim : (rp2040Driver (w25n01gv P)).Simulates (pageArray (nandMedium 0)) R DeviceCall.InRange)
    {c : Chip} {f : Flash} (hc : R c f) {ops : List Op} (hops : ∀ op ∈ ops, op.OnPart) :
    (session B (rp2040Driver (w25n01gv P)) c ops).Looks B R
        (pageSession B (nandMedium 0) f ops) ∧
      ∀ l, acceptedBy B (rp2040Driver (w25n01gv P))
          (World.mounted B (rp2040Driver (w25n01gv P)) c) ops l =
        acceptedBy B (pageArray (nandMedium 0)).logged (pageSession B (nandMedium 0) f []) ops
          l := by
  have hok : ∀ x : DeviceCall, x.OfFlush → x.InRange := fun _ => DeviceCall.OfFlush.inRange
  have hasks : ∀ op ∈ ops, op.Asks DeviceCall.InRange :=
    fun op hop => (hops op hop).asks scans_inRange fun _ hb => hb
  exact ⟨(session_simulates hsim hok scans_inRange hc hasks).2,
    acceptedBy_simulates hsim hok scans_inRange hc hasks⟩

/-- **What a client fetches over the RP2040 driver is its log**: from any state of
a part with an erased data area, busy or not, and after any appends and flushes. -/
theorem fetch_on_rp2040 {B : Build} (hB : B.linux = false) (P : ChipParams) {c : Chip}
    (hc : c.Open) (hf : ∀ b, IsData b → c.flash.Blank b) {ops : List Op}
    (hops : ∀ op ∈ ops, op.IsLog) (l : Layer) {bufferlen : UInt16} (hbuf : bufferlen ≠ 0)
    {timerange : List TimeRange} {timerangecount : UInt16}
    (hcount : dataPages.length ≤ timerangecount.toNat)
    (hroom : timerangecount.toNat ≤ timerange.length) :
    let D := rp2040Driver (w25n01gv P)
    let w := session B D c ops
    ∃ out c', fetch B D w (UInt8.ofNat l.toNat) bufferlen timerange timerangecount =
        (some out, c') ∧
      out ++ (buffered w.inst l).flatten =
        ((acceptedBy B D (World.mounted B D c) ops l).drop
          (reclaimedRecords (LogState.init.run B ops).batches l).length).flatten ∧
      c'.Holds w.dev.flash := by
  intro D w
  have hsim := rp2040_simulates P
  obtain ⟨hw, haccepted⟩ := session_on_rp2040 B (rp2040_simulates P) ⟨hc, rfl⟩ fun op hop => (hops op hop).onPart
  have hinst : w.inst = (pageSession B (nandMedium 0) c.flash ops).inst := hw.inst
  obtain ⟨out, hfetch, hout, _⟩ := fetch_session hB (nandMedium 0) hf hops l hbuf hcount hroom
  obtain ⟨after, hsearch, haddr⟩ := search_pagesWith hB (nandMedium 0) hf hops l hcount hroom
  obtain ⟨hranges, hdev⟩ := mxfsTimerange_simulates hsim.logged (B := B)
    (pageSession B (nandMedium 0) c.flash ops).inst hw.dev (UInt8.ofNat l.toNat)
    timerange timerangecount fun _ x hx =>
      ⟨(mem_dataPages.1 hx).1.2, (mem_dataPages.1 hx).2, by decide⟩
  rw [fetch, hsearch] at hfetch
  rw [hsearch] at hranges hdev
  dsimp only at hfetch hranges hdev
  rw [Int.toNat_natCast, haddr] at hfetch
  have hpages : ∀ x ∈ w.inst.fromCursor (pagesWith (pageArray (nandMedium 0)).logged
      (pageSession B (nandMedium 0) c.flash ops).dev (UInt8.ofNat l.toNat)),
      DeviceCall.InRange (.read x.1 x.2 pageSize) := by
    intro x hx
    have hin : x ∈ pagesWith (pageArray (nandMedium 0)).logged
        (pageSession B (nandMedium 0) c.flash ops).dev (UInt8.ofNat l.toNat) := by
      cases List.mem_append.1 hx with
      | inl h => exact (List.mem_filter.1 h).1
      | inr h => exact (List.mem_filter.1 h).1
    have hpage := mem_dataPages.1 (List.mem_filter.1 hin).1
    exact ⟨hpage.1.2, hpage.2, Nat.le_refl _⟩
  obtain ⟨hdata, hrest⟩ :=
    readPages_simulates hsim.logged hdev (UInt8.ofNat l.toNat) bufferlen hpages
  rw [hinst, hfetch] at hdata hrest
  refine ⟨out, _, ?_, ?_, hrest.toOpen, hrest.flash.trans hw.dev.flash.symm⟩
  · have hfound : mxfsTimerange B D (pageSession B (nandMedium 0) c.flash ops).inst w.dev
        (UInt8.ofNat l.toNat) timerange timerangecount = (some (_, after), _) :=
      Prod.ext hranges rfl
    rw [fetch, hinst, hfound]
    dsimp only
    rw [Int.toNat_natCast, haddr]
    exact Prod.ext hdata rfl
  · rw [hinst, haccepted]
    exact hout

end Mxfs
