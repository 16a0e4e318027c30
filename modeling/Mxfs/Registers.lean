import Mxfs.Bcm2711
import Mxfs.Rp2040

/-!
# Mxfs.Registers

What reading a page does to the status registers.  The two drivers of the child
wait between the steps of a read; the parent's `read_by_block_page` takes one
step a call and leaves the waiting to its caller.  All three leave the part in
the same state (`completes_iff`): they configure it from the protection register,
so the configuration is kept exactly if the two registers agree
(`config_kept_iff`).
-/

namespace Mxfs

open Lib Instruction

/-! ## the parent's read -/

/-- `READ_NO_DATA`. -/
def readNoData : Int := 0

/-- `READ_WITH_DATA`. -/
def readWithData : Int := 1

/-- `DEVICE_RESET`. -/
def deviceReset : UInt8 := 0xFF

/-- What the caller keeps between two calls, and the device. -/
structure PageRead (σ : Type) where
  status : UInt8
  rbf : List UInt8
  dev : σ

section parent

variable {σ : Type} (S : Spi σ) (block page rbflen : Nat)

/-- `read_by_block_page`: one step of a read, if the part is not busy. -/
def readByBlockPage (r : PageRead σ) : Int × PageRead σ :=
  let (flgStatus, s) := S.readRegister statusRegister3Addr r.dev
  if flgStatus &&& statusRegister3Busy ≠ 0 then (readNoData, { r with dev := s })
  else if r.status = deviceReset then
    let (flgProtected, s) := S.readRegister statusRegister1Addr s
    -- read mode
    let config := (flgProtected &&& ~~~statusRegister2EccE) ||| statusRegister2Buf
    (readNoData,
      { r with
        status := pgDataRead.code
        dev := S.send s [writeStatusRegisterL.code, statusRegister2Addr, config] })
  else if r.status = pgDataRead.code then
    (readNoData,
      { r with
        status := read.code
        dev := S.send s (pgDataRead.code :: pageAddress block page) })
  else if r.status = read.code then
    let (rbf, s) := S.transfer s [read.code, 0, 0, 0] rbflen
    (readWithData, ⟨deviceReset, rbf, s⟩)
  else (readNoData, { r with dev := s })

/-- The loop around it; nothing is returned when `fuel` calls bring no data. -/
def parentRead (fuel : Nat) (s : σ) (rbf : List UInt8) : Option (List UInt8 × σ) :=
  (poll (readByBlockPage S block page rbflen) (· == readWithData) fuel
    ⟨deviceReset, rbf, s⟩).map fun r => (r.rbf, r.dev)

end parent

/-! ## the parent's read of the part -/

section chip

variable (P : ChipParams) (block page : Nat)

/-- The part a read leaves that goes on from `r`. -/
def PageRead.left (r : PageRead Chip) : Chip :=
  if r.status = deviceReset then r.dev.loaded P block page
  else if r.status = pgDataRead.code then
    r.dev.rested.perform P .pgDataRead (pageAddress block page)
  else r.dev.rested

/-- How many calls before the last one a read takes that goes on from `r`. -/
def PageRead.calls (r : PageRead Chip) : Nat :=
  if r.status = deviceReset then
    r.dev.busy + P.polls .writeStatusRegisterL r.dev.executed +
      P.polls .pgDataRead (r.dev.executed + 1) + 2
  else if r.status = pgDataRead.code then r.dev.busy + P.polls .pgDataRead r.dev.executed + 1
  else r.dev.busy

/-- The status is one the read knows. -/
def PageRead.Known (r : PageRead Chip) : Prop :=
  r.status = deviceReset ∨ r.status = pgDataRead.code ∨ r.status = read.code

variable {P} {r : PageRead Chip} (rbflen : Nat)

/-- A call while the part is busy only looks at it. -/
theorem readByBlockPage_busy (h : r.dev.busy ≠ 0) :
    readByBlockPage (w25n01gv P) block page rbflen r =
      (readNoData, { r with dev := { r.dev with busy := r.dev.busy - 1 } }) := by
  have hready := r.dev.status_ready
  have hbusy : r.dev.status &&& statusRegister3Busy ≠ 0 := by simpa [h] using hready
  rw [readByBlockPage, readRegister_status]
  exact if_pos hbusy

/-- The part seen resting is the part as it is. -/
theorem readRegister_ready (P : ChipParams) {c : Chip} (h : c.busy = 0) :
    (w25n01gv P).readRegister statusRegister3Addr c = (c.status, c) := by
  rw [readRegister_status, h, Nat.zero_sub, ← h]

/-- The steps of a read, once the part rests. -/
theorem readByBlockPage_deviceReset (h : r.dev.busy = 0) (hstatus : r.status = deviceReset) :
    readByBlockPage (w25n01gv P) block page rbflen r =
      (readNoData, ⟨pgDataRead.code, r.rbf,
        { r.dev with
          statusRegister2 :=
            (r.dev.statusRegister1 &&& ~~~statusRegister2EccE) ||| statusRegister2Buf
          busy := P.polls .writeStatusRegisterL r.dev.executed
          executed := r.dev.executed + 1 }⟩) := by
  have hready := r.dev.status_ready
  have hregister : (w25n01gv P).readRegister statusRegister1Addr r.dev =
      (r.dev.statusRegister1, r.dev) := rfl
  rw [readByBlockPage, readRegister_ready P h]
  simp only [h, decide_true, beq_iff_eq] at hready
  simp only [hready, hstatus, hregister, ne_eq, not_true, if_false, if_true]
  rw [send_chip P h _ (by decide) (by decide)]
  rfl

theorem readByBlockPage_pgDataRead (h : r.dev.busy = 0) (hstatus : r.status = pgDataRead.code) :
    readByBlockPage (w25n01gv P) block page rbflen r =
      (readNoData, ⟨read.code, r.rbf,
        { r.dev.execute P .pgDataRead (pageAddress block page) with
          busy := P.polls .pgDataRead r.dev.executed
          executed := r.dev.executed + 1 }⟩) := by
  have hready := r.dev.status_ready
  have hne : pgDataRead.code ≠ deviceReset := by decide
  rw [readByBlockPage, readRegister_ready P h]
  simp only [h, decide_true, beq_iff_eq] at hready
  simp only [hready, hstatus, hne, ne_eq, not_true, if_false, if_true]
  rw [send_chip P h _ (by decide) (by decide)]

theorem readByBlockPage_read (h : r.dev.busy = 0) (hstatus : r.status = read.code) :
    readByBlockPage (w25n01gv P) block page rbflen r =
      (readWithData, ⟨deviceReset, r.dev.shiftOut [0, 0, 0] rbflen, r.dev⟩) := by
  have hready := r.dev.status_ready
  have hreset : read.code ≠ deviceReset := by decide
  have hload : read.code ≠ pgDataRead.code := by decide
  have htransfer : (w25n01gv P).transfer r.dev [read.code, 0, 0, 0] rbflen =
      (r.dev.shiftOut [0, 0, 0] rbflen, r.dev) := by
    simp [w25n01gv, Chip.transfer, h]
  rw [readByBlockPage, readRegister_ready P h]
  simp only [h, decide_true, beq_iff_eq] at hready
  simp only [hready, hstatus, hreset, hload, htransfer, ne_eq, not_true, if_false, if_true]

/-- **A call before the last** takes the read a step further. -/
theorem readByBlockPage_wait (h : r.Known) (hcalls : r.calls P ≠ 0) :
    (readByBlockPage (w25n01gv P) block page rbflen r).1 = readNoData ∧
      (readByBlockPage (w25n01gv P) block page rbflen r).2.calls P < r.calls P ∧
      (readByBlockPage (w25n01gv P) block page rbflen r).2.left P block page =
        r.left P block page ∧
      (readByBlockPage (w25n01gv P) block page rbflen r).2.Known := by
  have hload : pgDataRead.code ≠ deviceReset := by decide
  have hread : read.code ≠ deviceReset ∧ read.code ≠ pgDataRead.code := by decide
  by_cases hbusy : r.dev.busy = 0
  · rcases h with hstatus | hstatus | hstatus
    · rw [readByBlockPage_deviceReset block page rbflen hbusy hstatus]
      refine ⟨rfl, ?_, ?_, by simp [PageRead.Known]⟩
      · rw [PageRead.calls, if_neg hload, if_pos rfl, PageRead.calls, if_pos hstatus]
        dsimp only
        omega
      · rw [PageRead.left, if_neg hload, if_pos rfl, PageRead.left, if_pos hstatus]
        rfl
    · rw [readByBlockPage_pgDataRead block page rbflen hbusy hstatus]
      refine ⟨rfl, ?_, ?_, by simp [PageRead.Known]⟩
      · rw [PageRead.calls, if_neg hread.1, if_neg hread.2, PageRead.calls, hstatus, if_neg hload,
          if_pos rfl]
        dsimp only
        omega
      · rw [PageRead.left, if_neg hread.1, if_neg hread.2, PageRead.left, hstatus, if_neg hload,
          if_pos rfl]
        rfl
    · exact absurd hbusy (by simpa [PageRead.calls, hstatus, hread] using hcalls)
  · rw [readByBlockPage_busy block page rbflen hbusy]
    refine ⟨rfl, ?_, ?_, h⟩
    · simp only [PageRead.calls]
      split
      · omega
      · split <;> omega
    · rfl

/-- **The last call** brings the data. -/
theorem readByBlockPage_last (h : r.Known) (hcalls : r.calls P = 0) :
    readByBlockPage (w25n01gv P) block page rbflen r = (readWithData,
      ⟨deviceReset, (r.left P block page).shiftOut [0, 0, 0] rbflen, r.left P block page⟩) := by
  have hload : pgDataRead.code ≠ deviceReset := by decide
  have hread : read.code ≠ deviceReset ∧ read.code ≠ pgDataRead.code := by decide
  rcases h with hstatus | hstatus | hstatus
  · simp [PageRead.calls, hstatus] at hcalls
  · simp [PageRead.calls, hstatus, hload] at hcalls
  · have hbusy : r.dev.busy = 0 := by simpa [PageRead.calls, hstatus, hread] using hcalls
    have hleft : r.left P block page = r.dev := by
      simp [PageRead.left, hstatus, hread, Chip.rested, ← hbusy]
    rw [readByBlockPage_read block page rbflen hbusy hstatus, hleft]

/-- **The loop around the calls** ends when the part has answered often enough. -/
theorem readByBlockPage_poll (c : Chip) (rbf : List UInt8) {fuel : Nat}
    (hfuel : (PageRead.mk deviceReset rbf c).calls P < fuel) :
    poll (readByBlockPage (w25n01gv P) block page rbflen) (· == readWithData) fuel
        ⟨deviceReset, rbf, c⟩ =
      some ⟨deviceReset, (c.loaded P block page).shiftOut [0, 0, 0] rbflen,
        c.loaded P block page⟩ := by
  refine poll_rest (fun r => ⟨deviceReset, (r.left P block page).shiftOut [0, 0, 0] rbflen,
    r.left P block page⟩) (m := PageRead.calls P) (I := PageRead.Known) ?_ ?_ (.inl rfl) hfuel
  · intro r hr hcalls
    obtain ⟨hnone, hless, hleft, hknown⟩ := readByBlockPage_wait block page rbflen hr hcalls
    exact ⟨by rw [hnone]; rfl, hless, by rw [hleft], hknown⟩
  · intro r hr hcalls
    rw [readByBlockPage_last block page rbflen hr hcalls]
    exact ⟨rfl, rfl⟩

/-- **The parent's read** ends, however often the part is busy, and leaves the part
as the drivers' reads do. -/
theorem parentRead_chip (c : Chip) (rbf : List UInt8) :
    ∃ enough, ∀ fuel, enough ≤ fuel →
      parentRead (w25n01gv P) block page rbflen fuel c rbf =
        some ((c.loaded P block page).shiftOut [0, 0, 0] rbflen, c.loaded P block page) := by
  refine ⟨(PageRead.mk deviceReset rbf c).calls P + 1, fun fuel hfuel => ?_⟩
  rw [parentRead, readByBlockPage_poll block page rbflen c rbf hfuel]
  rfl

/-- A read of the parent that has ended. -/
theorem parentRead_eq_some {c c' : Chip} {rbf out : List UInt8} {fuel : Nat}
    (h : parentRead (w25n01gv P) block page rbflen fuel c rbf = some (out, c')) :
    out = (c.loaded P block page).shiftOut [0, 0, 0] rbflen ∧ c' = c.loaded P block page := by
  obtain ⟨enough, henough⟩ := parentRead_chip (P := P) block page rbflen c rbf
  obtain ⟨r, hr, hout⟩ := Option.map_eq_some_iff.1 h
  have hmore := henough (fuel + enough) (by omega)
  rw [parentRead, poll_mono hr (Nat.le_add_right fuel enough), Option.map_some, hout] at hmore
  simpa using hmore

end chip

/-! ## the three reads -/

/-- Who reads a page. -/
inductive Reader where
  | rp2040 | bcm2711 | parent

/-- A read has ended with the data `out`, and left the part `c'`. -/
def Reader.Completes (P : ChipParams) (c : Chip) (block page bufferlen : Nat) (out : List UInt8)
    (c' : Chip) : Reader → Prop
  | .rp2040 => rp2040Read (w25n01gv P) c block page bufferlen = some (OK, out, c')
  | .bcm2711 => bcm2711Read (w25n01gv P) c block page bufferlen = some (OK, out, c')
  | .parent => ∃ fuel rbf,
      parentRead (w25n01gv P) block page bufferlen fuel c rbf = some (out, c')

/-- **All three leave the same part**, and every read ends. -/
theorem completes_iff (P : ChipParams) (reader : Reader) {c c' : Chip} {block page bufferlen : Nat}
    {out : List UInt8} : reader.Completes P c block page bufferlen out c' ↔
      out = (c.loaded P block page).shiftOut [0, 0, 0] bufferlen ∧ c' = c.loaded P block page := by
  cases reader with
  | rp2040 =>
      rw [Reader.Completes, rp2040Read_chip]
      simp [eq_comm]
  | bcm2711 =>
      rw [Reader.Completes, bcm2711Read_chip]
      simp [eq_comm]
  | parent =>
      constructor
      · rintro ⟨fuel, rbf, h⟩
        exact parentRead_eq_some block page bufferlen h
      · rintro ⟨rfl, rfl⟩
        obtain ⟨enough, henough⟩ := parentRead_chip (P := P) block page bufferlen c []
        exact ⟨enough, [], henough enough (Nat.le_refl enough)⟩

/-! ## the registers -/

/-- Status register 2 has only ECC-E cleared and BUF set, status register 1 is as it was. -/
structure ConfigKept (c c' : Chip) : Prop where
  config : c'.statusRegister2 =
    (c.statusRegister2 &&& ~~~statusRegister2EccE) ||| statusRegister2Buf
  protection : c'.statusRegister1 = c.statusRegister1

/-- The registers after a read. -/
theorem registers_loaded (P : ChipParams) (c : Chip) (block page : Nat) :
    (c.loaded P block page).statusRegister1 = c.statusRegister1 ∧
      (c.loaded P block page).statusRegister2 =
        (c.statusRegister1 &&& ~~~statusRegister2EccE) ||| statusRegister2Buf :=
  ⟨rfl, rfl⟩

/-- Clearing `e` and setting `f` makes two values equal exactly if their other bits are. -/
theorem and_not_or_eq_iff (a b e f : UInt8) :
    (a &&& ~~~e) ||| f = (b &&& ~~~e) ||| f ↔ a &&& ~~~(e ||| f) = b &&& ~~~(e ||| f) := by
  have hclear : ∀ x : UInt8, ((x &&& ~~~e) ||| f) &&& ~~~f = x &&& ~~~(e ||| f) := by
    intro x
    refine UInt8.toBitVec_inj.1 (BitVec.eq_of_getElem_eq fun i hi => ?_)
    simp only [UInt8.toBitVec_and, UInt8.toBitVec_or, UInt8.toBitVec_not, BitVec.getElem_and,
      BitVec.getElem_or, BitVec.getElem_not]
    cases e.toBitVec[i] <;> cases f.toBitVec[i] <;> simp
  have hset : ∀ x : UInt8, (x &&& ~~~(e ||| f)) ||| f = (x &&& ~~~e) ||| f := by
    intro x
    refine UInt8.toBitVec_inj.1 (BitVec.eq_of_getElem_eq fun i hi => ?_)
    simp only [UInt8.toBitVec_and, UInt8.toBitVec_or, UInt8.toBitVec_not, BitVec.getElem_and,
      BitVec.getElem_or, BitVec.getElem_not]
    cases e.toBitVec[i] <;> cases f.toBitVec[i] <;> simp
  constructor
  · intro h
    rw [← hclear a, h, hclear]
  · intro h
    rw [← hset a, h, hset]

/-- **Reading and the configuration**: a read ends, and it keeps the configuration
exactly if the protection register has the bits of the configuration register. -/
theorem config_kept_iff (P : ChipParams) (reader : Reader) (c : Chip)
    (block page bufferlen : Nat) :
    (∃ out c', reader.Completes P c block page bufferlen out c') ∧
      ∀ out c', reader.Completes P c block page bufferlen out c' →
        (ConfigKept c c' ↔
          c.statusRegister1 &&& ~~~(statusRegister2EccE ||| statusRegister2Buf) =
            c.statusRegister2 &&& ~~~(statusRegister2EccE ||| statusRegister2Buf)) := by
  refine ⟨⟨_, _, (completes_iff P reader).2 ⟨rfl, rfl⟩⟩, fun out c' h => ?_⟩
  obtain ⟨hprotection, hconfig⟩ := registers_loaded P c block page
  rw [((completes_iff P reader).1 h).2, ← and_not_or_eq_iff, ← hconfig]
  exact ⟨ConfigKept.config, fun hkept => ⟨hkept, hprotection⟩⟩

/-- An unprotected part in ordinary mode. -/
theorem config_kept_busy : ∃ out c', Reader.parent.Completes restlessPart busyChip 5 9 2048 out c' ∧
    ConfigKept busyChip c' := by
  obtain ⟨⟨out, c', h⟩, hkept⟩ := config_kept_iff restlessPart .parent busyChip 5 9 2048
  exact ⟨out, c', h, (hkept out c' h).2 (by decide)⟩

/-- A part whose blocks are all protected. -/
def protectedChip : Chip := { busyChip with statusRegister1 := 0x7C }

/-- A read switches it to OTP mode. -/
theorem config_lost_protected : ¬ ∀ out c',
    Reader.parent.Completes restlessPart protectedChip 5 9 2048 out c' →
      ConfigKept protectedChip c' := by
  intro h
  have hkept := (h _ _ ((completes_iff restlessPart .parent).2 ⟨rfl, rfl⟩)).config
  rw [(registers_loaded restlessPart protectedChip 5 9).2] at hkept
  exact absurd hkept (by decide)

end Mxfs
