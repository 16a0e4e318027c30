import Mxfs.Direct
import Mxfs.Rp2040
import Mxfs.System
import Mxfs.Timerange

/-!
# Mxfs.OutOfRange

What the calls do with a block, a page or a layer there is none of, through the
RP2040 driver.  An erase and a write check neither block nor page, and the two
address bytes of the part hold 10 bits of the one and 6 of the other, so they
act on the block or page of the same remainder (`erase_alias`, `write_alias`).
The searches index a table with the layer or the block before any check of it.
-/

namespace Mxfs

open Lib Instruction

/-! ## erase and write -/

/-- The call failed and the array is as it was, or what it was for exists and
nothing else is altered. -/
def Confined (ret : Int) (c c' : Chip) (inPart : Prop) (own : Nat → Nat → Prop) : Prop :=
  ret ≠ OK ∧ c'.array = c.array ∨
    inPart ∧ ∀ b p, ¬ own b p → c'.array b p = c.array b p

/-- An erase fails, or is for a block of the part and alters no other. -/
def EraseConfined (P : ChipParams) (c : Chip) (block : Nat) : Prop :=
  Confined (mxfsErase (rp2040Driver (w25n01gv P)) c block).1 c
    (mxfsErase (rp2040Driver (w25n01gv P)) c block).2 (block < blockCount) fun b _ => b = block

/-- A direct write fails, or is for a page of the part and alters no other. -/
def WriteConfined (P : ChipParams) (c : Chip) (wbf : Page) (buffer : List UInt8)
    (bufferlen : UInt16) (block page : Nat) : Prop :=
  ∃ ret c', mxfsWrite (rp2040Driver (w25n01gv P)) c wbf (UInt8.ofNat layerDirect) (some buffer)
      bufferlen block page = (some ret, c') ∧
    Confined ret c c' (block < blockCount ∧ page < pageCount) fun b p => b = block ∧ p = page

section effects

variable (P : ChipParams) (c : Chip)

/-- An erase instruction on a part unlocked and enabled. -/
theorem Chip.array_blockErase (hlock : c.statusRegister1 = 0) (hw : c.writeEnabled = true)
    (address b p : Nat) :
    (c.blockErase P address).array b p =
      if c.otpMode = false ∧ b = address / pageCount ∧ p < pageCount then ChipPage.blank
      else c.array b p := by
  rw [Chip.blockErase, hlock, P.unlocked, hw]
  cases hotp : c.otpMode <;> simp

/-- A program instruction. -/
theorem Chip.array_programExecute (hlock : c.statusRegister1 = 0) (hw : c.writeEnabled = true)
    (address b p : Nat) :
    (c.programExecute P address).array b p =
      if c.otpMode = false ∧ b = address / pageCount ∧ p = address % pageCount then
        (c.array b p).program c.buffer
      else c.array b p := by
  rw [Chip.programExecute, hlock, P.unlocked, hw]
  cases hotp : c.otpMode with
  | true => simp
  | false =>
      by_cases hown : b = address / pageCount ∧ p = address % pageCount
      · obtain ⟨rfl, rfl⟩ := hown
        simp [Chip.page, hotp]
      · simp [hown]

variable (block page : Nat)

/-- **An erase** succeeds, and outside OTP mode erases the block of the same
remainder; all others are as before. -/
theorem erase_alias :
    (mxfsErase (rp2040Driver (w25n01gv P)) c block).1 = OK ∧
      ∀ b p, (mxfsErase (rp2040Driver (w25n01gv P)) c block).2.array b p =
        if c.otpMode = false ∧ b = block % blockCount ∧ p < pageCount then ChipPage.blank
        else c.array b p := by
  have hdiv : block % blockCount * 64 / pageCount = block % blockCount := by
    unfold pageCount
    omega
  simp only [mxfsErase, rp2040Driver, rp2040Erase_chip, Option.getD_some, true_and]
  intro b p
  rw [Chip.rp2040EraseReady_eq]
  show (Chip.blockErase P _ (addressOf _ _)).array b p = _
  rw [addressOf_block_mod, Chip.array_blockErase P _ rfl rfl, hdiv]
  rfl

/-- **A write** of a page at most succeeds, and outside OTP mode programs the page of
the same remainders; all others are as before. -/
theorem write_alias {data : List UInt8} (hlen : data.length ≤ pageSize) :
    ((rp2040Driver (w25n01gv P)).write c block page data).1 = OK ∧
      ∀ b p, ((rp2040Driver (w25n01gv P)).write c block page data).2.array b p =
        if c.otpMode = false ∧ b = block % blockCount ∧ p = page % pageCount then
          (c.array b p).program (c.buffer.load 0 (Page.image data 0).bytes)
        else c.array b p := by
  have hdiv : (block % blockCount * 64 + page % pageCount) / pageCount = block % blockCount := by
    unfold pageCount
    omega
  have hmod : (block % blockCount * 64 + page % pageCount) % pageCount = page % pageCount := by
    unfold pageCount
    omega
  simp only [rp2040Driver, rp2040Write_chip P c block page hlen, Option.getD_some, true_and]
  intro b p
  rw [Chip.rp2040LoadReady_load]
  show (Chip.programExecute P _ (addressOf _ _)).array b p = _
  rw [addressOf_page_mod, Chip.array_programExecute P _ rfl rfl, hdiv, hmod]
  rfl

/-- **An erase keeps to its block** exactly if there is such a block. -/
theorem eraseConfined_iff : EraseConfined P c block ↔ block < blockCount := by
  obtain ⟨hret, harray⟩ := erase_alias P c block
  constructor
  · rintro (⟨hfailed, -⟩ | ⟨hin, -⟩)
    · exact absurd hret hfailed
    · exact hin
  · intro hin
    refine .inr ⟨hin, fun b p hother => ?_⟩
    rw [harray, Nat.mod_eq_of_lt hin, if_neg (fun h => hother h.2.1)]

/-- **A direct write keeps to its page** exactly if there is such a page, or nothing
to write. -/
theorem writeConfined_iff (wbf : Page) {buffer : List UInt8} {bufferlen : UInt16}
    (hlen : buffer.length = bufferlen.toNat) (hle : buffer.length ≤ 2032) :
    WriteConfined P c wbf buffer bufferlen block page ↔
      bufferlen = 0 ∨ block < blockCount ∧ page < pageCount := by
  by_cases hpos : bufferlen = 0
  · refine iff_of_true ⟨ERR, c, ?_, .inl ⟨ERR_ne_OK, rfl⟩⟩ (.inl hpos)
    rw [mxfsWrite, if_pos hpos]
  have hdata : ((directHeader (Compress.ofBytes wbf.bytes) buffer.length).bytes ++ buffer).length ≤
      pageSize := by
    rw [List.length_append, Compress.length_bytes]
    unfold headerSize pageSize
    omega
  obtain ⟨hret, harray⟩ := write_alias P c block page hdata
  have hwrite : mxfsWrite _ c wbf _ _ _ _ _ = _ :=
    mxfsWrite_eq (rp2040Driver (w25n01gv P)) c hlen hpos hle block page
  rw [hret] at hwrite
  constructor
  · rintro ⟨ret, c', hcall, hconfined⟩
    rw [hwrite] at hcall
    obtain ⟨rfl, rfl⟩ : OK = ret ∧ _ = c' := by simpa using hcall
    rcases hconfined with ⟨hfailed, -⟩ | ⟨hin, -⟩
    · exact absurd rfl hfailed
    · exact .inr hin
  · rintro (hzero | ⟨hb, hp⟩)
    · exact absurd hzero hpos
    · refine ⟨OK, _, hwrite, .inr ⟨⟨hb, hp⟩, fun b p hother => ?_⟩⟩
      rw [harray, Nat.mod_eq_of_lt hb, Nat.mod_eq_of_lt hp, if_neg (fun h => hother h.2)]

end effects

/-! ## the searches -/

/-- The build for the RP2040. -/
def rp2040Build : Build := { linux := false, rp2040 := true }

/-- A search over the data area stays within the table of layers, and a layer that
is not in it gives `ERR`. -/
def SearchRefuses (D : Driver σ) (dev : σ) (inst : Inst) (layer : UInt8)
    (timerange : List TimeRange) (timerangecount : UInt16) : Prop :=
  (mxfsTimerange rp2040Build D inst dev layer timerange timerangecount).1 ≠ none ∧
    (layerFlag layer = none →
      (mxfsTimerange rp2040Build D inst dev layer timerange timerangecount).1 =
        some (ERR, timerange))

/-- A search over a block that is not in the table of blocks gives `ERR`. -/
def BlockSearchRefuses (D : Driver σ) (dev : σ) (inst : Inst) (layer : UInt8) (block : Nat)
    (timerange : List TimeRange) (timerangecount : UInt16) : Prop :=
  blockCount ≤ block →
    (mxfsTimerangeByBlock rp2040Build D inst dev layer block timerange timerangecount).1 =
      some (ERR, timerange)

section searches

variable {D : Driver σ} {dev : σ} {inst : Inst} {layer : UInt8} {timerange : List TimeRange}
variable {timerangecount : UInt16}

theorem layerFlag_eq_none_iff : layerFlag layer = none ↔ 6 ≤ layer.toNat := by
  rw [layerFlag, Option.map_eq_none_iff]
  constructor
  · intro hnone
    by_contra hlt
    have hlayer : layer.toNat = 0 ∨ layer.toNat = 1 ∨ layer.toNat = 2 ∨ layer.toNat = 3 ∨
        layer.toNat = 4 ∨ layer.toNat = 5 := by omega
    rcases hlayer with h | h | h | h | h | h <;> rw [h] at hnone <;> cases hnone
  · intro hge
    cases hlayer : Layer.ofNat? layer.toNat with
    | none => rfl
    | some l =>
        have hlt := l.toNat_lt
        rw [← Layer.toNat_of_ofNat? hlayer] at hlt
        omega

section loop

variable (D : Driver σ) (dev : σ) (inst : Inst) (timerange : List TimeRange)

/-- A layer of the table is looked up at every page. -/
theorem pageListed_ne_none {flag : UInt32} (h : layerFlag layer = some flag) (block page : Nat) :
    (pageListed rp2040Build D inst layer dev block page).1 ≠ none := by
  simp only [pageListed, rp2040Build, h, Option.map_some, Bool.false_eq_true, if_false]
  split
  · simp
  · split <;> simp

theorem searchLoop_ne_none {flag : UInt32} (h : layerFlag layer = some flag) (count : Nat)
    (pages : List (Nat × Nat)) (cnt : Nat) :
    (searchLoop rp2040Build D inst layer count pages cnt timerange dev).1 ≠ none := by
  induction pages generalizing cnt timerange dev with
  | nil => simp [searchLoop]
  | cons x pages ih =>
      obtain ⟨block, page⟩ := x
      have hlisted := pageListed_ne_none D dev inst h block page
      rw [searchLoop]
      rcases hpage : pageListed rp2040Build D inst layer dev block page with ⟨listed, dev'⟩
      rw [hpage] at hlisted
      cases listed with
      | none => exact absurd rfl hlisted
      | some listed =>
          cases listed with
          | false => exact ih dev' timerange cnt
          | true =>
              dsimp only
              split
              · exact ih dev' _ (cnt + 1)
              · simp

/-- A layer that is not in the table lists no page, if it is not looked up before. -/
theorem pageListed_unknown (h : layerFlag layer = none) (block page : Nat) :
    (pageListed rp2040Build D inst layer dev block page).1 = none ∨
      (pageListed rp2040Build D inst layer dev block page).1 = some false := by
  simp only [pageListed, rp2040Build, h, Option.map_none, Bool.false_eq_true, if_false]
  split
  · simp
  · split <;> simp

theorem searchLoop_unknown (h : layerFlag layer = none) (count : Nat)
    (pages : List (Nat × Nat)) (cnt : Nat) :
    (searchLoop rp2040Build D inst layer count pages cnt timerange dev).1 = none ∨
      (searchLoop rp2040Build D inst layer count pages cnt timerange dev).1 =
        some ((cnt : Int), timerange) := by
  induction pages generalizing dev with
  | nil => exact .inr rfl
  | cons x pages ih =>
      obtain ⟨block, page⟩ := x
      have hlisted := pageListed_unknown D dev inst h block page
      rw [searchLoop]
      rcases hpage : pageListed rp2040Build D inst layer dev block page with ⟨listed, dev'⟩
      rw [hpage] at hlisted
      rcases hlisted with rfl | rfl
      · exact .inl rfl
      · exact ih dev'

end loop

/-- **A search over the data area refuses a layer** exactly if the table has the
layer, or there is nothing to fill in. -/
theorem searchRefuses_iff :
    SearchRefuses D dev inst layer timerange timerangecount ↔
      layer.toNat < 6 ∨ timerangecount = 0 := by
  by_cases hzero : timerangecount = 0
  · have herr : mxfsTimerange rp2040Build D inst dev layer timerange timerangecount =
        (some (ERR, timerange), dev) := if_pos hzero
    rw [SearchRefuses, herr]
    simp [hzero]
  · have hloop : mxfsTimerange rp2040Build D inst dev layer timerange timerangecount =
        searchLoop rp2040Build D inst layer timerangecount.toNat dataPages 0 timerange dev :=
      if_neg hzero
    rw [SearchRefuses, hloop]
    cases hflag : layerFlag layer with
    | none =>
        have hge := layerFlag_eq_none_iff.1 hflag
        refine iff_of_false ?_ (by simpa [hzero] using hge)
        rintro ⟨hdefined, hrefuses⟩
        rcases searchLoop_unknown D dev inst timerange hflag timerangecount.toNat dataPages 0 with
          hnone | hcount
        · exact hdefined hnone
        · rw [hrefuses rfl] at hcount
          simp [ERR] at hcount
    | some flag =>
        have hlt : layer.toNat < 6 := by
          by_contra hge
          rw [layerFlag_eq_none_iff.2 (by omega)] at hflag
          cases hflag
        exact iff_of_true ⟨searchLoop_ne_none D dev inst timerange hflag _ _ _, by simp⟩ (.inl hlt)

/-- **A search over a block refuses a block** exactly if the table has the block, or
there is nothing to fill in. -/
theorem blockSearchRefuses_iff {block : Nat} :
    BlockSearchRefuses D dev inst layer block timerange timerangecount ↔
      block < blockCount ∨ timerangecount = 0 := by
  by_cases hzero : timerangecount = 0
  · refine iff_of_true (fun _ => ?_) (.inr hzero)
    rw [mxfsTimerangeByBlock, if_pos hzero]
  · by_cases hin : block < blockCount
    · exact iff_of_true (fun hout => absurd hin (by omega)) (.inl hin)
    · refine iff_of_false (fun hrefuses => ?_) (by simp [hin, hzero])
      have hout : blockCount ≤ block := by omega
      have hdata : ¬ block < blockStartDataArea := by
        unfold blockCount at hout
        unfold blockStartDataArea
        omega
      have hcall := hrefuses hout
      rw [mxfsTimerangeByBlock, if_neg hzero, if_neg hdata,
        if_neg (Build.not_byBlockPanics rfl), if_pos hout] at hcall
      cases hcall

end searches

/-! ## the four calls -/

/-- **Out of range**: an erase keeps to a block of the part, a direct write to a page
of it, and the searches refuse a layer and a block they have no entry for,
exactly if the arguments are in range or the call has nothing to do. -/
theorem out_of_range_iff (P : ChipParams) (c : Chip) :
    (∀ block : UInt16, EraseConfined P c block.toNat ↔ block.toNat < 1024) ∧
    (∀ (wbf : Page) (buffer : List UInt8) (bufferlen block page : UInt16),
      buffer.length = bufferlen.toNat → buffer.length ≤ 2032 →
        (WriteConfined P c wbf buffer bufferlen block.toNat page.toNat ↔
          bufferlen = 0 ∨ block.toNat < 1024 ∧ page.toNat < 64)) ∧
    (∀ (inst : Inst) (layer : UInt8) (timerange : List TimeRange) (timerangecount : UInt16),
      SearchRefuses (rp2040Driver (w25n01gv P)) c inst layer timerange timerangecount ↔
        layer.toNat < 6 ∨ timerangecount = 0) ∧
    ∀ (inst : Inst) (layer : UInt8) (block : UInt16) (timerange : List TimeRange)
      (timerangecount : UInt16),
      BlockSearchRefuses (rp2040Driver (w25n01gv P)) c inst layer block.toNat timerange
          timerangecount ↔
        block.toNat < 1024 ∨ timerangecount = 0 := by
  refine ⟨fun block => eraseConfined_iff P c block.toNat, ?_, ?_, ?_⟩
  · intro wbf buffer bufferlen block page hlen hle
    exact writeConfined_iff P c block.toNat page.toNat wbf hlen hle
  · intro inst layer timerange timerangecount
    exact searchRefuses_iff
  · intro inst layer block timerange timerangecount
    exact blockSearchRefuses_iff

/-- The last block, and a page of it. -/
theorem out_of_range_iff_last :
    EraseConfined restlessPart busyChip 1023 ∧
      WriteConfined restlessPart busyChip Page.blank [1, 2, 3] 3 1023 63 := by
  obtain ⟨herase, hwrite, -⟩ := out_of_range_iff restlessPart busyChip
  exact ⟨(herase 1023).2 (by decide),
    (hwrite Page.blank [1, 2, 3] 3 1023 63 rfl (by decide)).2 (.inr ⟨by decide, by decide⟩)⟩

/-- A part with something in its configuration page. -/
def configuredChip : Chip :=
  { busyChip with
    array := fun b p =>
      if b = 0 ∧ p = 0 then ⟨List.replicate chipPageSize 0, List.length_replicate⟩
      else ChipPage.blank }

/-- An erase of block 1024 reports success and erases block 0. -/
theorem erase_wipes_configuration :
    ¬ EraseConfined restlessPart configuredChip 1024 ∧
      (mxfsErase (rp2040Driver (w25n01gv restlessPart)) configuredChip 1024).1 = OK ∧
      (mxfsErase (rp2040Driver (w25n01gv restlessPart)) configuredChip 1024).2.array 0 0 ≠
        configuredChip.array 0 0 := by
  obtain ⟨hret, harray⟩ := erase_alias restlessPart configuredChip 1024
  refine ⟨?_, hret, ?_⟩
  · rw [eraseConfined_iff]
    decide
  · rw [harray 0 0, if_pos (by decide)]
    intro hsame
    have hfirst : (List.replicate chipPageSize (0xFF : UInt8)).head? =
        (List.replicate chipPageSize 0).head? := congrArg (fun x => x.bytes.head?) hsame
    simp [chipPageSize] at hfirst

end Mxfs
