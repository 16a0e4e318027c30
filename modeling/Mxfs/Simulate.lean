import Mxfs.Direct
import Mxfs.Query
import Mxfs.Rp2040

/-!
# Mxfs.Simulate

The file system over two drivers at once.  `Driver.Simulates` says that two
drivers return the same from related devices, and keep them related, on the
calls `ok` allows; each function of the file system then does the same over
both, and so do whole runs:

* `session_simulates` — of appends, flushes, remounts and erases, which ask for
  little more than the calls `DeviceCall.OfFlush`;
* `client_simulates` — of these with direct writes, reads and searches between them,
  where the part is started anew at each remount.
-/

namespace Mxfs

open Lib

variable {σ τ : Type}

/-! ## drivers -/

/-- On the calls `ok`, related devices answer the same and stay related. -/
structure Driver.Simulates (D : Driver σ) (E : Driver τ) (R : σ → τ → Prop)
    (ok : DeviceCall → Prop) : Prop where
  call : ∀ s t c, R s t → ok c → D.answer s c = E.answer t c ∧ R (D.after s c) (E.after t c)

namespace Driver.Simulates

variable {D : Driver σ} {E : Driver τ} {R : σ → τ → Prop} {ok : DeviceCall → Prop}

/-- A read returns the same in a simulation's two drivers. -/
theorem read (h : D.Simulates E R ok) (hR : R s t) (hok : ok (.read block page bufferlen)) :
    (D.read s block page bufferlen).1 = (E.read t block page bufferlen).1 ∧
      (D.read s block page bufferlen).2.1 = (E.read t block page bufferlen).2.1 ∧
      R (D.read s block page bufferlen).2.2 (E.read t block page bufferlen).2.2 := by
  obtain ⟨hanswer, hafter⟩ := h.call s t _ hR hok
  have hpair := (List.cons.inj hanswer).1
  exact ⟨congrArg Prod.fst hpair, congrArg Prod.snd hpair, hafter⟩

/-- A write returns the same in a simulation's two drivers. -/
theorem write (h : D.Simulates E R ok) (hR : R s t) (hok : ok (.write block page buffer)) :
    (D.write s block page buffer).1 = (E.write t block page buffer).1 ∧
      R (D.write s block page buffer).2 (E.write t block page buffer).2 := by
  obtain ⟨hanswer, hafter⟩ := h.call s t _ hR hok
  exact ⟨congrArg Prod.fst (List.cons.inj hanswer).1, hafter⟩

/-- An erase returns the same in a simulation's two drivers. -/
theorem erase (h : D.Simulates E R ok) (hR : R s t) (hok : ok (.erase block)) :
    (D.erase s block).1 = (E.erase t block).1 ∧ R (D.erase s block).2 (E.erase t block).2 := by
  obtain ⟨hanswer, hafter⟩ := h.call s t _ hR hok
  exact ⟨congrArg Prod.fst (List.cons.inj hanswer).1, hafter⟩

/-- Fewer calls. -/
theorem mono (h : D.Simulates E R ok) {ok' : DeviceCall → Prop} (hle : ∀ c, ok' c → ok c) :
    D.Simulates E R ok' :=
  ⟨fun s t c hR hok => h.call s t c hR (hle c hok)⟩

/-- The record of the calls does not matter. -/
theorem logged (h : D.Simulates E R ok) :
    D.Simulates E.logged (fun s d => R s d.dev) ok := by
  refine ⟨fun s d c hR hok => ?_⟩
  obtain ⟨hanswer, hafter⟩ := h.call s d.dev c hR hok
  cases c <;> exact ⟨hanswer, hafter⟩

end Driver.Simulates

/-! ## the calls of a flush and of a mount -/

/-- A program of a page that starts with a header, an erase of a block of data. -/
inductive DeviceCall.OfFlush : DeviceCall → Prop
  | program (hb : IsData block) (hp : page < pageCount) (hlo : headerSize ≤ buffer.length)
      (hhi : buffer.length ≤ pageSize) (hmagic : leNat (slice buffer 0 4) = magic) :
      OfFlush (.write block page buffer)
  | erase (hb : IsData block) : OfFlush (.erase block)

/-- What a flush asks of the device addresses the part. -/
theorem DeviceCall.OfFlush.inRange {c : DeviceCall} (h : c.OfFlush) : c.InRange := by
  cases h with
  | program hb hp hlo hhi hmagic => exact ⟨hb.2, hp, hhi⟩
  | erase hb => exact hb.2

/-- What a direct write programs starts with a header. -/
structure HasHeader (data : List UInt8) : Prop where
  lo : headerSize ≤ data.length
  hi : data.length ≤ pageSize
  magic : leNat (slice data 0 4) = magic

/-- The scan of a mount reads the front of each block of data. -/
def Scans (ok : DeviceCall → Prop) : Prop := ∀ block, IsData block → ok (.read block 0 headerSize)

/-- The reads of a scan address the part. -/
theorem scans_inRange : Scans DeviceCall.InRange := fun _ hb => ⟨hb.2, by decide, by decide⟩

/-- A batch that is not empty has a header. -/
theorem Batch.headerSize_le_length_image (p : Batch) (hne : ¬ p.IsEmpty) :
    headerSize ≤ p.image.length := by
  obtain ⟨f, fs, hfs⟩ := p.exists_frames hne
  rw [image, hfs, List.flatMap_cons, Frame.bytes, List.length_append, List.length_append,
    Compress.length_bytes]
  omega

/-! ## the functions of the file system -/

/-- Two results have the same code and the same instance, and related devices. -/
structure Alike (R : σ → τ → Prop) (x : Int × Inst × σ) (y : Int × Inst × τ) : Prop where
  ret : x.1 = y.1
  inst : x.2.1 = y.2.1
  dev : R x.2.2 y.2.2

section functions

variable {B : Build} {D : Driver σ} {E : Driver τ} {R : σ → τ → Prop} {ok : DeviceCall → Prop}
variable (h : D.Simulates E R ok) {inst : Inst} {s : σ} {t : τ}
include h

/-- The scan of a block finds the same over both. -/
theorem scanBlock_simulates {x : Inst × σ} {y : Inst × τ} (hinst : x.1 = y.1) (hR : R x.2 y.2)
    (hok : ok (.read block 0 headerSize)) :
    (scanBlock B D x block).1 = (scanBlock B E y block).1 ∧
      R (scanBlock B D x block).2 (scanBlock B E y block).2 := by
  obtain ⟨hret, hrbf, hdev⟩ := h.read hR hok
  simp only [scanBlock, hret, hrbf, hinst]
  split <;> exact ⟨rfl, hdev⟩

/-- **A mount** makes the same instance over both. -/
theorem mount_simulates (hR : R s t) (hok : ∀ b, IsData b → ok (.read b 0 headerSize)) :
    (mount B D s).1 = (mount B E t).1 ∧ R (mount B D s).2 (mount B E t).2 := by
  have hscan : ∀ (bs : List Nat) (x : Inst × σ) (y : Inst × τ), (∀ b ∈ bs, IsData b) →
      x.1 = y.1 → R x.2 y.2 →
      (bs.foldl (scanBlock B D) x).1 = (bs.foldl (scanBlock B E) y).1 ∧
        R (bs.foldl (scanBlock B D) x).2 (bs.foldl (scanBlock B E) y).2 := by
    intro bs
    induction bs with
    | nil => exact fun x y _ hinst hR => ⟨hinst, hR⟩
    | cons b bs ih =>
        intro x y hbs hinst hR
        obtain ⟨hi, hr⟩ := scanBlock_simulates h (B := B) hinst hR
          (hok b (hbs b List.mem_cons_self))
        exact ih _ _ (fun c hc => hbs c (List.mem_cons_of_mem b hc)) hi hr
  obtain ⟨hinst, hdev⟩ := hscan dataBlocks (freshInst B, s) (freshInst B, t)
    (fun b => mem_dataBlocks.1) rfl hR
  rw [mount_inst, mount_inst, mount_dev, mount_dev, hinst]
  exact ⟨rfl, hdev⟩

/-- A program does the same over a driver and one that simulates it. -/
theorem program_simulates (st : FlushState) (hR : R s t)
    (hok : ok (.write inst.mxfsCurrentBlock inst.mxfsCurrentPage (st.work.take st.workLen))) :
    Alike R (program B D inst st s) (program B E inst st t) := by
  obtain ⟨hret, hdev⟩ := h.write hR hok
  simp only [program, hret]
  split <;> exact ⟨rfl, rfl, hdev⟩

/-- A commit does the same over both. -/
theorem commit_simulates (st : FlushState) (hR : R s t)
    (hwrite : ok (.write inst.mxfsCurrentBlock inst.mxfsCurrentPage (st.work.take st.workLen)))
    (herase : ok (.erase inst.mxfsCurrentBlock)) :
    Alike R (commit B D inst st s) (commit B E inst st t) := by
  cases hflag : inst.blockFlagged inst.mxfsCurrentBlock with
  | false =>
      rw [commit_of_not_flagged B D st hflag, commit_of_not_flagged B E st hflag]
      exact program_simulates h st hR hwrite
  | true =>
      obtain ⟨hret, hdev⟩ := h.erase hR herase
      by_cases hok : (E.erase t inst.mxfsCurrentBlock).1 = OK
      · rw [commit_of_erased B D st hflag (hret.trans hok), commit_of_erased B E st hflag hok]
        exact program_simulates h st hdev hwrite
      · rw [commit_of_not_erased B D st hflag (fun hd => hok (hret.symm.trans hd)),
          commit_of_not_erased B E st hflag hok]
        exact ⟨rfl, rfl, hdev⟩

/-- **A flush** does the same over both. -/
theorem mxfsFlush_simulates {p : Batch} (hp : Buffers B inst p) (hR : R s t)
    (hwrite : ¬ p.IsEmpty → ok (.write inst.mxfsCurrentBlock inst.mxfsCurrentPage p.image))
    (herase : ok (.erase inst.mxfsCurrentBlock)) :
    Alike R (mxfsFlush B D inst s) (mxfsFlush B E inst t) := by
  rw [mxfsFlush_eq hp, mxfsFlush_eq hp]
  by_cases hempty : p.IsEmpty
  · rw [if_pos hempty, if_pos hempty]
    exact ⟨rfl, rfl, hR⟩
  · rw [if_neg hempty, if_neg hempty]
    refine commit_simulates h (prepare inst).2 hR ?_ herase
    rw [prepare_data hp]
    exact hwrite hempty

/-- **An append** does the same over both. -/
theorem mxfsAppend_simulates {p : Batch} (hp : Buffers B inst p) (hR : R s t)
    (hwrite : ¬ p.IsEmpty → ok (.write inst.mxfsCurrentBlock inst.mxfsCurrentPage p.image))
    (herase : ok (.erase inst.mxfsCurrentBlock)) (layer : UInt8) (tmm : UInt64)
    (buffer : List UInt8) :
    Alike R (mxfsAppend B D inst s layer tmm buffer) (mxfsAppend B E inst t layer tmm buffer) := by
  cases hr : record? layer tmm buffer with
  | none =>
      rw [mxfsAppend_of_none inst s hr, mxfsAppend_of_none inst t hr]
      exact ⟨rfl, rfl, hR⟩
  | some x =>
      obtain ⟨l, r⟩ := x
      -- place is made alike, and the copy behind it sees only the instance
      have hplaced : (placed B D p l inst s).1 = (placed B E p l inst t).1 ∧
          R (placed B D p l inst s).2 (placed B E p l inst t).2 := by
        unfold placed
        split
        · have hflush := mxfsFlush_simulates h hp hR hwrite herase
          exact ⟨hflush.inst, hflush.dev⟩
        · exact ⟨rfl, hR⟩
      rw [mxfsAppend_of_some hp s hr, mxfsAppend_of_some hp t hr, hplaced.1]
      exact ⟨rfl, rfl, hplaced.2⟩

/-- **A read of records** returns the same over both. -/
theorem mxfsRead_simulates (hR : R s t) (layer : UInt8) (bufferlen : UInt16)
    (hok : ok (.read block page pageSize)) :
    (mxfsRead D s layer bufferlen block page).1 = (mxfsRead E t layer bufferlen block page).1 ∧
      R (mxfsRead D s layer bufferlen block page).2
        (mxfsRead E t layer bufferlen block page).2 := by
  obtain ⟨hret, hrbf, hdev⟩ := h.read hR hok
  unfold mxfsRead
  split
  · exact ⟨rfl, hR⟩
  · simp only [hret, hrbf]
    split <;> exact ⟨rfl, hdev⟩

variable (inst) in
/-- A page is listed over both or over none. -/
theorem pageListed_simulates (hR : R s t) (layer : UInt8)
    (hok : B.linux = false → ok (.read block page headerSize)) :
    (pageListed B D inst layer s block page).1 = (pageListed B E inst layer t block page).1 ∧
      R (pageListed B D inst layer s block page).2 (pageListed B E inst layer t block page).2 := by
  cases hB : B.linux with
  | true =>
      -- the table is all that is looked at
      simp only [pageListed, hB, if_true]
      exact ⟨trivial, hR⟩
  | false =>
      obtain ⟨hret, hrbf, hdev⟩ := h.read hR (hok hB)
      simp only [pageListed, hB, Bool.false_eq_true, if_false, hret, hrbf]
      split
      · exact ⟨rfl, hdev⟩
      · split <;> exact ⟨rfl, hdev⟩

variable (inst) in
/-- The loop of the search fills in the same over both. -/
theorem searchLoop_simulates (layer : UInt8) (count : Nat) {pages : List (Nat × Nat)}
    (hok : B.linux = false → ∀ x ∈ pages, ok (.read x.1 x.2 headerSize)) (cnt : Nat)
    (ranges : List TimeRange)
    (hR : R s t) :
    (searchLoop B D inst layer count pages cnt ranges s).1 =
        (searchLoop B E inst layer count pages cnt ranges t).1 ∧
      R (searchLoop B D inst layer count pages cnt ranges s).2
        (searchLoop B E inst layer count pages cnt ranges t).2 := by
  induction pages generalizing cnt ranges s t with
  | nil => exact ⟨rfl, hR⟩
  | cons x pages ih =>
      obtain ⟨block, page⟩ := x
      obtain ⟨hlisted, hdev⟩ := pageListed_simulates h (B := B) inst hR layer
        fun hB => hok hB (block, page) List.mem_cons_self
      have hrest : B.linux = false → ∀ y ∈ pages, ok (.read y.1 y.2 headerSize) :=
        fun hB y hy => hok hB y (List.mem_cons_of_mem _ hy)
      simp only [searchLoop, hlisted]
      cases (pageListed B E inst layer t block page).1 with
      | none => exact ⟨rfl, hdev⟩
      | some listed =>
          cases listed with
          | false => exact ih hrest cnt ranges hdev
          | true =>
              dsimp only
              split
              · exact ih hrest (cnt + 1) _ hdev
              · exact ⟨rfl, hdev⟩

variable (inst) in
/-- **A search** returns the same over both. -/
theorem mxfsTimerange_simulates (hR : R s t) (layer : UInt8) (ranges : List TimeRange)
    (timerangecount : UInt16)
    (hok : B.linux = false → ∀ x ∈ dataPages, ok (.read x.1 x.2 headerSize)) :
    (mxfsTimerange B D inst s layer ranges timerangecount).1 =
        (mxfsTimerange B E inst t layer ranges timerangecount).1 ∧
      R (mxfsTimerange B D inst s layer ranges timerangecount).2
        (mxfsTimerange B E inst t layer ranges timerangecount).2 := by
  unfold mxfsTimerange
  split
  · exact ⟨rfl, hR⟩
  · exact searchLoop_simulates h inst layer _ hok 0 ranges hR

/-- The reads of several pages return the same over both. -/
theorem readPages_simulates (hR : R s t) (layer : UInt8) (bufferlen : UInt16)
    {pages : List (Nat × Nat)} (hok : ∀ x ∈ pages, ok (.read x.1 x.2 pageSize)) :
    (readPages D layer bufferlen pages s).1 = (readPages E layer bufferlen pages t).1 ∧
      R (readPages D layer bufferlen pages s).2 (readPages E layer bufferlen pages t).2 := by
  induction pages generalizing s t with
  | nil => exact ⟨rfl, hR⟩
  | cons x pages ih =>
      obtain ⟨hdata, hdev⟩ := mxfsRead_simulates h hR layer bufferlen (hok x List.mem_cons_self)
      obtain ⟨hrest, hdev'⟩ := ih hdev fun y hy => hok y (List.mem_cons_of_mem _ hy)
      simp only [readPages, hdata, hrest]
      exact ⟨trivial, hdev'⟩

/-- **A direct write** returns the same over both. -/
theorem mxfsWrite_simulates (hR : R s t) (wbf : Page) (layer : UInt8)
    (buffer : Option (List UInt8)) (bufferlen : UInt16) (block page : Nat)
    (hok : ∀ data, HasHeader data → ok (.write block page data)) :
    (mxfsWrite D s wbf layer buffer bufferlen block page).1 =
        (mxfsWrite E t wbf layer buffer bufferlen block page).1 ∧
      R (mxfsWrite D s wbf layer buffer bufferlen block page).2
        (mxfsWrite E t wbf layer buffer bufferlen block page).2 := by
  cases buffer with
  | none => exact ⟨rfl, hR⟩
  | some buffer =>
      simp only [mxfsWrite]
      split
      · exact ⟨rfl, hR⟩
      · split
        · exact ⟨rfl, hR⟩
        · cases hpage : directPage wbf buffer bufferlen.toNat with
          | none => exact ⟨rfl, hR⟩
          | some data =>
              have hle : bufferlen.toNat ≤ 2032 := by
                by_contra hgt
                rw [directPage_of_gt (by omega)] at hpage
                cases hpage
              have hheader : HasHeader (data.take ((bufferlen.toNat + headerSize) % 65536)) := by
                refine ⟨?_, ?_, magic_directPage hpage⟩
                · rw [List.length_take, length_directPage hpage]
                  unfold headerSize pageSize
                  omega
                · rw [List.length_take, length_directPage hpage]
                  exact Nat.min_le_right _ _
              obtain ⟨hret, hdev⟩ := h.write hR (hok _ hheader)
              exact ⟨congrArg some hret, hdev⟩

end functions

/-! ## sessions -/

/-- The code a call returns. -/
def callRet (B : Build) (D : Driver σ) (w : World σ) (op : Op) : List Int := [(call B D w op).1]

/-- What an operation asks of the driver besides the calls of a flush. -/
def Op.Asks (ok : DeviceCall → Prop) : Op → Prop
  | .erase block => ok (.erase block)
  | .remount => Scans ok
  | .append _ _ _ | .flush => True

/-- An erase is of a block of the part. -/
def Op.OnPart : Op → Prop
  | .erase block => block < blockCount
  | _ => True

/-- An operation on the part's blocks asks for erases of these only. -/
theorem Op.OnPart.asks {op : Op} (h : op.OnPart) {ok : DeviceCall → Prop} (hscan : Scans ok)
    (hok : ∀ block < blockCount, ok (.erase block)) : op.Asks ok := by
  cases op with
  | erase block => exact hok block h
  | remount => exact hscan
  | _ => trivial

/-- Appends and flushes address the part. -/
theorem Op.IsLog.onPart {op : Op} (h : op.IsLog) : op.OnPart := by
  cases op with
  | erase block => cases h
  | _ => trivial

/-- Appends and flushes ask for nothing else. -/
theorem Op.IsLog.asks {op : Op} (h : op.IsLog) (ok : DeviceCall → Prop) : op.Asks ok := by
  cases op with
  | append layer tmm buffer => trivial
  | flush => trivial
  | remount => cases h
  | erase block => cases h

/-- `w` is a world over the page array in disguise. -/
structure World.Looks (B : Build) (R : σ → Flash → Prop) (w : World σ)
    (v : World (Logged Flash)) : Prop where
  inst : w.inst = v.inst
  dev : R w.dev v.dev.dev
  /-- The world over the page array is one that calls lead to. -/
  reached : ∃ m : Model, m.Abstracts B v

/-- Only the instance matters for what calls lead to. -/
theorem World.Looks.reached_dev {B : Build} {R : σ → Flash → Prop} {w : World σ} {inst : Inst}
    {d : Logged Flash} (h : w.Looks B R ⟨inst, d⟩) (d' : Logged Flash) :
    ∃ m : Model, m.Abstracts B ⟨inst, d'⟩ := by
  obtain ⟨m, hm⟩ := h.reached
  exact ⟨⟨m.log, { m.store with flash := d'.dev, calls := d'.calls }⟩, hm.buffers,
    ⟨hm.shows.block, hm.shows.page, hm.shows.marked, rfl, rfl⟩⟩

section sessions

variable {B : Build} {D : Driver σ} {M : Medium} {R : σ → Flash → Prop}
variable {ok : DeviceCall → Prop} (h : D.Simulates (pageArray M) R ok)
include h

/-- **After a mount** the driver cannot be told from the page array. -/
theorem looks_mounted (hscan : Scans ok) (hR : R s f) :
    (World.mounted B D s).Looks B R
      (World.mounted B (pageArray M).logged (Logged.start f)) := by
  obtain ⟨hinst, hdev⟩ := mount_simulates (B := B) h.logged (s := s) (t := Logged.start f) hR
    hscan
  refine ⟨?_, ?_, _, Model.abstracts_init B M f⟩
  · rw [World.mounted_inst, World.mounted_inst, hinst]
  · rw [World.mounted_dev, World.mounted_dev]
    exact hdev

variable (hok : ∀ c : DeviceCall, c.OfFlush → ok c)
include hok

/-- **One call** cannot tell the driver from the page array. -/
theorem call_simulates {w : World σ} {v : World (Logged Flash)} (hw : w.Looks B R v) {op : Op}
    (hop : op.Asks ok) :
    callRet B D w op = callRet B (pageArray M).logged v op ∧
      (next B D w op).Looks B R (next B (pageArray M).logged v op) := by
  obtain ⟨hinst, hdev, m, hm⟩ := hw
  have hreached : ∃ m' : Model, m'.Abstracts B (next B (pageArray M).logged v op) :=
    ⟨_, Model.abstracts_next hm op⟩
  have hbuffers := hm.buffers
  have hlen : m.log.pending.image.length ≤ pageSize := by
    have hfits := hbuffers.fits
    rw [Batch.length_image]
    unfold pageSize
    omega
  -- the cursor of the store is in the data area
  have hwrite : ¬ m.log.pending.IsEmpty →
      ok (.write v.inst.mxfsCurrentBlock v.inst.mxfsCurrentPage m.log.pending.image) := by
    intro hne
    have hmagic := m.log.pending.slice_image_magic hbuffers.fits hne []
    rw [List.append_nil] at hmagic
    rw [hm.shows.block, hm.shows.page]
    exact hok _ (.program m.store.cursor.isData m.store.cursor.page_lt
      (Batch.headerSize_le_length_image _ hne) hlen hmagic)
  have herase : ok (.erase v.inst.mxfsCurrentBlock) := by
    rw [hm.shows.block]
    exact hok _ (.erase m.store.cursor.isData)
  obtain ⟨inst, s⟩ := w
  subst hinst
  cases op with
  | append layer tmm buffer =>
      obtain ⟨hret, hi, hd⟩ :=
        mxfsAppend_simulates h.logged hbuffers hdev hwrite herase layer tmm buffer
      exact ⟨congrArg (fun r => [r]) hret, hi, hd, hreached⟩
  | flush =>
      obtain ⟨hret, hi, hd⟩ := mxfsFlush_simulates h.logged hbuffers hdev hwrite herase
      exact ⟨congrArg (fun r => [r]) hret, hi, hd, hreached⟩
  | remount =>
      obtain ⟨hi, hd⟩ := mount_simulates (B := B) h.logged hdev hop
      refine ⟨rfl, ?_, ?_, hreached⟩
      · show (World.mounted B D s).inst = (World.mounted B (pageArray M).logged v.dev).inst
        rw [World.mounted_inst, World.mounted_inst, hi]
      · show R (World.mounted B D s).dev (World.mounted B (pageArray M).logged v.dev).dev.dev
        rw [World.mounted_dev, World.mounted_dev]
        exact hd
  | erase block =>
      obtain ⟨hret, hd⟩ := h.logged.erase hdev hop
      exact ⟨congrArg (fun r => [r]) hret, rfl, hd, hreached⟩

/-- The records a call takes in are those it takes in over the page array. -/
theorem accepted_simulates {w : World σ} {v : World (Logged Flash)} (hw : w.Looks B R v) {op : Op}
    (hop : op.Asks ok) (l : Layer) :
    accepted B D l w op = accepted B (pageArray M).logged l v op := by
  cases op with
  | append layer tmm buffer =>
      have hret := (List.cons.inj (call_simulates h hok hw hop).1).1
      rw [accepted, accepted, hret]
  | flush => rfl
  | remount => rfl
  | erase block => rfl

/-- **Any calls** return what they return over the page array, with the same
instance, and leave the device related to the pages. -/
theorem run_next_simulates {w : World σ} {v : World (Logged Flash)} (hw : w.Looks B R v)
    {ops : List Op} (hops : ∀ op ∈ ops, op.Asks ok) :
    observe (next B D) (callRet B D) w ops =
        observe (next B (pageArray M).logged) (callRet B (pageArray M).logged) v ops ∧
      (run (next B D) w ops).Looks B R (run (next B (pageArray M).logged) v ops) := by
  have halong : Along (next B D) (fun _ op => op.Asks ok) w ops := along_of_forall hops _
  exact ⟨observe_simulates (fun _ _ _ hw hop => call_simulates h hok hw hop) hw halong,
    run_simulates (fun _ _ _ hw hop => (call_simulates h hok hw hop).2) hw halong⟩

/-- **A session** returns what it returns over the page array, with the same instance. -/
theorem session_simulates (hscan : Scans ok) (hR : R s f) {ops : List Op}
    (hops : ∀ op ∈ ops, op.Asks ok) :
    observe (next B D) (callRet B D) (World.mounted B D s) ops =
        observe (next B (pageArray M).logged) (callRet B (pageArray M).logged)
          (pageSession B M f []) ops ∧
      (session B D s ops).Looks B R (pageSession B M f ops) :=
  run_next_simulates h hok (looks_mounted h hscan hR) hops

/-- The records a session takes in are those it takes in over the page array. -/
theorem acceptedBy_simulates (hscan : Scans ok) (hR : R s f) {ops : List Op}
    (hops : ∀ op ∈ ops, op.Asks ok) (l : Layer) :
    acceptedBy B D (World.mounted B D s) ops l =
      acceptedBy B (pageArray M).logged (pageSession B M f []) ops l :=
  observe_simulates
    (fun _ _ _ hw hop => ⟨accepted_simulates h hok hw hop l, (call_simulates h hok hw hop).2⟩)
    (looks_mounted (B := B) h hscan hR) (along_of_forall hops _)

end sessions

/-! ## clients -/

/-- The calls of a client, direct writes and queries included.  The work buffer of
a write is not initialized. -/
inductive ClientCall where
  | op (op : Op)
  | write (wbf : Page) (layer : UInt8) (buffer : Option (List UInt8)) (bufferlen : UInt16)
      (block page : Nat)
  | read (layer : UInt8) (bufferlen : UInt16) (block page : Nat)
  | timerange (layer : UInt8) (ranges : List TimeRange) (timerangecount : UInt16)

/-- What comes back: a code, or a code with what was written to the client's
memory; `none` stands for undefined behaviour. -/
inductive Answer where
  | ret (ret : Int)
  | wrote (r : Option Int)
  | data (r : Option (Int × List UInt8))
  | ranges (r : Option (Int × List TimeRange))

/-- One call of a client.  `create` is what `mxfs_driver_create_spi` makes of the
device, which a remount starts anew. -/
def serve (B : Build) (D : Driver σ) (create : σ → σ) (w : World σ) :
    ClientCall → Answer × World σ
  | .op .remount => (.ret OK, World.mounted B D (create w.dev))
  | .op op =>
    let (ret, w) := call B D w op
    (.ret ret, w)
  | .write wbf layer buffer bufferlen block page =>
    let (r, dev) := mxfsWrite D w.dev wbf layer buffer bufferlen block page
    (.wrote r, { w with dev := dev })
  | .read layer bufferlen block page =>
    let (r, dev) := mxfsRead D w.dev layer bufferlen block page
    (.data r, { w with dev := dev })
  | .timerange layer ranges timerangecount =>
    let (r, dev) := mxfsTimerange B D w.inst w.dev layer ranges timerangecount
    (.ranges r, { w with dev := dev })

/-- The world after the call. -/
def served (B : Build) (D : Driver σ) (create : σ → σ) (w : World σ) (c : ClientCall) : World σ :=
  (serve B D create w c).2

def answers (B : Build) (D : Driver σ) (create : σ → σ) (w : World σ) (c : ClientCall) :
    List Answer :=
  [(serve B D create w c).1]

/-- What a call asks of the driver besides the calls of a flush. -/
def ClientCall.Asks (B : Build) (ok : DeviceCall → Prop) : ClientCall → Prop
  | .op o => o.Asks ok
  | .write _ _ _ _ block page => ∀ data, HasHeader data → ok (.write block page data)
  | .read _ _ block page => ok (.read block page pageSize)
  | .timerange _ _ _ => B.linux = false → ∀ x ∈ dataPages, ok (.read x.1 x.2 headerSize)

/-- The pages the client names are the part's. -/
def ClientCall.OnPart : ClientCall → Prop
  | .op o => o.OnPart
  | .write _ _ _ _ block page | .read _ _ block page => block < blockCount ∧ page < pageCount
  | .timerange _ _ _ => True

/-- A call that names pages of the part asks for these only. -/
theorem ClientCall.OnPart.asks {c : ClientCall} (h : c.OnPart) (B : Build) :
    c.Asks B DeviceCall.InRange := by
  cases c with
  | op o => exact Op.OnPart.asks h scans_inRange fun block hb => hb
  | write wbf layer buffer bufferlen block page => exact fun data hdata => ⟨h.1, h.2, hdata.hi⟩
  | read layer bufferlen block page => exact ⟨h.1, h.2, Nat.le_refl _⟩
  | timerange layer ranges timerangecount =>
      exact fun _ x hx => ⟨(mem_dataPages.1 hx).1.2, (mem_dataPages.1 hx).2, by decide⟩

section clients

variable {B : Build} {D : Driver σ} {M : Medium} {R : σ → Flash → Prop}
variable {ok : DeviceCall → Prop} (h : D.Simulates (pageArray M) R ok)
variable (hok : ∀ c : DeviceCall, c.OfFlush → ok c) {create : σ → σ}
include h hok

/-- A remount starts the part anew, and mounts it. -/
theorem serve_remount_simulates (hcreate : ∀ s f, R s f → R (create s) f) (hscan : Scans ok)
    {w : World σ} {v : World (Logged Flash)} (hw : w.Looks B R v) :
    (World.mounted B D (create w.dev)).Looks B R (World.mounted B (pageArray M).logged v.dev) := by
  obtain ⟨m, hm⟩ := hw.reached
  have hdev : R (create w.dev) v.dev.dev := hcreate _ _ hw.dev
  have hstarted : (⟨v.inst, create w.dev⟩ : World σ).Looks B R v := ⟨rfl, hdev, hw.reached⟩
  have hasks : Op.remount.Asks ok := hscan
  exact (call_simulates h hok hstarted hasks).2

/-- **One call of a client** cannot tell the driver from the page array. -/
theorem serve_simulates (hcreate : ∀ s f, R s f → R (create s) f) {w : World σ}
    {v : World (Logged Flash)} (hw : w.Looks B R v) {c : ClientCall} (hc : c.Asks B ok) :
    answers B D create w c = answers B (pageArray M).logged id v c ∧
      (served B D create w c).Looks B R (served B (pageArray M).logged id v c) := by
  obtain ⟨inst, s⟩ := w
  obtain ⟨inst', d⟩ := v
  obtain rfl : inst = inst' := hw.inst
  cases c with
  | op o =>
      by_cases hremount : o = .remount
      · subst hremount
        exact ⟨rfl, serve_remount_simulates h hok hcreate hc hw⟩
      · obtain ⟨hret, hnext⟩ := call_simulates h hok hw hc
        cases o with
        | remount => exact absurd rfl hremount
        | _ => exact ⟨congrArg (fun r => [Answer.ret r]) (List.cons.inj hret).1, hnext⟩
  | write wbf layer buffer bufferlen block page =>
      obtain ⟨hret, hdev⟩ := mxfsWrite_simulates h.logged hw.dev wbf layer buffer bufferlen block
        page hc
      exact ⟨congrArg (fun r => [Answer.wrote r]) hret, rfl, hdev, hw.reached_dev _⟩
  | read layer bufferlen block page =>
      obtain ⟨hdata, hdev⟩ :=
        mxfsRead_simulates h.logged hw.dev layer bufferlen hc
      exact ⟨congrArg (fun r => [Answer.data r]) hdata, rfl, hdev, hw.reached_dev _⟩
  | timerange layer ranges timerangecount =>
      obtain ⟨hranges, hdev⟩ := mxfsTimerange_simulates h.logged (B := B) inst hw.dev
        layer ranges timerangecount hc
      exact ⟨congrArg (fun r => [Answer.ranges r]) hranges, rfl, hdev, hw.reached_dev _⟩

/-- **A client's run** answers as it would over the page array, with the same
instance, and leaves the device related to the pages. -/
theorem run_served_simulates (hcreate : ∀ s f, R s f → R (create s) f) {w : World σ}
    {v : World (Logged Flash)} (hw : w.Looks B R v) {cs : List ClientCall}
    (hcs : ∀ c ∈ cs, c.Asks B ok) :
    observe (served B D create) (answers B D create) w cs =
        observe (served B (pageArray M).logged id) (answers B (pageArray M).logged id) v cs ∧
      (run (served B D create) w cs).Looks B R (run (served B (pageArray M).logged id) v cs) := by
  have halong : Along (served B D create) (fun _ c => c.Asks B ok) w cs := along_of_forall hcs _
  exact ⟨observe_simulates (fun _ _ _ hw hc => serve_simulates h hok hcreate hw hc) hw halong,
    run_simulates (fun _ _ _ hw hc => (serve_simulates h hok hcreate hw hc).2) hw halong⟩

/-- **A client, from its first mount on**, cannot tell the driver from the page array. -/
theorem client_simulates (hcreate : ∀ s f, R s f → R (create s) f) (hscan : Scans ok)
    (hR : R s f) {cs : List ClientCall} (hcs : ∀ c ∈ cs, c.Asks B ok) :
    observe (served B D create) (answers B D create) (World.mounted B D s) cs =
        observe (served B (pageArray M).logged id) (answers B (pageArray M).logged id)
          (pageSession B M f []) cs ∧
      (run (served B D create) (World.mounted B D s) cs).Looks B R
        (run (served B (pageArray M).logged id) (pageSession B M f []) cs) :=
  run_served_simulates h hok hcreate (looks_mounted h hscan hR) hcs

end clients

/-! ### clients without their queries -/

end Mxfs
