import Mathlib.Data.List.Perm.Subperm
import Mxfs.Log

/-!
# Mxfs.Failure

What an append keeps when the driver fails.  The automatic flush empties all
layers before its driver calls, and `mxfs_append` does not look at its result:
`append_keeps_iff` says that an append which returns `OK` has kept every
record exactly if the driver took the page of its flush, where it made one.
-/

namespace Mxfs

open Lib

variable {σ : Type}

/-! ## what is kept -/

/-- The programs among the calls that the driver reported as done. -/
def okWrites (calls : List (Call σ)) : List (Nat × Nat × List UInt8) :=
  writes (calls.filter fun c => c.ret = OK)

/-- The records of a layer on the pages the driver reported as programmed. -/
def written (calls : List (Call σ)) (l : Layer) : List (List UInt8) :=
  (okWrites calls).flatMap fun c => pagePayloads c.2.2 l

/-- Between `w` and `w'` every buffered record stays in its layer or goes to a
page the driver took, and the new one is buffered; equal records are counted. -/
def KeepsRecords (w w' : World (Logged σ)) (layer : UInt8) (buffer : List UInt8) : Prop :=
  ∀ l : Layer, ∃ still moved, (buffered w.inst l).Perm (still ++ moved) ∧
    (still ++ newRecord layer buffer l).Subperm (buffered w'.inst l) ∧
    moved.Subperm (written (w'.dev.calls.drop w.dev.calls.length) l)

/-- What a flush hands to the driver. -/
def flushData (inst : Inst) : List UInt8 := (prepare inst).2.work.take (prepare inst).2.workLen

/-- The driver takes the page `data`: the erase of the current block, if it is
marked, and the program of the page. -/
def Driver.Takes (D : Driver σ) (inst : Inst) (data : List UInt8) (dev : σ) : Prop :=
  if inst.blockFlagged inst.mxfsCurrentBlock then
    (D.erase dev inst.mxfsCurrentBlock).1 = OK ∧
      (D.write (D.erase dev inst.mxfsCurrentBlock).2 inst.mxfsCurrentBlock inst.mxfsCurrentPage
        data).1 = OK
  else (D.write dev inst.mxfsCurrentBlock inst.mxfsCurrentPage data).1 = OK

/-! ## the calls of a commit -/

/-- The one program of `program`, whatever comes of it. -/
theorem program_calls (B : Build) (D : Driver σ) (i : Inst) (s : FlushState) (d : Logged σ) :
    (program B D.logged i s d).2.2.calls = d.calls ++
      [⟨.write i.mxfsCurrentBlock i.mxfsCurrentPage (s.work.take s.workLen), d.dev,
        (D.write d.dev i.mxfsCurrentBlock i.mxfsCurrentPage (s.work.take s.workLen)).1⟩] := by
  have hdev : (program B D.logged i s d).2.2 =
      (D.logged.write d i.mxfsCurrentBlock i.mxfsCurrentPage (s.work.take s.workLen)).2 := by
    rw [program]
    rcases D.logged.write d i.mxfsCurrentBlock i.mxfsCurrentPage (s.work.take s.workLen) with
      ⟨ret, dev⟩
    dsimp only
    split <;> rfl
  rw [hdev]; rfl

theorem okWrites_append (xs ys : List (Call σ)) :
    okWrites (xs ++ ys) = okWrites xs ++ okWrites ys := by
  rw [okWrites, List.filter_append, writes_append, okWrites, okWrites]

theorem okWrites_erase (b : Nat) (dev : σ) (ret : Int) : okWrites [⟨.erase b, dev, ret⟩] = [] := by
  unfold okWrites
  by_cases h : ret = OK <;> simp [h, writes, Request.write?]

theorem okWrites_write (b p : Nat) (data : List UInt8) (dev : σ) (ret : Int) :
    okWrites [⟨.write b p data, dev, ret⟩] = if ret = OK then [(b, p, data)] else [] := by
  unfold okWrites
  by_cases h : ret = OK <;> simp [h, writes, Request.write?]

/-- **The programs of a commit that are done**: the one page if the driver takes
it, none otherwise. -/
theorem commit_okWrites (B : Build) (D : Driver σ) (inst : Inst) (s : FlushState)
    (d : Logged σ) :
    ∃ new, (commit B D.logged inst s d).2.2.calls = d.calls ++ new ∧
      (D.Takes inst (s.work.take s.workLen) d.dev → okWrites new =
        [(inst.mxfsCurrentBlock, inst.mxfsCurrentPage, s.work.take s.workLen)]) ∧
      (¬ D.Takes inst (s.work.take s.workLen) d.dev → okWrites new = []) := by
  unfold Driver.Takes
  cases hf : inst.blockFlagged inst.mxfsCurrentBlock with
  | false =>
      rw [commit_of_not_flagged B D.logged s hf, program_calls]
      refine ⟨_, rfl, ?_, ?_⟩
      · intro htake
        rw [okWrites_write]
        exact if_pos htake
      · intro htake
        rw [okWrites_write]
        exact if_neg htake
  | true =>
      by_cases hret : (D.erase d.dev inst.mxfsCurrentBlock).1 = OK
      · rw [commit_of_erased B D.logged s hf hret, program_calls]
        refine ⟨_, List.append_assoc _ _ _, ?_, ?_⟩
        · intro htake
          rw [okWrites_append, okWrites_erase, okWrites_write, List.nil_append]
          exact if_pos htake.2
        · intro htake
          rw [okWrites_append, okWrites_erase, okWrites_write, List.nil_append]
          exact if_neg fun hw => htake ⟨hret, hw⟩
      · rw [commit_of_not_erased B D.logged s hf hret]
        refine ⟨_, rfl, ?_, ?_⟩
        · intro htake
          exact absurd htake.1 hret
        · intro _
          exact okWrites_erase _ _ _

/-! ## an append -/

/-- An append that returns `OK` keeps every record. -/
def AppendKeeps (B : Build) (D : Driver σ) (w : World (Logged σ)) (layer : UInt8) (tmm : UInt64)
    (buffer : List UInt8) : Prop :=
  (call B D.logged w (.append layer tmm buffer)).1 = OK →
    KeepsRecords w (next B D.logged w (.append layer tmm buffer)) layer buffer

section append

variable {B : Build} {D : Driver σ} {w : World (Logged σ)} {a : LogState}

theorem buffered_eq (h : Buffers B w.inst a.pending) (l : Layer) :
    buffered w.inst l = a.pending.payloads l := (h.layers l).buffered

/-- A malformed append is refused. -/
theorem appendKeeps_of_none (h : Buffers B w.inst a.pending)
    (hr : record? layer tmm buffer = none) : AppendKeeps B D w layer tmm buffer := by
  intro hret
  rw [call_append_ret h, LogState.step, hr] at hret
  exact absurd hret ERR_ne_OK

/-- Without a flush an append leaves the records where they are. -/
theorem appendKeeps_of_not_full (h : Buffers B w.inst a.pending) {l : Layer} {r : Record l}
    (hr : record? layer tmm buffer = some ⟨l, r⟩) (hfull : ¬ LogState.Full a.pending l) :
    AppendKeeps B D w layer tmm buffer := by
  intro hret k
  have hbuf := buffers_next (D := D.logged) h (.append layer tmm buffer)
  rw [call_append_ret h] at hret
  rw [LogState.next] at hbuf
  by_cases hroom : LogState.HasRoom B a.pending l
  · simp only [LogState.step, hr, LogState.append_of_room B r hfull hroom] at hbuf
    refine ⟨a.pending.payloads k, [], ?_, ?_, List.nil_subperm⟩
    · rw [buffered_eq h, List.append_nil]
    · rw [(hbuf.layers k).buffered]
      show List.Subperm _ ((a.pending.push l r).payloads k)
      rw [payloads_push a.pending hr]
  · simp only [LogState.step, hr, LogState.append_of_no_room B r hfull hroom] at hret
    exact absurd hret NEED_MORE_BUFFER_ne_OK

/-- The device after an append that flushes. -/
theorem dev_of_full (h : Buffers B w.inst a.pending) {l : Layer} {r : Record l}
    (hr : record? layer tmm buffer = some ⟨l, r⟩) (hfull : LogState.Full a.pending l) :
    (next B D.logged w (.append layer tmm buffer)).dev =
      (commit B D.logged w.inst.clear (prepare w.inst).2 w.dev).2.2 := by
  have hlog : Op.IsLog (.append layer tmm buffer) := trivial
  exact (effect_of_puts (D := D.logged) h hlog ((LogState.puts_append_of_some hr).2 hfull)).1

/-- **An append that flushes keeps every record exactly if the driver takes the page.** -/
theorem appendKeeps_iff_of_full (h : Buffers B w.inst a.pending) {l : Layer} {r : Record l}
    (hr : record? layer tmm buffer = some ⟨l, r⟩) (hfull : LogState.Full a.pending l) :
    AppendKeeps B D w layer tmm buffer ↔ D.Takes w.inst (flushData w.inst) w.dev.dev := by
  have hret : (call B D.logged w (.append layer tmm buffer)).1 = OK := by
    rw [call_append_ret h, LogState.step, hr]
    simp only [LogState.append_of_full B r hfull]
  have hafter : ∀ k, buffered (next B D.logged w (.append layer tmm buffer)).inst k =
      newRecord layer buffer k := by
    intro k
    have hbuf := buffers_next (D := D.logged) h (.append layer tmm buffer)
    rw [LogState.next] at hbuf
    simp only [LogState.step, hr, LogState.append_of_full B r hfull] at hbuf
    rw [(hbuf.layers k).buffered]
    exact (newRecord_of_record? hr k).symm
  obtain ⟨new, hnew, htakes, hfails⟩ :=
    commit_okWrites B D w.inst.clear (prepare w.inst).2 w.dev
  have hdrop : (next B D.logged w (.append layer tmm buffer)).dev.calls.drop w.dev.calls.length =
      new := by
    rw [dev_of_full h hr hfull, hnew, List.drop_left]
  constructor
  · intro hkeeps
    by_contra hn
    -- nothing was programmed and the buffers hold the new record only
    have hnone : ∀ k, a.pending k = [] := by
      intro k
      obtain ⟨still, moved, hperm, hstill, hmoved⟩ := hkeeps hret k
      rw [hdrop, written, hfails hn] at hmoved
      rw [hafter] at hstill
      have h1 := hstill.length_le
      have h2 := hmoved.length_le
      have h3 := hperm.length_eq
      rw [buffered_eq h, Batch.payloads, List.length_map, List.length_append] at h3
      simp only [List.length_append, List.flatMap_nil, List.length_nil] at h1 h2
      exact List.eq_nil_of_length_eq_zero (by omega)
    exact LogState.not_isEmpty_of_full hfull hnone
  · intro htake _ k
    refine ⟨[], a.pending.payloads k, ?_, ?_, ?_⟩
    · rw [buffered_eq h, List.nil_append]
    · rw [hafter, List.nil_append]
    · have hdata : (prepare w.inst).2.work.take (prepare w.inst).2.workLen = a.pending.image :=
        prepare_data h
      rw [hdrop, written, htakes htake, hdata]
      show List.Subperm _ (pagePayloads a.pending.image k ++ [])
      rw [List.append_nil, pagePayloads_image a.pending h.fits]

end append

/-- **No accepted record is lost** by an append, after any calls and over any
driver, exactly when its automatic flush, if it makes one, is taken by the
driver. -/
theorem append_keeps_iff (B : Build) (D : Driver σ) (dev : σ) (ops : List Op) (layer : UInt8)
    (tmm : UInt64) (buffer : List UInt8) :
    AppendKeeps B D (session B D.logged (Logged.start dev) ops) layer tmm buffer ↔
      ((session B D.logged (Logged.start dev) ops).Programs (.append layer tmm buffer) →
        D.Takes (session B D.logged (Logged.start dev) ops).inst
          (flushData (session B D.logged (Logged.start dev) ops).inst)
          (session B D.logged (Logged.start dev) ops).dev.dev) := by
  have hbuf := buffers_run (B := B) D.logged (Logged.start dev) ops
  generalize LogState.init.run B ops = a at hbuf
  generalize session B D.logged (Logged.start dev) ops = w at hbuf
  rw [World.programs_iff hbuf]
  cases hr : record? layer tmm buffer with
  | none =>
      have hputs := LogState.puts_append_of_none (a := a) hr
      exact iff_of_true (appendKeeps_of_none hbuf hr) fun h => absurd h hputs
  | some x =>
      obtain ⟨l, r⟩ := x
      rw [LogState.puts_append_of_some hr]
      by_cases hfull : LogState.Full a.pending l
      · rw [appendKeeps_iff_of_full hbuf hr hfull]
        exact ⟨fun h _ => h, fun h => h hfull⟩
      · exact iff_of_true (appendKeeps_of_not_full hbuf hr hfull) fun h => absurd h hfull

/-- A page array whose programs all fail. -/
def worn : Driver Flash := { pageArray fakeMedium with write := fun f _ _ _ => (ERR, f) }

/-- A speed record. -/
def speedSample : Record .antpSpeed := ⟨1000, List.replicate 18 7, rfl⟩

/-- 58 speed records fill a page: the next one is accepted, the 58 are gone. -/
theorem append_loses_records :
    ¬ AppendKeeps { linux := false, rp2040 := false } worn
      (session { linux := false, rp2040 := false } worn.logged (Logged.start Flash.erased)
        (List.replicate 58 (.ofRecord .antpSpeed speedSample)))
      (UInt8.ofNat Layer.antpSpeed.toNat) speedSample.time speedSample.payload := by
  have hbuf := buffers_run (B := { linux := false, rp2040 := false }) worn.logged
    (Logged.start Flash.erased) (List.replicate 58 (.ofRecord .antpSpeed speedSample))
  rw [run_copies _ .antpSpeed speedSample
    (fun k hk => by
      simp only [Layer.encodedSize, Layer.recordSize, headerSize, antpRecordSize, pageSize]
      omega)
    (by decide)] at hbuf
  have hfull : LogState.Full (Batch.copies .antpSpeed speedSample 58) .antpSpeed := by
    rw [LogState.Full, Batch.pageBytes_copies]
    decide
  rw [appendKeeps_iff_of_full hbuf (record?_ofRecord .antpSpeed speedSample) hfull,
    Driver.Takes]
  split
  · intro h
    exact ERR_ne_OK h.2
  · exact ERR_ne_OK

end Mxfs
