import Mxfs.Ledger

/-!
# Mxfs.Economy

How much a client can have programmed.  `mxfs_append` flushes on its own when a page
is full but for less than one record, so each such page is paid for by the records
on it; any other page is one of an `mxfs_flush` (`economy_session`).  This holds in
every run, over a driver that fails when it likes.
-/

namespace Mxfs

open Lib

variable {σ : Type}

/-! ## what a call pays -/

/-- The least a page holds that `mxfs_append` flushes. -/
def fullPageBytes : Nat := pageSize - 64 - antpRecordSize + 1

/-- What a call pays, in bytes of a page: an append that returns `OK` for its record
and a header, a flush for a page. -/
def pays (B : Build) (D : Driver σ) (w : World σ) : Op → List Nat
  | .append layer tmm buffer =>
    if (call B D w (.append layer tmm buffer)).1 = OK then [buffer.length + headerSize] else []
  | .flush => [fullPageBytes]
  | .remount | .erase _ => []

/-- What a call pays for the log. -/
def LogState.pays (B : Build) (a : LogState) : Op → List Nat
  | .append layer tmm buffer =>
    if (a.step B (.append layer tmm buffer)).1 = OK then [buffer.length + headerSize] else []
  | .flush => [fullPageBytes]
  | .remount | .erase _ => []

theorem pays_eq {B : Build} {D : Driver σ} {w : World σ} {a : LogState}
    (h : Buffers B w.inst a.pending) (op : Op) : pays B D w op = a.pays B op := by
  cases op with
  | append layer tmm buffer => rw [pays, LogState.pays, call_append_ret h]
  | _ => rfl

/-! ## what is paid for -/

/-- All pages put away, and what is on the one that is not. -/
def LogState.spent (a : LogState) : Nat :=
  fullPageBytes * a.batches.length + a.pending.pageBytes

/-- A page that is full is paid for by what is on it. -/
theorem LogState.fullPageBytes_le {p : Batch} (h : Full p l) : fullPageBytes ≤ p.pageBytes := by
  have hsize := l.recordSize_le
  unfold Full at h
  unfold fullPageBytes pageSize antpRecordSize
  unfold pageSize at h
  omega

theorem LogState.spent_append (B : Build) (a : LogState) (l : Layer) (r : Record l) :
    (a.append B l r).2.spent ≤
      a.spent + if (a.append B l r).1 = OK then l.recordSize + headerSize else 0 := by
  by_cases hfull : Full a.pending l
  · have hpage := fullPageBytes_le hfull
    have hnew := Batch.pageBytes_push_le Batch.empty l r
    rw [append_of_full B r hfull, if_pos rfl]
    simp only [spent, List.length_append, List.length_singleton, Nat.mul_succ,
      Batch.pageBytes_empty] at hnew ⊢
    omega
  · by_cases hroom : HasRoom B a.pending l
    · have hnew := Batch.pageBytes_push_le a.pending l r
      rw [append_of_room B r hfull hroom, if_pos rfl]
      simp only [spent]
      omega
    · rw [append_of_no_room B r hfull hroom]
      exact Nat.le_add_right _ _

/-- **A call spends no more than it pays.** -/
theorem LogState.spent_next (B : Build) (a : LogState) (op : Op) :
    (a.next B op).spent ≤ a.spent + (a.pays B op).sum := by
  cases op with
  | append layer tmm buffer =>
      cases hr : record? layer tmm buffer with
      | none =>
          rw [LogState.next, LogState.step, hr]
          exact Nat.le_add_right _ _
      | some x =>
          obtain ⟨l, r⟩ := x
          have hsize : buffer.length = l.recordSize := by
            rw [← (record?_eq_some hr).2.2, r.size]
          have hspent := spent_append B a l r
          simp only [LogState.next, LogState.pays, LogState.step, hr, hsize]
          split
          · next hok => simpa only [hok, if_true, List.sum_singleton] using hspent
          · next hno => simpa only [hno, if_false, List.sum_nil] using hspent
  | flush =>
      show a.flush.spent ≤ a.spent + [fullPageBytes].sum
      rw [List.sum_singleton, LogState.flush]
      split
      · exact Nat.le_add_right _ _
      · simp only [spent, List.length_append, List.length_singleton, Nat.mul_succ,
          Batch.pageBytes_empty]
        omega
  | remount =>
      show fullPageBytes * a.batches.length + Batch.empty.pageBytes ≤ a.spent + [].sum
      rw [Batch.pageBytes_empty, spent]
      omega
  | erase block => exact Nat.le_refl _

/-! ## the programs of a run -/

/-- A commit asks for one program at most. -/
theorem commit_writes (B : Build) (D : Driver σ) (inst : Inst) (s : FlushState) (d : Logged σ) :
    (writes (commit B D.logged inst s d).2.2.calls).length ≤ (writes d.calls).length + 1 := by
  have hprogram : ∀ (i : Inst) (d : Logged σ),
      (writes (program B D.logged i s d).2.2.calls).length = (writes d.calls).length + 1 := by
    intro i d
    rw [program_calls, writes_append, List.length_append]
    rfl
  have herase : writes (D.logged.erase d inst.mxfsCurrentBlock).2.calls = writes d.calls :=
    (writes_append _ _).trans (List.append_nil _)
  cases hf : inst.blockFlagged inst.mxfsCurrentBlock with
  | false => rw [commit_of_not_flagged B D.logged s hf, hprogram]
  | true =>
      by_cases hret : (D.erase d.dev inst.mxfsCurrentBlock).1 = OK
      · rw [commit_of_erased B D.logged s hf hret, hprogram, herase]
      · rw [commit_of_not_erased B D.logged s hf hret, herase]
        exact Nat.le_succ _

/-- The programs asked for so far are batches that were put away. -/
structure Programmed (B : Build) (w : World (Logged σ)) (a : LogState) : Prop where
  buffers : Buffers B w.inst a.pending
  programs : (writes w.dev.calls).length ≤ a.batches.length

theorem Programmed.next {B : Build} {D : Driver σ} {w : World (Logged σ)} {a : LogState}
    (h : Programmed B w a) (op : Op) : Programmed B (next B D.logged w op) (a.next B op) := by
  refine ⟨buffers_next h.buffers op, ?_⟩
  have hlog : ∀ op : Op, op.IsLog →
      (writes (Mxfs.next B D.logged w op).dev.calls).length ≤ (a.next B op).batches.length := by
    intro op hop
    rw [LogState.batches_next]
    by_cases hputs : a.Puts op
    · have hcommit := commit_writes B D w.inst.clear (prepare w.inst).2 w.dev
      rw [(effect_of_puts h.buffers hop hputs).1, if_pos hputs, List.length_append]
      exact Nat.le_trans hcommit (Nat.succ_le_succ h.programs)
    · rw [(effect_of_not_puts h.buffers hop hputs).1, if_neg hputs]
      exact h.programs
  cases op with
  | append layer tmm buffer => exact hlog _ trivial
  | flush => exact hlog _ trivial
  | remount =>
      have hscan := (scan_frame B D dataBlocks (freshInst B, w.dev)).2.2
      show (writes (World.mounted B D.logged w.dev).dev.calls).length ≤ a.batches.length
      rw [World.mounted_dev, mount_dev, hscan]
      exact h.programs
  | erase block =>
      have herase : writes (Mxfs.next B D.logged w (.erase block)).dev.calls =
          writes w.dev.calls := (writes_append _ _).trans (List.append_nil _)
      rw [herase]
      exact h.programs

/-- **What a client can have programmed**, in any run and over any driver: no more full
pages than its calls have paid for. -/
theorem economy_session (B : Build) (D : Driver σ) (dev : σ) (ops : List Op) :
    fullPageBytes * (writes (session B D.logged (Logged.start dev) ops).dev.calls).length ≤
      (observe (next B D.logged) (pays B D.logged)
        (World.mounted B D.logged (Logged.start dev)) ops).sum := by
  have hstart : Programmed B (World.mounted B D.logged (Logged.start dev)) LogState.init := by
    refine ⟨?_, ?_⟩
    · show Buffers B (World.mounted B D.logged (Logged.start dev)).inst Batch.empty
      rw [World.mounted_inst]
      exact buffers_mount B _ _
    · rw [(at_mounted B D dev).2]
      exact Nat.le_refl 0
  have hrun : Programmed B (session B D.logged (Logged.start dev) ops) (LogState.init.run B ops) ∧
      (LogState.init.run B ops).spent ≤ (observe (next B D.logged) (pays B D.logged)
        (World.mounted B D.logged (Logged.start dev)) ops).sum := by
    refine run_records
      (R := fun w a xs => Programmed B w a ∧ a.spent ≤ xs.sum) (P := fun _ _ => True)
      (fun w a xs op h _ => ⟨h.1.next op, ?_⟩) ⟨hstart, Nat.le_refl 0⟩
      (along_of_forall (fun _ _ => trivial) _)
    have hspent := LogState.spent_next B a op
    rw [pays_eq h.1.buffers, List.sum_append]
    exact Nat.le_trans hspent (Nat.add_le_add_right h.2 _)
  have hprograms := Nat.mul_le_mul_left fullPageBytes hrun.1.programs
  have hbytes := hrun.2
  unfold LogState.spent at hbytes
  omega

end Mxfs
