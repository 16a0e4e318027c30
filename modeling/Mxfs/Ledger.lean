import Mxfs.Failure
import Mxfs.Wear

/-!
# Mxfs.Ledger

Sessions over a driver that fails when it likes.  A flush empties the buffers
before its driver calls, so how the records are batched does not depend on the
driver; a batch the driver does not take is lost, and the cursor stays.

`ledger_session` accounts for every record: it is buffered, or it is in one of the
batches, and the batches the driver took stand on consecutive pages, without gaps
and in the order of the records.
-/

namespace Mxfs

open Lib

variable {σ : Type}

/-! ## the cursor -/

/-- The cursor is at the `n`-th page of the ring. -/
def Inst.At (inst : Inst) (n : Nat) : Prop :=
  (inst.mxfsCurrentBlock, inst.mxfsCurrentPage) = ringAddr n

theorem SameTable.at {i j : Inst} (h : SameTable i j) {n : Nat} (hi : i.At n) : j.At n := by
  rw [Inst.At, h.block, h.page]
  exact hi

theorem Inst.At.advance {inst : Inst} {n : Nat} (h : inst.At n) : (advance inst).At (n + 1) := by
  obtain ⟨hblock, hpage⟩ := Prod.mk.inj (h.trans (ringAddr_eq n))
  have hp : u16 (inst.mxfsCurrentPage + 1) = n % 64 + 1 := by rw [hpage, u16_eq (by omega)]
  have hb : u16 (inst.mxfsCurrentBlock + 1) = n / 64 % 1023 + 2 := by
    rw [hblock, u16_eq (by omega)]
  rw [Inst.At, ringAddr_eq]
  unfold Mxfs.advance
  simp only [hp, hb]
  by_cases hlast : pageCount ≤ n % 64 + 1
  · rw [if_pos hlast]
    unfold pageCount at hlast
    refine Prod.ext ?_ (show 0 = (n + 1) % 64 by omega)
    show (if blockCount ≤ n / 64 % 1023 + 2 then blockStartDataArea else n / 64 % 1023 + 2) =
      (n + 1) / 64 % 1023 + 1
    unfold blockCount blockStartDataArea
    split <;> omega
  · rw [if_neg hlast]
    unfold pageCount at hlast
    refine Prod.ext (hblock.trans ?_) (show n % 64 + 1 = (n + 1) % 64 by omega)
    show n / 64 % 1023 + 1 = (n + 1) / 64 % 1023 + 1
    omega

/-- The scan leaves the cursor where it is, and asks for reads only. -/
theorem scan_frame (B : Build) (D : Driver σ) (bs : List Nat) (x : Inst × Logged σ) :
    let y := bs.foldl (scanBlock B D.logged) x
    y.1.mxfsCurrentBlock = x.1.mxfsCurrentBlock ∧ y.1.mxfsCurrentPage = x.1.mxfsCurrentPage ∧
      y.2.calls = x.2.calls := by
  induction bs generalizing x with
  | nil => exact ⟨rfl, rfl, rfl⟩
  | cons b bs ih =>
      obtain ⟨hblock, hpage, hcalls⟩ := ih (scanBlock B D.logged x b)
      have hround : (scanBlock B D.logged x b).1.mxfsCurrentBlock = x.1.mxfsCurrentBlock ∧
          (scanBlock B D.logged x b).1.mxfsCurrentPage = x.1.mxfsCurrentPage ∧
          (scanBlock B D.logged x b).2.calls = x.2.calls := by
        unfold scanBlock
        dsimp only
        split
        · split <;> exact ⟨rfl, rfl, rfl⟩
        · exact ⟨rfl, rfl, rfl⟩
      exact ⟨hblock.trans hround.1, hpage.trans hround.2.1, hcalls.trans hround.2.2⟩

/-- The choice of the cursor chooses a block. -/
theorem findCurrent_front (B : Build) {bs : List Nat} (hbs : ∀ b ∈ bs, IsData b) (t : Nat)
    {i : Inst} (hb : IsData i.mxfsCurrentBlock) (hp : i.mxfsCurrentPage = 0) :
    IsData (findCurrent B bs t i).mxfsCurrentBlock ∧ (findCurrent B bs t i).mxfsCurrentPage = 0 := by
  induction bs generalizing t i with
  | nil => exact ⟨hb, hp⟩
  | cons b bs ih =>
      have hrest := fun c hc => hbs c (List.mem_cons_of_mem b hc)
      have hdata := hbs b List.mem_cons_self
      rw [findCurrent]
      split
      · split
        · split
          · exact ih hrest _ hdata rfl
          · exact ih hrest _ hb hp
        · exact ih hrest _ hb hp
      · split
        · split
          · exact ih hrest _ hdata rfl
          · exact ih hrest _ hb hp
        · exact ⟨hdata, rfl⟩

/-- A mount leaves the cursor at the start of a block of data, whatever the driver
reads. -/
theorem at_mounted (B : Build) (D : Driver σ) (dev : σ) :
    (∃ k < 1023, (World.mounted B D.logged (Logged.start dev)).inst.At (64 * k)) ∧
      (World.mounted B D.logged (Logged.start dev)).dev.calls = [] := by
  obtain ⟨hblock, hpage, hcalls⟩ := scan_frame B D dataBlocks (freshInst B, Logged.start dev)
  rw [World.mounted_inst, World.mounted_dev, mount_inst, mount_dev]
  have hfirst : IsData (dataBlocks.foldl (scanBlock B D.logged)
      (freshInst B, Logged.start dev)).1.mxfsCurrentBlock := by
    rw [hblock]
    exact isData_iff.2 ⟨Nat.le_refl 1, show 1 < 1024 by decide⟩
  obtain ⟨hdata, hzero⟩ := findCurrent_front B (fun b => mem_dataBlocks.1) 0 hfirst hpage
  have hrange := isData_iff.1 hdata
  refine ⟨⟨(findCurrent B dataBlocks 0 (dataBlocks.foldl (scanBlock B D.logged)
    (freshInst B, Logged.start dev)).1).mxfsCurrentBlock - 1, by omega, ?_⟩, hcalls⟩
  rw [Inst.At, ringAddr_eq, hzero]
  refine Prod.ext ?_ ?_
  · dsimp only
    omega
  · dsimp only
    omega

/-! ## commits -/

/-- The erases the next flush will ask for. -/
def Inst.due (inst : Inst) : Nat := if inst.blockFlagged inst.mxfsCurrentBlock then 1 else 0

/-- A block that is entered is due for an erase. -/
theorem Inst.At.due_advance {inst : Inst} {n : Nat} (h : inst.At n) (hdue : inst.due = 0) :
    (Mxfs.advance inst).due = if (n + 1) % 64 = 0 then 1 else 0 := by
  obtain ⟨hblock, hpage⟩ := Prod.mk.inj (h.trans (ringAddr_eq n))
  have hp : u16 (inst.mxfsCurrentPage + 1) = n % 64 + 1 := by rw [hpage, u16_eq (by omega)]
  unfold Mxfs.advance
  simp only [hp]
  by_cases hlast : pageCount ≤ n % 64 + 1
  · have hmod : (n + 1) % 64 = 0 := by
      unfold pageCount at hlast
      omega
    rw [if_pos hlast, if_pos hmod, Inst.due, blockFlagged_mark]
    exact if_pos (Function.update_self _ _ _)
  · have hmod : ¬ (n + 1) % 64 = 0 := by
      unfold pageCount at hlast
      omega
    rw [if_neg hlast, if_neg hmod]
    exact hdue

theorem SameTable.due {i j : Inst} (h : SameTable i j) : j.due = i.due := by
  rw [Inst.due, Inst.due, h.flagged, h.block]

section commit

variable (B : Build) (D : Driver σ) (inst : Inst) (s : FlushState) (d : Logged σ)

/-- What a commit leaves: an instance that is due for no erase, moved on if the driver
takes the page. -/
theorem commit_inst :
    ∃ i : Inst, (i.mxfsCurrentBlock, i.mxfsCurrentPage) =
        (inst.mxfsCurrentBlock, inst.mxfsCurrentPage) ∧ i.due = 0 ∧
      (D.Takes inst (s.work.take s.workLen) d.dev →
        (commit B D.logged inst s d).2.1 = advance (notePage B i s)) ∧
      (¬ D.Takes inst (s.work.take s.workLen) d.dev →
        (commit B D.logged inst s d).2.1 = i) := by
  have hprogram : ∀ (i : Inst) (d : Logged σ), (program B D.logged i s d).2.1 =
      if (D.write d.dev i.mxfsCurrentBlock i.mxfsCurrentPage (s.work.take s.workLen)).1 = OK then
        advance (notePage B i s) else i := by
    intro i d
    unfold program
    dsimp only [Driver.logged]
    split <;> rfl
  unfold Driver.Takes
  cases hf : inst.blockFlagged inst.mxfsCurrentBlock with
  | false =>
      rw [commit_of_not_flagged B D.logged s hf, hprogram]
      exact ⟨inst, rfl, if_neg (by simp [hf]), fun hok => if_pos hok, fun hno => if_neg hno⟩
  | true =>
      refine ⟨inst.setBlock inst.mxfsCurrentBlock BlockStatus.unmark, rfl, ?_, ?_⟩
      · rw [Inst.due, Inst.blockFlagged_unmark]
        exact if_neg (by simp [Inst.setBlock])
      · by_cases hret : (D.erase d.dev inst.mxfsCurrentBlock).1 = OK
        · rw [commit_of_erased B D.logged s hf hret, hprogram]
          exact ⟨fun htake => if_pos htake.2, fun htake => if_neg fun hw => htake ⟨hret, hw⟩⟩
        · rw [commit_of_not_erased B D.logged s hf hret]
          exact ⟨fun htake => absurd htake.1 hret, fun _ => rfl⟩

/-- The erase that is due is asked for, once. -/
theorem commit_erases :
    (erases (commit B D.logged inst s d).2.2.calls).length =
      (erases d.calls).length + inst.due := by
  have hprogram : ∀ (i : Inst) (d : Logged σ),
      erases (program B D.logged i s d).2.2.calls = erases d.calls := by
    intro i d
    rw [program_calls, erases_append]
    exact List.append_nil _
  cases hf : inst.blockFlagged inst.mxfsCurrentBlock with
  | false =>
      rw [commit_of_not_flagged B D.logged s hf, hprogram, Inst.due, if_neg (by simp [hf])]
      rfl
  | true =>
      have hdue : inst.due = 1 := if_pos hf
      have herase : erases (D.logged.erase d inst.mxfsCurrentBlock).2.calls =
          erases d.calls ++ [inst.mxfsCurrentBlock] := erases_append _ _
      by_cases hret : (D.erase d.dev inst.mxfsCurrentBlock).1 = OK
      · rw [commit_of_erased B D.logged s hf hret, hprogram, herase, List.length_append, hdue]
        rfl
      · rw [commit_of_not_erased B D.logged s hf hret, herase, List.length_append, hdue]
        rfl

end commit

/-! ## the ledger -/

instance (D : Driver σ) (inst : Inst) (data : List UInt8) (dev : σ) :
    Decidable (D.Takes inst data dev) := by
  unfold Driver.Takes
  infer_instance

/-- Whether the driver takes the batch of a flush the call makes. -/
def Driver.verdict (D : Driver σ) (w : World (Logged σ)) (op : Op) : List Bool :=
  if w.Programs op then [decide (D.Takes w.inst (flushData w.inst) w.dev.dev)] else []

/-- The batches with a good verdict. -/
def takenBatches (bs : List Batch) (verdicts : List Bool) : List Batch :=
  ((bs.zip verdicts).filter Prod.snd).map Prod.fst

/-- The programs of the batches from the `start`-th page of the ring on. -/
def ringWrites (start : Nat) (bs : List Batch) : List (Nat × Nat × List UInt8) :=
  (bs.zipIdx start).map ringWrite

theorem takenBatches_concat {bs : List Batch} {verdicts : List Bool}
    (h : verdicts.length = bs.length) (q : Batch) (v : Bool) :
    takenBatches (bs ++ [q]) (verdicts ++ [v]) =
      takenBatches bs verdicts ++ if v then [q] else [] := by
  rw [takenBatches, List.zip_append h.symm, List.filter_append, List.map_append]
  cases v <;> rfl

theorem ringWrites_append (start : Nat) (xs ys : List Batch) :
    ringWrites start (xs ++ ys) = ringWrites start xs ++ ringWrites (start + xs.length) ys := by
  rw [ringWrites, List.zipIdx_append, List.map_append]
  rfl

/-- The world after the batches of `a`, with their verdicts, mounted at the `k`-th
block of data. -/
structure Booked (B : Build) (k : Nat) (w : World (Logged σ)) (a : LogState)
    (verdicts : List Bool) : Prop where
  buffers : Buffers B w.inst a.pending
  length : verdicts.length = a.batches.length
  cursor : w.inst.At (64 * k + (takenBatches a.batches verdicts).length)
  writes : okWrites w.dev.calls = ringWrites (64 * k) (takenBatches a.batches verdicts)
  erases : (erases w.dev.calls).length + w.inst.due ≤
    1 + (takenBatches a.batches verdicts).length / 64

/-- **A call books its batch**, if it makes one. -/
theorem Booked.next {B : Build} {D : Driver σ} {k : Nat} {w : World (Logged σ)}
    {a : LogState} {verdicts : List Bool} (h : Booked B k w a verdicts) {op : Op}
    (hop : op.IsLog) :
    Booked B k (next B D.logged w op) (a.next B op) (verdicts ++ D.verdict w op) := by
  have hbuffers := buffers_next (D := D.logged) h.buffers op
  have hprograms := World.programs_iff h.buffers op
  have hbatches := LogState.batches_next B a op
  by_cases hputs : a.Puts op
  · obtain ⟨hdev, htable⟩ := effect_of_puts (D := D.logged) h.buffers hop hputs
    rw [if_pos hputs] at hbatches
    rw [Driver.verdict, if_pos (hprograms.2 hputs)]
    have hdata := prepare_data h.buffers
    have hflush : flushData w.inst = a.pending.image := hdata
    obtain ⟨i, hplace, hidue, htook, hlost⟩ :=
      commit_inst B D w.inst.clear (prepare w.inst).2 w.dev
    obtain ⟨new, hcalls, hnewOk, hnewNo⟩ :=
      commit_okWrites B D w.inst.clear (prepare w.inst).2 w.dev
    rw [hdata] at htook hlost hnewOk hnewNo
    have hat : i.At (64 * k + (takenBatches a.batches verdicts).length) := hplace.trans h.cursor
    have hwrites : okWrites (Mxfs.next B D.logged w op).dev.calls =
        ringWrites (64 * k) (takenBatches a.batches verdicts) ++ okWrites new := by
      rw [hdev, hcalls, okWrites_append, h.writes]
    have herases : (Mxfs.erases (Mxfs.next B D.logged w op).dev.calls).length ≤
        1 + (takenBatches a.batches verdicts).length / 64 := by
      rw [hdev, commit_erases]
      exact h.erases
    by_cases htakes : D.Takes w.inst a.pending.image w.dev.dev
    · have htaken : takenBatches (a.next B op).batches (verdicts ++ [true]) =
          takenBatches a.batches verdicts ++ [a.pending] := by
        rw [hbatches, takenBatches_concat h.length]
        rfl
      have hnote : (notePage B i (prepare w.inst).2).At
          (64 * k + (takenBatches a.batches verdicts).length) := hat
      have hnotedue : (notePage B i (prepare w.inst).2).due = 0 := by
        rw [Inst.due, blockFlagged_notePage]
        exact hidue
      have hafter := htook htakes
      rw [hafter] at htable
      rw [hflush, decide_eq_true htakes]
      refine ⟨hbuffers, ?_, ?_, ?_, ?_⟩
      · rw [hbatches, List.length_append, List.length_append, h.length]
        rfl
      · rw [htaken, List.length_append]
        exact htable.at hnote.advance
      · rw [htaken, hwrites, ringWrites_append, hnewOk htakes]
        congr 1
        show [(w.inst.clear.mxfsCurrentBlock, w.inst.clear.mxfsCurrentPage, a.pending.image)] =
          [((ringAddr _).1, (ringAddr _).2, a.pending.image)]
        rw [← h.cursor]
        rfl
      · rw [htaken, List.length_append, List.length_singleton, htable.due,
          hnote.due_advance hnotedue]
        split <;> omega
    · have htaken : takenBatches (a.next B op).batches (verdicts ++ [false]) =
          takenBatches a.batches verdicts := by
        rw [hbatches, takenBatches_concat h.length]
        exact List.append_nil _
      have hafter := hlost htakes
      rw [hafter] at htable
      rw [hflush, decide_eq_false htakes]
      refine ⟨hbuffers, ?_, ?_, ?_, ?_⟩
      · rw [hbatches, List.length_append, List.length_append, h.length]
        rfl
      · rw [htaken]
        exact htable.at hat
      · rw [htaken, hwrites, hnewNo htakes, List.append_nil]
      · rw [htaken, htable.due, hidue]
        exact herases
  · obtain ⟨hdev, htable⟩ := effect_of_not_puts (D := D.logged) h.buffers hop hputs
    rw [if_neg hputs] at hbatches
    rw [Driver.verdict, if_neg fun hp => hputs (hprograms.1 hp), List.append_nil]
    refine ⟨hbuffers, ?_, ?_, ?_, ?_⟩
    · rw [hbatches]
      exact h.length
    · rw [hbatches]
      exact htable.at h.cursor
    · rw [hbatches, hdev]
      exact h.writes
    · rw [hbatches, hdev, htable.due]
      exact h.erases

/-- **The ledger** of a session of appends and flushes over a driver that fails when it
likes.  Each flush gives a batch of the records a verdict, and the records taken in are
those of the batches and of the buffers.  The programs that are done are those of the
batches taken, on consecutive pages from the start of a block on, up to the cursor.
A block that is entered costs one erase at most, also where that fails. -/
theorem ledger_session (B : Build) (D : Driver σ) (dev : σ) {ops : List Op}
    (hops : ∀ op ∈ ops, op.IsLog) :
    let w₀ := World.mounted B D.logged (Logged.start dev)
    let w := session B D.logged (Logged.start dev) ops
    let batches := (LogState.init.run B ops).batches
    let verdicts := observe (next B D.logged) D.verdict w₀ ops
    verdicts.length = batches.length ∧
      (∀ l, acceptedBy B D.logged w₀ ops l =
        batches.flatMap (fun q => q.payloads l) ++ buffered w.inst l) ∧
      (∃ k < 1023, okWrites w.dev.calls = ringWrites (64 * k) (takenBatches batches verdicts) ∧
        w.inst.At (64 * k + (takenBatches batches verdicts).length)) ∧
      (erases w.dev.calls).length ≤ 1 + (takenBatches batches verdicts).length / 64 := by
  intro w₀ w batches verdicts
  obtain ⟨⟨k, hk, hat⟩, hcalls⟩ := at_mounted B D dev
  have hstart : Booked B k w₀ LogState.init [] := by
    refine ⟨?_, rfl, hat, ?_, ?_⟩
    · show Buffers B (World.mounted B D.logged (Logged.start dev)).inst Batch.empty
      rw [World.mounted_inst]
      exact buffers_mount B _ _
    · show okWrites (World.mounted B D.logged (Logged.start dev)).dev.calls = []
      rw [hcalls]
      rfl
    · show (erases (World.mounted B D.logged (Logged.start dev)).dev.calls).length + _ ≤ 1
      rw [hcalls, Inst.due]
      split
      · exact Nat.le_refl 1
      · exact Nat.zero_le 1
  have hbooked : Booked B k w (LogState.init.run B ops) verdicts :=
    run_records (fun _ _ _ _ h hop => h.next hop) hstart (along_of_forall hops _)
  have hhistory : ∀ l, (LogState.init.run B ops).history l = acceptedBy B D.logged w₀ ops l := by
    intro l
    exact run_observes (R := fun (w : World (Logged σ)) (a : LogState) => Buffers B w.inst a.pending)
      (g := fun a : LogState => a.history l)
      (fun w a op h hop => ⟨buffers_next (D := D.logged) h op, history_next h hop l⟩)
      hstart.buffers (along_of_forall hops _)
  refine ⟨hbooked.length, fun l => ?_, ⟨k, hk, hbooked.writes, hbooked.cursor⟩,
    Nat.le_of_add_right_le hbooked.erases⟩
  rw [← hhistory, LogState.history, buffered_eq hbooked.buffers]

/-- The page array, but every other program fails and all erases do. -/
def flaky : Driver (Flash × Nat) where
  read x block page bufferlen :=
    let (ret, out, f) := (pageArray fakeMedium).read x.1 block page bufferlen
    (ret, out, (f, x.2))
  write x block page buffer :=
    if x.2 % 2 = 0 then (ERR, (x.1, x.2 + 1))
    else
      let (ret, f) := (pageArray fakeMedium).write x.1 block page buffer
      (ret, (f, x.2 + 1))
  erase x _ := (ERR, x)

/-- A lost batch, one that is taken, and a record that is still buffered. -/
theorem ledger_session_flaky :
    let B : Build := { linux := false, rp2040 := false }
    let ops : List Op := oneEach .temperature temperatureSample 2 ++
      [.ofRecord .temperature temperatureSample]
    let w₀ := World.mounted B flaky.logged (Logged.start (Flash.erased, 0))
    let w := session B flaky.logged (Logged.start (Flash.erased, 0)) ops
    let batches := (LogState.init.run B ops).batches
    let verdicts := observe (next B flaky.logged) flaky.verdict w₀ ops
    verdicts.length = batches.length ∧
      (∀ l, acceptedBy B flaky.logged w₀ ops l =
        batches.flatMap (fun q => q.payloads l) ++ buffered w.inst l) ∧
      (∃ k < 1023, okWrites w.dev.calls = ringWrites (64 * k) (takenBatches batches verdicts) ∧
        w.inst.At (64 * k + (takenBatches batches verdicts).length)) ∧
      (erases w.dev.calls).length ≤ 1 + (takenBatches batches verdicts).length / 64 := by
  intro B ops
  have hops : ∀ op ∈ ops, op.IsLog := by
    intro op hop
    rcases List.mem_append.1 hop with h | h
    · exact isLog_oneEach op h
    · exact List.mem_singleton.1 h ▸ trivial
  exact ledger_session B flaky (Flash.erased, 0) hops

end Mxfs
