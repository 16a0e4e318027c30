import Mxfs.Refine

/-!
# Mxfs.Log

How the abstract log moves.  A call puts the pending batch away (`Puts`) when
it is a flush with something buffered or an append that would overfill the
page; `append_of_room`, `append_of_no_room` and `append_of_full` are the ways of an append,
and `World.programs_iff` reads `Puts` off the counts of an instance.
-/

namespace Mxfs

open Lib

/-! ## room and fullness -/

namespace LogState

/-- Empty buffers have room for a record of any layer. -/
theorem hasRoom_empty (B : Build) (l : Layer) : HasRoom B Batch.empty l := by
  have hsize : 8192 ≤ B.mxfsBufferSize := by
    unfold Build.mxfsBufferSize; split <;> decide
  have := l.recordSize_le
  rw [HasRoom, Batch.empty_apply, List.length_nil, Layer.stride]
  unfold timeSize; omega

/-- While the page is not full, only the temperature layer under `__RP2040__`
can run out of buffer. -/
theorem hasRoom_iff {B : Build} {p : Batch} {l : Layer} (h : ¬ Full p l) :
    HasRoom B p l ↔ ¬ (B.rp2040 = true ∧ l = .temperature ∧ 819 ≤ (p l).length) := by
  have hle := p.encodedSize_le_pageBytes l
  have hraw := Batch.recordSize_mul_le l (p l).length
  unfold Full pageSize at h
  unfold HasRoom Build.mxfsBufferSize
  cases l
  case antpSpeed | antpPower | antpCadence =>
      simp only [Layer.encodedSize, Layer.recordSize, Layer.stride, headerSize, antpRecordSize,
        timeSize, pageSize] at hle h ⊢
      simp only [reduceCtorEq, false_and, and_false, not_false_eq_true, iff_true]
      split <;> omega
  case gyro | accelerometer =>
      simp only [Layer.encodedSize, Layer.recordSize, Layer.stride, headerSize, gyroRecordSize,
        timeSize, pageSize] at hraw hle h ⊢
      simp only [reduceCtorEq, false_and, and_false, not_false_eq_true, iff_true]
      split <;> omega
  case temperature =>
      simp only [Layer.encodedSize, Layer.recordSize, Layer.stride, headerSize,
        temperatureRecordSize, timeSize, pageSize] at hraw hle h ⊢
      cases B.rp2040 <;> simp <;> omega

end LogState

/-! ## an append -/

/-- The call made for a record appends it. -/
theorem step_ofRecord (B : Build) (a : LogState) (l : Layer) (r : Record l) :
    a.step B (.ofRecord l r) = a.append B l r := by
  rw [Op.ofRecord, LogState.step, record?_ofRecord]

namespace LogState

/-- A full page has records. -/
theorem not_isEmpty_of_full {p : Batch} (h : Full p l) : ¬ p.IsEmpty := by
  intro he
  rw [he.eq_empty] at h
  exact not_full_empty l h

/-- An append that fits page and buffer is taken. -/
theorem append_of_room (B : Build) {a : LogState} {l : Layer} (r : Record l)
    (h : ¬ Full a.pending l) (hroom : HasRoom B a.pending l) :
    a.append B l r = (OK, { a with pending := a.pending.push l r }) := by
  rw [append, makePlace, if_neg h]; exact if_pos hroom

/-- An append that fits the page only is refused. -/
theorem append_of_no_room (B : Build) {a : LogState} {l : Layer} (r : Record l)
    (h : ¬ Full a.pending l) (hroom : ¬ HasRoom B a.pending l) :
    a.append B l r = (NEED_MORE_BUFFER, a) := by
  rw [append, makePlace, if_neg h]; exact if_neg hroom

/-- An append that does not fit the page is always taken, behind a flush. -/
theorem append_of_full (B : Build) {a : LogState} {l : Layer} (r : Record l)
    (h : Full a.pending l) :
    a.append B l r = (OK, ⟨Batch.empty.push l r, a.batches ++ [a.pending]⟩) := by
  have hflush : a.makePlace l = ⟨Batch.empty, a.batches ++ [a.pending]⟩ := by
    rw [makePlace, if_pos h, flush, if_neg (not_isEmpty_of_full h)]
  rw [append, hflush]
  exact if_pos (hasRoom_empty B l)

end LogState

/-! ## what a call puts away -/

/-- The call puts the pending batch away. -/
def LogState.Puts (a : LogState) : Op → Prop
  | .append layer tmm buffer =>
    match record? layer tmm buffer with
    | none => False
    | some ⟨l, _⟩ => Full a.pending l
  | .flush => ¬ a.pending.IsEmpty
  | .remount | .erase _ => False

instance (a : LogState) (op : Op) : Decidable (a.Puts op) := by
  unfold LogState.Puts
  split
  · split <;> infer_instance
  all_goals infer_instance

/-- An append that is refused puts no batch away. -/
theorem LogState.puts_append_of_none {a : LogState} (h : record? layer tmm buffer = none) :
    ¬ a.Puts (.append layer tmm buffer) := by
  unfold LogState.Puts
  simp [h]

/-- An append puts the batch away exactly if the page is full. -/
theorem LogState.puts_append_of_some {a : LogState} {l : Layer} {r : Record l}
    (h : record? layer tmm buffer = some ⟨l, r⟩) :
    a.Puts (.append layer tmm buffer) ↔ Full a.pending l := by
  unfold LogState.Puts
  simp [h]

/-- A batch that is put away has records. -/
theorem LogState.not_isEmpty_of_puts {a : LogState} {op : Op} (h : a.Puts op) :
    ¬ a.pending.IsEmpty := by
  cases op with
  | append layer tmm buffer =>
      cases hr : record? layer tmm buffer with
      | none => exact absurd h (puts_append_of_none hr)
      | some x => exact not_isEmpty_of_full ((puts_append_of_some hr).1 h)
  | flush => exact h
  | remount => cases h
  | erase b => cases h

/-- An append puts at most the pending batch away. -/
theorem LogState.batches_append (B : Build) (a : LogState) (l : Layer) (r : Record l) :
    (a.append B l r).2.batches =
      if Full a.pending l then a.batches ++ [a.pending] else a.batches := by
  by_cases hfull : Full a.pending l
  · rw [append_of_full B r hfull, if_pos hfull]
  · rw [if_neg hfull]
    by_cases hroom : HasRoom B a.pending l
    · rw [append_of_room B r hfull hroom]
    · rw [append_of_no_room B r hfull hroom]

/-- A call puts away the pending batch or none. -/
theorem LogState.batches_next (B : Build) (a : LogState) (op : Op) :
    (a.next B op).batches = if a.Puts op then a.batches ++ [a.pending] else a.batches := by
  cases op with
  | append layer tmm buffer =>
      rw [LogState.next, LogState.step]
      cases hr : record? layer tmm buffer with
      | none => rw [if_neg (puts_append_of_none hr)]
      | some x =>
          obtain ⟨l, r⟩ := x
          simp only [puts_append_of_some hr, batches_append]
  | flush =>
      show a.flush.batches = if ¬ a.pending.IsEmpty then _ else _
      unfold LogState.flush
      split <;> simp
  | remount => rfl
  | erase b => rfl

/-- Batches are put away behind the others. -/
theorem LogState.prefix_batches (B : Build) (a : LogState) {ops pre : List Op} (h : pre <+: ops) :
    (a.run B pre).batches <+: (a.run B ops).batches := by
  obtain ⟨rest, rfl⟩ := h
  induction rest using List.reverseRecOn with
  | nil => simp
  | append_singleton rest op ih =>
      rw [← List.append_assoc, LogState.run_concat, LogState.batches_next]
      split
      · exact ih.trans (List.prefix_append _ _)
      · exact ih

/-! ### what a call does to the device -/

section effect

variable {σ : Type} {B : Build} {D : Driver σ} {w : World σ} {a : LogState} {op : Op}

/-- A call that puts nothing away leaves the device and the block table alone. -/
theorem effect_of_not_puts (h : Buffers B w.inst a.pending) (hop : op.IsLog)
    (hputs : ¬ a.Puts op) : (next B D w op).dev = w.dev ∧
      SameTable w.inst (next B D w op).inst := by
  have hbatches := LogState.batches_next B a op
  rw [if_neg hputs] at hbatches
  cases effect_next (D := D) h hop with
  | quiet batches dev table => exact ⟨dev, table⟩
  | committed nonempty batches dev table => simp [batches] at hbatches

/-- A call that puts away the batch commits it. -/
theorem effect_of_puts (h : Buffers B w.inst a.pending) (hop : op.IsLog) (hputs : a.Puts op) :
    (next B D w op).dev = (commit B D w.inst.clear (prepare w.inst).2 w.dev).2.2 ∧
      SameTable (commit B D w.inst.clear (prepare w.inst).2 w.dev).2.1 (next B D w op).inst := by
  have hbatches := LogState.batches_next B a op
  rw [if_pos hputs] at hbatches
  cases effect_next (D := D) h hop with
  | quiet batches dev table => simp [batches] at hbatches
  | committed nonempty batches dev table => exact ⟨dev, table⟩

end effect

/-- The batches put away have records. -/
theorem LogState.nonempty_run (B : Build) (ops : List Op) :
    ∀ q ∈ (LogState.init.run B ops).batches, ¬ q.IsEmpty := by
  induction ops using List.reverseRecOn with
  | nil => simp [LogState.run, LogState.init]
  | append_singleton ops op ih =>
      rw [LogState.run_concat, LogState.batches_next]
      by_cases hputs : (LogState.init.run B ops).Puts op
      · simpa [if_pos hputs, or_imp, forall_and] using ⟨ih, LogState.not_isEmpty_of_puts hputs⟩
      · rwa [if_neg hputs]

/-! ### what a call puts away, read off the counts -/

/-- Bytes a flush would write, from the record counts: 34 for each ANTP record,
`16 + 6 c` and `16 + 2 c` for the other layers unless they are empty. -/
def Inst.pageBytes (inst : Inst) : Nat :=
  (Layer.all.map fun l => l.encodedSize (inst.mxfsCount l)).sum

/-- The counts of the instance give the page bytes of the batch it holds. -/
theorem Buffers.pageBytes {B : Build} {inst : Inst} {p : Batch} (h : Buffers B inst p) :
    inst.pageBytes = p.pageBytes := by
  have hcount : (fun l => l.encodedSize (inst.mxfsCount l)) =
      fun l : Layer => l.encodedSize (p l).length := by
    funext l; rw [(h.layers l).count]
  rw [Inst.pageBytes, hcount, Batch.pageBytes]

/-- The call makes a flush that has something to program: a flush with records
buffered, or an append whose record would overfill the page. -/
def World.Programs (w : World σ) : Op → Prop
  | .append layer _ buffer => ∃ l, Layer.ofNat? layer.toNat = some l ∧
      buffer.length = l.recordSize ∧ pageSize - 64 < w.inst.pageBytes + l.recordSize
  | .flush => ∃ l, w.inst.mxfsCount l ≠ 0
  | .remount | .erase _ => False

instance (w : World σ) (op : Op) : Decidable (w.Programs op) := by
  unfold World.Programs
  split
  · exact decidable_of_iff _ Layer.exists_iff.symm
  · exact decidable_of_iff _ Layer.exists_iff.symm
  all_goals infer_instance

/-- A flush programs if some layer has records. -/
theorem World.programs_flush (w : World σ) : w.Programs .flush ↔ ∃ l, w.inst.mxfsCount l ≠ 0 :=
  Iff.rfl

/-- Only an append or a flush programs. -/
theorem World.isLog_of_programs {w : World σ} {op : Op} (h : w.Programs op) : op.IsLog := by
  cases op with
  | append layer tmm buffer => trivial
  | flush => trivial
  | remount => exact h.elim
  | erase b => exact h.elim

/-- **A call programs** exactly if it puts the pending batch away. -/
theorem World.programs_iff {B : Build} {w : World σ} {a : LogState}
    (h : Buffers B w.inst a.pending) (op : Op) : w.Programs op ↔ a.Puts op := by
  cases op with
  | append layer tmm buffer =>
      cases hr : record? layer tmm buffer with
      | none =>
          refine iff_of_false ?_ (LogState.puts_append_of_none hr)
          intro hp
          obtain ⟨l, hl, hlen, _⟩ := hp
          unfold record? at hr
          rw [hl] at hr
          simp [hlen] at hr
      | some x =>
          obtain ⟨l, r⟩ := x
          obtain ⟨hl, _, hpay⟩ := record?_eq_some hr
          rw [LogState.puts_append_of_some hr, LogState.Full, ← h.pageBytes]
          constructor
          · intro hp
            obtain ⟨k, hk, _, hfull⟩ := hp
            rw [hl] at hk
            cases hk
            exact hfull
          · intro hfull
            exact ⟨l, hl, by rw [← hpay, r.size], hfull⟩
  | flush =>
      show (∃ l, _) ↔ ¬ ∀ l, a.pending l = []
      rw [not_forall]
      refine exists_congr fun l => ?_
      rw [(h.layers l).count, ne_eq, List.length_eq_zero_iff]
  | remount => exact Iff.rfl
  | erase b => exact Iff.rfl

/-! ## batches of one record -/

namespace Batch

/-- The batch of a single record. -/
def single (l : Layer) (r : Record l) : Batch := empty.push l r

/-- The batch of a record has it in its layer. -/
theorem single_same (l : Layer) (r : Record l) : single l r l = [r] := by
  rw [single, push_same, empty_apply, List.nil_append]

/-- The batch of a record is not empty. -/
theorem not_isEmpty_single (l : Layer) (r : Record l) : ¬ (single l r).IsEmpty := by
  intro h
  have := h l
  rw [single_same] at this
  cases this

/-- The batch of a record fits a page. -/
theorem pageBytes_single_le (l : Layer) (r : Record l) : (single l r).pageBytes ≤ 2000 := by
  have h := empty.pageBytes_push_le l r
  have := l.recordSize_le
  rw [pageBytes_empty] at h
  unfold headerSize at h
  rw [single]; omega

end Batch

/-- `n` copies of one record, nothing else. -/
def Batch.copies (l : Layer) (r : Record l) (n : Nat) : Batch :=
  Function.update Batch.empty l (List.replicate n r)

namespace Batch

variable {l : Layer} (r : Record l) (n : Nat)

/-- A batch of copies holds them in their layer. -/
theorem copies_same : copies l r n l = List.replicate n r := Function.update_self _ _ _

/-- A batch of copies with one pushed is one of a copy more. -/
theorem copies_push : (copies l r n).push l r = copies l r (n + 1) := by
  rw [push, copies_same, ← List.replicate_succ', copies, Function.update_idem, copies]

/-- A batch of copies takes the bytes of its layer on a page. -/
theorem pageBytes_copies : (copies l r n).pageBytes = l.encodedSize n := by
  cases l <;> simp [pageBytes_eq, copies, Layer.encodedSize, headerSize, antpRecordSize] <;> omega

end Batch

/-- Appending the same record, as long as the page does not fill up and the
buffer has room. -/
theorem run_copies (B : Build) (l : Layer) (r : Record l)
    (hpage : ∀ k < n, l.encodedSize k + l.recordSize ≤ pageSize - 64)
    (hroom : n * l.stride ≤ B.mxfsBufferSize) :
    LogState.init.run B (List.replicate n (.ofRecord l r)) = ⟨Batch.copies l r n, []⟩ := by
  induction n with
  | zero =>
      have hzero : Batch.copies l r 0 = Batch.empty := Function.update_eq_self l Batch.empty
      rw [hzero]; rfl
  | succ n ih =>
      have hfull : ¬ LogState.Full (Batch.copies l r n) l := by
        have := hpage n (Nat.lt_succ_self n)
        rw [LogState.Full, Batch.pageBytes_copies]; omega
      have hfits : LogState.HasRoom B (Batch.copies l r n) l := by
        rw [LogState.HasRoom, Batch.copies_same, List.length_replicate]; exact hroom
      have hprev := ih (fun k hk => hpage k (Nat.lt_succ_of_lt hk))
        (Nat.le_trans (Nat.mul_le_mul_right _ (Nat.le_succ n)) hroom)
      have happend := LogState.append_of_room B (a := ⟨Batch.copies l r n, []⟩) r hfull hfits
      rw [List.replicate_succ', LogState.run_concat, hprev, LogState.next, step_ofRecord, happend,
        ← Batch.copies_push]

/-- The count after appending the same record. -/
theorem count_copies {B : Build} {l : Layer} {r : Record l}
    (h : LogState.init.run B (List.replicate n (.ofRecord l r)) = ⟨Batch.copies l r n, []⟩)
    (D : Driver σ) (dev : σ) :
    (session B D dev (List.replicate n (.ofRecord l r))).inst.mxfsCount l = n := by
  have hbuf := buffers_run (B := B) D dev (List.replicate n (.ofRecord l r))
  rw [h] at hbuf
  rw [(hbuf.layers l).count]
  show (Batch.copies l r n l).length = n
  rw [Batch.copies_same, List.length_replicate]

/-! ## the history -/

/-- The record of the call, on its own layer. -/
def newRecord (layer : UInt8) (buffer : List UInt8) (l : Layer) : List (List UInt8) :=
  if layer.toNat = l.toNat then [buffer] else []

/-- The record of an append is that of its batch. -/
theorem newRecord_of_record? {l : Layer} {r : Record l}
    (h : record? layer tmm buffer = some ⟨l, r⟩) (k : Layer) :
    newRecord layer buffer k = (Batch.single l r).payloads k := by
  obtain ⟨hl, _, hpay⟩ := record?_eq_some h
  rw [newRecord, Layer.toNat_of_ofNat? hl]
  by_cases hk : l = k
  · subst hk
    rw [if_pos rfl, Batch.single, Batch.payloads_push_same, hpay]; rfl
  · rw [if_neg (fun he => hk (Layer.toNat_inj he)), Batch.single,
      Batch.payloads_push_ne _ _ (Ne.symm hk)]; rfl

/-- The records of a batch with one more. -/
theorem payloads_push (p : Batch) {l : Layer} {r : Record l}
    (hr : record? layer tmm buffer = some ⟨l, r⟩) (k : Layer) :
    (p.push l r).payloads k = p.payloads k ++ newRecord layer buffer k := by
  rw [newRecord_of_record? hr, Batch.single]
  by_cases hk : k = l
  · subst hk
    rw [Batch.payloads_push_same, Batch.payloads_push_same]; rfl
  · rw [Batch.payloads_push_ne p r hk, Batch.payloads_push_ne _ r hk]
    exact (List.append_nil _).symm

/-- **A call adds to the history what it accepted.** -/
theorem history_next {B : Build} {D : Driver σ} {w : World σ} {a : LogState}
    (h : Buffers B w.inst a.pending) {op : Op} (hop : op.IsLog) (l : Layer) :
    (a.next B op).history l = a.history l ++ accepted B D l w op := by
  cases op with
  | append layer tmm buffer =>
      have haccepted : accepted B D l w (.append layer tmm buffer) =
          if (call B D w (.append layer tmm buffer)).1 = OK then newRecord layer buffer l
          else [] := by
        rw [accepted, newRecord, ite_and]
        split <;> split <;> rfl
      rw [haccepted, call_append_ret h, LogState.next]
      cases hr : record? layer tmm buffer with
      | none =>
          simp only [LogState.step, hr, ERR_ne_OK, if_false, List.append_nil]
      | some x =>
          obtain ⟨k, r⟩ := x
          by_cases hfull : LogState.Full a.pending k
          · simp only [LogState.step, hr, LogState.append_of_full B r hfull, if_true]
            simp only [LogState.history, List.flatMap_append, List.flatMap_cons, List.flatMap_nil,
              List.append_nil, payloads_push _ hr]
            rfl
          · by_cases hroom : LogState.HasRoom B a.pending k
            · simp only [LogState.step, hr, LogState.append_of_room B r hfull hroom, if_true]
              simp only [LogState.history, payloads_push _ hr, List.append_assoc]
            · simp only [LogState.step, hr, LogState.append_of_no_room B r hfull hroom,
                NEED_MORE_BUFFER_ne_OK, if_false, List.append_nil]
  | flush =>
      show a.flush.history l = a.history l ++ []
      rw [LogState.history_flush, List.append_nil]
  | remount => cases hop
  | erase b => cases hop

end Mxfs
