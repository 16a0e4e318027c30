import Mxfs.Dates
import Mxfs.Failure
import Mxfs.RingLog
import Mxfs.Search

/-!
# Mxfs.LinuxTimes

The times `mxfs_timerange` fills in under `__LINUX__`.

A flush notes in the page table the first ANTP timestamp of the page and the
last timestamp its loops left behind, and the search copies the first of them
into both fields of an entry.  `linux_times_iff` says that in a run the entries
enclose the records of their pages throughout exactly if every flush puts away
records of a single timestamp, an ANTP record among them.
-/

namespace Mxfs

open Lib

/-! ## the page table -/

/-- The table tells of each page the batch last put there. -/
def Tabled (inst : Inst) (bs : List Batch) : Prop :=
  ∀ b p, IsData b → p < pageCount →
    (inst.pageStatus b p).flags = 0 ∧ (∀ i < bs.length, ringAddr i ≠ (b, p)) ∨
      ∃ i q, bs[i]? = some q ∧ ringAddr i = (b, p) ∧
        (∀ j < bs.length, ringAddr j = (b, p) → j ≤ i) ∧
        (inst.pageStatus b p).flags = q.flags ∧ (inst.pageStatus b p).startTime = q.startTmm

/-- A batch more, at the cursor. -/
theorem Tabled.put {inst inst' : Inst} {bs : List Batch} (h : Tabled inst bs) {q : Batch}
    {lastTmm : Nat} (hstatus : ∀ b p, inst'.pageStatus b p =
      if (b, p) = ringAddr bs.length then ⟨q.flags, q.startTmm, lastTmm⟩
      else inst.pageStatus b p) : Tabled inst' (bs ++ [q]) := by
  intro b p hb hp
  rw [hstatus]
  by_cases haddr : (b, p) = ringAddr bs.length
  · rw [if_pos haddr]
    refine Or.inr ⟨bs.length, q, by simp, haddr.symm, ?_, rfl, rfl⟩
    intro j hj _
    rw [List.length_append, List.length_singleton] at hj
    omega
  · rw [if_neg haddr]
    have hnew : ∀ j < (bs ++ [q]).length, ringAddr j = (b, p) → j < bs.length := by
      intro j hj hja
      rw [List.length_append, List.length_singleton] at hj
      by_contra hge
      obtain rfl : j = bs.length := by omega
      exact haddr hja.symm
    cases h b p hb hp with
    | inl hnone =>
        refine Or.inl ⟨hnone.1, fun j hj hja => hnone.2 j (hnew j hj hja) hja⟩
    | inr hsome =>
        obtain ⟨i, q', hi, hia, hmax, hflags, hstart⟩ := hsome
        refine Or.inr ⟨i, q', ?_, hia, fun j hj hja => hmax j (hnew j hj hja) hja, hflags, hstart⟩
        rw [List.getElem?_append_left (List.getElem?_eq_some_iff.1 hi).1]
        exact hi

section table

variable {B : Build} {M : Medium} {m : Model} {w : World (Logged Flash)}

/-- **A call keeps the table right.** -/
theorem tabled_next (hB : B.linux = true) (hm : m.Abstracts B w) (hr : m.RingInv M)
    (h : Tabled w.inst m.log.batches) (hop : op.IsLog) :
    Tabled (next B (pageArray M).logged w op).inst (m.next B M op).log.batches := by
  have hbatches : (m.next B M op).log.batches =
      if m.log.Puts op then m.log.batches ++ [m.log.pending] else m.log.batches :=
    LogState.batches_next B m.log op
  have hcur : ∀ b p, (b = m.store.cursor.block ∧ p = m.store.cursor.page) ↔
      (b, p) = ringAddr m.log.batches.length := by
    intro b p
    rw [← hr.ring.cursor, Prod.mk.injEq]
  have hstatus := pageStatus_next (M := M) hm hop
  obtain ⟨hflags, hstart⟩ := prepare_collects hm.buffers
  simp only [FlushState.status, hB, hflags, hstart, hcur, if_true] at hstatus
  rw [hbatches]
  by_cases hputs : m.log.Puts op
  · simp only [hputs, true_and] at hstatus
    rw [if_pos hputs]
    exact h.put hstatus
  · simp only [hputs, false_and, if_false] at hstatus
    rw [if_neg hputs]
    intro b p hb hp
    rw [hstatus]
    exact h b p hb hp

end table

/-- The table of a session. -/
theorem tabled_session {B : Build} (hB : B.linux = true) (M : Medium) {f : Flash}
    (hf : ∀ b, IsData b → f.Blank b) {ops : List Op} (hops : ∀ op ∈ ops, op.IsLog) :
    Tabled (pageSession B M f ops).inst (LogState.init.run B ops).batches := by
  have hinit : Tabled (pageSession B M f []).inst [] := by
    intro b p hb hp
    refine Or.inl ⟨?_, by simp⟩
    have hflags := pageFlags_mounted (B := B) M (Logged.start f) hb p
    rw [hB] at hflags
    exact hflags
  have hrun : (((Model.init B f).run B M ops).Abstracts B (pageSession B M f ops) ∧
      ((Model.init B f).run B M ops).RingInv M) ∧
      Tabled (pageSession B M f ops).inst ((Model.init B f).run B M ops).log.batches :=
    run_simulates (R := fun w m => (Model.Abstracts B m w ∧ m.RingInv M) ∧
        Tabled w.inst m.log.batches)
      (fun w m op h hop => ⟨ring_step B M h.1 hop, tabled_next hB h.1.1 h.1.2 h.2 hop⟩)
      ⟨ring_init B M hf, hinit⟩ (along_of_forall hops _)
  have hlog := Model.run_log B M (Model.init B f) ops
  rw [← show (Model.init B f).log = LogState.init from rfl, ← hlog]
  exact hrun.2

/-! ## the entries -/

/-- The entries a search filled in: as many as it returns, or the `n` of the
array if it needs more. -/
def filledEntries (n : Nat) : Option (Int × List TimeRange) → List TimeRange
  | none => []
  | some (ret, after) => if ret = NEED_MORE_BUFFER then after.take n else after.take ret.toNat

/-- Page and times of an entry. -/
def TimeRange.span (t : TimeRange) : (Nat × Nat) × Nat × Nat := (t.addr, t.startTime, t.lastTime)

section entries

variable {σ : Type} {B : Build} {D : Driver σ} {inst : Inst} {layer : UInt8} {dev : σ}

theorem map_span_fillIn (hB : B.linux = true) {xs : List (Nat × Nat)} {ts : List TimeRange}
    (h : xs.length ≤ ts.length) : ((fillIn B inst ts xs).take xs.length).map TimeRange.span =
      xs.map fun x => (x, (inst.pageStatus x.1 x.2).startTime,
        (inst.pageStatus x.1 x.2).startTime) := by
  induction xs generalizing ts with
  | nil => rfl
  | cons x xs ih =>
      cases ts with
      | nil => simp at h
      | cons t ts =>
          have hlen : xs.length ≤ ts.length := by simpa using h
          simp only [fillIn, List.length_cons, List.take_succ_cons, List.map_cons, ih hlen]
          simp [TimeRange.span, TimeRange.ofPage, TimeRange.addr, hB, Inst.pageStatus]

/-- **The search under `__LINUX__`** copies the start times of the pages of the layer. -/
theorem filledEntries_linux (hB : B.linux = true) (l : Layer) {timerange : List TimeRange}
    {timerangecount : UInt16} (hpos : timerangecount ≠ 0)
    (hroom : timerangecount.toNat ≤ timerange.length) :
    (filledEntries timerangecount.toNat (mxfsTimerange B D inst dev (UInt8.ofNat l.toNat)
        timerange timerangecount).1).map TimeRange.span =
      ((dataPages.filter fun x => (inst.pageStatus x.1 x.2).flags &&& l.pageFlag != 0).take
        timerangecount.toNat).map fun x =>
          (x, (inst.pageStatus x.1 x.2).startTime, (inst.pageStatus x.1 x.2).startTime) := by
  have hlisted : ∀ x ∈ dataPages, pageListed B D inst (UInt8.ofNat l.toNat) dev x.1 x.2 =
      (some ((inst.pageStatus x.1 x.2).flags &&& l.pageFlag != 0), dev) := by
    intro x _
    have hl : layerFlag (UInt8.ofNat l.toNat) = some l.pageFlag := by cases l <;> rfl
    rw [pageListed, if_pos hB, hl]
    simp [pageValid, Inst.pageStatus]
  have hloop := searchLoop_eq hlisted [] timerange (Nat.zero_le _) (by simpa using hroom)
  rw [List.nil_append, List.length_nil, Nat.sub_zero, Nat.zero_add] at hloop
  rw [mxfsTimerange, if_neg hpos, hloop]
  generalize dataPages.filter (fun x => (inst.pageStatus x.1 x.2).flags &&& l.pageFlag != 0) = xs
  have hle : (xs.take timerangecount.toNat).length ≤ timerange.length := by
    rw [List.length_take]
    omega
  have hspan := @map_span_fillIn B inst hB _ _ hle
  by_cases hfit : xs.length ≤ timerangecount.toNat
  · have hret : ((xs.length : Nat) : Int) ≠ NEED_MORE_BUFFER := by unfold NEED_MORE_BUFFER; omega
    rw [List.take_of_length_le hfit] at hspan ⊢
    rw [if_pos hfit, List.nil_append, filledEntries, if_neg hret]
    exact hspan
  · have hlen : (xs.take timerangecount.toNat).length = timerangecount.toNat := by
      rw [List.length_take]
      omega
    rw [hlen] at hspan
    rw [if_neg hfit, List.nil_append, filledEntries, if_pos rfl]
    exact hspan

/-- A page of the layer has an entry, if the array is for all pages. -/
theorem exists_filledEntry (D : Driver σ) (dev : σ) (hB : B.linux = true) (l : Layer)
    {x : Nat × Nat} (hx : x ∈ dataPages)
    (hflag : (inst.pageStatus x.1 x.2).flags &&& l.pageFlag ≠ 0) :
    ∃ e ∈ filledEntries (65535 : UInt16).toNat
        (mxfsTimerange B D inst dev (UInt8.ofNat l.toNat) pageBuffer 65535).1,
      e.addr = x ∧ e.startTime = (inst.pageStatus x.1 x.2).startTime ∧
        e.lastTime = (inst.pageStatus x.1 x.2).startTime := by
  have hroom : (65535 : UInt16).toNat ≤ pageBuffer.length := by
    rw [pageBuffer, List.length_replicate]
    decide
  have hall : (dataPages.filter fun x =>
      (inst.pageStatus x.1 x.2).flags &&& l.pageFlag != 0).length ≤ (65535 : UInt16).toNat := by
    refine Nat.le_trans (List.length_filter_le _ _) ?_
    rw [length_dataPages]
    decide
  have hlisted : x ∈ dataPages.filter fun x =>
      (inst.pageStatus x.1 x.2).flags &&& l.pageFlag != 0 := by
    rw [List.mem_filter]
    exact ⟨hx, bne_iff_ne.2 hflag⟩
  have hspan : (filledEntries (65535 : UInt16).toNat
      (mxfsTimerange B D inst dev (UInt8.ofNat l.toNat) pageBuffer 65535).1).map
        TimeRange.span = _ := filledEntries_linux hB l (by decide) hroom
  rw [List.take_of_length_le hall] at hspan
  have hmem := List.mem_map_of_mem (f := fun x : Nat × Nat => (x,
    (inst.pageStatus x.1 x.2).startTime, (inst.pageStatus x.1 x.2).startTime)) hlisted
  rw [← hspan] at hmem
  obtain ⟨e, he, hes⟩ := List.mem_map.1 hmem
  obtain ⟨haddr, htimes⟩ := Prod.mk.inj hes
  exact ⟨e, he, haddr, Prod.mk.inj htimes⟩

end entries

/-! ## the theorem -/

/-- The entry encloses the records of the layer in the batch, and is enclosed by
the times of the batch. -/
def TimeRange.Encloses (e : TimeRange) (l : Layer) (q : Batch) : Prop :=
  (∀ r ∈ q l, e.startTime ≤ r.time.toNat ∧ r.time.toNat ≤ e.lastTime) ∧
    (∃ t ∈ q.times, e.lastTime ≤ t) ∧ ∃ t ∈ q.times, t ≤ e.startTime

/-- Every entry a search fills in after the calls `ops` encloses the records of
the batch on its page. -/
def EntriesEnclose (B : Build) (M : Medium) (f : Flash) (ops : List Op) : Prop :=
  ∀ (l : Layer) (timerange : List TimeRange) (timerangecount : UInt16),
    timerangecount.toNat ≤ timerange.length →
    ∀ e ∈ filledEntries timerangecount.toNat (mxfsTimerange B (pageArray M).logged
        (pageSession B M f ops).inst (pageSession B M f ops).dev (UInt8.ofNat l.toNat)
        timerange timerangecount).1,
      ∀ q, heldBatch (LogState.init.run B ops).batches e.block e.page = some q → e.Encloses l q

/-- The entries enclose the records after each first part of the calls. -/
def AlwaysEnclose (B : Build) (M : Medium) (f : Flash) (ops : List Op) : Prop :=
  ∀ pre, pre <+: ops → EntriesEnclose B M f pre

namespace Batch

/-- All records of the batch have the time of an ANTP record of the batch. -/
def OneTime (q : Batch) : Prop :=
  ∃ l ∈ Layer.antp, ∃ r ∈ q l, ∀ t ∈ q.times, t = r.time.toNat

theorem flags_and_pageFlag (q : Batch) (l : Layer) : q.flags &&& l.pageFlag ≠ 0 ↔ q l ≠ [] := by
  have hbyte : 0xFF &&& l.pageFlag = l.pageFlag := by cases l <;> rfl
  rw [← q.flags_and l, UInt32.and_assoc, hbyte]

theorem foldl_start (ts : List Nat) (hpos : ∀ t ∈ ts, 0 < t) {start : Nat} (h : 0 < start) :
    ts.foldl (fun start tmm => if start = 0 then tmm else start) start = start := by
  induction ts with
  | nil => rfl
  | cons t ts ih =>
      rw [List.foldl_cons, if_neg (by omega)]
      exact ih fun s hs => hpos s (List.mem_cons_of_mem t hs)

/-- With positive times the start time is the first ANTP timestamp. -/
theorem startTmm_eq {q : Batch} (hpos : ∀ t ∈ q.times, 0 < t) :
    q.startTmm = (Layer.antp.flatMap fun l => (q l).map fun r => r.time.toNat).headD 0 := by
  have hantp : ∀ t ∈ Layer.antp.flatMap fun l => (q l).map fun r => r.time.toNat, 0 < t := by
    intro t ht
    obtain ⟨l, _, ht⟩ := List.mem_flatMap.1 ht
    obtain ⟨r, hr, rfl⟩ := List.mem_map.1 ht
    exact hpos _ (mem_times.2 ⟨l, r, hr, rfl⟩)
  rw [startTmm]
  generalize (Layer.antp.flatMap fun l => (q l).map fun r => r.time.toNat) = ts at hantp ⊢
  cases ts with
  | nil => rfl
  | cons t ts =>
      rw [List.foldl_cons, if_pos rfl]
      exact foldl_start ts (fun s hs => hantp s (List.mem_cons_of_mem t hs))
        (hantp t List.mem_cons_self)

/-- The start time enclosing everything. -/
theorem oneTime_iff {q : Batch} (hpos : ∀ t ∈ q.times, 0 < t) (hne : ¬ q.IsEmpty) :
    q.OneTime ↔ ∀ t ∈ q.times, t = q.startTmm := by
  have hstart := startTmm_eq hpos
  have hmem : ∀ t, (∃ l ∈ Layer.antp, ∃ r ∈ q l, r.time.toNat = t) ↔
      t ∈ Layer.antp.flatMap fun l => (q l).map fun r => r.time.toNat := by simp
  cases hantp : Layer.antp.flatMap fun l => (q l).map fun r => r.time.toNat with
  | nil =>
      rw [hantp] at hmem hstart
      refine iff_of_false ?_ fun hall => ?_
      · rintro ⟨l, hl, r, hr, _⟩
        simpa using (hmem _).1 ⟨l, hl, r, hr, rfl⟩
      · obtain ⟨t, ht⟩ := exists_head_times hne
        have ht := List.mem_of_mem_head? ht
        have hz : t = 0 := (hall t ht).trans hstart
        exact absurd (hpos t ht) (by omega)
  | cons s rest =>
      rw [hantp] at hmem hstart
      obtain ⟨l, hl, r, hr, hrs⟩ := (hmem s).2 List.mem_cons_self
      constructor
      · rintro ⟨k, _, r', hr', hall⟩ t ht
        rw [hstart, hall t ht, ← hall s (mem_times.2 ⟨l, r, hr, hrs⟩)]
        rfl
      · intro hall
        refine ⟨l, hl, r, hr, fun t ht => ?_⟩
        rw [hall t ht, hstart, hrs]
        rfl

end Batch

/-- The batch held by a page is the one the table tells of. -/
theorem Tabled.held {inst : Inst} {bs : List Batch} (h : Tabled inst bs) {b p : Nat}
    (hb : IsData b) (hp : p < pageCount) {q : Batch} (hq : heldBatch bs b p = some q) :
    (inst.pageStatus b p).flags = q.flags ∧ (inst.pageStatus b p).startTime = q.startTmm ∧
      q ∈ bs := by
  obtain ⟨i, hi, hlive, hslot⟩ := (ringStore_eq_some (by decide) (by decide) bs _ _ q).1 hq
  have hdata := isData_iff.1 hb
  have hia : ringAddr i = (b, p) := by
    rw [ringAddr, hslot]
    exact Prod.ext (by dsimp only; omega) rfl
  rw [← and_assoc]
  refine ⟨?_, List.mem_of_getElem? hi⟩
  cases h b p hb hp with
  | inl hnone => exact absurd hia (hnone.2 i hlive.1)
  | inr hsome =>
      obtain ⟨j, q', hj, hja, hmax, hflags, hstart⟩ := hsome
      have hij := hmax i hlive.1 hia
      have hdiv : i / 64 ≤ j / 64 := Nat.div_le_div_right hij
      have hjlive : Live 1023 64 bs.length j :=
        ⟨(List.getElem?_eq_some_iff.1 hj).1, by have := hlive.2; omega⟩
      obtain rfl : i = j := ringAddr_inj hlive hjlive (hia.trans hja.symm)
      rw [hi] at hj
      rw [hflags, hstart, Option.some.inj hj]
      exact ⟨rfl, rfl⟩

section enclose

variable {B : Build} {M : Medium} {f : Flash}

/-- Batches of one time are enclosed. -/
theorem entriesEnclose_of (hB : B.linux = true) (hf : ∀ b, IsData b → f.Blank b) {ops : List Op}
    (hops : ∀ op ∈ ops, op.IsLog)
    (hone : ∀ q ∈ (LogState.init.run B ops).batches,
      ¬ q.IsEmpty ∧ ∀ t ∈ q.times, t = q.startTmm) : EntriesEnclose B M f ops := by
  have htab := tabled_session hB M hf hops
  intro l timerange timerangecount hroom e he q hq
  by_cases hpos : timerangecount = 0
  · rw [hpos, mxfsTimerange, if_pos rfl] at he
    simp [filledEntries, ERR, NEED_MORE_BUFFER] at he
  · have hspan := List.mem_map_of_mem (f := TimeRange.span) he
    rw [filledEntries_linux hB l hpos hroom] at hspan
    obtain ⟨x, hx, hxe⟩ := List.mem_map.1 hspan
    obtain ⟨hb, hp⟩ := mem_dataPages.1 (List.mem_of_mem_filter (List.mem_of_mem_take hx))
    obtain ⟨haddr, htimes⟩ := Prod.mk.inj hxe
    obtain ⟨hstart, hlast⟩ := Prod.mk.inj htimes
    have hq : heldBatch (LogState.init.run B ops).batches x.1 x.2 = some q := by
      rw [haddr]; exact hq
    obtain ⟨_, htmm, hmem⟩ := htab.held hb hp hq
    obtain ⟨hne, hone⟩ := hone q hmem
    obtain ⟨t, ht⟩ := Batch.exists_head_times hne
    have ht := List.mem_of_mem_head? ht
    rw [TimeRange.Encloses, ← hstart, ← hlast, htmm]
    refine ⟨fun r hr => ?_, ⟨t, ht, (hone t ht).ge⟩, ⟨t, ht, (hone t ht).le⟩⟩
    have hr := hone _ (Batch.mem_times.2 ⟨l, r, hr, rfl⟩)
    exact ⟨hr.ge, hr.le⟩

/-- The batch put away last has one time, if it is enclosed. -/
theorem oneTime_of_entriesEnclose (hB : B.linux = true) (hf : ∀ b, IsData b → f.Blank b)
    {ops : List Op} (hops : ∀ op ∈ ops, op.IsLog) (h : EntriesEnclose B M f ops)
    {bs : List Batch} {q : Batch} (hbs : (LogState.init.run B ops).batches = bs ++ [q]) :
    ∀ t ∈ q.times, t = q.startTmm := by
  have htab := tabled_session hB M hf hops
  have hheld : heldBatch (LogState.init.run B ops).batches (ringAddr bs.length).1
      (ringAddr bs.length).2 = some q := by
    refine (ringStore_eq_some (by decide) (by decide) _ _ _ q).2 ⟨bs.length, ?_, ?_, rfl⟩
    · simp [hbs]
    · rw [hbs, List.length_append]
      exact live_self (by decide) _
  have hdata : IsData (ringAddr bs.length).1 ∧ (ringAddr bs.length).2 < pageCount := by
    rw [ringAddr_eq, isData_iff]
    unfold pageCount
    dsimp only
    omega
  obtain ⟨hflags, hstart, _⟩ := htab.held hdata.1 hdata.2 hheld
  intro t ht
  obtain ⟨l, r, hr, hrt⟩ := Batch.mem_times.1 ht
  have hflag := (q.flags_and_pageFlag l).2 (List.ne_nil_of_mem hr)
  rw [← hflags] at hflag
  obtain ⟨e, he, haddr, hstarts, hlasts⟩ := exists_filledEntry (pageArray M).logged
    (pageSession B M f ops).dev hB l (mem_dataPages.2 hdata) hflag
  rw [← haddr] at hheld
  obtain ⟨hin, _⟩ := h l pageBuffer 65535 (by rw [pageBuffer, List.length_replicate]; decide)
    e he q hheld
  obtain ⟨hle, hge⟩ := hin r hr
  rw [hstarts, hstart, hrt] at hle
  rw [hlasts, hstart, hrt] at hge
  omega

/-- Each batch is put away last by some part of the calls. -/
theorem exists_prefix_last (B : Build) {ops : List Op} {q : Batch}
    (hq : q ∈ (LogState.init.run B ops).batches) :
    ∃ pre bs, pre <+: ops ∧ (LogState.init.run B pre).batches = bs ++ [q] := by
  induction ops using List.reverseRecOn with
  | nil => cases hq
  | append_singleton ops op ih =>
      have hold : q ∈ (LogState.init.run B ops).batches →
          ∃ pre bs, pre <+: ops ++ [op] ∧ (LogState.init.run B pre).batches = bs ++ [q] := by
        intro hq
        obtain ⟨pre, bs, hpre, hbs⟩ := ih hq
        exact ⟨pre, bs, hpre.trans (List.prefix_append _ _), hbs⟩
      have hnext := LogState.batches_next B (LogState.init.run B ops) op
      rw [← LogState.run_concat] at hnext
      rw [hnext] at hq
      by_cases hputs : (LogState.init.run B ops).Puts op
      · rw [if_pos hputs] at hq hnext
        cases List.mem_append.1 hq with
        | inl hq => exact hold hq
        | inr hq =>
            rw [← List.mem_singleton.1 hq] at hnext
            exact ⟨ops ++ [op], _, List.prefix_refl _, hnext⟩
      · rw [if_neg hputs] at hq
        exact hold hq

end enclose

/-- **The times enclose the records** throughout a run of appends with positive
timestamps and flushes on an erased data area, exactly if each batch put away has
one time only, that of an ANTP record. -/
theorem linux_times_iff {B : Build} (hB : B.linux = true) (M : Medium) {f : Flash}
    (hf : ∀ b, IsData b → f.Blank b) {ops : List Op} (hops : ∀ op ∈ ops, op.IsLog)
    (hord : (ops.filterMap Op.time?).Pairwise (· ≤ ·))
    (hpos : ∀ t ∈ ops.filterMap Op.time?, 0 < t) :
    AlwaysEnclose B M f ops ↔ ∀ q ∈ (LogState.init.run B ops).batches, q.OneTime := by
  have hdated := LogState.dated_run B ops hord
  have htimes : ∀ q ∈ (LogState.init.run B ops).batches, ∀ t ∈ q.times, 0 < t :=
    fun q hq t ht => hpos t (hdated.mem q (List.mem_append_left _ hq) t ht)
  have hone : ∀ q ∈ (LogState.init.run B ops).batches,
      (q.OneTime ↔ ∀ t ∈ q.times, t = q.startTmm) :=
    fun q hq => Batch.oneTime_iff (htimes q hq) (hdated.nonempty q hq)
  constructor
  · intro h q hq
    refine (hone q hq).2 ?_
    obtain ⟨pre, bs, hpre, hbs⟩ := exists_prefix_last B hq
    exact oneTime_of_entriesEnclose hB hf (fun op hop => hops op (hpre.subset hop)) (h pre hpre) hbs
  · intro h pre hpre
    refine entriesEnclose_of hB hf (fun op hop => hops op (hpre.subset hop)) fun q hq => ?_
    have hq := (LogState.init.prefix_batches B hpre).subset hq
    exact ⟨hdated.nonempty q hq, (hone q hq).1 (h q hq)⟩

/-- A speed record of the second after. -/
def nextSpeedSample : Record .antpSpeed := ⟨2000, List.replicate 18 7, by decide⟩

/-- One speed record. -/
theorem linux_times_single : AlwaysEnclose { linux := true, rp2040 := false } fakeMedium
    Flash.erased [.ofRecord .antpSpeed speedSample, .flush] := by
  have hbatches : (LogState.init.run { linux := true, rp2040 := false }
      [.ofRecord .antpSpeed speedSample, .flush]).batches = [Batch.single .antpSpeed speedSample] :=
    rfl
  refine (linux_times_iff rfl fakeMedium (fun b _ => Flash.blank_erased b)
    (by simp [Op.ofRecord, Op.IsLog]) (by decide) (by decide)).2 ?_
  rw [hbatches]
  intro q hq
  rw [List.mem_singleton.1 hq]
  exact ⟨.antpSpeed, by decide, speedSample, by simp [Batch.single_same], by decide⟩

/-- Two speed records, a second apart. -/
theorem linux_times_wrong : ¬ AlwaysEnclose { linux := true, rp2040 := false } fakeMedium
    Flash.erased [.ofRecord .antpSpeed speedSample, .ofRecord .antpSpeed nextSpeedSample,
      .flush] := by
  have hbatches : (LogState.init.run { linux := true, rp2040 := false }
      [.ofRecord .antpSpeed speedSample, .ofRecord .antpSpeed nextSpeedSample, .flush]).batches =
        [] ++ [(Batch.single .antpSpeed speedSample).push .antpSpeed nextSpeedSample] := rfl
  intro h
  have hone := oneTime_of_entriesEnclose rfl (fun b _ => Flash.blank_erased b)
    (by simp [Op.ofRecord, Op.IsLog]) (h _ (List.prefix_refl _)) hbatches
  exact absurd (hone 2000 (by decide)) (by decide)

end Mxfs
