import Mxfs.Log

/-!
# Mxfs.Dates

The times on the pages.  A page shows the time of its first record
(`Batch.time_image`), and appends made in the order of their times put the
batches away in that order (`LogState.dated_run`), so a page of a later flush
has no earlier time (`LogState.Dated.time_le`).
-/

namespace Mxfs

open Lib

/-! ## the time of a page -/

namespace Batch

/-- The times of the records, in page order. -/
def times (p : Batch) : List Nat := Layer.all.flatMap fun l => (p l).map fun r => r.time.toNat

theorem mem_times {p : Batch} {t : Nat} : t ∈ p.times ↔ ∃ l, ∃ r ∈ p l, r.time.toNat = t := by
  simp [times, Layer.mem_all]

theorem mem_times_push {p : Batch} {l : Layer} {r : Record l} (h : t ∈ (p.push l r).times) :
    t ∈ p.times ∨ t = r.time.toNat := by
  obtain ⟨k, s, hs, rfl⟩ := mem_times.1 h
  by_cases hk : k = l
  · subst hk
    rw [push_same, List.mem_append, List.mem_singleton] at hs
    rcases hs with hs | rfl
    · exact Or.inl (mem_times.2 ⟨k, s, hs, rfl⟩)
    · exact Or.inr rfl
  · rw [push_ne p r hk] at hs
    exact Or.inl (mem_times.2 ⟨k, s, hs, rfl⟩)

theorem exists_head_times {p : Batch} (h : ¬ p.IsEmpty) : ∃ t, p.times.head? = some t := by
  cases ht : p.times with
  | cons t ts => exact ⟨t, rfl⟩
  | nil =>
      refine absurd (fun l => ?_) h
      cases hl : p l with
      | nil => rfl
      | cons r rs =>
          have hmem : r.time.toNat ∈ p.times := mem_times.2 ⟨l, r, by simp [hl], rfl⟩
          rw [ht] at hmem
          cases hmem

end Batch

/-- The first header of a layer has the time of its first record. -/
theorem Layer.head_frames (l : Layer) (last : Nat) (rs : List (Record l)) :
    (l.frames last rs).head?.map (fun f => f.header.time) =
      (rs.map fun r => r.time.toNat).head?.map fun t => u32 (t / 1000) := by
  cases l <;> cases rs <;> rfl

namespace Batch

theorem head_frames (p : Batch) (ls : List Layer) (last : Nat) :
    (p.framesFrom ls last).head?.map (fun f => f.header.time) =
      (ls.flatMap fun l => (p l).map fun r => r.time.toNat).head?.map fun t => u32 (t / 1000) := by
  induction ls generalizing last with
  | nil => rfl
  | cons l ls ih =>
      rw [framesFrom, List.flatMap_cons, List.head?_append, List.head?_append, Option.map_or,
        Option.map_or, Layer.head_frames, ih]

/-- **The time of a page** is that of its first record, in seconds. -/
theorem time_image {p : Batch} (h : p.pageBytes ≤ 2000) (ht : p.times.head? = some t)
    (fill : UInt8) : (Page.image p.image fill).time = u32 (t / 1000) := by
  have hhead := p.head_frames Layer.all 0
  rw [← times, ht, ← frames] at hhead
  have hlen := p.length_image
  rw [Page.time, Page.image_bytes (by unfold pageSize; omega), image]
  cases hfs : p.frames with
  | nil => rw [hfs] at hhead; cases hhead
  | cons f fs =>
      rw [hfs] at hhead
      have htime : f.header.time = u32 (t / 1000) := by simpa using hhead
      rw [List.flatMap_cons, Frame.bytes, List.append_assoc, List.append_assoc,
        Compress.slice_time, htime]
      exact leNat_leBytes_of_lt (Nat.mod_lt _ (by decide))

end Batch

/-! ## dated logs -/

/-- The time an append carries. -/
def Op.time? : Op → Option Nat
  | append _ tmm _ => some tmm.toNat
  | flush | remount | erase _ => none

/-- Appends with positive times that do not decrease, of less than `2 ^ 32` seconds. -/
structure Timed (ops : List Op) : Prop where
  ordered : (ops.filterMap Op.time?).Pairwise (· ≤ ·)
  positive : ∀ t ∈ ops.filterMap Op.time?, 0 < t
  seconds : ∀ t ∈ ops.filterMap Op.time?, t / 1000 < 4294967296

/-- The records carry times of `ts`, and no batch has a later time than one that
follows it. -/
structure LogState.Dated (a : LogState) (ts : List Nat) : Prop where
  mem : ∀ q ∈ a.batches ++ [a.pending], ∀ t ∈ q.times, t ∈ ts
  ordered : (a.batches ++ [a.pending]).Pairwise fun p q => ∀ s ∈ p.times, ∀ t ∈ q.times, s ≤ t
  nonempty : ∀ q ∈ a.batches, ¬ q.IsEmpty

namespace LogState

theorem Dated.mono {a : LogState} (h : a.Dated ts) (hsub : ts ⊆ ts') : a.Dated ts' :=
  ⟨fun q hq t ht => hsub (h.mem q hq t ht), h.ordered, h.nonempty⟩

/-- Forgetting the pending batch. -/
theorem Dated.forget {a : LogState} (h : a.Dated ts) : Dated ⟨Batch.empty, a.batches⟩ ts := by
  obtain ⟨hmem, hord, hne⟩ := h
  refine ⟨fun q hq t ht => ?_, ?_, hne⟩
  · rcases List.mem_append.1 hq with hq | hq
    · exact hmem q (List.mem_append_left _ hq) t ht
    · rw [List.mem_singleton.1 hq] at ht
      cases ht
  · rw [List.pairwise_append] at hord ⊢
    refine ⟨hord.1, List.pairwise_singleton _ _, fun p _ q hq s _ t ht => ?_⟩
    rw [List.mem_singleton.1 hq] at ht
    cases ht

theorem Dated.flush {a : LogState} (h : a.Dated ts) : a.flush.Dated ts := by
  rw [LogState.flush]
  by_cases he : a.pending.IsEmpty
  · rw [if_pos he]; exact h
  · rw [if_neg he]
    have hput : Dated ⟨Batch.empty, (a.batches ++ [a.pending])⟩ ts := by
      refine ⟨fun q hq t ht => ?_, ?_, fun q hq => ?_⟩
      · rcases List.mem_append.1 hq with hq | hq
        · exact h.mem q hq t ht
        · rw [List.mem_singleton.1 hq] at ht
          cases ht
      · refine List.pairwise_append.2 ⟨h.ordered, List.pairwise_singleton _ _, ?_⟩
        intro p _ q hq s _ t ht
        rw [List.mem_singleton.1 hq] at ht
        cases ht
      · rcases List.mem_append.1 hq with hq | hq
        · exact h.nonempty q hq
        · rw [List.mem_singleton.1 hq]; exact he
    exact hput

theorem Dated.push {a : LogState} (h : a.Dated ts) {l : Layer} (r : Record l)
    (ht : ∀ s ∈ ts, s ≤ r.time.toNat) :
    Dated { a with pending := a.pending.push l r } (ts ++ [r.time.toNat]) := by
  obtain ⟨hmem, hord, hne⟩ := h
  rw [List.pairwise_append] at hord
  have hlast : a.pending ∈ a.batches ++ [a.pending] := List.mem_append_right _ List.mem_cons_self
  refine ⟨fun q hq t htq => ?_, ?_, hne⟩
  · rw [List.mem_append, List.mem_singleton]
    rcases List.mem_append.1 hq with hq | hq
    · exact Or.inl (hmem q (List.mem_append_left _ hq) t htq)
    · rw [List.mem_singleton.1 hq] at htq
      cases Batch.mem_times_push htq with
      | inl hold => exact Or.inl (hmem _ hlast t hold)
      | inr hnew => exact Or.inr hnew
  · refine List.pairwise_append.2 ⟨hord.1, List.pairwise_singleton _ _, ?_⟩
    intro p hp q hq s hs t htq
    rw [List.mem_singleton.1 hq] at htq
    cases Batch.mem_times_push htq with
    | inl hold => exact hord.2.2 p hp _ (List.mem_singleton_self _) s hs t hold
    | inr hnew =>
        rw [hnew]
        exact ht s (hmem p (List.mem_append_left _ hp) s hs)

theorem Dated.append {B : Build} {a : LogState} (h : a.Dated ts) {l : Layer} (r : Record l)
    (ht : ∀ s ∈ ts, s ≤ r.time.toNat) : (a.append B l r).2.Dated (ts ++ [r.time.toNat]) := by
  have hplace : (a.makePlace l).Dated ts := by
    rw [makePlace]
    split
    · exact h.flush
    · exact h
  rw [LogState.append]
  split
  · exact hplace.push r ht
  · exact hplace.mono (List.subset_append_left _ _)

/-- **Batches are put away in the order of their times.** -/
theorem dated_run (B : Build) (ops : List Op) (h : (ops.filterMap Op.time?).Pairwise (· ≤ ·)) :
    (LogState.init.run B ops).Dated (ops.filterMap Op.time?) := by
  refine @run_history _ _ (LogState.next B) _ (fun done a =>
    (done.filterMap Op.time?).Pairwise (· ≤ ·) → a.Dated (done.filterMap Op.time?)) ?_ ?_ ops h
  · intro done op a ih hord
    rw [List.filterMap_append, List.pairwise_append] at hord
    rw [List.filterMap_append]
    have ha := ih hord.1
    have hle := List.subset_append_left (done.filterMap Op.time?) ([op].filterMap Op.time?)
    cases op with
    | append layer tmm buffer =>
        rw [LogState.next, LogState.step]
        cases hr : record? layer tmm buffer with
        | none => exact ha.mono hle
        | some x =>
            obtain ⟨l, r⟩ := x
            have htime : r.time = tmm := (record?_eq_some hr).2.1
            have happend := ha.append r (B := B) (fun s hs =>
              hord.2.2 s hs _ (by rw [htime]; exact List.mem_singleton_self _))
            rw [htime] at happend
            exact happend
    | flush => exact ha.flush.mono hle
    | remount => exact ha.forget.mono hle
    | erase b => exact ha.mono hle
  · intro _
    refine ⟨?_, List.pairwise_singleton _ _, by intro q hq; cases hq⟩
    intro q hq t ht
    rw [List.mem_singleton.1 hq] at ht
    cases ht

/-- A page of a later batch has no earlier time. -/
theorem Dated.time_le {a : LogState} (h : a.Dated ts) (hts : ∀ t ∈ ts, t / 1000 < 4294967296)
    (hfits : ∀ q ∈ a.batches, q.pageBytes ≤ 2000) {p q : Batch} {i j : Nat}
    (hi : a.batches[i]? = some p) (hj : a.batches[j]? = some q) (hij : i ≤ j) (fill : UInt8) :
    (Page.image p.image fill).time ≤ (Page.image q.image fill).time := by
  have hp := List.mem_of_getElem? hi
  have hq := List.mem_of_getElem? hj
  obtain ⟨s, hs⟩ := Batch.exists_head_times (h.nonempty p hp)
  obtain ⟨t, ht⟩ := Batch.exists_head_times (h.nonempty q hq)
  have hsmem := List.mem_of_mem_head? hs
  have htmem := List.mem_of_mem_head? ht
  rw [Batch.time_image (hfits p hp) hs, Batch.time_image (hfits q hq) ht,
    u32_eq (hts s (h.mem p (List.mem_append_left _ hp) s hsmem)),
    u32_eq (hts t (h.mem q (List.mem_append_left _ hq) t htmem))]
  apply Nat.div_le_div_right
  by_cases heq : i = j
  · subst heq
    rw [hi] at hj
    cases hj
    rw [hs] at ht
    exact Nat.le_of_eq (Option.some.inj ht)
  · obtain ⟨hil, rfl⟩ := List.getElem?_eq_some_iff.1 hi
    obtain ⟨hjl, rfl⟩ := List.getElem?_eq_some_iff.1 hj
    have hord := (List.pairwise_append.1 h.ordered).1
    exact List.pairwise_iff_getElem.1 hord i j hil hjl (by omega) s hsmem t htmem

end LogState

end Mxfs
