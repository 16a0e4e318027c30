import Mxfs.Log
import Mxfs.Store

/-!
# Mxfs.Model

The abstract log on top of the store, with its own step: `Model.next` puts the
pending batch of the log away into the store, and `Model.abstracts_run` says
that every run of the calls over a page array is a run of the model.  What the
device holds after a run is proved of the model.
-/

namespace Mxfs

open Lib

/-! ## the model -/

/-- The abstract log on top of the store. -/
@[ext] structure Model where
  log : LogState
  store : Store

namespace Model

/-- One call. -/
def next (B : Build) (M : Medium) (m : Model) (op : Op) : Model where
  log := m.log.next B op
  store :=
    match op with
    | .append _ _ _ | .flush =>
      if m.log.Puts op then m.store.put M m.log.pending.image else m.store
    | .remount => m.store.mount B
    | .erase b => m.store.erase b

/-- The model after the first mount of the pages `f`. -/
def init (B : Build) (f : Flash) : Model := ⟨LogState.init, (Store.start f).mount B⟩

/-- `w` is the model `m`: its buffers hold the pending batch, and its device
and block table are the store. -/
structure Abstracts (B : Build) (m : Model) (w : World (Logged Flash)) : Prop where
  buffers : Buffers B w.inst m.log.pending
  shows : w.Shows m.store

theorem abstracts_init (B : Build) (M : Medium) (f : Flash) :
    (init B f).Abstracts B (World.mounted B (pageArray M).logged (Logged.start f)) := by
  refine ⟨?_, shows_mounted M B rfl rfl⟩
  rw [World.mounted_inst]
  exact buffers_mount B _ _

/-- **Each call is a step of the model.** -/
theorem abstracts_next {B : Build} {M : Medium} {m : Model} {w : World (Logged Flash)}
    (h : m.Abstracts B w) (op : Op) :
    (m.next B M op).Abstracts B (Mxfs.next B (pageArray M).logged w op) := by
  refine ⟨buffers_next h.buffers op, ?_⟩
  have hlog : op.IsLog → (Mxfs.next B (pageArray M).logged w op).Shows
      (if m.log.Puts op then m.store.put M m.log.pending.image else m.store) := by
    intro hop
    by_cases hputs : m.log.Puts op
    · obtain ⟨dev, table⟩ := effect_of_puts (D := (pageArray M).logged) h.buffers hop hputs
      rw [if_pos hputs, ← prepare_data h.buffers]
      exact (shows_commit B h.shows.clear (prepare w.inst).2).congr dev table
    · obtain ⟨dev, table⟩ := effect_of_not_puts (D := (pageArray M).logged) h.buffers hop hputs
      rw [if_neg hputs]
      exact h.shows.congr dev table
  cases op with
  | append layer tmm buffer => exact hlog trivial
  | flush => exact hlog trivial
  | remount => exact shows_mounted M B h.shows.flash h.shows.calls
  | erase b =>
      obtain ⟨hb, hp, hm, hf, hc⟩ := h.shows
      constructor
      · exact hb
      · exact hp
      · exact hm
      · show w.dev.dev.eraseBlock b = m.store.flash.eraseBlock b
        rw [hf]
      · show w.dev.calls ++ [⟨.erase b, w.dev.dev, OK⟩] =
          m.store.calls ++ [⟨.erase b, m.store.flash, OK⟩]
        rw [hf, hc]

/-- A call that puts nothing away and neither mounts nor erases leaves the store. -/
theorem next_store_of_log {m : Model} {op : Op} (h : op.IsLog) (B : Build) (M : Medium) :
    (m.next B M op).store =
      if m.log.Puts op then m.store.put M m.log.pending.image else m.store := by
  cases op with
  | append layer tmm buffer => rfl
  | flush => rfl
  | remount => cases h
  | erase b => cases h

/-- **What a call does to the store**: it puts the pending batch away or leaves the
store, and a mount and an erase do what they do. -/
theorem next_store_cases {motive : Store → Prop} {m : Model} {op : Op} (B : Build) (M : Medium)
    (put : m.log.Puts op → motive (m.store.put M m.log.pending.image))
    (rest : ¬ m.log.Puts op → motive m.store)
    (mount : op = .remount → motive (m.store.mount B))
    (erase : ∀ b, op = .erase b → motive (m.store.erase b)) : motive (m.next B M op).store := by
  have hlog : op.IsLog → motive (m.next B M op).store := by
    intro hl
    rw [next_store_of_log hl]
    by_cases hputs : m.log.Puts op
    · rw [if_pos hputs]
      exact put hputs
    · rw [if_neg hputs]
      exact rest hputs
  cases op with
  | append layer tmm buffer => exact hlog trivial
  | flush => exact hlog trivial
  | remount => exact mount rfl
  | erase b => exact erase b rfl

/-- The model of a run. -/
def run (B : Build) (M : Medium) (m : Model) (ops : List Op) : Model := Lib.run (next B M) m ops

theorem Abstracts.run {B : Build} {M : Medium} {m : Model} {w : World (Logged Flash)}
    (h : m.Abstracts B w) (ops : List Op) :
    (m.run B M ops).Abstracts B (Lib.run (Mxfs.next B (pageArray M).logged) w ops) :=
  run_simulates (P := fun _ _ => True) (R := fun (w : World (Logged Flash)) m => Abstracts B m w)
    (fun _ _ op h _ => abstracts_next h op) h (along_of_forall (fun _ _ => trivial) _)

/-- **Every run of the calls over a page array is a run of the model.** -/
theorem abstracts_run (B : Build) (M : Medium) (f : Flash) (ops : List Op) :
    ((init B f).run B M ops).Abstracts B (pageSession B M f ops) :=
  (abstracts_init B M f).run ops

theorem run_append (B : Build) (M : Medium) (m : Model) (xs ys : List Op) :
    m.run B M (xs ++ ys) = (m.run B M xs).run B M ys := Lib.run_append m xs ys

/-- The log of a run of the model is the run of its log. -/
theorem run_log (B : Build) (M : Medium) (m : Model) (ops : List Op) :
    (m.run B M ops).log = m.log.run B ops :=
  run_simulates (P := fun _ _ => True) (R := fun (m : Model) a => m.log = a)
    (fun _ _ op h _ => congrArg (fun a => LogState.next B a op) h) rfl
    (along_of_forall (fun _ _ => trivial) _)

/-- Calls that put nothing away and neither mount nor erase leave the store. -/
theorem run_store_of_log (B : Build) (M : Medium) {m : Model} {ops : List Op}
    (hops : ∀ op ∈ ops, op.IsLog) (h : (m.log.run B ops).batches = m.log.batches) :
    (m.run B M ops).store = m.store := by
  induction ops using List.reverseRecOn with
  | nil => rfl
  | append_singleton ops op ih =>
      -- the batches before the last call are between those at the start and at the end
      have hfirst := m.log.prefix_batches B ops.nil_prefix
      have hmid := m.log.prefix_batches B (List.prefix_append ops [op])
      rw [h] at hmid
      have hbatches : (m.log.run B ops).batches = m.log.batches :=
        hmid.eq_of_length_le hfirst.length_le
      have hstore := ih (fun x hx => hops x (List.mem_append_left _ hx)) hbatches
      have hputs : ¬ (m.run B M ops).log.Puts op := by
        intro hputs
        rw [run_log] at hputs
        rw [LogState.run_concat, LogState.batches_next, if_pos hputs, hbatches] at h
        exact absurd (List.append_right_eq_self.1 h) (List.cons_ne_nil _ _)
      rw [run_append, run, run_cons, run_nil,
        next_store_of_log (hops op (List.mem_append_right _ (List.mem_singleton_self op))),
        if_neg hputs, hstore]

/-! ### one record to a page -/

/-- An append to nothing pending leaves a batch of the record pending. -/
theorem next_append (B : Build) (M : Medium) {m : Model} (h : m.log.pending = Batch.empty)
    (l : Layer) (r : Record l) :
    m.next B M (.ofRecord l r) = ⟨⟨Batch.single l r, m.log.batches⟩, m.store⟩ := by
  obtain ⟨⟨p, bs⟩, st⟩ := m
  obtain rfl : p = Batch.empty := h
  have hfull := not_full_empty l
  have hputs : ¬ LogState.Puts ⟨Batch.empty, bs⟩ (.ofRecord l r) := by
    rw [Op.ofRecord, LogState.puts_append_of_some (record?_ofRecord l r)]
    exact hfull
  apply Model.ext
  · show LogState.next B ⟨Batch.empty, bs⟩ (.ofRecord l r) = _
    have hroom := LogState.append_of_room B (a := ⟨Batch.empty, bs⟩) r hfull
      (LogState.hasRoom_empty B l)
    rw [LogState.next, step_ofRecord, hroom]
    rfl
  · exact if_neg hputs

/-- A flush puts the batch of a single record away. -/
theorem next_flush (B : Build) (M : Medium) (bs : List Batch) (st : Store) (l : Layer)
    (r : Record l) :
    next B M ⟨⟨Batch.single l r, bs⟩, st⟩ .flush =
      ⟨⟨Batch.empty, bs ++ [Batch.single l r]⟩, st.put M (Batch.single l r).image⟩ := by
  have hne := Batch.not_isEmpty_single l r
  apply Model.ext
  · show LogState.flush ⟨Batch.single l r, bs⟩ = _
    rw [LogState.flush, if_neg hne]
  · exact if_pos hne

/-- An append and a flush put a single record away. -/
theorem run_append_flush (B : Build) (M : Medium) {m : Model} (h : m.log.pending = Batch.empty)
    (l : Layer) (r : Record l) :
    m.run B M [.ofRecord l r, .flush] =
      ⟨⟨Batch.empty, m.log.batches ++ [Batch.single l r]⟩,
        m.store.put M (Batch.single l r).image⟩ := by
  rw [run, run_cons, run_cons, run_nil, next_append B M h, next_flush]

end Model

end Mxfs
