import Mxfs.Buffers
import Mxfs.Decode

/-!
# Mxfs.Walk

A walk over the frames of a page.  Every decoder is a loop that does something
at a header and goes on behind its payload: over well-formed frames it is a
fold (`walk_frames`).  `timesLoop_shows` is the fold of
`mxfs_timerange_by_block` over a page that shows a batch, and what a header of
the batch adds to it is read off the records (`add_antp`, `add_dim3`,
`add_temperature`).
-/

namespace Mxfs

open Lib

/-! ## the walk -/

/-- Collecting an item a round. -/
theorem foldl_concat (f : α → β) (xs : List α) (acc : List β) :
    xs.foldl (fun acc x => acc ++ [f x]) acc = acc ++ xs.map f := by
  rw [List.foldl_append_eq_append, ← List.flatMap_def, ← List.map_eq_flatMap]

/-- The header of a frame is read where it lies. -/
theorem headerAt_frame {f : Frame} {pre rest : List UInt8} :
    headerAt (pre ++ (f.bytes ++ rest)) pre.length = f.header.stored := by
  rw [headerAt, Compress.ofBytes_slice (Nat.le_refl _), List.drop_left, Frame.bytes,
    List.append_assoc, Compress.ofBytes_append]

/-- **A loop over well-formed frames is a fold**, if a round at a frame does `g`
and goes on behind the frame. -/
theorem walk_frames {α β : Type} (loop : (fuel offset : Nat) → α → β) (g : α → Frame → α)
    {rbf rest : List UInt8} (fs : List Frame) (pre : List UInt8)
    (hrbf : rbf = pre ++ (fs.flatMap Frame.bytes ++ rest))
    (hround : ∀ f ∈ fs, ∀ offset fuel a, ShowsAt rbf offset f.layer f.payload →
      headerAt rbf offset = f.header.stored →
      loop (fuel + 1) offset a = loop fuel (offset + headerSize + f.payload.length) (g a f))
    (hfs : ∀ f ∈ fs, f.WellFormed) (fuel : Nat) (a : α) :
    loop (fs.length + fuel) pre.length a =
      loop fuel (pre.length + (fs.flatMap Frame.bytes).length) (fs.foldl g a) := by
  induction fs generalizing pre a with
  | nil => simp
  | cons f fs ih =>
      have hassoc : rbf = pre ++ (f.bytes ++ (fs.flatMap Frame.bytes ++ rest)) := by
        rw [hrbf, List.flatMap_cons, List.append_assoc]
      have hshows : ShowsAt rbf pre.length f.layer f.payload :=
        hassoc ▸ showsAt_frame (hfs f List.mem_cons_self) rfl
      have hheader : headerAt rbf pre.length = f.header.stored := hassoc ▸ headerAt_frame
      have hpre : (pre ++ f.bytes).length = pre.length + headerSize + f.payload.length := by
        rw [List.length_append, Frame.length_bytes, Nat.add_assoc]
      have ih := ih (pre ++ f.bytes) (by rw [hassoc, List.append_assoc])
        (fun g hg => hround g (List.mem_cons_of_mem f hg))
        (fun g hg => hfs g (List.mem_cons_of_mem f hg)) (g a f)
      rw [List.length_cons, Nat.add_right_comm, hround f List.mem_cons_self _ _ _ hshows hheader,
        ← hpre, ih, List.foldl_cons, hpre, List.flatMap_cons, List.length_append,
        Frame.length_bytes]
      congr 1
      omega

/-- `data` starts with the image of the batch, and the bytes behind it do not
form the magic. -/
def Shows (data : List UInt8) (p : Batch) : Prop :=
  ∃ rest, data = p.image ++ rest ∧ 4 ≤ rest.length ∧ leNat (rest.take 4) ≠ magic

theorem Shows.append {data : List UInt8} {p : Batch} (h : Shows data p) (more : List UInt8) :
    Shows (data ++ more) p := by
  obtain ⟨rest, rfl, hlen, hmagic⟩ := h
  refine ⟨rest ++ more, List.append_assoc _ _ _, by simp; omega, ?_⟩
  rwa [List.take_append_of_le_length hlen]

/-- A page a flush has programmed. -/
theorem shows_image {p : Batch} (h : p.pageBytes ≤ 2000) (fill : UInt8) :
    Shows (Page.image p.image fill).bytes p := by
  have hlen := p.length_image
  refine ⟨List.replicate (pageSize - p.image.length) fill, ?_, ?_, ?_⟩
  · exact Page.image_bytes (by unfold pageSize; omega) fill
  · rw [List.length_replicate]
    unfold pageSize
    omega
  · exact leNat_replicate_ne_magic fill _

/-- A page without magic shows no records. -/
theorem shows_empty {data : List UInt8} (hlen : 4 ≤ data.length)
    (hmagic : leNat (data.take 4) ≠ magic) : Shows data Batch.empty :=
  ⟨data, rfl, hlen, hmagic⟩

/-- An erased page. -/
theorem shows_blank : Shows Page.blank.bytes Batch.empty :=
  shows_empty (by rw [Page.size]; decide) (leNat_replicate_ne_magic 0xFF pageSize)

/-- There is no header behind the image. -/
theorem Shows.not_magic {data : List UInt8} {p : Batch} (h : Shows data p) :
    p.image.length + 4 ≤ data.length ∧ (headerAt data p.image.length).magic ≠ magic := by
  obtain ⟨rest, rfl, hlen, hmagic⟩ := h
  refine ⟨by simp; omega, ?_⟩
  rw [headerAt, Compress.ofBytes_slice (Nat.le_refl _), List.drop_left]
  exact hmagic

/-- The walk of a decoder over a page that shows a batch. -/
theorem walk_shows {α β : Type} (loop : (fuel offset : Nat) → α → β) (g : α → Frame → α)
    {data : List UInt8} {p : Batch} (h : Shows data p) (hfits : p.pageBytes ≤ 2000)
    (hround : ∀ f ∈ p.frames, ∀ offset fuel a, ShowsAt data offset f.layer f.payload →
      headerAt data offset = f.header.stored →
      loop (fuel + 1) offset a = loop fuel (offset + headerSize + f.payload.length) (g a f))
    (hfuel : p.image.length < fuel) (a : α) :
    ∃ left, loop fuel 0 a = loop (left + 1) p.image.length (p.frames.foldl g a) := by
  obtain ⟨rest, hdata, _⟩ := h
  have hframes := p.length_frames_le
  refine ⟨fuel - p.frames.length - 1, ?_⟩
  have hsplit : fuel = p.frames.length + (fuel - p.frames.length - 1 + 1) := by omega
  have hwalk := walk_frames loop g p.frames [] hdata hround
    (p.frames_wellFormed hfits) (fuel - p.frames.length - 1 + 1) a
  rw [← hsplit, List.length_nil, Nat.zero_add] at hwalk
  exact hwalk

/-! ## the walk for times -/

/-- **`mxfs_timerange_by_block` on a page that shows a batch.** -/
theorem timesLoop_shows {data : List UInt8} {p : Batch} (h : Shows data p)
    (hfits : p.pageBytes ≤ 2000) (layer : UInt8) :
    timesLoop data layer pageBufferSize 0 PageTimes.init =
      some (p.frames.foldl (fun t f => t.add layer f.header.stored) PageTimes.init) := by
  have hlen := p.length_image
  have hfuel : p.image.length < pageBufferSize := by
    unfold pageBufferSize
    omega
  obtain ⟨left, hwalk⟩ := walk_shows (timesLoop data layer)
    (fun t f => t.add layer f.header.stored) h hfits (by
      intro f _ offset fuel t hshows hheader
      obtain ⟨n, hstride, _⟩ := hshows.stride
      have hbytes := hshows.fits
      unfold headerSize at hbytes
      rw [← headerAt, hheader] at hstride
      rw [timesLoop_magic (by omega) hshows.magic, hheader, hstride]
      exact if_neg (by unfold headerSize; omega)) hfuel PageTimes.init
  obtain ⟨hend, hmagic⟩ := h.not_magic
  rw [hwalk, timesLoop, if_neg (by omega), if_neg (by omega)]
  exact if_pos hmagic

/-! ## the frames of one layer -/

/-- `last_tmm` before the layer. -/
def Batch.lastBefore (p : Batch) (l : Layer) : Nat :=
  (Layer.all.take l.toNat).foldl (fun last k => k.lastAfter last (p k)) 0

theorem Layer.layer_of_mem_frames {l : Layer} {last : Nat} {rs : List (Record l)} {f : Frame}
    (h : f ∈ l.frames last rs) : f.layer = l := by
  cases l
  case antpSpeed | antpPower | antpCadence =>
      obtain ⟨r, _, rfl⟩ := List.mem_map.1 h
      rfl
  case gyro | accelerometer | temperature =>
      cases rs with
      | nil => cases h
      | cons r rest => rw [List.mem_singleton.1 h]

/-- The frames of one layer of a batch. -/
theorem Batch.filter_frames (p : Batch) (l : Layer) :
    p.frames.filter (fun f => f.layer = l) = l.frames (p.lastBefore l) (p l) := by
  have hother : ∀ (k : Layer) (last : Nat), k ≠ l →
      (k.frames last (p k)).filter (fun f => f.layer = l) = [] := by
    intro k last hk
    rw [List.filter_eq_nil_iff]
    intro f hf
    simp [Layer.layer_of_mem_frames hf, hk]
  have hown : ∀ last, (l.frames last (p l)).filter (fun f => f.layer = l) =
      l.frames last (p l) := by
    intro last
    rw [List.filter_eq_self]
    intro f hf
    simp [Layer.layer_of_mem_frames hf]
  simp only [frames, Layer.all, framesFrom, List.filter_append, List.filter_nil]
  cases l <;> simp [hother, hown, lastBefore, Layer.all, Layer.toNat]

/-- **A fold that minds one layer only** is a fold over the frames of the layer. -/
theorem Batch.foldl_frames {α : Type} (p : Batch) {l : Layer} {g : α → Frame → α}
    (hg : ∀ f ∈ p.frames, f.layer ≠ l → ∀ a, g a f = a) (a : α) :
    p.frames.foldl g a = (l.frames (p.lastBefore l) (p l)).foldl g a := by
  rw [← p.filter_frames l, List.foldl_filter]
  refine List.foldl_ext _ _ a fun a f hf => ?_
  by_cases hlayer : f.layer = l
  · simp [hlayer]
  · simp [hlayer, hg f hf hlayer a]

/-! ## what a header says -/

/-- The time a header shows for `t`, in 64 bits. -/
def stamp (t : Nat) : Nat := u32 (t / 1000) * 1000 + t % 1000

theorem stamp_eq (h : t / 1000 < 4294967296) : stamp t = t := by
  rw [stamp, u32_eq h]
  omega

theorem u32_stamp (t : Nat) : u32 (stamp t) = u32 t := by
  unfold stamp u32
  omega

theorem stored_time (cp : Compress) (t : Nat) (htime : cp.time = u32 (t / 1000))
    (hmsec : cp.msec = u32 (t % 1000) % 1024) :
    cp.stored.time * 1000 + cp.stored.msec = stamp t := by
  simp only [Compress.stored, htime, hmsec, stamp, u32]
  omega

theorem stepField_lt (tmm lastTmm count : Nat) : stepField tmm lastTmm count < 65536 := by
  unfold stepField
  split <;> omega

namespace PageTimes

variable (t : PageTimes) (layer : UInt8)

/-- A header of another layer adds nothing. -/
theorem add_ne {cp : Compress} (h : cp.type ≠ layer.toNat) : t.add layer cp = t := by
  rw [add, if_neg h]

/-- **An ANTP header** adds its record. -/
theorem add_antp {l : Layer} (h : l ∈ Layer.antp) (tmm : Nat) :
    t.add (UInt8.ofNat l.toNat) (antpHeader l tmm).stored = t.note (stamp tmm) (stamp tmm) 1 := by
  have hstamp := stored_time (antpHeader l tmm) tmm rfl rfl
  simp only [Layer.antp, List.mem_cons, List.not_mem_nil, or_false] at h
  rcases h with rfl | rfl | rfl <;> (rw [← hstamp]; rfl)

/-- **The header of a gyro or accelerometer series** adds its records, the last
one as far on as the step says. -/
theorem add_dim3 {l : Layer} (h : l ∈ Layer.dim3) (tmm lastTmm : Nat) (hc : count < 2048) :
    t.add (UInt8.ofNat l.toNat) (dim3Header l tmm lastTmm count).stored =
      t.note (u32 tmm) (u32 tmm + count * stepField tmm lastTmm count) count := by
  have hadd : ∀ cp : Compress, cp.type = l.toNat → t.add (UInt8.ofNat l.toNat) cp =
      t.note (u32 (cp.time * 1000 + cp.msec))
        (u32 (cp.time * 1000 + cp.msec) + cp.gyrCount * cp.step) cp.gyrCount := by
    intro cp ht
    simp only [Layer.dim3, List.mem_cons, List.not_mem_nil, or_false] at h
    rcases h with rfl | rfl <;> (rw [add, ht]; rfl)
  have hstep : (dim3Header l tmm lastTmm count).stored.step = stepField tmm lastTmm count :=
    Nat.mod_eq_of_lt (stepField_lt _ _ _)
  have hcount : (dim3Header l tmm lastTmm count).stored.gyrCount = count :=
    gyrCount_gyrUnion _ (Nat.mod_eq_of_lt (Compress.gyrUnion_lt _ _ _)) hc
  rw [hadd _ (Nat.mod_eq_of_lt (Nat.lt_trans l.toNat_lt (by decide))),
    stored_time _ tmm rfl rfl, u32_stamp, hstep, hcount]

/-- **The header of the temperature series**, likewise. -/
theorem add_temperature (tmm lastTmm : Nat) (hc : count < 65536) :
    t.add (UInt8.ofNat Layer.temperature.toNat) (temperatureHeader tmm lastTmm count).stored =
      t.note (u32 tmm) (u32 tmm + count * stepField tmm lastTmm count) count := by
  have hadd : ∀ cp : Compress, cp.type = Layer.temperature.toNat →
      t.add (UInt8.ofNat Layer.temperature.toNat) cp =
        t.note (u32 (cp.time * 1000 + cp.msec))
          (u32 (cp.time * 1000 + cp.msec) + cp.tmpCount * cp.step) cp.tmpCount := by
    intro cp ht
    rw [add, ht]; rfl
  have hstep : (temperatureHeader tmm lastTmm count).stored.step = stepField tmm lastTmm count :=
    Nat.mod_eq_of_lt (stepField_lt _ _ _)
  have hcount : (temperatureHeader tmm lastTmm count).stored.tmpCount = count :=
    tmpCount_tmpUnion _ (Nat.mod_eq_of_lt (Compress.tmpUnion_lt _ _)) hc
  rw [hadd _ rfl, stored_time _ tmm rfl rfl, u32_stamp, hstep, hcount]

end PageTimes

end Mxfs
