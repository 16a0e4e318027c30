import Mxfs.Walk

/-!
# Mxfs.Leftover

What `mxfs_read` makes of the bytes behind the data of a page.  The walk does
not know where the data ends: it stops at the first header without magic.

* `Phantom` — the walk goes on behind the data, to a record of the wanted layer
  or out of the page;
* `readLoop_ne_iff` — from there on the walk adds nothing exactly if it meets no
  phantom;
* `readLoop_image_iff` — so a page with the image of a batch, whatever follows
  it, reads as the batch's records exactly if what follows shows no phantom.
-/

namespace Mxfs

open Lib

/-! ## phantoms -/

/-- From `offset` the walk copies something for the layer, or leaves the page. -/
def Phantom (layer bufferlen : Nat) (rbf : List UInt8) (offset : Nat) : Prop :=
  GoesWrong readNext (fun o => (headerAt rbf o).type ≤ layerConfig ∧
    (rbf.length < o + headerSize ∨ 0 < copied layer bufferlen (headerAt rbf o))) rbf offset

/-- Without a magic the walk stops. -/
theorem not_phantom_of_not_magic {rbf : List UInt8} (h4 : offset + 4 ≤ rbf.length)
    (hmagic : (headerAt rbf offset).magic ≠ magic) (layer bufferlen : Nat) :
    ¬ Phantom layer bufferlen rbf offset :=
  not_goesWrong_of_not_magic h4 hmagic

/-- A header of a type the walk knows, with something to copy. -/
theorem phantom_of_copied {rbf : List UInt8} (h : offset < rbf.length)
    (hmagic : (headerAt rbf offset).magic = magic)
    (htype : (headerAt rbf offset).type ≤ layerConfig)
    (hcopied : 0 < copied layer bufferlen (headerAt rbf offset)) :
    Phantom layer bufferlen rbf offset :=
  ⟨offset, Relation.ReflTransGen.refl, h, Or.inr ⟨hmagic, Or.inr ⟨htype, Or.inr hcopied⟩⟩⟩

/-! ### the bytes in front -/

section congr

variable {rbf rbf' : List UInt8} (hlen : rbf.length = rbf'.length)
variable (hdrop : rbf.drop k = rbf'.drop k)
include hdrop

theorem headerAt_congr (h : k ≤ offset) : headerAt rbf offset = headerAt rbf' offset := by
  rw [headerAt, headerAt, slice_congr hdrop h]

include hlen

/-- A chain does not look at the bytes before it. -/
theorem reach_congr {next : Compress → Option Nat} (h : k ≤ a)
    (hreach : Relation.ReflTransGen (Follows next rbf) a b) :
    Relation.ReflTransGen (Follows next rbf') a b ∧ k ≤ b := by
  induction hreach with
  | refl => exact ⟨Relation.ReflTransGen.refl, h⟩
  | tail _ hstep ih =>
      obtain ⟨hreach', hk⟩ := ih
      obtain ⟨hlt, hmagic, n, hn, rfl⟩ := hstep
      rw [headerAt_congr hdrop hk] at hmagic hn
      rw [hlen] at hlt
      exact ⟨hreach'.tail ⟨hlt, hmagic, n, hn, rfl⟩, by omega⟩

theorem Phantom.congr (h : k ≤ offset) (hphantom : Phantom layer bufferlen rbf offset) :
    Phantom layer bufferlen rbf' offset := by
  obtain ⟨o, hreach, hbad⟩ := hphantom
  obtain ⟨hreach', hk⟩ := reach_congr hlen hdrop h hreach
  simp only [headerAt_congr hdrop hk, hlen] at hbad
  exact ⟨o, hreach', hbad⟩

end congr

/-- Whether there is a phantom behind the data is a matter of the bytes behind it. -/
theorem phantom_congr {rbf rbf' : List UInt8} (hlen : rbf.length = rbf'.length)
    (hdrop : rbf.drop offset = rbf'.drop offset) (layer bufferlen : Nat) :
    Phantom layer bufferlen rbf offset ↔ Phantom layer bufferlen rbf' offset :=
  ⟨Phantom.congr hlen hdrop (Nat.le_refl _),
    Phantom.congr hlen.symm hdrop.symm (Nat.le_refl _)⟩

/-! ## the walk behind the data -/

theorem copyRecords_extends {rbf out out' : List UInt8} (h : src ≤ rbf.length)
    (hcopy : copyRecords rbf size count src out = some out') : out <+: out' := by
  rw [copyRecords_total h] at hcopy
  split at hcopy
  · cases hcopy
  · cases hcopy
    exact List.prefix_append _ _

/-- The walk takes nothing back. -/
theorem readLoop_extends {rbf : List UInt8} {layer bufferlen : Nat} {out out' : List UInt8}
    (h : readLoop rbf layer bufferlen fuel offset out = some out') : out <+: out' := by
  fun_induction readLoop rbf layer bufferlen fuel offset out <;>
    grind [→ copyRecords_extends, List.prefix_refl, List.IsPrefix.trans]

/-- **Behind the data** the walk adds nothing exactly if it meets no phantom. -/
theorem readLoop_ne_iff {rbf : List UInt8} (hlen : rbf.length = pageSize)
    (layer bufferlen : Nat) (hfuel : rbf.length ≤ offset + fuel) (out : List UInt8) :
    readLoop rbf layer bufferlen fuel offset out ≠ some out ↔
      Phantom layer bufferlen rbf offset := by
  induction fuel generalizing offset with
  | zero => exact iff_of_false (by simp [readLoop]) (not_goesWrong_of_le hfuel)
  | succ fuel ih =>
      refine round_iff (P := (· ≠ some out)) (by rw [readLoop, ← hlen]; rfl) (by simp) (by simp)
        fun h12 hmagic => ?_
      rw [readLoop_magic hlen h12 hmagic]
      generalize hc : copied layer bufferlen (headerAt rbf offset) = c
      by_cases hconfig : layerConfig < (headerAt rbf offset).type
      · rw [if_pos hconfig, readNext_of_gt hconfig, ih (by unfold headerSize; omega)]
        simp [Nat.not_le.2 hconfig, Phantom]
      rw [if_neg hconfig]
      by_cases hover : rbf.length < offset + headerSize + c
      · rw [if_pos hover]
        exact iff_of_true (by simp) (Or.inl ⟨by omega, by omega⟩)
      have h16 : ¬ rbf.length < offset + headerSize := by omega
      rw [if_neg hover]
      by_cases hcopied : 0 < c
      · -- what is copied shows in the result, wherever the walk goes on to
        have hadded : out.length < (out ++ slice rbf (offset + headerSize) c).length := by
          rw [List.length_append, length_slice_of_le (by omega)]
          omega
        refine iff_of_true ?_ (Or.inl ⟨by omega, Or.inr hcopied⟩)
        intro hread
        cases hnext : readNext (headerAt rbf offset) with
        | none =>
            rw [hnext, Option.some.injEq] at hread
            rw [hread] at hadded
            omega
        | some n =>
            rw [hnext] at hread
            have hle := (readLoop_extends hread).length_le
            omega
      · obtain rfl : c = 0 := by omega
        rw [slice, List.take_zero, List.append_nil]
        cases hnext : readNext (headerAt rbf offset) with
        | none => simp [h16]
        | some n =>
            dsimp only
            rw [ih (by unfold headerSize; omega)]
            simp [h16, Phantom]

/-! ## data, and what follows it -/

/-- The records of a layer as `mxfs_read` should return them: there are none of
what is no layer. -/
def Batch.recordsOf (p : Batch) (layer : Nat) : List UInt8 :=
  match Layer.ofNat? layer with
  | some l => (p.payloads l).flatten
  | none => []

/-- The payloads the walk picks by the number of the layer. -/
theorem Batch.recordsOf_frames (p : Batch) (layer : Nat) :
    (p.frames.flatMap fun f => if f.layer.toNat = layer then f.payload else []) =
      p.recordsOf layer := by
  rw [recordsOf]
  cases h : Layer.ofNat? layer with
  | none =>
      rw [List.flatMap_eq_nil_iff]
      intro f _
      have hne : f.layer.toNat ≠ layer := by
        rintro rfl
        rw [Layer.ofNat?_toNat] at h
        cases h
      rw [if_neg hne]
  | some l =>
      rw [Layer.toNat_of_ofNat? h]
      dsimp only
      rw [← p.payloadOf_frames l]
      congr 1
      funext f
      exact (Frame.payloadOf_eq l f).symm

/-- The walk over well-formed frames, whatever follows them. -/
theorem readLoop_frames {fs : List Frame} (hfs : ∀ f ∈ fs, f.WellFormed) {pre rest : List UInt8}
    (hpre : pre.length = offset)
    (hlen : (pre ++ (fs.flatMap Frame.bytes ++ rest)).length = pageSize)
    (layer bufferlen fuel : Nat) (out : List UInt8) :
    readLoop (pre ++ (fs.flatMap Frame.bytes ++ rest)) layer bufferlen (fs.length + fuel) offset
        out =
      readLoop (pre ++ (fs.flatMap Frame.bytes ++ rest)) layer bufferlen fuel
        (offset + (fs.flatMap Frame.bytes).length)
        (out ++ fs.flatMap fun f => if f.layer.toNat = layer then f.payload else []) := by
  subst hpre
  have hround : ∀ f ∈ fs, ∀ (offset fuel : Nat) (out : List UInt8),
      ShowsAt (pre ++ (fs.flatMap Frame.bytes ++ rest)) offset f.layer f.payload →
      headerAt (pre ++ (fs.flatMap Frame.bytes ++ rest)) offset = f.header.stored →
      readLoop (pre ++ (fs.flatMap Frame.bytes ++ rest)) layer bufferlen (fuel + 1) offset out =
        readLoop (pre ++ (fs.flatMap Frame.bytes ++ rest)) layer bufferlen fuel
          (offset + headerSize + f.payload.length)
          (out ++ if f.layer.toNat = layer then f.payload else []) := by
    intro f _ offset fuel out hshows _
    rw [readLoop_showsAt hlen hshows]
    congr 1
    split <;> simp
  have hwalk := walk_frames
    (readLoop (pre ++ (fs.flatMap Frame.bytes ++ rest)) layer bufferlen) _ fs pre rfl hround hfs
    fuel out
  rw [hwalk, List.foldl_append_eq_append, ← List.flatMap_def]

/-- **A record left behind** where the data ends is a phantom. -/
theorem phantom_of_showsAt {rbf : List UInt8} (h : ShowsAt rbf offset l payload)
    (hpayload : 0 < payload.length) (bufferlen : Nat) : Phantom l.toNat bufferlen rbf offset := by
  obtain ⟨n, hstride, hn⟩ := h.stride
  have hfits := h.fits
  have htype : (headerAt rbf offset).type ≤ layerConfig := by
    rw [headerAt, h.type]
    exact Nat.le_of_lt l.toNat_lt
  refine phantom_of_copied (by unfold headerSize at hfits; omega) h.magic htype ?_
  rw [copied, headerAt, if_pos h.type, hstride]
  dsimp only
  omega

/-- A frame is a phantom when the frames before it are as long as the data. -/
theorem phantom_of_frames {f : Frame} (hf : f.WellFormed) (hpayload : 0 < f.payload.length)
    (before after : List Frame) (rest : List UInt8) (bufferlen : Nat) :
    Phantom f.layer.toNat bufferlen ((before ++ f :: after).flatMap Frame.bytes ++ rest)
      (before.flatMap Frame.bytes).length := by
  have hshows : ShowsAt (before.flatMap Frame.bytes ++
      (f.bytes ++ (after.flatMap Frame.bytes ++ rest))) (before.flatMap Frame.bytes).length f.layer
      f.payload := showsAt_frame hf rfl
  have hassoc : (before ++ f :: after).flatMap Frame.bytes ++ rest =
      before.flatMap Frame.bytes ++ (f.bytes ++ (after.flatMap Frame.bytes ++ rest)) := by
    simp [List.append_assoc]
  rw [hassoc]
  exact phantom_of_showsAt hshows hpayload bufferlen

/-- **A page that starts with the image of a batch** reads as the batch's records
exactly if there is no phantom behind them. -/
theorem readLoop_image_iff {p : Batch} (h : p.pageBytes ≤ 2000) {rbf rest : List UInt8}
    (hrbf : rbf = p.image ++ rest) (hlen : rbf.length = pageSize) (layer bufferlen : Nat) :
    readLoop rbf layer bufferlen pageSize 0 [] = some (p.recordsOf layer) ↔
      ¬ Phantom layer bufferlen rbf p.image.length := by
  have hframes := p.length_frames_le
  have himage : p.image.length ≤ 2000 := by rw [p.length_image]; exact h
  have hfuel : pageSize = p.frames.length + (pageSize - p.frames.length) := by
    unfold pageSize
    omega
  have hbytes : ([] ++ (p.frames.flatMap Frame.bytes ++ rest)).length = pageSize := by
    rw [hrbf] at hlen
    exact hlen
  have hwalk := readLoop_frames (p.frames_wellFormed h) rfl hbytes layer bufferlen
    (pageSize - p.frames.length) []
  rw [← hfuel, List.length_nil, Nat.zero_add, List.nil_append, List.nil_append, p.recordsOf_frames,
    ← Batch.image, ← hrbf] at hwalk
  have hlong : rbf.length ≤ p.image.length + (pageSize - p.frames.length) := by omega
  rw [hwalk, ← readLoop_ne_iff hlen layer bufferlen hlong (p.recordsOf layer), not_not]

end Mxfs
