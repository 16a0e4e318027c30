import Mathlib.Logic.Relation
import Mxfs.Layout
import Mxfs.Timerange

/-!
# Mxfs.Decode

The two decoding loops, `readLoop` and `timesLoop`, on pages of any content.

A page is walked along its *header chain*: from offset 0, each header behind
the payload its predecessor announces (`HeaderAt`).  Lengths and counts come
from the page itself, so the chain may run into the end of the page.
`decoders_safe_iff` says that a loop stays within the page exactly when no
header of the chain, and no payload it copies, does (`Overruns`).
-/

namespace Mxfs

open Lib

/-! ## the header chain -/

/-- The header at `offset`. -/
def headerAt (rbf : List UInt8) (offset : Nat) : Compress :=
  Compress.ofBytes (slice rbf offset headerSize)

/-- `offset'` is where the walk goes from the header at `offset`; `next` gives
the length of the payload, or nothing where the walk ends. -/
def Follows (next : Compress → Option Nat) (rbf : List UInt8) (offset offset' : Nat) : Prop :=
  offset < rbf.length ∧ (headerAt rbf offset).magic = magic ∧
    ∃ n, next (headerAt rbf offset) = some n ∧ offset' = offset + headerSize + n

/-- The chain has a header at `offset`, or stops there. -/
def HeaderAt (next : Compress → Option Nat) (rbf : List UInt8) (offset : Nat) : Prop :=
  Relation.ReflTransGen (Follows next rbf) 0 offset

/-- The length `mxfs_timerange_by_block` advances by: nothing for the types it does not know. -/
def timesNext (cp : Compress) : Option Nat := some ((strideOf cp).elim 0 Stride.advance)

/-- The length `mxfs_read` advances by; it ends behind a configuration. -/
def readNext (cp : Compress) : Option Nat :=
  if cp.type = layerConfig then none else timesNext cp

/-- The bytes `mxfs_read` copies for a header. -/
def copied (layer bufferlen : Nat) (cp : Compress) : Nat :=
  if cp.type = layer then
    match strideOf cp with
    | some st => st.count * st.size
    | none => min cp.tmpBase bufferlen
  else 0

/-! ## overruns -/

/-- At `offset` the page ends within the bytes looked at: 4 for the magic, 12
for the type if the magic is there, and if the type is `known` the whole header
and the payload copied. -/
def Overruns (known : Nat → Prop) (payload : Compress → Nat) (rbf : List UInt8) (offset : Nat) :
    Prop :=
  offset < rbf.length ∧
    (rbf.length < offset + 4 ∨
      (headerAt rbf offset).magic = magic ∧
        (rbf.length < offset + 12 ∨
          known (headerAt rbf offset).type ∧
            rbf.length < offset + headerSize + payload (headerAt rbf offset)))

/-- The chain runs into the end of the page, as `mxfs_read` walks it. -/
def ReadOverruns (rbf : List UInt8) (layer bufferlen : Nat) : Prop :=
  ∃ offset, HeaderAt readNext rbf offset ∧
    Overruns (· ≤ layerConfig) (copied layer bufferlen) rbf offset

/-- A page overruns as `mxfs_timerange_by_block` walks it, which copies nothing. -/
def TimesOverruns (rbf : List UInt8) : Prop :=
  ∃ offset, HeaderAt timesNext rbf offset ∧ Overruns (· < layerConfig) (fun _ => 0) rbf offset

/-! ## the chain, step by step -/

/-- What is reached is the start or lies behind the first step. -/
theorem exists_reach_iff {α : Type} {r : α → α → Prop} {a : α} {P : α → Prop} :
    (∃ c, Relation.ReflTransGen r a c ∧ P c) ↔
      P a ∨ ∃ b, r a b ∧ ∃ c, Relation.ReflTransGen r b c ∧ P c := by
  constructor
  · intro h
    obtain ⟨c, hreach, hc⟩ := h
    cases Relation.ReflTransGen.cases_head hreach with
    | inl he => exact Or.inl (he ▸ hc)
    | inr hstep =>
        obtain ⟨b, hab, hbc⟩ := hstep
        exact Or.inr ⟨b, hab, c, hbc, hc⟩
  · intro h
    cases h with
    | inl ha => exact ⟨a, Relation.ReflTransGen.refl, ha⟩
    | inr hstep =>
        obtain ⟨b, hab, c, hbc, hc⟩ := hstep
        exact ⟨c, Relation.ReflTransGen.head hab hbc, hc⟩

section round

variable {next : Compress → Option Nat} {known : Nat → Prop} {payload : Compress → Nat}
variable {rbf : List UInt8} {offset : Nat}

/-- The chain from `offset` runs into the end of the page, or meets something `bad`
behind a header. -/
def GoesWrong (next : Compress → Option Nat) (bad : Nat → Prop) (rbf : List UInt8)
    (offset : Nat) : Prop :=
  ∃ o, Relation.ReflTransGen (Follows next rbf) offset o ∧ o < rbf.length ∧
    (rbf.length < o + 4 ∨
      (headerAt rbf o).magic = magic ∧ (rbf.length < o + 12 ∨ bad o))

/-- The chain from `offset` runs into the end of the page. -/
def OverrunsFrom (next : Compress → Option Nat) (known : Nat → Prop) (payload : Compress → Nat)
    (rbf : List UInt8) (offset : Nat) : Prop :=
  ∃ o, Relation.ReflTransGen (Follows next rbf) offset o ∧ Overruns known payload rbf o

/-- To run into the end is to go wrong at a header whose payload does not fit. -/
theorem overrunsFrom_iff : OverrunsFrom next known payload rbf offset ↔
    GoesWrong next (fun o => known (headerAt rbf o).type ∧
      rbf.length < o + headerSize + payload (headerAt rbf o)) rbf offset := Iff.rfl

theorem not_goesWrong_of_le {bad : Nat → Prop} (h : rbf.length ≤ offset) :
    ¬ GoesWrong next bad rbf offset := by
  rw [GoesWrong, exists_reach_iff]
  rintro (hbad | ⟨b, hfollows, _⟩)
  · exact absurd hbad.1 (by omega)
  · exact absurd hfollows.1 (by omega)

/-- **One round of a loop**, up to the branch on the type.  The round goes wrong
(`P`) where the page ends within the bytes looked at, or at a header of a `bad`
type or payload, and otherwise as the rounds after it do. -/
theorem round_iff {P : Option α → Prop} {bad : Nat → Prop} {r body : Option α} {e : α}
    (hround : r =
      if rbf.length ≤ offset then some e
      else if rbf.length < offset + 4 then none
      else if (headerAt rbf offset).magic ≠ magic then some e
      else if rbf.length < offset + 12 then none
      else body)
    (hnone : P none) (hend : ¬ P (some e))
    (hbody : offset + 12 ≤ rbf.length → (headerAt rbf offset).magic = magic →
      (P r ↔ bad offset ∨ ∃ n, next (headerAt rbf offset) = some n ∧
        GoesWrong next bad rbf (offset + headerSize + n))) :
    P r ↔ GoesWrong next bad rbf offset := by
  by_cases hpage : rbf.length ≤ offset
  · rw [hround, if_pos hpage]
    exact iff_of_false hend (not_goesWrong_of_le hpage)
  rw [if_neg hpage] at hround
  rw [GoesWrong, exists_reach_iff]
  by_cases h4 : rbf.length < offset + 4
  · rw [hround, if_pos h4]
    exact iff_of_true hnone (Or.inl ⟨by omega, Or.inl h4⟩)
  rw [if_neg h4] at hround
  by_cases hmagic : (headerAt rbf offset).magic = magic
  · rw [if_neg (not_not.2 hmagic)] at hround
    by_cases h12 : rbf.length < offset + 12
    · rw [hround, if_pos h12]
      exact iff_of_true hnone (Or.inl ⟨by omega, Or.inr ⟨hmagic, Or.inl h12⟩⟩)
    rw [hbody (by omega) hmagic]
    constructor
    · rintro (hbad | ⟨n, hn, hrest⟩)
      · exact Or.inl ⟨by omega, Or.inr ⟨hmagic, Or.inr hbad⟩⟩
      · exact Or.inr ⟨_, ⟨by omega, hmagic, n, hn, rfl⟩, hrest⟩
    · rintro (⟨_, hbad⟩ | ⟨b, ⟨_, _, n, hn, rfl⟩, hrest⟩)
      · rcases hbad with h | ⟨_, h | h⟩
        · exact absurd h h4
        · exact absurd h h12
        · exact Or.inl h
      · exact Or.inr ⟨n, hn, hrest⟩
  · rw [hround, if_pos hmagic]
    refine iff_of_false hend ?_
    rintro (⟨_, h | h⟩ | ⟨b, hfollows, _⟩)
    · exact h4 h
    · exact hmagic h.1
    · exact hmagic hfollows.2.1

/-- A chain that shows no magic goes no further. -/
theorem not_goesWrong_of_not_magic {bad : Nat → Prop} (h4 : offset + 4 ≤ rbf.length)
    (hmagic : (headerAt rbf offset).magic ≠ magic) : ¬ GoesWrong next bad rbf offset := by
  rw [GoesWrong, exists_reach_iff]
  rintro (⟨_, h | h⟩ | ⟨b, hfollows, _⟩)
  · omega
  · exact hmagic h.1
  · exact hmagic hfollows.2.1

end round

/-- The types with a payload are those of the layers. -/
theorem strideOf_eq_none_iff (cp : Compress) : strideOf cp = none ↔ layerConfig ≤ cp.type := by
  unfold strideOf layerConfig
  cases h : Layer.ofNat? cp.type with
  | none =>
      refine iff_of_true rfl ?_
      by_contra hlt
      have : cp.type = 0 ∨ cp.type = 1 ∨ cp.type = 2 ∨ cp.type = 3 ∨ cp.type = 4 ∨ cp.type = 5 := by
        omega
      rcases this with ht | ht | ht | ht | ht | ht <;> rw [ht] at h <;> cases h
  | some l =>
      have hl := l.toNat_lt
      rw [← Layer.toNat_of_ofNat? h] at hl
      refine iff_of_false ?_ (by omega)
      cases l <;> simp

theorem type_lt_of_stride {cp : Compress} {st : Stride} (h : strideOf cp = some st) :
    cp.type < layerConfig := by
  by_contra hge
  rw [(strideOf_eq_none_iff cp).2 (Nat.not_lt.1 hge)] at h
  cases h

/-- The types without a case are stepped over. -/
theorem readNext_of_gt {cp : Compress} (h : layerConfig < cp.type) : readNext cp = some 0 := by
  have hstride := (strideOf_eq_none_iff cp).2 (Nat.le_of_lt h)
  rw [readNext, if_neg (by omega), timesNext, hstride]
  rfl

/-! ## the two loops -/

/-- **A round of `mxfs_timerange_by_block`** at a magic. -/
theorem timesLoop_magic {rbf : List UInt8} (h : offset + 12 ≤ rbf.length)
    (hmagic : (headerAt rbf offset).magic = magic) (layer : UInt8) (fuel : Nat) (t : PageTimes) :
    timesLoop rbf layer (fuel + 1) offset t =
      match strideOf (headerAt rbf offset) with
      | some st =>
        if rbf.length < offset + headerSize then none
        else timesLoop rbf layer fuel (offset + headerSize + st.advance)
          (t.add layer (headerAt rbf offset))
      | none => timesLoop rbf layer fuel (offset + headerSize) t := by
  rw [timesLoop, if_neg (by omega), if_neg (by omega)]
  exact (if_neg (not_not.2 hmagic)).trans (if_neg (by omega))

/-- **The walk of `mxfs_timerange_by_block`** leaves the page exactly if the
chain runs into its end. -/
theorem timesLoop_eq_none_iff {rbf : List UInt8} (layer : UInt8)
    (hfuel : rbf.length ≤ offset + fuel) (t : PageTimes) :
    timesLoop rbf layer fuel offset t = none ↔
      OverrunsFrom timesNext (· < layerConfig) (fun _ => 0) rbf offset := by
  induction fuel generalizing offset t with
  | zero => exact iff_of_false (by simp [timesLoop]) (not_goesWrong_of_le hfuel)
  | succ fuel ih =>
      rw [overrunsFrom_iff]
      refine round_iff (P := (· = none)) (by rw [timesLoop]; rfl) rfl (by simp)
        fun h12 hmagic => ?_
      rw [timesLoop_magic h12 hmagic]
      cases hst : strideOf (headerAt rbf offset) with
      | none =>
          have hknown := (strideOf_eq_none_iff _).1 hst
          have hnext : timesNext (headerAt rbf offset) = some 0 := by rw [timesNext, hst]; rfl
          rw [hnext]
          dsimp only
          rw [ih (by unfold headerSize; omega)]
          simp [Nat.not_lt.2 hknown, overrunsFrom_iff]
      | some st =>
          have hknown := type_lt_of_stride hst
          have hnext : timesNext (headerAt rbf offset) = some st.advance := by
            rw [timesNext, hst]; rfl
          rw [hnext]
          dsimp only
          by_cases h16 : rbf.length < offset + headerSize
          · rw [if_pos h16]
            exact iff_of_true rfl (Or.inl ⟨hknown, h16⟩)
          · rw [if_neg h16, ih (by unfold headerSize; omega)]
            simp [h16, overrunsFrom_iff]

/-- A copy leaves the page exactly if the page ends within what is copied. -/
theorem copyRecords_eq_none_iff {rbf : List UInt8} (h : src ≤ rbf.length) (out : List UInt8) :
    copyRecords rbf size count src out = none ↔ rbf.length < src + count * size := by
  constructor
  · intro hnone
    by_contra hle
    rw [copyRecords_eq (by omega)] at hnone
    cases hnone
  · intro hlt
    induction count generalizing src out with
    | zero => omega
    | succ count ih =>
        rw [Nat.succ_mul] at hlt
        rw [copyRecords]
        by_cases hsize : src + size ≤ rbf.length
        · rw [if_pos hsize]
          exact ih hsize _ (by omega)
        · rw [if_neg hsize]

/-- A copy in one go. -/
theorem copyRecords_total {rbf : List UInt8} (h : src ≤ rbf.length) (size count : Nat)
    (out : List UInt8) :
    copyRecords rbf size count src out =
      if rbf.length < src + count * size then none
      else some (out ++ slice rbf src (count * size)) := by
  by_cases hfits : rbf.length < src + count * size
  · rw [if_pos hfits]
    exact (copyRecords_eq_none_iff h out).2 hfits
  · rw [if_neg hfits, copyRecords_eq (by omega)]

/-- **A round of `mxfs_read`** at a magic: what is copied is added, unless it
leaves the page, and the walk goes on where the chain does. -/
theorem readLoop_magic {rbf : List UInt8} (hlen : rbf.length = pageSize)
    (h : offset + 12 ≤ rbf.length) (hmagic : (headerAt rbf offset).magic = magic)
    (layer bufferlen fuel : Nat) (out : List UInt8) :
    readLoop rbf layer bufferlen (fuel + 1) offset out =
      if layerConfig < (headerAt rbf offset).type then
        readLoop rbf layer bufferlen fuel (offset + headerSize) out
      else if rbf.length < offset + headerSize + copied layer bufferlen (headerAt rbf offset) then
        none
      else
        match readNext (headerAt rbf offset) with
        | none => some (out ++
            slice rbf (offset + headerSize) (copied layer bufferlen (headerAt rbf offset)))
        | some n => readLoop rbf layer bufferlen fuel (offset + headerSize + n) (out ++
            slice rbf (offset + headerSize) (copied layer bufferlen (headerAt rbf offset))) := by
  have hcp : Compress.ofBytes (slice rbf offset headerSize) = headerAt rbf offset := rfl
  rw [readLoop, if_neg (by omega), if_neg (by omega)]
  simp only [hcp]
  rw [if_neg (not_not.2 hmagic), if_neg (by omega : ¬ rbf.length < offset + 12)]
  -- a header whose payload is not copied has to fit all the same
  have hnothing : ∀ r : Option (List UInt8),
      (if rbf.length < offset + headerSize then none else r) =
        if rbf.length < offset + headerSize + 0 then none else r := fun _ => rfl
  cases hst : strideOf (headerAt rbf offset) with
  | some st =>
      have hknown := type_lt_of_stride hst
      have hgt : ¬ layerConfig < (headerAt rbf offset).type := by omega
      have hnext : readNext (headerAt rbf offset) = some st.advance := by
        rw [readNext, if_neg (Nat.ne_of_lt hknown), timesNext, hst]; rfl
      rw [if_neg hgt, hnext, copied, hst]
      dsimp only
      by_cases hlayer : (headerAt rbf offset).type = layer
      · rw [if_pos hlayer, if_pos hlayer]
        by_cases h16 : rbf.length < offset + headerSize
        · rw [if_pos h16, if_pos (by omega)]
        rw [if_neg h16, copyRecords_total (by omega)]
        by_cases hfits : rbf.length < offset + headerSize + st.count * st.size
        · rw [if_pos hfits, if_pos hfits]
        · rw [if_neg hfits, if_neg hfits]
      · rw [if_neg hlayer, if_neg hlayer, hnothing, slice, List.take_zero, List.append_nil]
  | none =>
      have hknown := (strideOf_eq_none_iff _).1 hst
      dsimp only
      by_cases hconfig : (headerAt rbf offset).type = layerConfig
      · have hgt : ¬ layerConfig < (headerAt rbf offset).type := by omega
        have hnext : readNext (headerAt rbf offset) = none := if_pos hconfig
        rw [if_pos hconfig, if_neg hgt, hnext, copied, hst]
        dsimp only
        by_cases hlayer : (headerAt rbf offset).type = layer
        · rw [if_pos hlayer, if_pos hlayer]
          by_cases h16 : rbf.length < offset + headerSize
          · rw [if_pos h16, if_pos (by omega)]
          rw [if_neg h16, copyRecords_total (by omega), Nat.one_mul]
        · rw [if_neg hlayer, if_neg hlayer, hnothing, slice, List.take_zero, List.append_nil]
      · have hgt : layerConfig < (headerAt rbf offset).type := by omega
        rw [if_neg hconfig, if_pos hgt]

/-- **The walk of `mxfs_read`** leaves the page exactly if the chain, or a payload
it copies, runs into its end. -/
theorem readLoop_eq_none_iff {rbf : List UInt8} (hlen : rbf.length = pageSize)
    (layer bufferlen : Nat) (hfuel : rbf.length ≤ offset + fuel) (out : List UInt8) :
    readLoop rbf layer bufferlen fuel offset out = none ↔
      OverrunsFrom readNext (· ≤ layerConfig) (copied layer bufferlen) rbf offset := by
  induction fuel generalizing offset out with
  | zero => exact iff_of_false (by simp [readLoop]) (not_goesWrong_of_le hfuel)
  | succ fuel ih =>
      rw [overrunsFrom_iff]
      refine round_iff (P := (· = none)) (by rw [readLoop, ← hlen]; rfl) rfl (by simp)
        fun h12 hmagic => ?_
      rw [readLoop_magic hlen h12 hmagic]
      by_cases hconfig : layerConfig < (headerAt rbf offset).type
      · rw [if_pos hconfig, readNext_of_gt hconfig, ih (by unfold headerSize; omega)]
        simp [Nat.not_le.2 hconfig, overrunsFrom_iff]
      rw [if_neg hconfig]
      by_cases hover :
          rbf.length < offset + headerSize + copied layer bufferlen (headerAt rbf offset)
      · rw [if_pos hover]
        exact iff_of_true rfl (Or.inl ⟨by omega, hover⟩)
      rw [if_neg hover]
      cases hnext : readNext (headerAt rbf offset) with
      | none => simp [hover]
      | some n =>
          dsimp only
          rw [ih (by unfold headerSize; omega)]
          simp [hover, overrunsFrom_iff]

/-- **Both decoders stay within the page exactly if the header chain does.** -/
theorem decoders_safe_iff {rbf : List UInt8} (hlen : rbf.length = pageSize) {spare : List UInt8}
    (hspare : spare.length = pageBufferSize) (layer : UInt8) (bufferlen : UInt16) :
    (readLoop rbf layer.toNat bufferlen.toNat pageSize 0 [] ≠ none ↔
        ¬ ReadOverruns rbf layer.toNat bufferlen.toNat) ∧
      (timesLoop spare layer pageBufferSize 0 PageTimes.init ≠ none ↔ ¬ TimesOverruns spare) := by
  constructor
  · exact not_congr (readLoop_eq_none_iff hlen _ _ (by omega) _)
  · exact not_congr (timesLoop_eq_none_iff layer (by omega) _)

/-- A page whose only header announces `count` temperature records. -/
def tornHeader (count size : Nat) : List UInt8 :=
  (temperatureHeader 1000 1000 count).bytes ++ List.replicate (size - headerSize) 0

theorem length_tornHeader (count : Nat) {size : Nat} (h : headerSize ≤ size) :
    (tornHeader count size).length = size := by
  rw [tornHeader, List.length_append, Compress.length_bytes, List.length_replicate,
    Nat.add_sub_cancel' h]

/-- Three records, and nothing behind them. -/
theorem decoders_safe_temperature :
    (readLoop (tornHeader 3 pageSize) 5 2048 pageSize 0 [] ≠ none ∧
        ¬ ReadOverruns (tornHeader 3 pageSize) 5 2048) ∧
      timesLoop (tornHeader 3 pageBufferSize) 5 pageBufferSize 0 PageTimes.init ≠ none ∧
        ¬ TimesOverruns (tornHeader 3 pageBufferSize) := by
  have hsafe : readLoop (tornHeader 3 pageSize) 5 2048 pageSize 0 [] ≠ none ∧
      timesLoop (tornHeader 3 pageBufferSize) 5 pageBufferSize 0 PageTimes.init ≠ none := by
    decide +kernel
  obtain ⟨hread, htimes⟩ := decoders_safe_iff (length_tornHeader 3 (by decide))
    (length_tornHeader 3 (by decide)) 5 2048
  exact ⟨⟨hsafe.1, hread.1 hsafe.1⟩, hsafe.2, htimes.1 hsafe.2⟩

/-- The chain goes to the last two bytes of the page, where both loops look for
a magic. -/
theorem decoders_overrun_tornHeader :
    readLoop (tornHeader 1015 pageSize) 0 2048 pageSize 0 [] = none ∧
      timesLoop (tornHeader 1047 pageBufferSize) 0 pageBufferSize 0 PageTimes.init = none := by
  decide +kernel

end Mxfs
