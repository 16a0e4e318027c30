import Mxfs.Step

/-!
# Mxfs.EpochWalk

The walk of the formatter's search over a page (`format.cc` of the parent).

The walk goes from header to header and collects the times in the range asked
for.  It steps over an ANTP record by its length, but over a series by its count
of records, whatever their size, and so comes down in the middle of the first
series of a page: `pageFound_iff` says when it finds the times of the page even
so.
-/

namespace Mxfs

open Lib

/-! ## the walk -/

/-- `std::map<uint32_t, std::vector<uint32_t> > timestamps`. -/
abbrev Timestamps := Nat → Option (List Nat)

/-- `blockpage`. -/
def blockpage (block page : Nat) : Nat :=
  ((block <<< 16) &&& 0xFFFF0000) ||| (page &&& 0x0000FFFF)

/-- Add `time` to the entry of `key`, if it is not there yet. -/
def Timestamps.note (timestamps : Timestamps) (key time : Nat) : Timestamps :=
  match timestamps key with
  | some times =>
    if time ∈ times then timestamps else Function.update timestamps key (some (times ++ [time]))
  | none => Function.update timestamps key (some [time])

/-- `cp->time && cp->time >= epoch_s && cp->time <= epoch_e`. -/
def inEpoch (epochS epochE time : Nat) : Bool := time ≠ 0 && epochS ≤ time && time ≤ epochE

/-- What is done about the time of a header. -/
def Timestamps.visit (timestamps : Timestamps) (key epochS epochE : Nat) (cp : Compress) :
    Timestamps :=
  if inEpoch epochS epochE cp.time then timestamps.note key cp.time else timestamps

/-- By how much a case moves `offset`: a series by `sizeof(int8_t)` a record. -/
def searchAdvance (cp : Compress) : Layer → Nat
  | .antpSpeed | .antpPower | .antpCadence => cp.antLength
  | .gyro | .accelerometer => cp.gyrCount * 1
  | .temperature => cp.tmpCount * 1

/-- The walk over `cmd` from `offset`. -/
def searchWalk (cmd : List UInt8) (key epochS epochE : Nat) :
    (fuel offset : Nat) → Timestamps → Option Timestamps
  | 0, _, timestamps => some timestamps
  | fuel + 1, offset, timestamps =>
    if cmd.length ≤ offset then some timestamps
    -- the magic, the field word and the union are looked at in turn
    else if cmd.length < offset + 4 then none
    else
      let cp := headerAt cmd offset
      if cp.magic ≠ magic then some timestamps
      else if cmd.length < offset + 12 then none
      else
        match Layer.ofNat? cp.type with
        | some l =>
          if cmd.length < offset + headerSize then none
          else searchWalk cmd key epochS epochE fuel (offset + searchAdvance cp l + headerSize)
            (timestamps.visit key epochS epochE cp)
        | none => searchWalk cmd key epochS epochE fuel (offset + headerSize)
            (timestamps.visit key epochS epochE cp)

/-! ## the times of a list of headers -/

/-- The times in the range, in the order of the headers. -/
def timesIn (epochS epochE : Nat) (hs : List Compress) : List Nat :=
  (hs.map Compress.time).filter (inEpoch epochS epochE)

theorem timesIn_append (epochS epochE : Nat) (hs hs' : List Compress) :
    timesIn epochS epochE (hs ++ hs') = timesIn epochS epochE hs ++ timesIn epochS epochE hs' := by
  simp [timesIn]

/-- The entry of a page that shows the times `ts`. -/
def entryOf (ts : List Nat) : Option (List Nat) := if ts = [] then none else some ts.eraseDups

section note

variable {key epochS epochE : Nat}

/-- One time more. -/
theorem note_entryOf (m : Timestamps) (ts : List Nat) (t : Nat) :
    Timestamps.note (Function.update m key (entryOf ts)) key t =
      Function.update m key (entryOf (ts ++ [t])) := by
  rw [Timestamps.note, Function.update_self, entryOf, entryOf, List.eraseDups_append]
  by_cases hts : ts = []
  · simp [hts, List.removeAll, List.eraseDups_cons]
  · by_cases ht : t ∈ ts
    · have hremove : [t].removeAll ts = [] := by simp [List.removeAll, ht]
      simp [hts, ht, hremove]
    · have hremove : [t].removeAll ts = [t] := by simp [List.removeAll, ht]
      simp [hts, ht, hremove, List.eraseDups_cons]

/-- **The times noted for a page** are all of them, each where it appears first. -/
theorem foldl_visit (hs : List Compress) {m : Timestamps} (h : m key = none) :
    hs.foldl (fun m cp => m.visit key epochS epochE cp) m =
      Function.update m key (entryOf (timesIn epochS epochE hs)) := by
  induction hs using List.reverseRecOn with
  | nil => simp [timesIn, entryOf, ← h]
  | append_singleton hs cp ih =>
      rw [List.foldl_append, ih, List.foldl_cons, List.foldl_nil, Timestamps.visit,
        timesIn_append]
      by_cases hin : inEpoch epochS epochE cp.time = true
      · have hone : timesIn epochS epochE [cp] = [cp.time] := by simp [timesIn, hin]
        rw [if_pos hin, hone, note_entryOf]
      · have hnone : timesIn epochS epochE [cp] = [] := by simp [timesIn, hin]
        rw [if_neg hin, hnone, List.append_nil]

end note

/-! ## the headers the walk meets -/

/-- The headers the walk meets in `cmd` from `offset` on; `none` if it runs into
the end of the buffer. -/
def searchHeaders (cmd : List UInt8) : (fuel offset : Nat) → Option (List Compress)
  | 0, _ => some []
  | fuel + 1, offset =>
    if cmd.length ≤ offset then some []
    else if cmd.length < offset + 4 then none
    else if (headerAt cmd offset).magic ≠ magic then some []
    else if cmd.length < offset + 12 then none
    else
      match Layer.ofNat? (headerAt cmd offset).type with
      | some l =>
        if cmd.length < offset + headerSize then none
        else (searchHeaders cmd fuel
          (offset + searchAdvance (headerAt cmd offset) l + headerSize)).map
            (headerAt cmd offset :: ·)
      | none => (searchHeaders cmd fuel (offset + headerSize)).map (headerAt cmd offset :: ·)

section walk

variable {cmd : List UInt8} {key epochS epochE offset : Nat}

/-- **The walk visits the headers it meets.** -/
theorem searchWalk_eq (fuel offset : Nat) (m : Timestamps) :
    searchWalk cmd key epochS epochE fuel offset m = (searchHeaders cmd fuel offset).map
      fun hs => hs.foldl (fun m cp => m.visit key epochS epochE cp) m := by
  induction fuel generalizing offset m with
  | zero => rfl
  | succ fuel ih =>
      rw [searchWalk, searchHeaders]
      by_cases hend : cmd.length ≤ offset
      · simp [hend]
      by_cases h4 : cmd.length < offset + 4
      · simp [hend, h4]
      by_cases hmagic : (headerAt cmd offset).magic ≠ magic
      · simp [hend, h4, hmagic]
      by_cases h12 : cmd.length < offset + 12
      · simp [hend, h4, hmagic, h12]
      cases hl : Layer.ofNat? (headerAt cmd offset).type with
      | none => simp [hend, h4, hmagic, h12, hl, ih, Function.comp_def]
      | some l =>
          by_cases h16 : cmd.length < offset + headerSize
          · simp [hend, h4, hmagic, h12, hl, h16]
          · simp [hend, h4, hmagic, h12, hl, h16, ih, Function.comp_def]

/-- Enough rounds are enough. -/
theorem searchHeaders_fuel {fuel : Nat} (h : cmd.length ≤ offset + fuel) (more : Nat) :
    searchHeaders cmd (fuel + more) offset = searchHeaders cmd fuel offset := by
  induction fuel generalizing offset with
  | zero =>
      cases more with
      | zero => rfl
      | succ more => simp [searchHeaders, show cmd.length ≤ offset by omega]
  | succ fuel ih =>
      have hnext : ∀ n, searchHeaders cmd (fuel + more) (offset + n + headerSize) =
          searchHeaders cmd fuel (offset + n + headerSize) :=
        fun n => ih (by unfold headerSize; omega)
      have hround := hnext 0
      rw [Nat.add_right_comm, searchHeaders, searchHeaders]
      simp only [hnext]
      rw [Nat.add_zero] at hround
      rw [hround]

/-- The walk ends where there is no magic. -/
theorem searchHeaders_of_not_magic (h4 : offset + 4 ≤ cmd.length)
    (h : (headerAt cmd offset).magic ≠ magic) (fuel : Nat) :
    searchHeaders cmd fuel offset = some [] := by
  cases fuel with
  | zero => rfl
  | succ fuel => rw [searchHeaders, if_neg (by omega), if_neg (by omega), if_pos h]

/-- A round at the header of a layer goes on where the header leads. -/
theorem searchHeaders_layer {l : Layer} (hfits : offset + headerSize ≤ cmd.length)
    (hmagic : (headerAt cmd offset).magic = magic)
    (hl : Layer.ofNat? (headerAt cmd offset).type = some l) (fuel : Nat) :
    searchHeaders cmd (fuel + 1) offset =
      (searchHeaders cmd fuel (offset + searchAdvance (headerAt cmd offset) l + headerSize)).map
        (headerAt cmd offset :: ·) := by
  unfold headerSize at hfits
  rw [searchHeaders, if_neg (by omega), if_neg (by omega), if_neg (not_not.2 hmagic),
    if_neg (by omega)]
  simp only [hl]
  rw [if_neg (by unfold headerSize; omega)]

/-- A round at a header of no layer goes on behind the header. -/
theorem searchHeaders_other (hfits : offset + 12 ≤ cmd.length)
    (hmagic : (headerAt cmd offset).magic = magic)
    (hl : Layer.ofNat? (headerAt cmd offset).type = none) (fuel : Nat) :
    searchHeaders cmd (fuel + 1) offset =
      (searchHeaders cmd fuel (offset + headerSize)).map (headerAt cmd offset :: ·) := by
  rw [searchHeaders, if_neg (by omega), if_neg (by omega), if_neg (not_not.2 hmagic),
    if_neg (by omega)]
  simp only [hl]

/-- A round at a frame. -/
theorem searchHeaders_showsAt {f : Frame} (h : ShowsAt cmd offset f.layer f.payload)
    (hheader : headerAt cmd offset = f.header.stored) (fuel : Nat) :
    searchHeaders cmd (fuel + 1) offset =
      (searchHeaders cmd fuel (offset + searchAdvance f.header.stored f.layer + headerSize)).map
        (f.header.stored :: ·) := by
  have hfits := h.fits
  have hmagic := h.magic
  have htype := h.type
  rw [← headerAt] at hmagic htype
  have hl : Layer.ofNat? (headerAt cmd offset).type = some f.layer := by
    rw [htype, Layer.ofNat?_toNat]
  rw [searchHeaders_layer (by omega) hmagic hl, hheader]

end walk

/-- The bytes of `cmd` from `offset` on show the headers `hs`, each where the one
before it leads, and end in the buffer. -/
inductive HeadersFrom (cmd : List UInt8) : Nat → List Compress → Prop
  | past {offset : Nat} (hend : cmd.length ≤ offset) : HeadersFrom cmd offset []
  | blank {offset : Nat} (hfits : offset + 4 ≤ cmd.length)
      (hmagic : (headerAt cmd offset).magic ≠ magic) : HeadersFrom cmd offset []
  | layer {offset : Nat} {l : Layer} {hs : List Compress} (hfits : offset + headerSize ≤ cmd.length)
      (hmagic : (headerAt cmd offset).magic = magic)
      (hl : Layer.ofNat? (headerAt cmd offset).type = some l)
      (rest : HeadersFrom cmd (offset + searchAdvance (headerAt cmd offset) l + headerSize) hs) :
      HeadersFrom cmd offset (headerAt cmd offset :: hs)
  | other {offset : Nat} {hs : List Compress} (hfits : offset + 12 ≤ cmd.length)
      (hmagic : (headerAt cmd offset).magic = magic)
      (hl : Layer.ofNat? (headerAt cmd offset).type = none)
      (rest : HeadersFrom cmd (offset + headerSize) hs) :
      HeadersFrom cmd offset (headerAt cmd offset :: hs)

/-- What the walk meets, the bytes show. -/
theorem headersFrom_of_searchHeaders {cmd : List UInt8} {fuel offset : Nat}
    (hfuel : cmd.length ≤ offset + fuel) {hs : List Compress}
    (h : searchHeaders cmd fuel offset = some hs) : HeadersFrom cmd offset hs := by
  induction fuel generalizing offset hs with
  | zero => cases h; exact .past hfuel
  | succ fuel ih =>
      have hnext : ∀ n, cmd.length ≤ offset + n + headerSize + fuel := by
        unfold headerSize
        omega
      by_cases hend : cmd.length ≤ offset
      · rw [searchHeaders, if_pos hend] at h
        cases h
        exact .past hend
      by_cases h4 : cmd.length < offset + 4
      · simp [searchHeaders, hend, h4] at h
      by_cases hmagic : (headerAt cmd offset).magic ≠ magic
      · rw [searchHeaders_of_not_magic (by omega) hmagic] at h
        cases h
        exact .blank (by omega) hmagic
      have hmagic := not_not.1 hmagic
      by_cases h12 : cmd.length < offset + 12
      · simp [searchHeaders, hend, h4, hmagic, h12] at h
      cases hl : Layer.ofNat? (headerAt cmd offset).type with
      | none =>
          rw [searchHeaders_other (by omega) hmagic hl, Option.map_eq_some_iff] at h
          obtain ⟨hs', hrest, rfl⟩ := h
          exact .other (by omega) hmagic hl (ih (hnext 0) hrest)
      | some l =>
          by_cases h16 : cmd.length < offset + headerSize
          · simp [searchHeaders, hend, h4, hmagic, h12, hl, h16] at h
          rw [searchHeaders_layer (by omega) hmagic hl, Option.map_eq_some_iff] at h
          obtain ⟨hs', hrest, rfl⟩ := h
          exact .layer (by omega) hmagic hl (ih (hnext _) hrest)

/-- What the bytes show, the walk meets. -/
theorem searchHeaders_of_headersFrom {cmd : List UInt8} {fuel offset : Nat} {hs : List Compress}
    (h : HeadersFrom cmd offset hs) (hfuel : cmd.length ≤ offset + fuel) :
    searchHeaders cmd fuel offset = some hs := by
  induction h generalizing fuel with
  | past hend =>
      cases fuel with
      | zero => rfl
      | succ fuel => rw [searchHeaders, if_pos hend]
  | blank hfits hmagic => exact searchHeaders_of_not_magic hfits hmagic fuel
  | layer hfits hmagic hl rest ih =>
      obtain ⟨fuel, rfl⟩ : ∃ k, fuel = k + 1 := ⟨fuel - 1, by unfold headerSize at hfits; omega⟩
      rw [searchHeaders_layer hfits hmagic hl, ih (by unfold headerSize; omega), Option.map_some]
  | other hfits hmagic hl rest ih =>
      obtain ⟨fuel, rfl⟩ : ∃ k, fuel = k + 1 := ⟨fuel - 1, by omega⟩
      rw [searchHeaders_other hfits hmagic hl, ih (by unfold headerSize; omega), Option.map_some]

/-! ## the walk over a page -/

namespace Batch

/-- The frames before the first series. -/
def antpFrames (p : Batch) : List Frame := p.frames.takeWhile fun f => f.layer ∈ Layer.antp

/-- The frames from the first series on. -/
def seriesFrames (p : Batch) : List Frame := p.frames.dropWhile fun f => f.layer ∈ Layer.antp

/-- Where the walk comes down behind the header of the first series `f`. -/
def strayAt (p : Batch) (f : Frame) : Nat :=
  (p.antpFrames.flatMap Frame.bytes).length + headerSize +
    searchAdvance f.header.stored f.layer

end Batch

/-- The times that `hs` have and `seen` do not, each where it appears first. -/
def newTimes (epochS epochE : Nat) (seen hs : List Compress) : List Nat :=
  ((timesIn epochS epochE hs).removeAll (timesIn epochS epochE seen)).eraseDups

/-- What the walk misses behind the first series of the page does not matter: the
headers there have no time that those before them do not show.  If the bytes where
the walk comes down are a magic, they are a header as well, and with those it leads
to have to show just the times missed. -/
def PageFound (cmd : List UInt8) (p : Batch) (epochS epochE : Nat) : Prop :=
  match p.seriesFrames with
  | [] => True
  | f :: hidden =>
    let seen := (p.antpFrames ++ [f]).map fun g => g.header.stored
    let missed := hidden.map fun g => g.header.stored
    if (headerAt cmd (p.strayAt f)).magic ≠ magic then
      ∀ t ∈ timesIn epochS epochE missed, t ∈ timesIn epochS epochE seen
    else
      ∃ stray, HeadersFrom cmd (p.strayAt f) stray ∧
        newTimes epochS epochE seen stray = newTimes epochS epochE seen missed

section page

variable {cmd : List UInt8} {p : Batch} {epochS epochE : Nat}

theorem antpFrames_append : p.antpFrames ++ p.seriesFrames = p.frames :=
  List.takeWhile_append_dropWhile

/-- The walk steps over an ANTP record by its length, and does not leave a payload. -/
theorem searchAdvance_frame {f : Frame} (hf : f.WellFormed) :
    (f.layer ∈ Layer.antp → searchAdvance f.header.stored f.layer = f.payload.length) ∧
      searchAdvance f.header.stored f.layer ≤ f.payload.length := by
  obtain ⟨n, hstride, _⟩ := hf.stride
  have htype := hf.type
  rw [strideOf, htype, Layer.ofNat?_toNat] at hstride
  generalize f.layer = l at *
  cases l <;> simp only [Option.some.injEq, Stride.mk.injEq] at hstride
  case antpSpeed | antpPower | antpCadence => simp [searchAdvance, hstride]
  case gyro | accelerometer =>
      unfold gyroRecordSize at hstride
      simp [searchAdvance, Layer.antp]
      omega
  case temperature =>
      unfold temperatureRecordSize at hstride
      simp [searchAdvance, Layer.antp]
      omega

/-- **The walk over the ANTP records** of a page meets their headers, and goes on
behind them. -/
theorem searchHeaders_antp (h : Shows cmd p) (hfits : p.pageBytes ≤ 2000) (fuel : Nat) :
    searchHeaders cmd (p.antpFrames.length + fuel) 0 =
      (searchHeaders cmd fuel (p.antpFrames.flatMap Frame.bytes).length).map
        ((p.antpFrames.map fun f => f.header.stored) ++ ·) := by
  obtain ⟨rest, hcmd, _⟩ := h
  have hformed : ∀ f ∈ p.antpFrames, f.WellFormed := by
    intro f hf
    refine p.frames_wellFormed hfits f ?_
    rw [← antpFrames_append]
    exact List.mem_append_left _ hf
  have hlayer : ∀ f ∈ p.antpFrames, f.layer ∈ Layer.antp := by
    intro f hf
    simpa using List.all_eq_true.1 List.all_takeWhile f hf
  have hsplit : cmd = [] ++ (p.antpFrames.flatMap Frame.bytes ++
      (p.seriesFrames.flatMap Frame.bytes ++ rest)) := by
    rw [hcmd, Batch.image, ← antpFrames_append, List.flatMap_append]
    simp
  have hround : ∀ f ∈ p.antpFrames, ∀ (offset fuel : Nat) (acc : List Compress),
      ShowsAt cmd offset f.layer f.payload → headerAt cmd offset = f.header.stored →
      (searchHeaders cmd (fuel + 1) offset).map (acc ++ ·) =
        (searchHeaders cmd fuel (offset + headerSize + f.payload.length)).map
          ((acc ++ [f.header.stored]) ++ ·) := by
    intro f hf offset fuel acc hshows hheader
    rw [searchHeaders_showsAt hshows hheader,
      (searchAdvance_frame (hformed f hf)).1 (hlayer f hf), Nat.add_right_comm, Option.map_map]
    simp [Function.comp_def]
  have hwalk := walk_frames
    (fun fuel offset acc => (searchHeaders cmd fuel offset).map (acc ++ ·))
    (fun acc f => acc ++ [f.header.stored]) p.antpFrames [] hsplit hround hformed fuel []
  rw [foldl_concat] at hwalk
  simpa using hwalk

/-- **The headers the walk meets on a page**: those of the ANTP records and of the
first series, and what it finds where it comes down behind that. -/
theorem searchHeaders_page (h : Shows cmd p) (hfits : p.pageBytes ≤ 2000) :
    searchHeaders cmd cmd.length 0 =
      match p.seriesFrames with
      | [] => some (pageHeaders p.image)
      | f :: _ => (searchHeaders cmd cmd.length (p.strayAt f)).map
          (((p.antpFrames ++ [f]).map fun g => g.header.stored) ++ ·) := by
  obtain ⟨hend, hmagic⟩ := h.not_magic
  have hframes := p.length_frames_le
  have happend := antpFrames_append (p := p)
  have hlen : p.antpFrames.length + p.seriesFrames.length = p.frames.length := by
    rw [← happend, List.length_append]
  cases hseries : p.seriesFrames with
  | nil =>
      rw [hseries, List.append_nil] at happend
      have hwalk := searchHeaders_antp h hfits (cmd.length - p.antpFrames.length)
      rw [Nat.add_sub_cancel' (by omega), happend] at hwalk
      have hrest := searchHeaders_of_not_magic hend hmagic (cmd.length - p.frames.length)
      rw [Batch.image] at hrest
      rw [hwalk, hrest, pageHeaders_image hfits]
      simp
  | cons f hidden =>
      have hwalk := searchHeaders_antp h hfits (cmd.length - p.antpFrames.length - 1 + 1)
      obtain ⟨rest, hcmd, _⟩ := h
      have hcmd : cmd = p.antpFrames.flatMap Frame.bytes ++
          (f.bytes ++ (hidden.flatMap Frame.bytes ++ rest)) := by
        rw [hcmd, Batch.image, ← happend, hseries]
        simp
      have hformed : f.WellFormed := by
        refine p.frames_wellFormed hfits f ?_
        rw [← happend, hseries]
        simp
      have hshows : ShowsAt cmd (p.antpFrames.flatMap Frame.bytes).length f.layer f.payload :=
        hcmd ▸ showsAt_frame hformed rfl
      have hheader : headerAt cmd (p.antpFrames.flatMap Frame.bytes).length = f.header.stored :=
        hcmd ▸ headerAt_frame
      have hcount : p.antpFrames.length ≤ (p.antpFrames.flatMap Frame.bytes).length :=
        length_le_frames_bytes _
      rw [hseries, List.length_cons] at hlen
      -- what is left of the rounds is still enough
      have hfuel : cmd.length ≤ p.strayAt f + (cmd.length - p.antpFrames.length - 1) := by
        unfold Batch.strayAt headerSize
        omega
      have hmore := searchHeaders_fuel hfuel (p.antpFrames.length + 1)
      have hsplit : cmd.length - p.antpFrames.length - 1 + (p.antpFrames.length + 1) =
          cmd.length := by omega
      have hround := searchHeaders_showsAt hshows hheader
        (cmd.length - p.antpFrames.length - 1)
      have hall : p.antpFrames.length + (cmd.length - p.antpFrames.length - 1 + 1) =
          cmd.length := by omega
      rw [Nat.add_right_comm] at hround
      rw [hsplit] at hmore
      rw [← Batch.strayAt, ← hmore] at hround
      rw [hall, hround] at hwalk
      rw [hwalk, Option.map_map]
      simp [Function.comp_def]

theorem entryOf_inj {ts us : List Nat} : entryOf ts = entryOf us ↔ ts.eraseDups = us.eraseDups := by
  have hnil : ∀ xs : List Nat, xs.eraseDups = [] ↔ xs = [] := by
    intro xs
    cases xs with
    | nil => simp
    | cons x xs => simp [List.eraseDups_cons]
  rw [entryOf, entryOf]
  by_cases ht : ts = []
  · subst ht
    by_cases hu : us = []
    · simp [hu]
    · simp [hu, eq_comm, hnil]
  · by_cases hu : us = []
    · simp [ht, hu, hnil]
    · simp [ht, hu]

/-- Two ways on from the headers seen lead to the same entry exactly if they show
the same new times. -/
theorem entryOf_append_iff (seen hs hs' : List Compress) :
    entryOf (timesIn epochS epochE (seen ++ hs)) = entryOf (timesIn epochS epochE (seen ++ hs')) ↔
      newTimes epochS epochE seen hs = newTimes epochS epochE seen hs' := by
  rw [entryOf_inj, timesIn_append, timesIn_append, List.eraseDups_append, List.eraseDups_append,
    List.append_cancel_left_eq, newTimes, newTimes]

theorem newTimes_eq_nil_iff (seen hs : List Compress) : newTimes epochS epochE seen hs = [] ↔
    ∀ t ∈ timesIn epochS epochE hs, t ∈ timesIn epochS epochE seen := by
  rw [newTimes, List.eq_nil_iff_forall_not_mem]
  simp [List.removeAll]

/-- The walk comes down within the page. -/
theorem strayAt_le (hfits : p.pageBytes ≤ 2000) {f : Frame} {hidden : List Frame}
    (hseries : p.seriesFrames = f :: hidden) : p.strayAt f ≤ p.image.length := by
  have happend := antpFrames_append (p := p)
  have hformed : f.WellFormed := by
    refine p.frames_wellFormed hfits f ?_
    rw [← happend, hseries]
    simp
  have hadvance := (searchAdvance_frame hformed).2
  rw [Batch.image, ← happend, hseries, List.flatMap_append, List.flatMap_cons, Batch.strayAt]
  simp
  omega

/-- **The times of a page are found** exactly if what the walk misses does not matter. -/
theorem pageFound_iff (h : Shows cmd p) (hfits : p.pageBytes ≤ 2000) :
    (∃ hs, searchHeaders cmd cmd.length 0 = some hs ∧
        entryOf (timesIn epochS epochE hs) =
          entryOf (timesIn epochS epochE (pageHeaders p.image))) ↔
      PageFound cmd p epochS epochE := by
  have hwalk := searchHeaders_page h hfits
  have himage := pageHeaders_image hfits
  rw [← antpFrames_append] at himage
  rw [hwalk, PageFound]
  cases hseries : p.seriesFrames with
  | nil => simp
  | cons f hidden =>
      have hheaders : pageHeaders p.image =
          ((p.antpFrames ++ [f]).map fun g => g.header.stored) ++
            hidden.map fun g => g.header.stored := by
        rw [himage, hseries]
        simp
      dsimp only
      rw [hheaders]
      generalize (p.antpFrames ++ [f]).map (fun g => g.header.stored) = seen
      generalize hidden.map (fun g => g.header.stored) = missed
      by_cases hmagic : (headerAt cmd (p.strayAt f)).magic ≠ magic
      · have hle := strayAt_le hfits hseries
        have hend := h.not_magic.1
        have hempty : newTimes epochS epochE seen [] = [] := by simp [newTimes, timesIn]
        have hstray : entryOf (timesIn epochS epochE (seen ++ [])) =
            entryOf (timesIn epochS epochE (seen ++ missed)) ↔
              newTimes epochS epochE seen [] = newTimes epochS epochE seen missed :=
          entryOf_append_iff seen [] missed
        rw [hempty, @eq_comm _ [], newTimes_eq_nil_iff] at hstray
        rw [if_pos hmagic, searchHeaders_of_not_magic (by omega) hmagic, ← hstray]
        simp
      · have hstray : ∀ hs, searchHeaders cmd cmd.length (p.strayAt f) = some hs ↔
            HeadersFrom cmd (p.strayAt f) hs := fun hs =>
          ⟨headersFrom_of_searchHeaders (by omega),
            fun h => searchHeaders_of_headersFrom h (by omega)⟩
        rw [if_neg hmagic]
        simp [entryOf_append_iff, hstray]

/-- Where the bytes are no magic, the walk ends at the first series. -/
theorem pageFound_series {f : Frame} {hidden : List Frame} (hseries : p.seriesFrames = f :: hidden)
    (hmagic : (headerAt cmd (p.strayAt f)).magic ≠ magic) : PageFound cmd p epochS epochE ↔
      ∀ t ∈ timesIn epochS epochE (hidden.map fun g => g.header.stored),
        t ∈ timesIn epochS epochE ((p.antpFrames ++ [f]).map fun g => g.header.stored) := by
  rw [PageFound, hseries]
  exact iff_of_eq (if_pos hmagic)

end page

end Mxfs
