import Mxfs.EpochWalk
import Mxfs.RingLog

/-!
# Mxfs.EpochSearch

The search of the formatter for header times (`format.cc` of the parent).

Each block is walked page by page up to the first page without magic, and the
times in the range asked for are collected by block and page.  The search finds
them all exactly if the walk over each page does (`epochsFound_iff`), which it
does where nothing behind the first series matters (`epoch_search_iff`).
-/

namespace Mxfs

open Lib

/-! ## the search -/

/-- The pages of a block still to look at, up to the first without magic. -/
def searchPages (read : Nat → Nat → List UInt8) (epochS epochE block : Nat) :
    List Nat → Timestamps → Option Timestamps
  | [], timestamps => some timestamps
  | page :: pages, timestamps =>
    let cmd := read block page
    if (headerAt cmd 0).magic ≠ magic then some timestamps
    else (searchWalk cmd (blockpage block page) epochS epochE cmd.length 0 timestamps).bind
      (searchPages read epochS epochE block pages)

/-- The search, over what is read of each page. -/
def searchEpochs (read : Nat → Nat → List UInt8) (epochS epochE : Nat) : Option Timestamps :=
  (List.range blockCount).foldlM (fun timestamps block =>
    searchPages read epochS epochE block (List.range pageCount) timestamps) fun _ => none

section fold

variable {α β : Type} {f g : β → α → Option β} {xs : List α}

end fold

section walks

variable {read read' : Nat → Nat → List UInt8} {epochS epochE block : Nat} {pages : List Nat}

/-- The headers the walk meets on a page of the flash. -/
def pageWalk (read : Nat → Nat → List UInt8) (block page : Nat) : Option (List Compress) :=
  searchHeaders (read block page) (read block page).length 0

end walks

/-! ## a flash that shows batches -/

theorem blockpage_eq {block page : Nat} (hb : block < 65536) (hp : page < 65536) :
    blockpage block page = 65536 * block + page := by
  have hmask : 0xFFFF0000 = 0xFFFF <<< 16 := rfl
  have hlow : ∀ n, n < 65536 → n &&& 0xFFFF = n := fun n hn => by
    rw [show 0xFFFF = 2 ^ 16 - 1 from rfl, Nat.and_two_pow_sub_one_eq_mod, Nat.mod_eq_of_lt hn]
  rw [blockpage, hmask, ← Nat.shiftLeft_and_distrib, hlow block hb, hlow page hp,
    ← Nat.shiftLeft_add_eq_or_of_lt hp, Nat.shiftLeft_eq, Nat.mul_comm]

/-- What is read of each page shows a batch, and in each block the pages with
records come first. -/
structure FlashShows (read : Nat → Nat → List UInt8) (ps : Nat → Nat → Batch) : Prop where
  shows : ∀ block < blockCount, ∀ page < pageCount, Shows (read block page) (ps block page)
  fits : ∀ block < blockCount, ∀ page < pageCount, (ps block page).pageBytes ≤ 2000
  front : ∀ block < blockCount, ∀ page < pageCount, ∀ page' < page,
    (ps block page').IsEmpty → (ps block page).IsEmpty

/-- A page shows a magic exactly if it has records. -/
theorem magic_iff {cmd : List UInt8} {p : Batch} (h : Shows cmd p) (hfits : p.pageBytes ≤ 2000) :
    (headerAt cmd 0).magic = magic ↔ ¬ p.IsEmpty := by
  constructor
  · intro hmagic hempty
    have hend := h.not_magic.2
    rw [hempty.eq_empty] at hend
    exact hend hmagic
  · intro hne
    obtain ⟨rest, rfl, _⟩ := h
    rw [headerAt, Compress.ofBytes_slice (Nat.le_refl _), List.drop_zero]
    exact p.slice_image_magic hfits hne rest

section flash

variable {read : Nat → Nat → List UInt8} {ps : Nat → Nat → Batch} {epochS epochE : Nat}

/-- On a page without records the walk meets no header. -/
theorem pageWalk_of_isEmpty (h : FlashShows read ps) {block page : Nat} (hb : block < blockCount)
    (hp : page < pageCount) (hempty : (ps block page).IsEmpty) :
    pageWalk read block page = some [] := by
  have hshows := h.shows block hb page hp
  rw [hempty.eq_empty] at hshows
  exact searchHeaders_of_not_magic hshows.not_magic.1 hshows.not_magic.2 _

/-- `m'` is `m` with the entries of the pages `xs` made, each walked to its end. -/
def Entered (read : Nat → Nat → List UInt8) (epochS epochE : Nat) (xs : List (Nat × Nat))
    (m m' : Timestamps) : Prop :=
  (∀ x ∈ xs, ∃ hs, pageWalk read x.1 x.2 = some hs ∧
      m' (blockpage x.1 x.2) = entryOf (timesIn epochS epochE hs)) ∧
    ∀ key, (∀ x ∈ xs, key ≠ blockpage x.1 x.2) → m' key = m key

/-- Two pages have different keys. -/
def Distinct (xs : List (Nat × Nat)) : Prop :=
  xs.Pairwise fun x y => blockpage x.1 x.2 ≠ blockpage y.1 y.2

variable {xs ys : List (Nat × Nat)} {x : Nat × Nat} {m m' : Timestamps}

theorem entered_nil : Entered read epochS epochE [] m m' ↔ m = m' := by
  simp [Entered, funext_iff, eq_comm]

/-- **One page, then the others.** -/
theorem entered_cons (hx : ∀ y ∈ xs, blockpage x.1 x.2 ≠ blockpage y.1 y.2) :
    Entered read epochS epochE (x :: xs) m m' ↔ ∃ hs, pageWalk read x.1 x.2 = some hs ∧
      Entered read epochS epochE xs
        (Function.update m (blockpage x.1 x.2) (entryOf (timesIn epochS epochE hs))) m' := by
  constructor
  · rintro ⟨hentries, hframe⟩
    obtain ⟨hs, hwalk, hentry⟩ := hentries x List.mem_cons_self
    refine ⟨hs, hwalk, fun y hy => hentries y (List.mem_cons_of_mem x hy), fun key hne => ?_⟩
    by_cases hkey : key = blockpage x.1 x.2
    · rw [hkey, hentry, Function.update_self]
    · rw [Function.update_of_ne hkey]
      refine hframe key fun y hy => ?_
      cases hy with
      | head => exact hkey
      | tail _ hy => exact hne y hy
  · rintro ⟨hs, hwalk, hentries, hframe⟩
    refine ⟨fun y hy => ?_, fun key hne => ?_⟩
    · cases hy with
      | head => exact ⟨hs, hwalk, by rw [hframe _ hx, Function.update_self]⟩
      | tail _ hy => exact hentries y hy
    · rw [hframe key fun y hy => hne y (List.mem_cons_of_mem x hy),
        Function.update_of_ne (hne x List.mem_cons_self)]

/-- **Some pages, then the others.** -/
theorem entered_append (h : Distinct (xs ++ ys)) : Entered read epochS epochE (xs ++ ys) m m' ↔
    ∃ m₁, Entered read epochS epochE xs m m₁ ∧ Entered read epochS epochE ys m₁ m' := by
  induction xs generalizing m with
  | nil => simp [entered_nil]
  | cons x xs ih =>
      rw [Distinct, List.cons_append] at h
      obtain ⟨hx, hrest⟩ := List.pairwise_cons.1 h
      rw [List.cons_append, entered_cons hx]
      simp only [entered_cons fun y hy => hx y (List.mem_append_left _ hy), ih hrest]
      constructor
      · rintro ⟨hs, hwalk, m₁, h₁, h₂⟩
        exact ⟨m₁, ⟨hs, hwalk, h₁⟩, h₂⟩
      · rintro ⟨m₁, ⟨hs, hwalk, h₁⟩, h₂⟩
        exact ⟨hs, hwalk, m₁, h₁, h₂⟩

/-- Pages without records make no entry. -/
theorem entered_empty (h : Distinct xs) (hxs : ∀ x ∈ xs, pageWalk read x.1 x.2 = some [])
    (hm : ∀ x ∈ xs, m (blockpage x.1 x.2) = none) :
    Entered read epochS epochE xs m m' ↔ m = m' := by
  induction xs with
  | nil => exact entered_nil
  | cons x xs ih =>
      obtain ⟨hx, hrest⟩ := List.pairwise_cons.1 h
      have hsame : Function.update m (blockpage x.1 x.2) (entryOf (timesIn epochS epochE [])) =
          m := by
        rw [show entryOf (timesIn epochS epochE []) = none from rfl, ← hm x List.mem_cons_self,
          Function.update_eq_self]
      rw [entered_cons hx, hxs x List.mem_cons_self]
      simp only [Option.some.injEq, exists_eq_left', hsame]
      exact ih hrest (fun y hy => hxs y (List.mem_cons_of_mem x hy))
        fun y hy => hm y (List.mem_cons_of_mem x hy)

/-- **The search over a block** makes the entries of its pages. -/
theorem searchPages_eq_iff (h : FlashShows read ps) {block : Nat} (hb : block < blockCount)
    {pages : List Nat} (hpages : ∀ page ∈ pages, page < pageCount)
    (hord : pages.Pairwise (· < ·)) (hkeys : Distinct (pages.map fun page => (block, page)))
    (hm : ∀ page ∈ pages, m (blockpage block page) = none) :
    searchPages read epochS epochE block pages m = some m' ↔
      Entered read epochS epochE (pages.map fun page => (block, page)) m m' := by
  induction pages generalizing m with
  | nil => simp [searchPages, entered_nil]
  | cons page pages ih =>
      have hpage := hpages page List.mem_cons_self
      obtain ⟨hlt, hord⟩ := List.pairwise_cons.1 hord
      have hmagic := magic_iff (h.shows block hb page hpage) (h.fits block hb page hpage)
      rw [searchPages]
      by_cases hempty : (ps block page).IsEmpty
      · -- the pages behind an empty page are empty as well
        have hnone : ∀ page' ∈ page :: pages, pageWalk read block page' = some [] := by
          intro page' hmem
          refine pageWalk_of_isEmpty h hb (hpages page' hmem) ?_
          cases hmem with
          | head => exact hempty
          | tail _ hmem =>
              exact h.front block hb page' (hpages page' (List.mem_cons_of_mem page hmem)) page
                (hlt page' hmem) hempty
        rw [if_pos fun hm => hmagic.1 hm hempty,
          entered_empty hkeys (by simpa using hnone) (by simpa using hm), Option.some.injEq]
      · obtain ⟨hx, hrest⟩ := List.pairwise_cons.1 hkeys
        rw [if_neg (not_not.2 (hmagic.2 hempty)), searchWalk_eq, List.map_cons, entered_cons hx]
        cases hwalk : searchHeaders (read block page) (read block page).length 0 with
        | none => simp [pageWalk, hwalk]
        | some hs =>
            have hnext : ∀ page' ∈ pages, Function.update m (blockpage block page)
                (entryOf (timesIn epochS epochE hs)) (blockpage block page') = none := by
              intro page' hmem
              rw [Function.update_of_ne (hx _ (List.mem_map_of_mem hmem)).symm]
              exact hm page' (List.mem_cons_of_mem page hmem)
            rw [Option.map_some, Option.bind_some, foldl_visit hs (hm page List.mem_cons_self),
              ih (fun page' hmem => hpages page' (List.mem_cons_of_mem page hmem)) hord hrest hnext]
            simp [pageWalk, hwalk]

/-- The pages of the blocks, in the order of the search. -/
def pagesOf (blocks : List Nat) : List (Nat × Nat) :=
  blocks.flatMap fun block => (List.range pageCount).map fun page => (block, page)

theorem mem_pagesOf {blocks : List Nat} :
    x ∈ pagesOf blocks ↔ x.1 ∈ blocks ∧ x.2 < pageCount := by
  obtain ⟨b, p⟩ := x
  simp [pagesOf]

/-- The pages of the flash have different keys. -/
theorem distinct_pagesOf : Distinct (pagesOf (List.range blockCount)) := by
  have hkey : ∀ b b' p p', b < blockCount → b' < blockCount → p < pageCount → p' < pageCount →
      blockpage b p = blockpage b' p' → b = b' ∧ p = p' := by
    unfold blockCount pageCount
    intro b b' p p' hb hb' hp hp' heq
    rw [blockpage_eq (by omega) (by omega), blockpage_eq (by omega) (by omega)] at heq
    omega
  rw [Distinct, pagesOf, List.pairwise_flatMap]
  constructor
  · intro b hb
    rw [List.pairwise_map]
    refine List.pairwise_lt_range.imp_of_mem fun {p p'} hp hp' hlt heq => ?_
    have := (hkey b b p p' (List.mem_range.1 hb) (List.mem_range.1 hb) (List.mem_range.1 hp)
      (List.mem_range.1 hp') heq).2
    omega
  · refine List.pairwise_lt_range.imp_of_mem fun {b b'} hb hb' hlt x hx y hy heq => ?_
    obtain ⟨p, hp, rfl⟩ := List.mem_map.1 hx
    obtain ⟨p', hp', rfl⟩ := List.mem_map.1 hy
    have := (hkey b b' p p' (List.mem_range.1 hb) (List.mem_range.1 hb') (List.mem_range.1 hp)
      (List.mem_range.1 hp') heq).1
    omega

/-- **The search over the blocks** makes the entries of their pages. -/
theorem searchBlocks_eq_iff (h : FlashShows read ps) {blocks : List Nat}
    (hblocks : ∀ block ∈ blocks, block < blockCount) (hkeys : Distinct (pagesOf blocks))
    (hm : ∀ x ∈ pagesOf blocks, m (blockpage x.1 x.2) = none) :
    blocks.foldlM (fun timestamps block =>
        searchPages read epochS epochE block (List.range pageCount) timestamps) m = some m' ↔
      Entered read epochS epochE (pagesOf blocks) m m' := by
  induction blocks generalizing m with
  | nil => simp [pagesOf, entered_nil]
  | cons block blocks ih =>
      have hcons : pagesOf (block :: blocks) =
          ((List.range pageCount).map fun page => (block, page)) ++ pagesOf blocks :=
        List.flatMap_cons
      rw [hcons] at hkeys hm ⊢
      obtain ⟨hown, hrest, hcross⟩ := List.pairwise_append.1 hkeys
      have hfirst : ∀ m₁, searchPages read epochS epochE block (List.range pageCount) m = some m₁ ↔
          Entered read epochS epochE ((List.range pageCount).map fun page => (block, page)) m m₁ :=
        fun m₁ => searchPages_eq_iff h (hblocks block List.mem_cons_self)
          (fun page hp => List.mem_range.1 hp) List.pairwise_lt_range hown
          fun page hp => hm (block, page) (List.mem_append_left _ (List.mem_map_of_mem hp))
      have hothers : ∀ m₁,
          Entered read epochS epochE ((List.range pageCount).map fun page => (block, page)) m m₁ →
          ∀ y ∈ pagesOf blocks, m₁ (blockpage y.1 y.2) = none := by
        intro m₁ h₁ y hy
        rw [h₁.2 _ fun x hx => (hcross x hx y hy).symm]
        exact hm y (List.mem_append_right _ hy)
      rw [List.foldlM_cons, entered_append hkeys, Option.bind_eq_bind, Option.bind_eq_some_iff]
      refine exists_congr fun m₁ => ?_
      rw [hfirst]
      refine and_congr_right fun h₁ => ?_
      exact ih (fun b hb => hblocks b (List.mem_cons_of_mem block hb)) hrest (hothers m₁ h₁)

end flash

/-- The search makes an entry for every page whose headers show a time in the range,
with the distinct times in the order they appear. -/
def EpochsFound (read : Nat → Nat → List UInt8) (ps : Nat → Nat → Batch)
    (epochS epochE : Nat) : Prop :=
  ∃ timestamps, searchEpochs read epochS epochE = some timestamps ∧
    ∀ block < blockCount, ∀ page < pageCount, timestamps (blockpage block page) =
      entryOf (timesIn epochS epochE (pageHeaders (ps block page).image))

/-! ## the flash a session leaves -/

/-- The batch on a page of the flash after `bs` were put away. -/
def flashBatch (bs : List Batch) (block page : Nat) : Batch :=
  if block = 0 then Batch.empty else (heldBatch bs block page).getD Batch.empty

/-- What is read of the pages, whatever the spare bytes behind them. -/
def sessionRead (B : Build) (M : Medium) (ops : List Op) (spare : Nat → Nat → List UInt8)
    (block page : Nat) : List UInt8 :=
  ((pageSession B M Flash.erased ops).dev.dev block page).bytes ++ spare block page

theorem sessionRead_eq (B : Build) (M : Medium) {ops : List Op} (hops : ∀ op ∈ ops, op.IsLog)
    (spare : Nat → Nat → List UInt8) {block page : Nat} (hb : IsData block)
    (hp : page < pageCount) : sessionRead B M ops spare block page =
      (ringPage M (heldBatch (LogState.init.run B ops).batches block page)).bytes ++
        spare block page := by
  rw [sessionRead, page_heldBatch B M (fun b _ => Flash.blank_erased b) hops hb hp]

/-- A batch on a page fits it, and has records. -/
theorem heldBatch_fits (B : Build) {ops : List Op} (hops : ∀ op ∈ ops, op.IsLog) {b p : Nat}
    {q : Batch} (h : heldBatch (LogState.init.run B ops).batches b p = some q) :
    q.pageBytes ≤ 2000 ∧ ¬ q.IsEmpty := by
  have hmem := mem_of_ringStore (by decide) (by decide) h
  have hring := (ring_session B fakeMedium (fun b _ => Flash.blank_erased b) hops).2
  refine ⟨hring.fits q ?_, LogState.nonempty_run B ops q hmem⟩
  rwa [Model.run_log]

section flash

variable (B : Build) {ops : List Op} (hops : ∀ op ∈ ops, op.IsLog)
include hops

/-- A data page shows the batch on it. -/
theorem shows_flashBatch (M : Medium) {f : Flash} (hf : ∀ b, IsData b → f.Blank b) {b p : Nat}
    (hb : IsData b) (hp : p < pageCount) :
    Shows ((pageSession B M f ops).dev.dev b p).bytes
      (flashBatch (LogState.init.run B ops).batches b p) := by
  have hzero : ¬ b = 0 := by
    have := (isData_iff.1 hb).1
    omega
  rw [page_heldBatch B M hf hops hb hp, flashBatch, if_neg hzero]
  cases hq : heldBatch (LogState.init.run B ops).batches b p with
  | none => exact shows_blank
  | some q => exact shows_image (heldBatch_fits B hops hq).1 M.fill

theorem flashBatch_fits (b p : Nat) :
    (flashBatch (LogState.init.run B ops).batches b p).pageBytes ≤ 2000 := by
  rw [flashBatch]
  split
  · exact Nat.zero_le _
  · cases hq : heldBatch (LogState.init.run B ops).batches b p with
    | none => exact Nat.zero_le _
    | some q => exact (heldBatch_fits B hops hq).1

/-- Behind an empty page of a block there is nothing. -/
theorem flashBatch_front {b p p' : Nat} (hlt : p < p')
    (h : (flashBatch (LogState.init.run B ops).batches b p).IsEmpty) :
    (flashBatch (LogState.init.run B ops).batches b p').IsEmpty := by
  rw [flashBatch] at h ⊢
  split
  · exact fun _ => rfl
  · next hb =>
      rw [if_neg hb] at h
      cases hq : heldBatch (LogState.init.run B ops).batches b p' with
      | none => exact fun _ => rfl
      | some q =>
          -- then the page in front holds a batch too
          obtain ⟨q', hq'⟩ := ringStore_front (by decide) (by decide) hq hlt
          rw [heldBatch, hq'] at h
          exact absurd h (heldBatch_fits B hops hq').2

/-- **After appends and flushes** on an erased device the pages show batches, whatever
the spare bytes behind them. -/
theorem flashShows_pages (M : Medium) {f : Flash} (hf : ∀ b < blockCount, f.Blank b)
    {read : Nat → Nat → List UInt8}
    (hread : ∀ b p, ∃ spare, read b p = ((pageSession B M f ops).dev.dev b p).bytes ++ spare) :
    FlashShows read (flashBatch (LogState.init.run B ops).batches) := by
  have hblank : ∀ b, IsData b → f.Blank b := fun b hb => hf b hb.2
  have hsafe := safe_session B M (fun b hb => .inr (hblank b hb))
    fun op (hop : op ∈ ops) b heq => by
      rw [heq] at hop
      exact hops _ hop
  constructor
  · intro b hb p hp
    obtain ⟨spare, hbytes⟩ := hread b p
    rw [hbytes]
    by_cases hzero : b = 0
    · have hconfig := hsafe.2.config p
      rw [← hsafe.1.shows.flash, hf 0 (by decide) p hp] at hconfig
      rw [hzero, flashBatch, if_pos rfl, hconfig]
      exact shows_blank.append _
    · have hdata : IsData b := by
        unfold blockCount at hb
        rw [isData_iff]
        omega
      exact (shows_flashBatch B hops M hblank hdata hp).append _
  · exact fun b _ p _ => flashBatch_fits B hops b p
  · exact fun b _ p _ p' hlt => flashBatch_front B hops hlt

end flash

theorem flashShows_session (B : Build) (M : Medium) {ops : List Op} (hops : ∀ op ∈ ops, op.IsLog)
    (spare : Nat → Nat → List UInt8) :
    FlashShows (sessionRead B M ops spare) (flashBatch (LogState.init.run B ops).batches) :=
  flashShows_pages B hops M (fun b _ => Flash.blank_erased b) fun b p => ⟨spare b p, rfl⟩

section theorems

variable {read : Nat → Nat → List UInt8} {ps : Nat → Nat → Batch} {epochS epochE : Nat}

/-- **The search finds the times** exactly if the walk over each page does. -/
theorem epochsFound_iff (h : FlashShows read ps) : EpochsFound read ps epochS epochE ↔
    ∀ block < blockCount, ∀ page < pageCount, ∃ hs, pageWalk read block page = some hs ∧
      entryOf (timesIn epochS epochE hs) =
        entryOf (timesIn epochS epochE (pageHeaders (ps block page).image)) := by
  have hsearch : ∀ m, searchEpochs read epochS epochE = some m ↔
      Entered read epochS epochE (pagesOf (List.range blockCount)) (fun _ => none) m :=
    fun m => searchBlocks_eq_iff h (fun b hb => List.mem_range.1 hb) distinct_pagesOf
      fun _ _ => rfl
  constructor
  · rintro ⟨m, hm, hfound⟩ block hb page hp
    obtain ⟨hs, hwalk, hentry⟩ := ((hsearch m).1 hm).1 (block, page)
      (mem_pagesOf.2 ⟨List.mem_range.2 hb, hp⟩)
    exact ⟨hs, hwalk, hentry.symm.trans (hfound block hb page hp)⟩
  · intro hfound
    let expected (block page : Nat) : Option (List Nat) :=
      entryOf (timesIn epochS epochE (pageHeaders (ps block page).image))
    let m : Timestamps := fun key =>
      if key / 65536 < blockCount ∧ key % 65536 < pageCount then
        expected (key / 65536) (key % 65536)
      else none
    have hm : ∀ block < blockCount, ∀ page < pageCount,
        m (blockpage block page) = expected block page := by
      intro block hb page hp
      have hb' : block < 65536 := Nat.lt_trans hb (by decide)
      have hp' : page < 65536 := Nat.lt_trans hp (by decide)
      have hdiv : (65536 * block + page) / 65536 = block := by omega
      have hmod : (65536 * block + page) % 65536 = page := by omega
      simp only [m, blockpage_eq hb' hp', hdiv, hmod, hb, hp, and_self, if_true]
    refine ⟨m, (hsearch m).2 ⟨fun x hx => ?_, fun key hne => ?_⟩, hm⟩
    · obtain ⟨hb, hp⟩ := mem_pagesOf.1 hx
      have hb := List.mem_range.1 hb
      obtain ⟨hs, hwalk, hentry⟩ := hfound x.1 hb x.2 hp
      exact ⟨hs, hwalk, (hm x.1 hb x.2 hp).trans hentry.symm⟩
    · refine if_neg fun ⟨hb, hp⟩ => ?_
      refine hne (key / 65536, key % 65536) (mem_pagesOf.2 ⟨List.mem_range.2 hb, hp⟩) ?_
      rw [blockpage_eq (Nat.lt_trans hb (by decide)) (Nat.lt_trans hp (by decide))]
      omega

/-- **The time search finds every header**, on a flash whose pages show batches,
exactly if on no page the walk misses something that matters. -/
theorem epoch_search_iff {read : Nat → Nat → List UInt8} {ps : Nat → Nat → Batch}
    (h : FlashShows read ps) (epochS epochE : Nat) : EpochsFound read ps epochS epochE ↔
    ∀ block < blockCount, ∀ page < pageCount,
      PageFound (read block page) (ps block page) epochS epochE := by
  rw [epochsFound_iff h]
  refine forall₂_congr fun block hb => forall₂_congr fun page hp => ?_
  exact pageFound_iff (h.shows block hb page hp) (h.fits block hb page hp)

end theorems

/-- One gyro record. -/
theorem epoch_search_gyro :
    EpochsFound (sessionRead { linux := false, rp2040 := true } fakeMedium
      [.ofRecord .gyro gyroSample, .flush] fun _ _ => [])
      (flashBatch [Batch.single .gyro gyroSample]) 1 10 := by
  have hbatches : (LogState.init.run { linux := false, rp2040 := true }
      [.ofRecord .gyro gyroSample, .flush]).batches = [Batch.single .gyro gyroSample] := rfl
  have hops : ∀ op ∈ [Op.ofRecord .gyro gyroSample, .flush], op.IsLog := by
    simp [Op.ofRecord, Op.IsLog]
  have hshows := flashShows_session { linux := false, rp2040 := true } fakeMedium hops fun _ _ => []
  rw [hbatches] at hshows
  refine (epoch_search_iff hshows 1 10).2 fun block hb page hp => ?_
  by_cases hfirst : block = 1 ∧ page = 0
  · obtain ⟨rfl, rfl⟩ := hfirst
    rw [sessionRead_eq _ _ hops _ (by decide) (by decide), hbatches]
    exact (pageFound_series (p := Batch.single .gyro gyroSample) rfl
      (by decide +kernel)).2 (by decide)
  · have hempty : flashBatch [Batch.single .gyro gyroSample] block page = Batch.empty := by
      rw [flashBatch]
      split
      · rfl
      · cases hq : heldBatch [Batch.single .gyro gyroSample] block page with
        | none => rfl
        | some q =>
            obtain ⟨i, _, hlive, hslot⟩ := (ringStore_eq_some (by decide) (by decide) _ _ _ q).1 hq
            have hzero : i = 0 := by simpa using hlive.1
            rw [hzero, slot, Prod.mk.injEq] at hslot
            omega
    rw [hempty]
    trivial

/-- An accelerometer record of four seconds later. -/
def lateAccelSample : Record .accelerometer := ⟨5000, [1, 0, 2, 0, 3, 0], by decide⟩

/-- Behind a gyro record the time of an accelerometer record is not found. -/
theorem epoch_search_misses :
    ¬ EpochsFound (sessionRead { linux := false, rp2040 := true } fakeMedium
      [.ofRecord .gyro gyroSample, .ofRecord .accelerometer lateAccelSample, .flush] fun _ _ => [])
      (flashBatch [(Batch.single .gyro gyroSample).push .accelerometer lateAccelSample]) 1 10 := by
  have hbatches : (LogState.init.run { linux := false, rp2040 := true }
      [.ofRecord .gyro gyroSample, .ofRecord .accelerometer lateAccelSample, .flush]).batches =
        [(Batch.single .gyro gyroSample).push .accelerometer lateAccelSample] := rfl
  have hops : ∀ op ∈ [Op.ofRecord .gyro gyroSample, .ofRecord .accelerometer lateAccelSample,
      .flush], op.IsLog := by simp [Op.ofRecord, Op.IsLog]
  have hshows := flashShows_session { linux := false, rp2040 := true } fakeMedium hops fun _ _ => []
  rw [hbatches] at hshows
  intro h
  have hwalk := (epochsFound_iff hshows).1 h 1 (by decide) 0 (by decide)
  have hfound := (pageFound_iff (hshows.shows 1 (by decide) 0 (by decide))
    (hshows.fits 1 (by decide) 0 (by decide))).1 hwalk
  rw [sessionRead_eq _ _ hops _ (by decide) (by decide), hbatches] at hfound
  have htimes := (pageFound_series
    (p := (Batch.single .gyro gyroSample).push .accelerometer lateAccelSample) rfl
    (by decide +kernel)).1 hfound
  exact absurd htimes (by decide)

end Mxfs
