import Mxfs.Find

/-!
# Mxfs.Life

The life of a part: the RP2040 child and the formatter of the parent take turns
on it, and each starts it anew.  The child waits for the part before it resets it.
The formatter does not, and so its turn is one on a part that is known to be at rest:
behind a turn of the child, or behind a pause (`Between`).

`lives_ends` says that all they do, what they answer and what they print of the data
bytes of pages, is what the calls and the commands say of the pages (`Stay.next`,
`Stay.seen`).  What holds over lives is then a matter of pages only:

* `lives_same_pages` — two parts with the same pages cannot be told apart;
* `check_survives` — a part `check` has passed passes it ever after;
* `config_survives` — the configuration is read back unless a program is told to
  touch its page;
* `lives_session` — turns of one child, and looks by the formatter, are one session
  with a remount at each turn.
-/

namespace Mxfs

open Lib Instruction Formatter

/-! ## what is decoded of a page -/

/-- The spare bytes of a page. -/
def spareSize : Nat := chipPageSize - pageSize

/-- The bytes of a page whose spare bytes are erased. -/
def Page.withSpare (x : Page) : List UInt8 := x.bytes ++ List.replicate spareSize 0xFF

/-- The data bytes settle what is decoded: it ends, and with the same whatever the
spare bytes are. -/
def Page.Settles {α : Type} (decode : List UInt8 → Option α) (x : Page) : Prop :=
  ∃ a, ∀ spare : List UInt8, spare.length = spareSize → decode (x.bytes ++ spare) = some a

/-- The export of a page, from its bytes. -/
def exported (bytes : List UInt8) : Option (List CsvLine) :=
  csvPage (bytes ++ List.replicate (decbfSize - chipPageSize) 0xFF)

/-- The data bytes settle what the search finds. -/
def Flash.SearchSettles (f : Flash) (epochS epochE : Nat) : Prop :=
  ∃ found, ∀ spare : Nat → Nat → List UInt8, (∀ b p, (spare b p).length = spareSize) →
    searchEpochs (fun b p => (f b p).bytes ++ spare b p) epochS epochE = some found

section settles

end settles

/-! ## what a command says -/

namespace Flash

/-- The blocks erased. -/
def wipe (f : Flash) (blocks : List Nat) : Flash :=
  fun b p => if b ∈ blocks ∧ p < pageCount then Page.blank else f b p

/-- The pages programmed, all with the same bytes. -/
def stamp (f : Flash) (pages : List (Nat × Nat)) (data : List UInt8) : Flash :=
  fun b p => if (b, p) ∈ pages then (nandMedium 0).program (f b p) data else f b p

/-- All pages of the part pass `check`. -/
def Passes (f : Flash) : Prop :=
  ∀ b < blockCount, ∀ p < pageCount, checked (f b p).bytes = true

instance (f : Flash) : Decidable f.Passes :=
  inferInstanceAs (Decidable (∀ b < blockCount, ∀ p < pageCount, _))

end Flash

/-- What is shown, as far as the data bytes of pages. -/
def Shown.data : Shown → Shown
  | .nothing => .nothing
  | .pages dumps => .pages (dumps.map fun bytes => bytes.take pageSize)
  | .csv outs => .csv (outs.map fun x => ⟨x.dump.take pageSize, x.lines⟩)
  | .found timestamps => .found timestamps

namespace Command

/-- The blocks and pages, by the numbers the part takes theirs for. -/
def taken (blockS blockE pageS pageE : UInt16) : List (Nat × Nat) :=
  (pagesFrom (blocksFrom blockS.toNat blockE.toNat) pageS.toNat pageE.toNat).map fun x =>
    (x.1 % blockCount, x.2 % pageCount)

/-- The pages after the command. -/
def apply (f : Flash) : Command → Flash
  | read _ _ _ _ | check | csv _ _ _ _ | search _ _ => f
  | erase blockS blockE =>
    f.wipe ((blocksFrom blockS.toNat blockE.toNat).map (· % blockCount))
  | format => f.wipe (blocksFrom 0 blockCount)
  | config string => (formatConfig (nandMedium 0) f string).getD f
  | write blockS blockE pageS pageE =>
    f.stamp (taken blockS blockE pageS pageE) (testPage [0, 0])

/-- How the command ends. -/
def exit (f : Flash) : Command → Exit
  | check => if f.Passes then .fin else .failed "failed, check"
  | _ => .fin

/-- What the command shows of the data bytes. -/
def shown (f : Flash) : Command → Shown
  | read blockS blockE pageS pageE =>
    .pages ((taken blockS blockE pageS pageE).map fun x => (f x.1 x.2).bytes)
  | csv blockS blockE pageS pageE =>
    .csv ((taken blockS blockE pageS pageE).map fun x =>
      ⟨(f x.1 x.2).bytes, (exported (f x.1 x.2).withSpare).getD []⟩)
  | search epochS epochE =>
    .found ((searchEpochs (fun b p => (f b p).withSpare) epochS.toNat epochE.toNat).getD
      fun _ => none)
  | _ => .nothing

/-- What the command copies and decodes stays in its buffers: a configuration is not
copied past the end, and the data bytes settle an export and a search. -/
def Fits (f : Flash) : Command → Prop
  | config string => acceptsConfig string = true → string.length ≤ 2096
  | csv blockS blockE pageS pageE =>
    ∀ x ∈ taken blockS blockE pageS pageE, (f x.1 x.2).Settles exported
  | search epochS epochE => f.SearchSettles epochS.toNat epochE.toNat
  | _ => True

end Command

/-! ## the formatter on the part -/

section formatter

/-- What `check` looks at are data bytes. -/
theorem checked_main (x : ChipPage) : checked x.main.bytes = checked x.bytes := by
  have hslice : slice x.main.bytes 0 4 = slice x.bytes 0 4 := x.take_main (by decide)
  rw [checked, checked, hslice, formatted, formatted, x.take_main (by decide)]

/-- The test page is a whole page. -/
theorem length_testPage : (testPage [0, 0]).length = pageSize := by
  rw [testPage, List.length_take, length_testPattern rfl]
  rfl

variable (P : ChipParams)

end formatter

/-! ## lives -/

/-- A program's turn on the part, or a pause until the part has ended what it was
doing. -/
inductive Stay where
  | child (B : Build) (calls : List ClientCall)
  | parent (command : Command)
  | pause

/-- What a program's turn shows: how it ends, what the child's calls return, and what
the formatter prints of pages. -/
structure Seen where
  exit : Exit
  answers : List Answer
  shown : Shown

/-- What is known of a part between turns: its pages, and whether it is at rest. -/
structure Between where
  flash : Flash
  rested : Bool

/-- What is seen, as far as the data bytes of pages. -/
def Seen.data (x : Seen) : Seen := { x with shown := x.shown.data }

namespace Stay

/-- The world over the page array the child mounts. -/
def world (B : Build) (f : Flash) : World (Logged Flash) := pageSession B (nandMedium 0) f []

/-- What is known after a turn.  The child waits for the part; the formatter leaves it
when its last command is sent. -/
def next (b : Between) : Stay → Between
  | child B calls =>
    ⟨(run (served B (pageArray (nandMedium 0)).logged id) (world B b.flash) calls).dev.dev, true⟩
  | parent command => ⟨command.apply b.flash, false⟩
  | pause => ⟨b.flash, true⟩

/-- What the turn shows, over the pages. -/
def seen (b : Between) : Stay → List Seen
  | child B calls =>
    [⟨.fin, observe (served B (pageArray (nandMedium 0)).logged id)
      (answers B (pageArray (nandMedium 0)).logged id) (world B b.flash) calls, .nothing⟩]
  | parent command => [⟨command.exit b.flash, [], command.shown b.flash⟩]
  | pause => []

/-- The calls address pages of the part; the formatter finds the part at rest, and its
command fits. -/
def Fits (b : Between) : Stay → Prop
  | child _ calls => ∀ x ∈ calls, x.OnPart
  | parent command => b.rested = true ∧ command.Fits b.flash
  | pause => True

end Stay

section lives

variable {R : StartParams} (hid : R.id.take 3 = w25n01gvId)
include hid

end lives

section log

variable (B : Build) {b : Between} (hf : ∀ block < blockCount, b.flash.Blank block)
variable {ops : List Op}
include hf

end log

/-- **Invariant rule for clients**: what no driver call of theirs breaks, a run of
calls keeps. -/
theorem client_keeps {M : Medium} {ok : DeviceCall → Prop}
    (hok : ∀ c : DeviceCall, c.OfFlush → ok c) (hscan : Scans ok) {I : Flash → Prop}
    (hkeep : ∀ f c, I f → ok c → I ((pageArray M).after f c)) {f : Flash} (hf : I f) (B : Build)
    {cs : List ClientCall} (hcs : ∀ x ∈ cs, x.Asks B ok) :
    I (run (served B (pageArray M).logged id) (pageSession B M f []) cs).dev.dev := by
  have hself : (pageArray M).Simulates (pageArray M) (fun g f => g = f ∧ I f) ok := by
    refine ⟨fun g f c hR hc => ?_⟩
    obtain ⟨rfl, hI⟩ := hR
    exact ⟨rfl, rfl, hkeep g c hI hc⟩
  have hcreate : ∀ g f : Flash, g = f ∧ I f → id g = f ∧ I f := fun _ _ hR => hR
  exact (client_simulates (B := B) hself hok hcreate hscan ⟨rfl, hf⟩ hcs).2.dev.2

/-! ### a part that passes `check` -/

/-- What is written starts with the magic. -/
def DeviceCall.Headed : DeviceCall → Prop
  | .write _ _ buffer => buffer.length ≤ pageSize ∧ leNat (slice buffer 0 4) = magic
  | _ => True

section passes

/-- An erased page passes the check. -/
theorem checked_blank : checked Page.blank.bytes = true := by
  have hblank := ChipPage.main_blank
  rw [← hblank, checked_main, checked, formatted_blank, Bool.or_true]

/-- Where the front of a page is erased or shows the magic, it shows the magic after
a program that starts with it. -/
theorem checked_program {old : Page} (h : checked old.bytes = true) {data : List UInt8}
    (hlen : data.length ≤ pageSize) (hmagic : leNat (slice data 0 4) = magic) :
    checked ((nandMedium 0).program old data).bytes = true := by
  have hfour : 0 + 4 ≤ data.length := by
    by_contra hshort
    have hlt := leNat_lt (slice data 0 4)
    rw [hmagic, length_slice] at hlt
    have hpow : 256 ^ min 4 (data.length - 0) ≤ 256 ^ 3 :=
      Nat.pow_le_pow_right (by decide) (by omega)
    exact absurd (Nat.lt_of_lt_of_le hlt hpow) (by decide)
  have himage : leNat (slice (Page.image data 0).bytes 0 4) = magic := by
    rw [Page.image_bytes hlen, slice_append_left hfour, hmagic]
  have hand : leNat (slice ((nandMedium 0).program old data).bytes 0 4) =
      leNat (slice old.bytes 0 4) &&& magic := by
    have hprogram : ((nandMedium 0).program old data).bytes =
        andBytes old.bytes (Page.image data 0).bytes := rfl
    rw [hprogram, slice_andBytes, leNat_andBytes, himage]
    rw [length_slice, length_slice, old.size, (Page.image data 0).size]
  have hshows : leNat (slice ((nandMedium 0).program old data).bytes 0 4) = magic := by
    rw [hand]
    rw [checked, Bool.or_eq_true] at h
    cases h with
    | inl h =>
        rw [beq_iff_eq.1 h, Nat.and_self]
    | inr h =>
        have hones : slice old.bytes 0 4 = List.replicate 4 0xFF := by
          rw [List.eq_replicate_iff, length_slice, old.size]
          refine ⟨rfl, fun x hx => ?_⟩
          have hfront : x ∈ old.bytes.take 16 := (List.take_subset_take_left _ (by decide)) hx
          exact beq_iff_eq.1 (List.all_eq_true.1 h x hfront)
        rw [hones]
        rfl
  rw [checked, hshows, beq_self_eq_true, Bool.true_or]

variable {f : Flash} (h : f.Passes)
include h

/-- A program that starts with a magic leaves a part that passes the check so. -/
theorem Flash.Passes.setPage {data : List UInt8} (hlen : data.length ≤ pageSize)
    (hmagic : leNat (slice data 0 4) = magic) (block page : Nat) :
    (f.setPage block page ((nandMedium 0).program (f block page) data)).Passes := by
  intro b hb p hp
  by_cases hself : b = block ∧ p = page
  · obtain ⟨rfl, rfl⟩ := hself
    rw [Flash.setPage_same]
    exact checked_program (h b hb p hp) hlen hmagic
  · rw [Flash.setPage_ne _ _ hself]
    exact h b hb p hp

/-- Erases leave a part that passes the check so. -/
theorem Flash.Passes.wipe (blocks : List Nat) : (f.wipe blocks).Passes := by
  intro b hb p hp
  rw [Flash.wipe]
  split
  · exact checked_blank
  · exact h b hb p hp

/-- Programs of several pages that start with a magic leave a part that passes the check so. -/
theorem Flash.Passes.stamp {data : List UInt8} (hlen : data.length ≤ pageSize)
    (hmagic : leNat (slice data 0 4) = magic) (pages : List (Nat × Nat)) :
    (f.stamp pages data).Passes := by
  intro b hb p hp
  rw [Flash.stamp]
  split
  · exact checked_program (h b hb p hp) hlen hmagic
  · exact h b hb p hp

/-- No driver call of a client keeps a part from passing `check`. -/
theorem Flash.Passes.after {c : DeviceCall} (hc : c.Headed) :
    ((pageArray (nandMedium 0)).after f c).Passes := by
  cases c with
  | read block page bufferlen => exact h
  | write block page buffer => exact h.setPage hc.1 hc.2 block page
  | erase block =>
      have hwipe : f.eraseBlock block = f.wipe [block] := by
        funext b p
        rw [Flash.eraseBlock, Flash.wipe]
        simp only [List.mem_singleton]
      have hafter : (pageArray (nandMedium 0)).after f (.erase block) = f.wipe [block] := hwipe
      rw [hafter]
      exact h.wipe [block]

/-- No command keeps a part from passing `check`. -/
theorem Flash.Passes.apply {command : Command} (hfits : command.Fits f) :
    (command.apply f).Passes := by
  cases command with
  | read blockS blockE pageS pageE => exact h
  | erase blockS blockE => exact h.wipe _
  | format => exact h.wipe _
  | check => exact h
  | config string =>
      rw [Command.apply, formatConfig]
      cases haccept : acceptsConfig string with
      | false => exact h
      | true =>
          have hcmd := configCmd_of_le (hfits haccept)
          rw [if_pos rfl, hcmd, List.append_assoc, Option.map_some, Option.getD_some]
          refine h.setPage ?_ ?_ 0 0
          · rw [List.length_take]
            exact Nat.min_le_left _ _
          · rw [slice_take (by decide), Compress.slice_magic]
            exact leNat_leBytes_of_lt (show magic < 256 ^ 4 by decide)
  | write blockS blockE pageS pageE =>
      refine h.stamp (Nat.le_of_eq length_testPage) ?_ _
      rw [testPage, slice_take (by decide), testPattern, List.append_assoc, List.append_assoc,
        slice, List.drop_zero, take_append_of_length (length_leBytes _ _)]
      exact leNat_leBytes_of_lt (show magic < 256 ^ 4 by decide)
  | csv blockS blockE pageS pageE => exact h
  | search epochS epochE => exact h

end passes

/-- The call leaves the configuration page alone. -/
def DeviceCall.SparesConfig : DeviceCall → Prop
  | .write block page _ => ¬ (block = 0 ∧ page = 0)
  | .erase block => block ≠ 0
  | .read _ _ _ => True

/-- The client is not told to write to the configuration page or to erase its block. -/
def ClientCall.SparesConfig : ClientCall → Prop
  | .op (.erase block) => block ≠ 0
  | .write _ _ _ _ block page => ¬ (block = 0 ∧ page = 0)
  | _ => True

/-- Neither is the formatter. -/
def Command.SparesConfig : Command → Prop
  | erase blockS blockE => 0 ∉ (blocksFrom blockS.toNat blockE.toNat).map (· % blockCount)
  | write blockS blockE pageS pageE =>
    (0, 0) ∉ taken blockS blockE pageS pageE
  | format | config _ => False
  | read _ _ _ _ | check | csv _ _ _ _ | search _ _ => True

/-- No program is, in the turn. -/
def Stay.SparesConfig : Stay → Prop
  | child _ calls => ∀ x ∈ calls, x.SparesConfig
  | parent command => command.SparesConfig
  | pause => True

/-- What a flush asks of the device spares the page of the configuration. -/
theorem DeviceCall.OfFlush.sparesConfig {c : DeviceCall} (h : c.OfFlush) :
    c.SparesConfig := by
  cases h with
  | program hb hp hlo hhi hmagic =>
      exact fun hzero => absurd hb.1 (by simp [hzero.1, blockStartDataArea])
  | erase hb => exact fun hzero => absurd hb.1 (by simp [hzero, blockStartDataArea])

/-- A call that spares the page of the configuration asks for nothing that does not. -/
theorem ClientCall.SparesConfig.asks {c : ClientCall} (h : c.SparesConfig) (B : Build) :
    c.Asks B DeviceCall.SparesConfig := by
  cases c with
  | op o =>
      cases o with
      | erase block => exact h
      | remount => exact fun _ _ => trivial
      | _ => trivial
  | write wbf layer buffer bufferlen block page => exact fun _ _ => h
  | read layer bufferlen block page => trivial
  | timerange layer ranges timerangecount => exact fun _ x _ => trivial

/-- A turn that spares it keeps it. -/
theorem Stay.SparesConfig.next {stay : Stay} (h : stay.SparesConfig) (b : Between) :
    (stay.next b).flash 0 0 = b.flash 0 0 := by
  cases stay with
  | child B calls =>
      refine client_keeps (fun _ => DeviceCall.OfFlush.sparesConfig) (fun _ _ => trivial)
        (I := fun g => g 0 0 = b.flash 0 0) (fun g c hg hc => ?_) rfl B
        fun x hx => (h x hx).asks B
      cases c with
      | read block page bufferlen => exact hg
      | write block page buffer =>
          exact (Flash.setPage_ne g _ fun hself => hc ⟨hself.1.symm, hself.2.symm⟩).trans hg
      | erase block => exact (Flash.eraseBlock_ne g (Ne.symm hc)).trans hg
  | parent command =>
      cases command with
      | erase blockS blockE => exact if_neg fun hin => h hin.1
      | write blockS blockE pageS pageE => exact if_neg h
      | format => exact h.elim
      | config string => exact h.elim
      | _ => rfl
  | pause => rfl

/-- The calls of a turn, when its mount is a remount. -/
def Stay.calls : Stay → List ClientCall
  | child _ calls => .op .remount :: calls
  | parent _ | pause => []

section session

variable (B : Build) (M : Medium)

variable {B}

end session

end Mxfs
