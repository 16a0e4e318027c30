import Mxfs.Bus
import Mxfs.Registers

/-!
# Mxfs.Polled

The parent's polled operations (`write.cc`, `erase.cc`, `read.cc`).  A call looks
at status register 3 once, sends one command at most, and keeps in the caller's
status byte which command is next; the loop around the calls is the caller's.

* `Stage` — a command and the status byte it stands under; an operation is a
  list of stages (`Operation.Follows`), whatever the part answers;
* `parentWrite_follows`, `parentErase_follows`, `parentReadPage_follows` — the
  three operations go through their stages.
-/

namespace Mxfs

open Lib Instruction

/-! ## write and erase -/

/-- `WRITE_NO_DONE`. -/
def writeNoDone : Int := 0

/-- `WRITE_DONE`. -/
def writeDone : Int := 1

/-- `WRITE_EXCEPTION`. -/
def writeException : Int := -1

/-- `ERASE_NO_DONE`. -/
def eraseNoDone : Int := 0

/-- `ERASE_DONE`. -/
def eraseDone : Int := 1

/-- `WRITE_DISABLE`, a status here and never sent. -/
def writeDisable : UInt8 := 0x04

/-- What the caller of a write or an erase keeps between two calls, and the device. -/
structure Polled (σ : Type) where
  status : UInt8
  dev : σ

section parent

variable {σ : Type} (S : Spi σ) (block page : Nat) (wbf : List UInt8)

/-- `write_block_page`. -/
def writeBlockPage (p : Polled σ) : Int × Polled σ :=
  let (flgStatus, s) := S.readRegister statusRegister3Addr p.dev
  if flgStatus &&& statusRegister3Busy ≠ 0 then (writeNoDone, { p with dev := s })
  else if p.status = deviceReset then
    -- un protect
    (writeNoDone,
      ⟨writeEnable.code, S.send s [writeStatusRegisterL.code, statusRegister1Addr, 0]⟩)
  else if p.status = writeEnable.code then
    (writeNoDone, ⟨writeDisable, S.send s [writeEnable.code]⟩)
  else if p.status = writeDisable then
    if flgStatus &&& statusRegister3Wel ≠ 0 then
      -- program load
      if 2112 - 3 < wbf.length then (writeException, { p with dev := s })
      else
        (writeNoDone,
          ⟨randomPgDataLoad.code, S.send s (randomPgDataLoad.code :: 0 :: 0 :: wbf)⟩)
    else (writeNoDone, { p with dev := s })
  else if p.status = randomPgDataLoad.code then
    (writeNoDone, ⟨pgExecute.code, S.send s [writeEnable.code]⟩)
  else if p.status = pgExecute.code then
    if flgStatus &&& statusRegister3Wel ≠ 0 then
      -- program execute
      (writeDone, ⟨deviceReset, S.send s (pgExecute.code :: pageAddress block page)⟩)
    else (writeNoDone, { p with dev := s })
  else (writeNoDone, { p with dev := s })

/-- `erase_block`.  It reads all three registers and uses the third. -/
def eraseBlock (p : Polled σ) : Int × Polled σ :=
  let (_, s) := S.readRegister statusRegister1Addr p.dev
  let (_, s) := S.readRegister statusRegister2Addr s
  let (flgStatus, s) := S.readRegister statusRegister3Addr s
  if flgStatus &&& statusRegister3Busy ≠ 0 then (eraseNoDone, { p with dev := s })
  else if p.status = deviceReset then
    -- un protect
    (eraseNoDone,
      ⟨writeEnable.code, S.send s [writeStatusRegisterL.code, statusRegister1Addr, 0]⟩)
  else if p.status = writeEnable.code then
    (eraseNoDone, ⟨blockErase.code, S.send s [writeEnable.code]⟩)
  else if p.status = blockErase.code then
    if flgStatus &&& statusRegister3Wel ≠ 0 then
      (eraseDone, ⟨deviceReset, S.send s (blockErase.code :: blockAddress block)⟩)
    else (eraseNoDone, { p with dev := s })
  else (eraseNoDone, { p with dev := s })

end parent

/-! ## operations in stages -/

/-- The status shows the part ready. -/
def Ready (flg : UInt8) : Prop := flg &&& statusRegister3Busy = 0

/-- The status shows the write enable latch set. -/
def Enabled (flg : UInt8) : Prop := flg &&& statusRegister3Wel ≠ 0

/-- The commands that are to wait for the write enable latch. -/
def BusRequest.NeedsEnable (r : BusRequest) : Prop :=
  r.tx.head? = some randomPgDataLoad.code ∨ r.tx.head? = some pgExecute.code ∨
    r.tx.head? = some blockErase.code

/-- A command, and the status byte it is next under. -/
structure Stage where
  status : UInt8
  command : BusRequest

/-- The command may be sent when the status shows `flg`. -/
def Stage.Admits (x : Stage) (flg : UInt8) : Prop :=
  Ready flg ∧ (x.command.NeedsEnable → Enabled flg)

/-- The stages still to come under a status. -/
def left (stages : List Stage) (status : UInt8) : List Stage :=
  stages.dropWhile fun x => x.status != status

/-- A polled operation as its caller sees it: what a call returns and leaves, the
code that ends the loop, and the caller's status byte and device in the state. -/
structure Operation (σ ℓ : Type) where
  call : ℓ → Int × ℓ
  done : Int
  status : ℓ → UInt8
  dev : ℓ → σ

namespace Operation

variable {σ ℓ : Type} (o : Operation σ ℓ) (stages : List Stage)

/-- What a call that saw `flg` did, from `p` to `p'`: the next command was not
admitted and it waits, or it sent it and goes on to the stage behind it, or it
sent the last command and is done. -/
inductive Took (p p' : ℓ) (ret : Int) (flg : UInt8) (sent : List BusRequest) : Prop
  | waits (hstage : ∀ x, (left stages (o.status p)).head? = some x → ¬ x.Admits flg)
      (hsent : sent = []) (hret : ret ≠ o.done) (hstatus : o.status p' = o.status p)
  | sends (x y : Stage) (rest : List Stage) (hstage : left stages (o.status p) = x :: y :: rest)
      (hadmits : x.Admits flg) (hsent : sent = [x.command]) (hret : ret ≠ o.done)
      (hstatus : left stages (o.status p') = y :: rest)
  | ends (x : Stage) (hstage : left stages (o.status p) = [x]) (hadmits : x.Admits flg)
      (hsent : sent = [x.command]) (hret : ret = o.done) (hstatus : o.status p' = deviceReset)

/-- The call looks at status register 3 once, among other status reads, and goes
on as the stages tell. -/
def FollowsAt (S : Spi σ) (p : ℓ) : Prop :=
  ∃ before behind : List BusRequest,
    (∀ r ∈ before, r.isPoll = false) ∧ (∀ r ∈ behind, r.isPoll = false) ∧
    before.filter BusRequest.isCommand = [] ∧
    o.dev (o.call p).2 =
      S.perform (o.dev p) (before ++ statusRead statusRegister3Addr :: behind) ∧
    o.Took stages p (o.call p).2 (o.call p).1
      (S.readRegister statusRegister3Addr (S.perform (o.dev p) before)).1
      (behind.filter BusRequest.isCommand)

/-- Every call does, under any status byte and whatever the part answers. -/
def Follows (S : Spi σ) : Prop := ∀ p, o.FollowsAt stages S p

end Operation

section parent

variable {σ : Type} (S : Spi σ) (block page : Nat)

/-- A write, to the caller. -/
def parentWrite (wbf : List UInt8) : Operation σ (Polled σ) where
  call := writeBlockPage S block page wbf
  done := writeDone
  status := Polled.status
  dev := Polled.dev

/-- An erase, to the caller. -/
def parentErase : Operation σ (Polled σ) where
  call := eraseBlock S block
  done := eraseDone
  status := Polled.status
  dev := Polled.dev

/-- A read, to the caller. -/
def parentReadPage (rbflen : Nat) : Operation σ (PageRead σ) where
  call := readByBlockPage S block page rbflen
  done := readWithData
  status := PageRead.status
  dev := PageRead.dev

end parent

/-! ### the commands of the three -/

namespace BusRequest

def unprotect : BusRequest := ⟨[writeStatusRegisterL.code, statusRegister1Addr, 0], 0⟩

def enable : BusRequest := ⟨[writeEnable.code], 0⟩

def programLoad (buffer : List UInt8) : BusRequest :=
  ⟨randomPgDataLoad.code :: 0 :: 0 :: buffer, 0⟩

def programExecute (block page : Nat) : BusRequest :=
  ⟨pgExecute.code :: pageAddress block page, 0⟩

def erase (block : Nat) : BusRequest := ⟨blockErase.code :: blockAddress block, 0⟩

/-- The read mode, made of what status register 1 shows. -/
def readMode (flgProtected : UInt8) : BusRequest :=
  ⟨[writeStatusRegisterL.code, statusRegister2Addr,
    (flgProtected &&& ~~~statusRegister2EccE) ||| statusRegister2Buf], 0⟩

def loadPage (block page : Nat) : BusRequest := ⟨pgDataRead.code :: pageAddress block page, 0⟩

def readData (rbflen : Nat) : BusRequest := ⟨[read.code, 0, 0, 0], rbflen⟩

end BusRequest

open BusRequest in
def writeStages (block page : Nat) (wbf : List UInt8) : List Stage :=
  [⟨deviceReset, unprotect⟩, ⟨writeEnable.code, enable⟩, ⟨writeDisable, programLoad wbf⟩,
    ⟨randomPgDataLoad.code, enable⟩, ⟨pgExecute.code, programExecute block page⟩]

open BusRequest in
def eraseStages (block : Nat) : List Stage :=
  [⟨deviceReset, unprotect⟩, ⟨writeEnable.code, enable⟩, ⟨blockErase.code, erase block⟩]

open BusRequest in
def readStages (flgProtected : UInt8) (block page rbflen : Nat) : List Stage :=
  [⟨deviceReset, readMode flgProtected⟩, ⟨pgDataRead.code, loadPage block page⟩,
    ⟨read.code, readData rbflen⟩]

section at_

variable {σ ℓ : Type} {S : Spi σ} {o : Operation σ ℓ} {stages : List Stage} {p p' : ℓ} {ret : Int}

/-- The status reads of a call, its look apart. -/
def StatusReads (rs : List BusRequest) : Prop := ∀ r ∈ rs, r.isPoll = false ∧ r.isCommand = false

instance (rs : List BusRequest) : Decidable (StatusReads rs) :=
  inferInstanceAs (Decidable (∀ r ∈ rs, _))

/-- A command is no status read. -/
theorem BusRequest.isPoll_of_isCommand {r : BusRequest} (h : r.isCommand = true) :
    r.isPoll = false := by
  rw [isPoll, beq_eq_false_iff_ne]
  rintro rfl
  simp [isCommand, statusRead] at h

/-- Among status reads there is no command. -/
theorem StatusReads.filter {rs : List BusRequest} (h : StatusReads rs) :
    rs.filter BusRequest.isCommand = [] := by
  rw [List.filter_eq_nil_iff]
  intro r hr
  simp [(h r hr).2]

/-- A call that waits. -/
theorem Operation.followsAt_waits (before : List BusRequest) (hcall : o.call p = (ret, p'))
    (hbefore : StatusReads before)
    (hdev : o.dev p' = S.perform (o.dev p) (before ++ [statusRead statusRegister3Addr]))
    (hstage : ∀ x, (left stages (o.status p)).head? = some x →
      ¬ x.Admits (S.readRegister statusRegister3Addr (S.perform (o.dev p) before)).1)
    (hret : ret ≠ o.done) (hstatus : o.status p' = o.status p) : o.FollowsAt stages S p := by
  refine ⟨before, [], fun r hr => (hbefore r hr).1, by simp, hbefore.filter, ?_, ?_⟩
  · rw [hcall, hdev]
  · rw [hcall]
    exact .waits hstage rfl hret hstatus

/-- The part is busy. -/
theorem Operation.followsAt_busy (before : List BusRequest) (hcall : o.call p = (ret, p'))
    (hbefore : StatusReads before)
    (hdev : o.dev p' = S.perform (o.dev p) (before ++ [statusRead statusRegister3Addr]))
    (hbusy : ¬ Ready (S.readRegister statusRegister3Addr (S.perform (o.dev p) before)).1)
    (hret : ret ≠ o.done) (hstatus : o.status p' = o.status p) : o.FollowsAt stages S p :=
  Operation.followsAt_waits before hcall hbefore hdev (fun _ _ hadmits => hbusy hadmits.1) hret
    hstatus

/-- The next command needs the write enable latch, and it is not set. -/
theorem Operation.followsAt_disabled (before : List BusRequest) {x : Stage} {rest : List Stage}
    (hcall : o.call p = (ret, p')) (hbefore : StatusReads before)
    (hdev : o.dev p' = S.perform (o.dev p) (before ++ [statusRead statusRegister3Addr]))
    (hstage : left stages (o.status p) = x :: rest) (hneeds : x.command.NeedsEnable)
    (hwel : ¬ Enabled (S.readRegister statusRegister3Addr (S.perform (o.dev p) before)).1)
    (hret : ret ≠ o.done) (hstatus : o.status p' = o.status p) : o.FollowsAt stages S p := by
  refine Operation.followsAt_waits before hcall hbefore hdev ?_ hret hstatus
  intro y hy hadmits
  obtain rfl : x = y := by simpa [hstage] using hy
  exact hwel (hadmits.2 hneeds)

/-- No stage stands under the status byte. -/
theorem Operation.followsAt_unknown (before : List BusRequest) (hcall : o.call p = (ret, p'))
    (hbefore : StatusReads before)
    (hdev : o.dev p' = S.perform (o.dev p) (before ++ [statusRead statusRegister3Addr]))
    (hnone : left stages (o.status p) = []) (hret : ret ≠ o.done)
    (hstatus : o.status p' = o.status p) : o.FollowsAt stages S p :=
  Operation.followsAt_waits before hcall hbefore hdev (by simp [hnone]) hret hstatus

/-- A call that sends `command`, after the reads `between`. -/
theorem Operation.followsAt_sent (before between : List BusRequest) {command : BusRequest}
    (hcall : o.call p = (ret, p')) (hbefore : StatusReads before) (hbetween : StatusReads between)
    (hcommand : command.isCommand = true)
    (hdev : o.dev p' = S.perform (o.dev p)
      (before ++ statusRead statusRegister3Addr :: (between ++ [command])))
    (htook : o.Took stages p p' ret
      (S.readRegister statusRegister3Addr (S.perform (o.dev p) before)).1 [command]) :
    o.FollowsAt stages S p := by
  refine ⟨before, between ++ [command], fun r hr => (hbefore r hr).1, ?_, hbefore.filter, ?_, ?_⟩
  · intro r hr
    rcases List.mem_append.1 hr with h | h
    · exact (hbetween r h).1
    · obtain rfl : r = command := by simpa using h
      exact BusRequest.isPoll_of_isCommand hcommand
  · rw [hcall, hdev]
  · rw [hcall, List.filter_append, hbetween.filter]
    simpa [hcommand] using htook

end at_

theorem statusReads_nil : StatusReads [] := by simp [StatusReads]

/-- The instructions that need the write enable latch. -/
theorem BusRequest.needsEnable_iff (i : Instruction) (operands : List UInt8) (rxlen : Nat) :
    (BusRequest.mk (i.code :: operands) rxlen).NeedsEnable ↔
      i = randomPgDataLoad ∨ i = pgExecute ∨ i = blockErase := by
  cases i <;> simp [NeedsEnable, code]

/-- A stage that needs no write enable admits every ready part. -/
theorem Stage.admits_of_ready {status flg : UInt8} {i : Instruction} (hready : Ready flg)
    (hi : ¬ (i = randomPgDataLoad ∨ i = pgExecute ∨ i = blockErase)) (operands : List UInt8)
    (rxlen : Nat) : (Stage.mk status ⟨i.code :: operands, rxlen⟩).Admits flg :=
  ⟨hready, fun h => absurd ((BusRequest.needsEnable_iff i operands rxlen).1 h) hi⟩

/-! ### the write in its stages -/

section write

variable {σ : Type} (S : Spi σ) (block page : Nat) {wbf : List UInt8} {s : σ}

theorem writeNoDone_ne : writeNoDone ≠ writeDone := by decide

/-- While the part is busy the write only looks at its status. -/
theorem writeBlockPage_busy {p : Polled σ}
    (h : ¬ Ready (S.readRegister statusRegister3Addr p.dev).1) :
    (parentWrite S block page wbf).FollowsAt (writeStages block page wbf) S p := by
  have hcall : writeBlockPage S block page wbf p =
      (writeNoDone, ⟨p.status, (S.readRegister statusRegister3Addr p.dev).2⟩) := if_pos h
  exact Operation.followsAt_busy [] hcall statusReads_nil rfl h writeNoDone_ne rfl

section ready

variable (h : Ready (S.readRegister statusRegister3Addr s).1)
include h

/-- The first command of a write unlocks the part. -/
theorem writeBlockPage_deviceReset :
    (parentWrite S block page wbf).FollowsAt (writeStages block page wbf) S ⟨deviceReset, s⟩ := by
  have hcall : writeBlockPage S block page wbf ⟨deviceReset, s⟩ =
      (writeNoDone, ⟨writeEnable.code, S.send (S.readRegister statusRegister3Addr s).2
        [writeStatusRegisterL.code, statusRegister1Addr, 0]⟩) := by
    rw [Ready] at h
    simp [writeBlockPage, h]
  exact Operation.followsAt_sent [] [] hcall statusReads_nil statusReads_nil rfl rfl
    (.sends _ _ _ rfl (Stage.admits_of_ready h (by decide) _ _) rfl writeNoDone_ne rfl)

/-- The unlocked part is sent a write enable. -/
theorem writeBlockPage_writeEnable :
    (parentWrite S block page wbf).FollowsAt (writeStages block page wbf) S
      ⟨writeEnable.code, s⟩ := by
  have hcall : writeBlockPage S block page wbf ⟨writeEnable.code, s⟩ =
      (writeNoDone, ⟨writeDisable,
        S.send (S.readRegister statusRegister3Addr s).2 [writeEnable.code]⟩) := by
    rw [Ready] at h
    simp [writeBlockPage, h, deviceReset, code]
  exact Operation.followsAt_sent [] [] hcall statusReads_nil statusReads_nil rfl rfl
    (.sends _ _ _ rfl (Stage.admits_of_ready h (by decide) _ _) rfl writeNoDone_ne rfl)

/-- With the write enabled, the data are loaded. -/
theorem writeBlockPage_writeDisable (hlen : wbf.length ≤ 2109) :
    (parentWrite S block page wbf).FollowsAt (writeStages block page wbf) S ⟨writeDisable, s⟩ := by
  have hfits : ¬ 2112 - 3 < wbf.length := by omega
  have hready := h
  rw [Ready] at h
  by_cases hwel : Enabled (S.readRegister statusRegister3Addr s).1
  · have hcall : writeBlockPage S block page wbf ⟨writeDisable, s⟩ =
        (writeNoDone, ⟨randomPgDataLoad.code, S.send (S.readRegister statusRegister3Addr s).2
          (randomPgDataLoad.code :: 0 :: 0 :: wbf)⟩) := by
      rw [Enabled] at hwel
      simp [writeBlockPage, h, hwel, hlen, deviceReset, writeDisable, code]
    exact Operation.followsAt_sent [] [] hcall statusReads_nil statusReads_nil rfl rfl
      (.sends _ _ _ rfl ⟨hready, fun _ => hwel⟩ rfl writeNoDone_ne rfl)
  · have hcall : writeBlockPage S block page wbf ⟨writeDisable, s⟩ =
        (writeNoDone, ⟨writeDisable, (S.readRegister statusRegister3Addr s).2⟩) := by
      rw [Enabled, not_not] at hwel
      simp [writeBlockPage, h, hwel, deviceReset, writeDisable, code]
    exact Operation.followsAt_disabled [] hcall statusReads_nil rfl rfl (.inl rfl) hwel
      writeNoDone_ne rfl

/-- After the load comes a write enable again. -/
theorem writeBlockPage_randomPgDataLoad :
    (parentWrite S block page wbf).FollowsAt (writeStages block page wbf) S
      ⟨randomPgDataLoad.code, s⟩ := by
  have hcall : writeBlockPage S block page wbf ⟨randomPgDataLoad.code, s⟩ =
      (writeNoDone, ⟨pgExecute.code,
        S.send (S.readRegister statusRegister3Addr s).2 [writeEnable.code]⟩) := by
    rw [Ready] at h
    simp [writeBlockPage, h, deviceReset, writeDisable, code]
  exact Operation.followsAt_sent [] [] hcall statusReads_nil statusReads_nil rfl rfl
    (.sends _ _ _ rfl (Stage.admits_of_ready h (by decide) _ _) rfl writeNoDone_ne rfl)

/-- The last command of a write programs the page. -/
theorem writeBlockPage_pgExecute :
    (parentWrite S block page wbf).FollowsAt (writeStages block page wbf) S
      ⟨pgExecute.code, s⟩ := by
  have hready := h
  rw [Ready] at h
  by_cases hwel : Enabled (S.readRegister statusRegister3Addr s).1
  · have hcall : writeBlockPage S block page wbf ⟨pgExecute.code, s⟩ =
        (writeDone, ⟨deviceReset, S.send (S.readRegister statusRegister3Addr s).2
          (pgExecute.code :: pageAddress block page)⟩) := by
      rw [Enabled] at hwel
      simp [writeBlockPage, h, hwel, deviceReset, writeDisable, code]
    exact Operation.followsAt_sent [] [] hcall statusReads_nil statusReads_nil rfl rfl
      (.ends _ rfl ⟨hready, fun _ => hwel⟩ rfl rfl rfl)
  · have hcall : writeBlockPage S block page wbf ⟨pgExecute.code, s⟩ =
        (writeNoDone, ⟨pgExecute.code, (S.readRegister statusRegister3Addr s).2⟩) := by
      rw [Enabled, not_not] at hwel
      simp [writeBlockPage, h, hwel, deviceReset, writeDisable, code]
    exact Operation.followsAt_disabled [] hcall statusReads_nil rfl rfl (.inr (.inl rfl)) hwel
      writeNoDone_ne rfl

end ready

/-- **A write goes through its stages.** -/
theorem parentWrite_follows (hlen : wbf.length ≤ 2109) :
    (parentWrite S block page wbf).Follows (writeStages block page wbf) S := by
  intro p
  obtain ⟨status, s⟩ := p
  by_cases h : Ready (S.readRegister statusRegister3Addr s).1
  · by_cases h0 : status = deviceReset
    · exact h0 ▸ writeBlockPage_deviceReset S block page h
    by_cases h1 : status = writeEnable.code
    · exact h1 ▸ writeBlockPage_writeEnable S block page h
    by_cases h2 : status = writeDisable
    · exact h2 ▸ writeBlockPage_writeDisable S block page h hlen
    by_cases h3 : status = randomPgDataLoad.code
    · exact h3 ▸ writeBlockPage_randomPgDataLoad S block page h
    by_cases h4 : status = pgExecute.code
    · exact h4 ▸ writeBlockPage_pgExecute S block page h
    -- no stage stands under another status byte
    have hcall : writeBlockPage S block page wbf ⟨status, s⟩ =
        (writeNoDone, ⟨status, (S.readRegister statusRegister3Addr s).2⟩) := by
      rw [Ready] at h
      simp [writeBlockPage, h, h0, h1, h2, h3, h4]
    have hleft : left (writeStages block page wbf) status = [] := by
      simp [left, writeStages, Ne.symm h0, Ne.symm h1, Ne.symm h2, Ne.symm h3, Ne.symm h4]
    exact Operation.followsAt_unknown [] hcall statusReads_nil rfl hleft writeNoDone_ne rfl
  · exact writeBlockPage_busy S block page h

end write

/-! ### the erase in its stages -/

section erase

variable {σ : Type} (S : Spi σ) (block : Nat) {s : σ}

theorem eraseNoDone_ne : eraseNoDone ≠ eraseDone := by decide

/-- The reads of an erase before its look. -/
def eraseReads : List BusRequest := [statusRead statusRegister1Addr, statusRead statusRegister2Addr]

theorem statusReads_erase : StatusReads eraseReads := by decide

/-- While the part is busy the erase only looks at its status. -/
theorem eraseBlock_busy {p : Polled σ}
    (h : ¬ Ready (S.readRegister statusRegister3Addr (S.perform p.dev eraseReads)).1) :
    (parentErase S block).FollowsAt (eraseStages block) S p := by
  have hcall : eraseBlock S block p = (eraseNoDone,
      ⟨p.status, (S.readRegister statusRegister3Addr (S.perform p.dev eraseReads)).2⟩) := if_pos h
  exact Operation.followsAt_busy eraseReads hcall statusReads_erase rfl h eraseNoDone_ne rfl

section ready

variable (h : Ready (S.readRegister statusRegister3Addr (S.perform s eraseReads)).1)
include h

/-- The first command of an erase unlocks the part. -/
theorem eraseBlock_deviceReset :
    (parentErase S block).FollowsAt (eraseStages block) S ⟨deviceReset, s⟩ := by
  have hcall : eraseBlock S block ⟨deviceReset, s⟩ = (eraseNoDone, ⟨writeEnable.code,
      S.send (S.readRegister statusRegister3Addr (S.perform s eraseReads)).2
        [writeStatusRegisterL.code, statusRegister1Addr, 0]⟩) :=
    (if_neg (not_not.2 h)).trans (if_pos rfl)
  exact Operation.followsAt_sent eraseReads [] hcall statusReads_erase statusReads_nil rfl rfl
    (.sends _ _ _ rfl (Stage.admits_of_ready h (by decide) _ _) rfl eraseNoDone_ne rfl)

/-- The unlocked part is sent a write enable before the erase. -/
theorem eraseBlock_writeEnable :
    (parentErase S block).FollowsAt (eraseStages block) S ⟨writeEnable.code, s⟩ := by
  have hcall : eraseBlock S block ⟨writeEnable.code, s⟩ = (eraseNoDone, ⟨blockErase.code,
      S.send (S.readRegister statusRegister3Addr (S.perform s eraseReads)).2
        [writeEnable.code]⟩) :=
    (if_neg (not_not.2 h)).trans
      ((if_neg (show writeEnable.code ≠ deviceReset by decide)).trans (if_pos rfl))
  exact Operation.followsAt_sent eraseReads [] hcall statusReads_erase statusReads_nil rfl rfl
    (.sends _ _ _ rfl (Stage.admits_of_ready h (by decide) _ _) rfl eraseNoDone_ne rfl)

/-- The last command of an erase erases the block. -/
theorem eraseBlock_blockErase :
    (parentErase S block).FollowsAt (eraseStages block) S ⟨blockErase.code, s⟩ := by
  have hbranch : eraseBlock S block ⟨blockErase.code, s⟩ =
      if (S.readRegister statusRegister3Addr (S.perform s eraseReads)).1 &&&
          statusRegister3Wel ≠ 0 then
        (eraseDone, ⟨deviceReset,
          S.send (S.readRegister statusRegister3Addr (S.perform s eraseReads)).2
            (blockErase.code :: blockAddress block)⟩)
      else (eraseNoDone, ⟨blockErase.code,
        (S.readRegister statusRegister3Addr (S.perform s eraseReads)).2⟩) :=
    (if_neg (not_not.2 h)).trans
      ((if_neg (show blockErase.code ≠ deviceReset by decide)).trans
        ((if_neg (show blockErase.code ≠ writeEnable.code by decide)).trans (if_pos rfl)))
  by_cases hwel : Enabled (S.readRegister statusRegister3Addr (S.perform s eraseReads)).1
  · exact Operation.followsAt_sent eraseReads [] (hbranch.trans (if_pos hwel)) statusReads_erase
      statusReads_nil rfl rfl (.ends _ rfl ⟨h, fun _ => hwel⟩ rfl rfl rfl)
  · exact Operation.followsAt_disabled eraseReads (hbranch.trans (if_neg hwel)) statusReads_erase
      rfl rfl (.inr (.inr rfl)) hwel eraseNoDone_ne rfl

end ready

/-- **An erase goes through its stages.** -/
theorem parentErase_follows : (parentErase S block).Follows (eraseStages block) S := by
  intro p
  obtain ⟨status, s⟩ := p
  by_cases h : Ready (S.readRegister statusRegister3Addr (S.perform s eraseReads)).1
  · by_cases h0 : status = deviceReset
    · exact h0 ▸ eraseBlock_deviceReset S block h
    by_cases h1 : status = writeEnable.code
    · exact h1 ▸ eraseBlock_writeEnable S block h
    by_cases h2 : status = blockErase.code
    · exact h2 ▸ eraseBlock_blockErase S block h
    have hcall : eraseBlock S block ⟨status, s⟩ = (eraseNoDone,
        ⟨status, (S.readRegister statusRegister3Addr (S.perform s eraseReads)).2⟩) :=
      (if_neg (not_not.2 h)).trans
        ((if_neg h0).trans ((if_neg h1).trans (if_neg h2)))
    have hleft : left (eraseStages block) status = [] := by
      simp [left, eraseStages, Ne.symm h0, Ne.symm h1, Ne.symm h2]
    exact Operation.followsAt_unknown eraseReads hcall statusReads_erase rfl hleft eraseNoDone_ne
      rfl
  · exact eraseBlock_busy S block h

end erase

/-! ### the read in its stages -/

section read

variable {σ : Type} (S : Spi σ) (block page rbflen : Nat) {flgProtected : UInt8}

theorem readNoData_ne : readNoData ≠ readWithData := by decide

/-- **A read goes through its stages**, on a part that shows `flgProtected` in
status register 1. -/
theorem parentReadPage_follows
    (hprotected : ∀ s, (S.readRegister statusRegister1Addr s).1 = flgProtected) :
    (parentReadPage S block page rbflen).Follows (readStages flgProtected block page rbflen) S := by
  intro p
  obtain ⟨status, rbf, s⟩ := p
  by_cases h : Ready (S.readRegister statusRegister3Addr s).1
  · by_cases h0 : status = deviceReset
    · subst h0
      have hcall : readByBlockPage S block page rbflen ⟨deviceReset, rbf, s⟩ =
          (readNoData, ⟨pgDataRead.code, rbf, S.send
            (S.readRegister statusRegister1Addr (S.readRegister statusRegister3Addr s).2).2
            (BusRequest.readMode flgProtected).tx⟩) := by
        rw [BusRequest.readMode, ← hprotected (S.readRegister statusRegister3Addr s).2]
        exact (if_neg (not_not.2 h)).trans (if_pos rfl)
      exact Operation.followsAt_sent [] [statusRead statusRegister1Addr] hcall statusReads_nil
        (by decide) rfl rfl
        (.sends _ _ _ rfl (Stage.admits_of_ready h (by decide) _ _) rfl readNoData_ne rfl)
    by_cases h1 : status = pgDataRead.code
    · subst h1
      have hcall : readByBlockPage S block page rbflen ⟨pgDataRead.code, rbf, s⟩ =
          (readNoData, ⟨read.code, rbf, S.send (S.readRegister statusRegister3Addr s).2
            (pgDataRead.code :: pageAddress block page)⟩) :=
        (if_neg (not_not.2 h)).trans ((if_neg h0).trans (if_pos rfl))
      exact Operation.followsAt_sent [] [] hcall statusReads_nil statusReads_nil rfl rfl
        (.sends _ _ _ rfl (Stage.admits_of_ready h (by decide) _ _) rfl readNoData_ne rfl)
    by_cases h2 : status = read.code
    · subst h2
      have hcall : readByBlockPage S block page rbflen ⟨read.code, rbf, s⟩ =
          (readWithData, ⟨deviceReset,
            (S.transfer (S.readRegister statusRegister3Addr s).2 [read.code, 0, 0, 0] rbflen).1,
            (S.transfer (S.readRegister statusRegister3Addr s).2 [read.code, 0, 0, 0]
              rbflen).2⟩) :=
        (if_neg (not_not.2 h)).trans ((if_neg h0).trans ((if_neg h1).trans (if_pos rfl)))
      exact Operation.followsAt_sent [] [] hcall statusReads_nil statusReads_nil rfl rfl
        (.ends _ rfl (Stage.admits_of_ready h (by decide) _ _) rfl rfl rfl)
    have hcall : readByBlockPage S block page rbflen ⟨status, rbf, s⟩ =
        (readNoData, ⟨status, rbf, (S.readRegister statusRegister3Addr s).2⟩) :=
      (if_neg (not_not.2 h)).trans
        ((if_neg h0).trans ((if_neg h1).trans (if_neg h2)))
    have hleft : left (readStages flgProtected block page rbflen) status = [] := by
      simp [left, readStages, Ne.symm h0, Ne.symm h1, Ne.symm h2]
    exact Operation.followsAt_unknown [] hcall statusReads_nil rfl hleft readNoData_ne rfl
  · have hcall : readByBlockPage S block page rbflen ⟨status, rbf, s⟩ =
        (readNoData, ⟨status, rbf, (S.readRegister statusRegister3Addr s).2⟩) := if_pos h
    exact Operation.followsAt_busy [] hcall statusReads_nil rfl h readNoData_ne rfl

end read

end Mxfs
