import Mxfs.Polled

/-!
# Mxfs.Blocking

The parent's loops of polled calls against the child's blocking driver, by the
commands they put on the bus (`polled_as_blocking`).  The status register may
show anything: the parts of the two sides are arbitrary and need not be alike.
That both sides end is another matter, and is said of a part whose looks are
scripted (`scripted`), as long as it is ready again and again.
-/

namespace Mxfs

open Lib Instruction

/-! ## what a loop of calls sends -/

/-- Between the two records lies one look, and one command at most; none if the
look showed the part busy, and none that needs the write enable latch unless it
showed it set. -/
def Gated (ts ts' : List Transaction) : Prop :=
  ∃ new flg, ts' = ts ++ new ∧ pollsOf new = [flg] ∧ (commands new).length ≤ 1 ∧
    ∀ r ∈ commands new, Ready flg ∧ (r.NeedsEnable → Enabled flg)

/-- Called from `p` until it is done the operation sends `cmds` and leaves
`DEVICE_RESET`; and every call, under any status byte, is gated by its look. -/
def Operation.Sends {σ ℓ : Type} (o : Operation (Recorded σ) ℓ) (p : ℓ) (cmds : List BusRequest) :
    Prop :=
  (∀ fuel q, poll o.call (· == o.done) fuel p = some q →
    commands (o.dev q).transactions = commands (o.dev p).transactions ++ cmds ∧
      o.status q = deviceReset) ∧
  ∀ q, Gated (o.dev q).transactions (o.dev (o.call q).2).transactions

section operation

variable {σ ℓ : Type} {S : Spi σ} {o : Operation (Recorded σ) ℓ} {stages : List Stage}

/-- **One call** adds to the commands what it took. -/
theorem Operation.Follows.call (h : o.Follows stages S.recorded) (p : ℓ) :
    ∃ new flg, (o.dev (o.call p).2).transactions = (o.dev p).transactions ++ new ∧
      pollsOf new = [flg] ∧ o.Took stages p (o.call p).2 (o.call p).1 flg (commands new) := by
  obtain ⟨before, behind, hbefore, hbehind, hnone, hdev, htook⟩ := h p
  obtain ⟨new, htransactions, hpolls, hcommands⟩ := perform_poll S (o.dev p) hbefore hbehind
  rw [hnone, List.nil_append] at hcommands
  rw [← hcommands] at htook
  exact ⟨new, _, by rw [hdev, htransactions], hpolls, htook⟩

/-- A call of an operation that follows its stages sends at most one command, behind
status reads that found the part ready. -/
theorem Operation.Follows.gated (h : o.Follows stages S.recorded) (p : ℓ) :
    Gated (o.dev p).transactions (o.dev (o.call p).2).transactions := by
  obtain ⟨new, flg, htransactions, hpolls, htook⟩ := h.call p
  refine ⟨new, flg, htransactions, hpolls, ?_⟩
  cases htook with
  | waits _ hsent => simp [hsent]
  | sends x y rest _ hadmits hsent => simpa [hsent, Stage.Admits] using hadmits
  | ends x _ hadmits hsent => simpa [hsent, Stage.Admits] using hadmits

/-- **A loop of calls** sends the commands of the stages to come. -/
theorem Operation.Follows.loop (h : o.Follows stages S.recorded) {fuel : Nat} {p q : ℓ}
    (hleft : left stages (o.status p) ≠ [])
    (hloop : poll o.call (· == o.done) fuel p = some q) :
    commands (o.dev q).transactions = commands (o.dev p).transactions ++
        (left stages (o.status p)).map Stage.command ∧
      o.status q = deviceReset := by
  have hconserved := poll_conserves
    (f := fun p => (commands (o.dev p).transactions ++
      (left stages (o.status p)).map Stage.command, deviceReset))
    (g := fun q => (commands (o.dev q).transactions, o.status q))
    (I := fun p => left stages (o.status p) ≠ []) ?_ ?_ hleft hloop
  · exact Prod.mk.inj hconserved
  · intro p hp hret
    obtain ⟨new, flg, htransactions, -, htook⟩ := h.call p
    rw [htransactions, commands_append]
    cases htook with
    | waits _ hsent _ hstatus => simpa [hsent, hstatus] using hp
    | sends x y rest hstage _ hsent _ hstatus => simp [hsent, hstatus, hstage]
    | ends x _ _ _ hdone => simp [hdone] at hret
  · intro p hp hret
    obtain ⟨new, flg, htransactions, -, htook⟩ := h.call p
    rw [htransactions, commands_append]
    cases htook with
    | waits _ _ hwait => exact absurd (by simpa using hret) hwait
    | sends x y rest _ _ _ hgoes => exact absurd (by simpa using hret) hgoes
    | ends x hstage _ hsent _ hstatus => simp [hsent, hstatus, hstage]

/-- The calls of an operation that follows its stages send the commands of the stages left. -/
theorem Operation.Follows.sends (h : o.Follows stages S.recorded) {p : ℓ}
    (hleft : left stages (o.status p) ≠ []) :
    o.Sends p ((left stages (o.status p)).map Stage.command) :=
  ⟨fun _ _ hloop => h.loop hleft hloop, h.gated⟩

end operation

/-! ## what the blocking driver sends -/

/-- The commands of a write. -/
def writeCommands (block page : Nat) (buffer : List UInt8) : List BusRequest :=
  [.unprotect, .enable, .programLoad buffer, .enable, .programExecute block page]

/-- The commands of an erase. -/
def eraseCommands (block : Nat) : List BusRequest := [.unprotect, .enable, .erase block]

/-- The commands of a read, when status register 1 shows `flgProtected`. -/
def readCommands (flgProtected : UInt8) (block page bufferlen : Nat) : List BusRequest :=
  [.readMode flgProtected, .loadPage block page, .readData bufferlen]

section blocking

variable {τ : Type} (T : Spi τ) {t t' : Recorded τ} {block page : Nat} {ret : Int}

/-- A command that is sent is recorded behind the others. -/
theorem commands_send (t : Recorded τ) (tx : List UInt8)
    (h : (BusRequest.mk tx 0).isCommand = true) :
    commands (T.recorded.send t tx).transactions = commands t.transactions ++ [⟨tx, 0⟩] :=
  commands_transfer T t tx 0 h

/-- The wait for the part sends no command. -/
theorem commands_waitReady (h : T.recorded.waitReady t = some t') :
    commands t'.transactions = commands t.transactions := commands_poll T h

/-- The wait for the write enable latch sends no command. -/
theorem commands_waitWriteEnabled (h : T.recorded.waitWriteEnabled t = some t') :
    commands t'.transactions = commands t.transactions := commands_poll T h

/-- A blocking write sends the commands of a write. -/
theorem commands_bcm2711Write {buffer : List UInt8} (hlen : buffer.length ≤ 2109)
    (h : bcm2711Write T.recorded t block page buffer = some (ret, t')) :
    commands t'.transactions = commands t.transactions ++ writeCommands block page buffer := by
  have hfits : ¬ 2112 - 3 < buffer.length := by omega
  simp only [bcm2711Write, Option.bind_eq_bind, Option.bind_eq_some_iff, if_neg hfits,
    Option.pure_def, Option.some.injEq, Prod.mk.injEq] at h
  obtain ⟨t1, h1, t2, h2, t3, h3, t4, h4, -, rfl⟩ := h
  rw [commands_send T _ _ rfl, commands_waitWriteEnabled T h4, commands_send T _ _ rfl,
    commands_send T _ _ rfl, commands_waitWriteEnabled T h3, commands_send T _ _ rfl,
    commands_waitReady T h2, commands_send T _ _ rfl, commands_waitReady T h1]
  simp only [List.append_assoc]
  rfl

/-- A blocking erase sends the commands of an erase. -/
theorem commands_bcm2711Erase (h : bcm2711Erase T.recorded t block = some (ret, t')) :
    commands t'.transactions = commands t.transactions ++ eraseCommands block := by
  simp only [bcm2711Erase, Option.bind_eq_bind, Option.bind_eq_some_iff, Option.pure_def,
    Option.some.injEq, Prod.mk.injEq] at h
  obtain ⟨t1, h1, t2, h2, t3, h3, -, rfl⟩ := h
  rw [commands_send T _ _ rfl, commands_waitWriteEnabled T h3, commands_send T _ _ rfl,
    commands_waitReady T h2, commands_send T _ _ rfl, commands_waitReady T h1]
  simp only [List.append_assoc]
  rfl

/-- A blocking read sends the commands of a read, with the configuration it makes of the
protection register. -/
theorem commands_bcm2711Read {flgProtected : UInt8} {bufferlen : Nat} {out : List UInt8}
    (hprotected : ∀ t, (T.readRegister statusRegister1Addr t).1 = flgProtected)
    (h : bcm2711Read T.recorded t block page bufferlen = some (ret, out, t')) :
    commands t'.transactions =
      commands t.transactions ++ readCommands flgProtected block page bufferlen := by
  simp only [bcm2711Read, Option.bind_eq_bind, Option.bind_eq_some_iff, Option.pure_def,
    Option.some.injEq, Prod.mk.injEq] at h
  obtain ⟨t1, h1, t2, h2, t3, h3, -, -, rfl⟩ := h
  have hshown : (T.recorded.readRegister statusRegister1Addr t1).1 = flgProtected :=
    hprotected t1.dev
  rw [hshown] at h2
  rw [commands_transfer T _ _ _ rfl, commands_waitReady T h3, commands_send T _ _ rfl,
    commands_waitReady T h2, commands_send T _ _ rfl, commands_readRegister,
    commands_waitReady T h1]
  simp only [List.append_assoc]
  rfl

end blocking

/-! ## parts whose looks are scripted -/

/-- A part that shows `polls k` at the `k`-th look and `flgProtected` in status
register 1.  The state counts the looks; a wait gives up after `patience` looks. -/
def scripted (polls : Nat → UInt8) (flgProtected : UInt8) (patience : Nat) : Spi Nat where
  transfer n tx rxlen :=
    if BusRequest.isPoll ⟨tx, rxlen⟩ then ([polls n], n + 1)
    else if BusRequest.mk tx rxlen = statusRead statusRegister1Addr then ([flgProtected], n)
    else (List.replicate rxlen 0, n)
  patience _ := patience

/-- The looks satisfy `p` again and again. -/
def Recurs (polls : Nat → UInt8) (p : UInt8 → Prop) : Prop := ∀ n, ∃ m, n ≤ m ∧ p (polls m)

/-- Where the stronger condition comes up again and again, so does the weaker. -/
theorem Recurs.mono {polls : Nat → UInt8} {p q : UInt8 → Prop} (h : Recurs polls p)
    (hpq : ∀ flg, p flg → q flg) : Recurs polls q := by
  intro n
  obtain ⟨m, hle, hm⟩ := h n
  exact ⟨m, hle, hpq _ hm⟩

section scripted

variable {polls : Nat → UInt8} {flgProtected : UInt8} {patience : Nat}

/-- The scripted part counts its status reads. -/
theorem perform_scripted (n : Nat) (rs : List BusRequest) :
    (scripted polls flgProtected patience).perform n rs = n + rs.countP BusRequest.isPoll := by
  induction rs generalizing n with
  | nil => rfl
  | cons r rs ih =>
      rw [Spi.perform_cons, ih, List.countP_cons]
      cases hpoll : r.isPoll with
      | true =>
          simp only [scripted, hpoll, if_true]
          omega
      | false =>
          simp only [scripted, hpoll, Bool.false_eq_true, if_false]
          split <;> rfl

/-- A call on a scripted part sees the next look. -/
theorem Operation.Follows.scripted_call {ℓ : Type} {o : Operation (Recorded Nat) ℓ}
    {stages : List Stage} (h : o.Follows stages (scripted polls flgProtected patience).recorded)
    (p : ℓ) :
    (o.dev (o.call p).2).dev = (o.dev p).dev + 1 ∧
      ∃ sent, o.Took stages p (o.call p).2 (o.call p).1 (polls (o.dev p).dev) sent := by
  obtain ⟨before, behind, hbefore, hbehind, -, hdev, htook⟩ := h p
  have hnone : ∀ rs : List BusRequest, (∀ r ∈ rs, r.isPoll = false) →
      rs.countP BusRequest.isPoll = 0 := by
    intro rs hrs
    rw [List.countP_eq_zero]
    intro r hr
    simp [hrs r hr]
  obtain ⟨-, -, -, hlooked⟩ := perform_recorded (scripted polls flgProtected patience) (o.dev p)
    before
  obtain ⟨-, -, -, hall⟩ := perform_recorded (scripted polls flgProtected patience) (o.dev p)
    (before ++ statusRead statusRegister3Addr :: behind)
  rw [perform_scripted, hnone before hbefore, Nat.add_zero] at hlooked
  rw [perform_scripted, List.countP_append, List.countP_cons, hnone before hbefore,
    hnone behind hbehind] at hall
  have hflg : ((scripted polls flgProtected patience).recorded.readRegister statusRegister3Addr
      ((scripted polls flgProtected patience).recorded.perform (o.dev p) before)).1 =
        polls (o.dev p).dev := by
    rw [← hlooked]
    rfl
  rw [hflg] at htook
  refine ⟨?_, _, htook⟩
  rw [hdev, hall]
  rfl

/-- **A loop of calls ends** on a part whose looks admit every command again and again. -/
theorem Operation.Follows.ends {ℓ : Type} {o : Operation (Recorded Nat) ℓ} {stages : List Stage}
    (h : o.Follows stages (scripted polls flgProtected patience).recorded)
    (hadmits : ∀ x ∈ stages, Recurs polls x.Admits) (p : ℓ)
    (hleft : left stages (o.status p) ≠ []) :
    ∃ fuel q, poll o.call (· == o.done) fuel p = some q := by
  -- on the stages to come, and for each on how far its look is away
  obtain ⟨n, hn⟩ : ∃ n, (left stages (o.status p)).length = n := ⟨_, rfl⟩
  induction n generalizing p with
  | zero => exact absurd (List.length_eq_zero_iff.1 hn) hleft
  | succ n ihn =>
      obtain ⟨x, rest, hx⟩ := List.exists_cons_of_ne_nil hleft
      have hmem : x ∈ stages := by
        refine List.dropWhile_subset (fun x => x.status != o.status p) ?_
        show x ∈ left stages (o.status p)
        simp [hx]
      obtain ⟨m, hle, hm⟩ := hadmits x hmem (o.dev p).dev
      obtain ⟨d, rfl⟩ : ∃ d, m = (o.dev p).dev + d := ⟨m - (o.dev p).dev, by omega⟩
      clear hle
      induction d using Nat.strongRecOn generalizing p with
      | ind d ihd =>
          obtain ⟨hdev, sent, htook⟩ := h.scripted_call p
          cases htook with
          | waits hstage _ hret hstatus =>
              have hpos : d ≠ 0 := by
                rintro rfl
                exact hstage x (by rw [hx]; rfl) hm
              have hnext : (o.dev p).dev + 1 + (d - 1) = (o.dev p).dev + d := by omega
              obtain ⟨fuel, q, hq⟩ := ihd (d - 1) (by omega) (o.call p).2 (hstatus ▸ hleft)
                (hstatus ▸ hn) (hstatus ▸ hx) (by rwa [hdev, hnext])
              exact ⟨fuel + 1, q, by simp [poll, hret, hq]⟩
          | sends y z tail hstage _ _ hret hstatus =>
              rw [hstage] at hn
              obtain ⟨fuel, q, hq⟩ := ihn (o.call p).2 (by simp [hstatus])
                (by rw [hstatus]; simpa using hn)
              exact ⟨fuel + 1, q, by simp [poll, hret, hq]⟩
          | ends y _ _ _ hret => exact ⟨1, (o.call p).2, by simp [poll, hret]⟩

/-! ### the waits of the driver -/

/-- The recorded part, the same for every patience but in how long it waits. -/
theorem readRegister_scripted (patience : Nat) :
    (scripted polls flgProtected patience).recorded.readRegister =
      (scripted polls flgProtected 0).recorded.readRegister := rfl

/-- What a send does to a scripted part does not depend on the patience. -/
theorem send_scripted (patience : Nat) :
    (scripted polls flgProtected patience).recorded.send =
      (scripted polls flgProtected 0).recorded.send := rfl

/-- **A wait ends** that waits for what recurs. -/
theorem poll_scripted {done : UInt8 → Bool} (h : Recurs polls fun flg => done flg = true)
    (t : Recorded Nat) :
    ∃ enough t', ∀ fuel, enough ≤ fuel →
      poll ((scripted polls flgProtected 0).recorded.readRegister statusRegister3Addr) done fuel t =
        some t' := by
  obtain ⟨m, hle, hm⟩ := h t.dev
  obtain ⟨d, rfl⟩ : ∃ d, m = t.dev + d := ⟨m - t.dev, by omega⟩
  clear hle
  have hends : ∃ t', poll ((scripted polls flgProtected 0).recorded.readRegister
      statusRegister3Addr) done (d + 1) t = some t' := by
    induction d generalizing t with
    | zero => exact ⟨_, if_pos hm⟩
    | succ d ih =>
        cases hd : done (polls t.dev) with
        | true =>
            exact ⟨_, if_pos hd⟩
        | false =>
            obtain ⟨t', ht'⟩ := ih ((scripted polls flgProtected 0).recorded.readRegister
              statusRegister3Addr t).2 (by
                show done (polls (t.dev + 1 + d)) = true
                rwa [Nat.add_assoc, Nat.add_comm 1 d])
            refine ⟨t', ?_⟩
            rw [poll, if_neg (by
              show ¬ done (polls t.dev) = true
              simp [hd])]
            exact ht'
  obtain ⟨t', ht'⟩ := hends
  exact ⟨d + 1, t', fun fuel hfuel => poll_mono ht' hfuel⟩

section waits

variable (flgProtected)

/-- The wait ends with enough patience if the part is ready again and again. -/
theorem waitReady_scripted (h : Recurs polls Ready) (t : Recorded Nat) :
    ∃ enough t', ∀ patience, enough ≤ patience →
      (scripted polls flgProtected patience).recorded.waitReady t = some t' :=
  poll_scripted (h.mono fun flg hflg => by simpa [Ready] using hflg) t

/-- The wait for the latch ends with enough patience if it is found set again and again. -/
theorem waitWriteEnabled_scripted (h : Recurs polls fun flg => Ready flg ∧ Enabled flg)
    (t : Recorded Nat) :
    ∃ enough t', ∀ patience, enough ≤ patience →
      (scripted polls flgProtected patience).recorded.waitWriteEnabled t = some t' :=
  poll_scripted (h.mono fun flg hflg => by simpa [Ready, Enabled] using hflg) t

/-- **The driver's calls end**, with all the patience they need. -/
theorem bcm2711Write_scripted (h : Recurs polls fun flg => Ready flg ∧ Enabled flg)
    {buffer : List UInt8} (hlen : buffer.length ≤ 2109) (block page : Nat) (t : Recorded Nat) :
    ∃ enough t', ∀ patience, enough ≤ patience →
      bcm2711Write (scripted polls flgProtected patience).recorded t block page buffer =
        some (OK, t') := by
  have hready : Recurs polls Ready := h.mono fun _ hflg => hflg.1
  have hfits : ¬ 2112 - 3 < buffer.length := by omega
  let send := (scripted polls flgProtected 0).recorded.send
  obtain ⟨n1, t1, h1⟩ := waitReady_scripted flgProtected hready t
  obtain ⟨n2, t2, h2⟩ := waitReady_scripted flgProtected hready
    (send t1 [writeStatusRegisterL.code, statusRegister1Addr, 0])
  obtain ⟨n3, t3, h3⟩ := waitWriteEnabled_scripted flgProtected h (send t2 [writeEnable.code])
  obtain ⟨n4, t4, h4⟩ := waitWriteEnabled_scripted flgProtected h
    (send (send t3 (randomPgDataLoad.code :: 0 :: 0 :: buffer)) [writeEnable.code])
  refine ⟨n1 + n2 + n3 + n4, send t4 (pgExecute.code :: pageAddress block page),
    fun patience hpatience => ?_⟩
  simp only [bcm2711Write, Option.bind_eq_bind, if_neg hfits, send_scripted patience]
  rw [h1 patience (by omega), Option.bind_some, h2 patience (by omega), Option.bind_some,
    h3 patience (by omega), Option.bind_some, h4 patience (by omega)]
  rfl

/-- **The driver's erase** ends with enough patience. -/
theorem bcm2711Erase_scripted (h : Recurs polls fun flg => Ready flg ∧ Enabled flg) (block : Nat)
    (t : Recorded Nat) :
    ∃ enough t', ∀ patience, enough ≤ patience →
      bcm2711Erase (scripted polls flgProtected patience).recorded t block = some (OK, t') := by
  have hready : Recurs polls Ready := h.mono fun _ hflg => hflg.1
  let send := (scripted polls flgProtected 0).recorded.send
  obtain ⟨n1, t1, h1⟩ := waitReady_scripted flgProtected hready t
  obtain ⟨n2, t2, h2⟩ := waitReady_scripted flgProtected hready
    (send t1 [writeStatusRegisterL.code, statusRegister1Addr, 0])
  obtain ⟨n3, t3, h3⟩ := waitWriteEnabled_scripted flgProtected h (send t2 [writeEnable.code])
  refine ⟨n1 + n2 + n3, send t3 (blockErase.code :: blockAddress block),
    fun patience hpatience => ?_⟩
  simp only [bcm2711Erase, Option.bind_eq_bind, send_scripted patience]
  rw [h1 patience (by omega), Option.bind_some, h2 patience (by omega), Option.bind_some,
    h3 patience (by omega)]
  rfl

/-- **The driver's read** ends with enough patience. -/
theorem bcm2711Read_scripted (h : Recurs polls Ready) (block page bufferlen : Nat)
    (t : Recorded Nat) :
    ∃ enough out t', ∀ patience, enough ≤ patience →
      bcm2711Read (scripted polls flgProtected patience).recorded t block page bufferlen =
        some (OK, out, t') := by
  let S := (scripted polls flgProtected 0).recorded
  obtain ⟨n1, t1, h1⟩ := waitReady_scripted flgProtected h t
  obtain ⟨n2, t2, h2⟩ := waitReady_scripted flgProtected h
    (S.send (S.readRegister statusRegister1Addr t1).2 [writeStatusRegisterL.code,
      statusRegister2Addr, ((S.readRegister statusRegister1Addr t1).1 &&& ~~~statusRegister2EccE) |||
        statusRegister2Buf])
  obtain ⟨n3, t3, h3⟩ := waitReady_scripted flgProtected h
    (S.send t2 (pgDataRead.code :: pageAddress block page))
  refine ⟨n1 + n2 + n3, (S.transfer t3 [read.code, 0, 0, 0] bufferlen).1,
    (S.transfer t3 [read.code, 0, 0, 0] bufferlen).2, fun patience hpatience => ?_⟩
  simp only [bcm2711Read, Option.bind_eq_bind, send_scripted patience,
    readRegister_scripted patience]
  rw [h1 patience (by omega), Option.bind_some, h2 patience (by omega), Option.bind_some,
    h3 patience (by omega)]
  rfl

end waits

end scripted

/-! ## the correspondence -/

section ends

variable {ℓ β : Type} (o : Spi (Recorded Nat) → Operation (Recorded Nat) ℓ) (p : ℓ)
variable (blocking : Spi (Recorded Nat) → Option β) (polls : Nat → UInt8)

/-- On a part that shows `polls` the loop of calls from `p` and the blocking call
both end, whatever status register 1 shows. -/
def BothEnd : Prop :=
  ∀ flgProtected, ∃ enough, ∀ patience, enough ≤ patience →
    (poll (o (scripted polls flgProtected patience).recorded).call
      (· == (o (scripted polls flgProtected patience).recorded).done) patience p).isSome ∧
    (blocking (scripted polls flgProtected patience).recorded).isSome

variable {o p blocking polls}

/-- Both versions of an operation end if the polled loop does and the blocking call has
patience enough. -/
theorem bothEnd_of
    (hsame : ∀ flgProtected patience, o (scripted polls flgProtected patience).recorded =
      o (scripted polls flgProtected 0).recorded)
    (hloop : ∀ flgProtected, ∃ fuel q, poll (o (scripted polls flgProtected 0).recorded).call
      (· == (o (scripted polls flgProtected 0).recorded).done) fuel p = some q)
    (hblocking : ∀ flgProtected, ∃ enough r, ∀ patience, enough ≤ patience →
      blocking (scripted polls flgProtected patience).recorded = some r) :
    BothEnd o p blocking polls := by
  intro flgProtected
  obtain ⟨fuel, q, hq⟩ := hloop flgProtected
  obtain ⟨enough, r, hr⟩ := hblocking flgProtected
  refine ⟨fuel + enough, fun patience hpatience => ⟨?_, ?_⟩⟩
  · rw [hsame, poll_mono hq (by omega)]
    rfl
  · rw [hr patience (by omega)]
    rfl

end ends

/-- A command needs no more than that the part is ready and enabled. -/
theorem recurs_admits {polls : Nat → UInt8} (h : Recurs polls fun flg => Ready flg ∧ Enabled flg)
    (x : Stage) : Recurs polls x.Admits :=
  h.mono fun _ hflg => ⟨hflg.1, fun _ => hflg.2⟩

/-- The commands of a read need only that it is ready. -/
theorem readStages_admits {polls : Nat → UInt8} (h : Recurs polls Ready) (flgProtected : UInt8)
    (block page rbflen : Nat) :
    ∀ x ∈ readStages flgProtected block page rbflen, Recurs polls x.Admits := by
  intro x hx
  simp only [readStages, List.mem_cons, List.not_mem_nil, or_false] at hx
  rcases hx with rfl | rfl | rfl
  all_goals exact h.mono fun flg hflg => Stage.admits_of_ready hflg (by decide) _ _

/-- **The parent's polled operations send what the child's driver does**: a write, an
erase and a read, called from `DEVICE_RESET` until they are done, put on the bus
the commands of the blocking call, once each and in its order, every call gated by
its one look; and both sides end where the looks let every command pass again and
again. -/
theorem polled_as_blocking {σ τ : Type} (S : Spi σ) (T : Spi τ) (s : σ) (t : τ)
    (block page : Nat) :
    (∀ wbf : List UInt8, wbf.length ≤ 2109 →
      (parentWrite S.recorded block page wbf).Sends ⟨deviceReset, ⟨s, []⟩⟩
        (writeCommands block page wbf) ∧
      (∀ ret t', bcm2711Write T.recorded ⟨t, []⟩ block page wbf = some (ret, t') →
        commands t'.transactions = writeCommands block page wbf) ∧
      ∀ polls, (Recurs polls fun flg => Ready flg ∧ Enabled flg) →
        BothEnd (fun S => parentWrite S block page wbf) ⟨deviceReset, ⟨0, []⟩⟩
          (fun S => bcm2711Write S ⟨0, []⟩ block page wbf) polls) ∧
    ((parentErase S.recorded block).Sends ⟨deviceReset, ⟨s, []⟩⟩ (eraseCommands block) ∧
      (∀ ret t', bcm2711Erase T.recorded ⟨t, []⟩ block = some (ret, t') →
        commands t'.transactions = eraseCommands block) ∧
      ∀ polls, (Recurs polls fun flg => Ready flg ∧ Enabled flg) →
        BothEnd (fun S => parentErase S block) ⟨deviceReset, ⟨0, []⟩⟩
          (fun S => bcm2711Erase S ⟨0, []⟩ block) polls) ∧
    ∀ (flgProtected : UInt8) (rbf : List UInt8) (rbflen : Nat),
      (∀ s, (S.readRegister statusRegister1Addr s).1 = flgProtected) →
      (∀ t, (T.readRegister statusRegister1Addr t).1 = flgProtected) →
      (parentReadPage S.recorded block page rbflen).Sends ⟨deviceReset, rbf, ⟨s, []⟩⟩
        (readCommands flgProtected block page rbflen) ∧
      (∀ ret out t', bcm2711Read T.recorded ⟨t, []⟩ block page rbflen = some (ret, out, t') →
        commands t'.transactions = readCommands flgProtected block page rbflen) ∧
      ∀ polls, Recurs polls Ready →
        BothEnd (fun S => parentReadPage S block page rbflen) ⟨deviceReset, rbf, ⟨0, []⟩⟩
          (fun S => bcm2711Read S ⟨0, []⟩ block page rbflen) polls := by
  refine ⟨fun wbf hlen => ⟨?_, ?_, ?_⟩, ⟨?_, ?_, ?_⟩,
    fun flgProtected rbf rbflen hparent hchild => ⟨?_, ?_, ?_⟩⟩
  -- the write
  · exact (parentWrite_follows S.recorded block page hlen).sends (List.cons_ne_nil _ _)
  · intro ret t' hwrite
    exact commands_bcm2711Write T hlen hwrite
  · intro polls hpolls
    refine bothEnd_of (fun _ _ => rfl) (fun flgProtected => ?_) fun flgProtected => ?_
    · exact (parentWrite_follows _ block page hlen).ends (fun x _ => recurs_admits hpolls x) _
        (List.cons_ne_nil _ _)
    · obtain ⟨enough, t', hends⟩ := bcm2711Write_scripted flgProtected hpolls hlen block page ⟨0, []⟩
      exact ⟨enough, _, hends⟩
  -- the erase
  · exact (parentErase_follows S.recorded block).sends (List.cons_ne_nil _ _)
  · intro ret t' herase
    exact commands_bcm2711Erase T herase
  · intro polls hpolls
    refine bothEnd_of (fun _ _ => rfl) (fun flgProtected => ?_) fun flgProtected => ?_
    · exact (parentErase_follows _ block).ends (fun x _ => recurs_admits hpolls x) _
        (List.cons_ne_nil _ _)
    · obtain ⟨enough, t', hends⟩ := bcm2711Erase_scripted flgProtected hpolls block ⟨0, []⟩
      exact ⟨enough, _, hends⟩
  -- the read
  · exact (parentReadPage_follows S.recorded block page rbflen fun s => hparent s.dev).sends
      (List.cons_ne_nil _ _)
  · intro ret out t' hread
    exact commands_bcm2711Read T hchild hread
  · intro polls hpolls
    refine bothEnd_of (fun _ _ => rfl) (fun flgProtected => ?_) fun flgProtected => ?_
    · exact (parentReadPage_follows _ block page rbflen fun _ => rfl).ends
        (readStages_admits hpolls flgProtected block page rbflen) _ (List.cons_ne_nil _ _)
    · obtain ⟨enough, out, t', hends⟩ :=
        bcm2711Read_scripted flgProtected hpolls block page rbflen ⟨0, []⟩
      exact ⟨enough, _, hends⟩

/-- A part busy at every second look, and enabled at the others. -/
def blinking (n : Nat) : UInt8 := if n % 2 = 0 then statusRegister3Busy else statusRegister3Wel

/-- A part that is ready every other time is so again and again. -/
theorem recurs_blinking : Recurs blinking fun flg => Ready flg ∧ Enabled flg := by
  intro n
  refine ⟨2 * n + 1, by omega, ?_⟩
  have hodd : blinking (2 * n + 1) = statusRegister3Wel := if_neg (by omega)
  rw [hodd]
  exact ⟨rfl, show statusRegister3Wel &&& statusRegister3Wel ≠ 0 by decide⟩

/-- Three bytes written, and a page read of a part that shows `0x7C` in status register 1. -/
theorem polled_as_blocking_blinking :
    (parentWrite (scripted blinking 0x7C 100).recorded 5 9 [1, 2, 3]).Sends
        ⟨deviceReset, ⟨0, []⟩⟩ (writeCommands 5 9 [1, 2, 3]) ∧
      BothEnd (fun S => parentWrite S 5 9 [1, 2, 3]) ⟨deviceReset, ⟨0, []⟩⟩
        (fun S => bcm2711Write S ⟨0, []⟩ 5 9 [1, 2, 3]) blinking ∧
      (parentReadPage (scripted blinking 0x7C 100).recorded 5 9 2048).Sends
        ⟨deviceReset, [], ⟨0, []⟩⟩ (readCommands 0x7C 5 9 2048) := by
  obtain ⟨hwrite, -, hread⟩ := polled_as_blocking (scripted blinking 0x7C 100)
    (scripted blinking 0x7C 100) 0 0 5 9
  obtain ⟨hsends, -, hends⟩ := hwrite [1, 2, 3] (by decide)
  exact ⟨hsends, hends blinking recurs_blinking,
    (hread 0x7C [] 2048 (fun _ => rfl) fun _ => rfl).1⟩

end Mxfs
