import Mxfs.Lib.Run
import Mxfs.Spi

/-!
# Mxfs.Bus

What passes on the bus.  `Spi.recorded` is a device with the record of its
transactions, so that two users of the bus can be compared by what they put on
it.  The reads of status registers are told apart from the commands, and among
them the looks at status register 3 from the others.
-/

namespace Mxfs

open Lib Instruction

/-! ## requests -/

/-- What a transaction asks for: the bytes to send and the number to read. -/
structure BusRequest where
  tx : List UInt8
  rxlen : Nat
  deriving DecidableEq

/-- What `spi_read_registers` asks for. -/
def statusRead (address : UInt8) : BusRequest := ⟨[readStatusRegisterL.code, address], 1⟩

namespace BusRequest

/-- All but the reads of status registers. -/
def isCommand (r : BusRequest) : Bool := r.tx.head? != some readStatusRegisterL.code

/-- A look at status register 3. -/
def isPoll (r : BusRequest) : Bool := r == statusRead statusRegister3Addr

end BusRequest

section perform

variable {σ : Type} (S : Spi σ)

/-- The device after some transactions. -/
def Spi.perform (s : σ) (rs : List BusRequest) : σ :=
  run (fun s r => (S.transfer s r.tx r.rxlen).2) s rs

@[simp] theorem Spi.perform_nil (s : σ) : S.perform s [] = s := rfl

@[simp] theorem Spi.perform_cons (s : σ) (r : BusRequest) (rs : List BusRequest) :
    S.perform s (r :: rs) = S.perform (S.transfer s r.tx r.rxlen).2 rs := rfl

theorem Spi.perform_append (s : σ) (xs ys : List BusRequest) :
    S.perform s (xs ++ ys) = S.perform (S.perform s xs) ys := run_append s xs ys

end perform

/-! ## the record -/

/-- A transaction and the bytes read in it. -/
structure Transaction where
  request : BusRequest
  rx : List UInt8

/-- The commands among the transactions. -/
def commands (ts : List Transaction) : List BusRequest :=
  (ts.map Transaction.request).filter BusRequest.isCommand

/-- What the looks at status register 3 showed. -/
def pollsOf (ts : List Transaction) : List UInt8 :=
  (ts.filter (fun t => t.request.isPoll)).map fun t => t.rx.headD 0

/-- A device with the record of its transactions, oldest first. -/
structure Recorded (σ : Type) where
  dev : σ
  transactions : List Transaction

/-- The device `S`, recording its transactions. -/
def Spi.recorded {σ : Type} (S : Spi σ) : Spi (Recorded σ) where
  transfer s tx rxlen :=
    let r := S.transfer s.dev tx rxlen
    (r.1, ⟨r.2, s.transactions ++ [⟨⟨tx, rxlen⟩, r.1⟩]⟩)
  patience s := S.patience s.dev

@[simp] theorem commands_append (xs ys : List Transaction) :
    commands (xs ++ ys) = commands xs ++ commands ys := by simp [commands]

@[simp] theorem pollsOf_append (xs ys : List Transaction) :
    pollsOf (xs ++ ys) = pollsOf xs ++ pollsOf ys := by simp [pollsOf]

/-- No look is seen where none was asked for. -/
theorem pollsOf_eq_nil {ts : List Transaction} {rs : List BusRequest}
    (hts : ts.map Transaction.request = rs) (h : ∀ r ∈ rs, r.isPoll = false) :
    pollsOf ts = [] := by
  subst hts
  rw [pollsOf, List.map_eq_nil_iff, List.filter_eq_nil_iff]
  intro t ht
  simp [h t.request (List.mem_map_of_mem ht)]

section recorded

variable {σ : Type} (S : Spi σ)

/-- **Transactions are recorded** as they were asked for, and act on the device
as without the record. -/
theorem perform_recorded (s : Recorded σ) (rs : List BusRequest) :
    ∃ new, (S.recorded.perform s rs).transactions = s.transactions ++ new ∧
      new.map Transaction.request = rs ∧
      (S.recorded.perform s rs).dev = S.perform s.dev rs := by
  induction rs generalizing s with
  | nil => exact ⟨[], by simp⟩
  | cons r rs ih =>
      obtain ⟨new, htransactions, hnew, hdev⟩ := ih (S.recorded.transfer s r.tx r.rxlen).2
      refine ⟨⟨r, (S.transfer s.dev r.tx r.rxlen).1⟩ :: new, ?_, ?_, hdev⟩
      · rw [Spi.perform_cons, htransactions]
        simp [Spi.recorded]
      · rw [List.map_cons, hnew]

/-- **One look** among other transactions: it is seen, with what it showed. -/
theorem perform_poll (s : Recorded σ) {before behind : List BusRequest}
    (hbefore : ∀ r ∈ before, r.isPoll = false) (hbehind : ∀ r ∈ behind, r.isPoll = false) :
    ∃ new, (S.recorded.perform s (before ++ statusRead statusRegister3Addr :: behind)).transactions
        = s.transactions ++ new ∧
      pollsOf new = [(S.recorded.readRegister statusRegister3Addr
        (S.recorded.perform s before)).1] ∧
      commands new = before.filter BusRequest.isCommand ++ behind.filter BusRequest.isCommand := by
  obtain ⟨newBefore, htransactions, hrequests, -⟩ := perform_recorded S s before
  let looked := (S.recorded.readRegister statusRegister3Addr (S.recorded.perform s before)).2
  obtain ⟨newBehind, htransactions', hrequests', -⟩ := perform_recorded S looked behind
  let look : Transaction := ⟨statusRead statusRegister3Addr,
    (S.transfer (S.recorded.perform s before).dev [readStatusRegisterL.code, statusRegister3Addr]
      1).1⟩
  have hlooked : looked.transactions = (S.recorded.perform s before).transactions ++ [look] := rfl
  refine ⟨newBefore ++ look :: newBehind, ?_, ?_, ?_⟩
  · rw [Spi.perform_append, Spi.perform_cons]
    show (S.recorded.perform looked behind).transactions = _
    rw [htransactions', hlooked, htransactions]
    simp
  · have hlook : pollsOf [look] = [(S.recorded.readRegister statusRegister3Addr
        (S.recorded.perform s before)).1] := rfl
    rw [pollsOf_append, pollsOf_eq_nil hrequests hbefore, ← List.singleton_append, pollsOf_append,
      pollsOf_eq_nil hrequests' hbehind, hlook]
    rfl
  · have hlook : commands [look] = [] := rfl
    rw [commands_append, ← List.singleton_append, commands_append, hlook, commands, hrequests,
      commands, hrequests']
    rfl

/-- A read of a status register is no command. -/
theorem commands_readRegister (s : Recorded σ) (address : UInt8) :
    commands (S.recorded.readRegister address s).2.transactions = commands s.transactions := by
  show commands (s.transactions ++ [⟨statusRead address, _⟩]) = _
  simp [commands, BusRequest.isCommand, statusRead]

/-- What is sent is a command, unless it reads a status register. -/
theorem commands_transfer (s : Recorded σ) (tx : List UInt8) (rxlen : Nat)
    (h : (BusRequest.mk tx rxlen).isCommand = true) :
    commands (S.recorded.transfer s tx rxlen).2.transactions =
      commands s.transactions ++ [⟨tx, rxlen⟩] := by
  show commands (s.transactions ++ [⟨⟨tx, rxlen⟩, _⟩]) = _
  simp [commands, h]

/-- Waiting sends no command. -/
theorem commands_poll {done : UInt8 → Bool} {fuel : Nat} {s s' : Recorded σ}
    (h : poll (S.recorded.readRegister statusRegister3Addr) done fuel s = some s') :
    commands s'.transactions = commands s.transactions := by
  refine poll_conserves (f := fun s => commands s.transactions)
    (g := fun s => commands s.transactions) (I := fun _ => True) ?_ ?_ trivial h
  · intro s _ _
    exact ⟨trivial, commands_readRegister S s _⟩
  · intro s _ _
    exact commands_readRegister S s _

end recorded

end Mxfs
