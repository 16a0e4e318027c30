import Mathlib.Data.List.Basic

/-!
# Mxfs.Fsm

The two domain state machines, `mxfs_fast` and `mxfs_slow`: the registers, what
an asynchronous reset and a rising clock edge do to them, and where the state
machine stands after any number of edges since the reset was released.

Register assignments are nonblocking, so each new value is computed from the
registers before the edge.  Registers hold `L` or `H`; before the first reset
their contents are arbitrary.
-/

namespace Mxfs

/-! ## registers -/

def statusInit : BitVec 4 := 1#4
def statusReady0 : BitVec 4 := 2#4
def statusReady1 : BitVec 4 := 3#4
def statusValid : BitVec 4 := 4#4

/-- The registers of a domain; `w` is the width of its counter. -/
structure Fsm (w : Nat) where
  internalStatus : BitVec 4
  internalStatusNext : BitVec 4
  inCtrl : Bool
  counter : BitVec w
  outCtrl0Sw : Bool
  outCtrl0 : Bool
  outCtrl1 : Bool
  debugStatusEgress : BitVec 32
  deriving DecidableEq

/-- What the two modules differ in: the threshold of the counter and the layout
of the status output. -/
structure FsmParams (w : Nat) where
  threshold : BitVec w
  egress : Fsm w → BitVec 32

/-- `mxfs_fast`; bits 23:16 and 7:4 of its status output are never assigned. -/
def mxfsFast : FsmParams 8 where
  threshold := 100#8
  egress d := d.internalStatus ++ d.internalStatusNext ++ d.debugStatusEgress.extractLsb' 16 8 ++
    d.counter ++ d.debugStatusEgress.extractLsb' 4 4 ++ 0#4

/-- `mxfs_slow`; bits 23:16 of its status output are never assigned. -/
def mxfsSlow : FsmParams 16 where
  threshold := 200#16
  egress d := d.internalStatus ++ d.internalStatusNext ++ d.debugStatusEgress.extractLsb' 16 8 ++
    d.counter

namespace Fsm

variable {w : Nat} (P : FsmParams w) (d : Fsm w)

/-- The reset branches; the outputs have none. -/
def reset : Fsm w :=
  { d with
    internalStatus := statusInit
    internalStatusNext := statusInit
    counter := 0
    inCtrl := false
    outCtrl0Sw := false }

/-- Count in the status `status`, then go on to the status `after`. -/
def count (status after : BitVec 4) : BitVec 4 × BitVec w :=
  if P.threshold ≤ d.counter then (after, 0) else (status, d.counter + 1)

/-- The `case` on `__internal_status_next`: its next value and the counter's. -/
def advance : BitVec 4 × BitVec w :=
  if d.internalStatusNext = statusInit then d.count P statusInit statusReady0
  else if d.internalStatusNext = statusReady0 then d.count P statusReady0 statusReady1
  else if d.internalStatusNext = statusReady1 then d.count P statusReady1 statusValid
  else if d.internalStatusNext = statusValid then (statusValid, 0)
  else (d.internalStatusNext, d.counter)

/-- The next value of `out_ctrl1`. -/
def nextOutCtrl1 : Bool :=
  if d.internalStatusNext = statusInit then false
  else if d.internalStatusNext = statusReady0 then false
  else if d.internalStatusNext = statusReady1 then true
  else if d.internalStatusNext = statusValid then d.inCtrl
  else d.outCtrl1

/-- The clocked branches. -/
def clocked (inCtrl : Bool) (ingress : BitVec 32) : Fsm w :=
  { d with
    internalStatus := d.internalStatusNext
    internalStatusNext := (d.advance P).1
    counter := (d.advance P).2
    inCtrl := inCtrl
    outCtrl0Sw := ingress.getLsbD 0 }

/-- A rising edge of `dp_clk`.  The outputs are clocked in reset too. -/
def posedge (rstN inCtrl : Bool) (ingress : BitVec 32) : Fsm w :=
  { (if rstN then d.clocked P inCtrl ingress else d.reset) with
    outCtrl0 := d.outCtrl0Sw
    outCtrl1 := d.nextOutCtrl1
    debugStatusEgress := P.egress d }

end Fsm

/-! ## where the state machine stands -/

/-- The status to come, `n` edges after the reset was released. -/
def statusAt (T n : Nat) : BitVec 4 :=
  if n ≤ T then statusInit
  else if n < 2 * (T + 1) then statusReady0
  else if n < 3 * (T + 1) then statusReady1
  else statusValid

/-- The counter, `n` edges after the reset was released. -/
def counterAt (T n : Nat) : Nat :=
  if n ≤ T then n
  else if n < 2 * (T + 1) then n - (T + 1)
  else if n < 3 * (T + 1) then n - 2 * (T + 1)
  else 0

/-- The registers `n` edges after the reset was released. -/
structure Fsm.At {w : Nat} (P : FsmParams w) (n : Nat) (d : Fsm w) : Prop where
  next : d.internalStatusNext = statusAt P.threshold.toNat n
  counter : d.counter.toNat = counterAt P.threshold.toNat n
  status : d.internalStatus = statusAt P.threshold.toNat (n - 1)
  low : 0 < n → n ≤ 2 * (P.threshold.toNat + 1) → d.outCtrl1 = false
  high : 2 * (P.threshold.toNat + 1) < n → n ≤ 3 * (P.threshold.toNat + 1) → d.outCtrl1 = true

theorem statusAt_zero (T : Nat) : statusAt T 0 = statusInit := by simp [statusAt]

section timing

variable {w : Nat} {P : FsmParams w} {d : Fsm w}

theorem Fsm.at_reset : d.reset.At P 0 := by
  constructor <;> simp [Fsm.reset, statusAt_zero, counterAt]

/-- Counting goes on below the threshold and leaves the status at it. -/
theorem Fsm.count_spec {T : Nat} (hT : P.threshold.toNat = T) (h : d.counter.toNat ≤ T)
    (status after : BitVec 4) :
    (d.counter.toNat < T ∧ (d.count P status after).1 = status ∧
        (d.count P status after).2.toNat = d.counter.toNat + 1) ∨
      (d.counter.toNat = T ∧ (d.count P status after).1 = after ∧
        (d.count P status after).2.toNat = 0) := by
  have hbound := P.threshold.isLt
  rcases Nat.lt_or_eq_of_le h with hlt | heq
  · have hbelow : ¬ P.threshold ≤ d.counter := by
      rw [BitVec.le_def]
      omega
    have hmod : (d.counter.toNat + 1) % 2 ^ w = d.counter.toNat + 1 :=
      Nat.mod_eq_of_lt (by omega)
    simp [count, hbelow, hlt, hmod]
  · have hreach : P.threshold ≤ d.counter := by
      rw [BitVec.le_def]
      omega
    simp [count, hreach, heq]

theorem Fsm.advance_init (h : d.internalStatusNext = statusInit) :
    d.advance P = d.count P statusInit statusReady0 := by
  simp [advance, h]

theorem Fsm.advance_ready0 (h : d.internalStatusNext = statusReady0) :
    d.advance P = d.count P statusReady0 statusReady1 := by
  simp [advance, h, statusInit, statusReady0]

theorem Fsm.advance_ready1 (h : d.internalStatusNext = statusReady1) :
    d.advance P = d.count P statusReady1 statusValid := by
  simp [advance, h, statusInit, statusReady0, statusReady1]

theorem Fsm.advance_valid (h : d.internalStatusNext = statusValid) :
    d.advance P = (statusValid, 0) := by
  simp [advance, h, statusInit, statusReady0, statusReady1, statusValid]

/-- **One edge** moves the state machine on by one. -/
theorem Fsm.At.advance {n : Nat} (h : d.At P n) :
    (d.advance P).1 = statusAt P.threshold.toNat (n + 1) ∧
      (d.advance P).2.toNat = counterAt P.threshold.toNat (n + 1) := by
  obtain ⟨T, hT⟩ : ∃ T, P.threshold.toNat = T := ⟨_, rfl⟩
  have hnext := h.next
  have hcounter := h.counter
  rw [hT] at hnext hcounter ⊢
  rcases Nat.lt_or_ge T n with h0 | h0
  · rcases Nat.lt_or_ge n (2 * (T + 1)) with h1 | h1
    · have hc : d.counter.toNat = n - (T + 1) := by grind [counterAt]
      rw [Fsm.advance_ready0 (by grind [statusAt])]
      grind [Fsm.count_spec hT (by omega : d.counter.toNat ≤ T) statusReady0 statusReady1,
        statusAt, counterAt]
    · rcases Nat.lt_or_ge n (3 * (T + 1)) with h2 | h2
      · have hc : d.counter.toNat = n - 2 * (T + 1) := by grind [counterAt]
        rw [Fsm.advance_ready1 (by grind [statusAt])]
        grind [Fsm.count_spec hT (by omega : d.counter.toNat ≤ T) statusReady1 statusValid,
          statusAt, counterAt]
      · rw [Fsm.advance_valid (by grind [statusAt])]
        grind [statusAt, counterAt]
  · have hc : d.counter.toNat = n := by grind [counterAt]
    rw [Fsm.advance_init (by grind [statusAt])]
    grind [Fsm.count_spec hT (by omega : d.counter.toNat ≤ T) statusInit statusReady0,
      statusAt, counterAt]

theorem Fsm.at_posedge {n : Nat} (h : d.At P n) (inCtrl : Bool) (ingress : BitVec 32) :
    (d.posedge P true inCtrl ingress).At P (n + 1) := by
  obtain ⟨hnext, hcounter⟩ := h.advance
  constructor
  · exact hnext
  · exact hcounter
  · exact h.next
  · intro _ hn
    show d.nextOutCtrl1 = false
    grind [nextOutCtrl1, h.next, statusAt]
  · intro hlow hhigh
    show d.nextOutCtrl1 = true
    have hstatus : d.internalStatusNext = statusReady1 := by grind [h.next, statusAt]
    simp [nextOutCtrl1, hstatus, statusInit, statusReady0, statusReady1]

/-- Past the second threshold the state machine has left `READY_0` for good. -/
theorem Fsm.At.ready {n : Nat} (h : d.At P n) (hn : 2 * (P.threshold.toNat + 1) < n) :
    d.internalStatus = statusReady1 ∨ d.internalStatus = statusValid := by
  grind [h.status, statusAt]

end timing

end Mxfs
