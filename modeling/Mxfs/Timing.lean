import Mathlib.Algebra.Group.Nat.Defs
import Mxfs.Lib.Run
import Mxfs.Fsm

/-!
# Mxfs.Timing

The timing of one domain, over any history of its reset line and its clock.
What the registers hold depends only on the inputs sampled since the reset was
released: the state machine on their number (`Fsm.At`), and `out_ctrl1` in
`VALID` on the last but one, since `in_ctrl` passes a register on its way.
-/

namespace Mxfs

open Lib

/-! ## a domain and its history -/

/-- What a rising edge samples. -/
structure Fsm.Input where
  inCtrl : Bool
  debugStatusIngress : BitVec 32

/-- What happens to a domain: `upl_arst_n` takes a level, or `dp_clk` rises. -/
inductive Fsm.Event where
  | uplArstN (level : Bool)
  | dpClk (input : Fsm.Input)

/-- The registers of a domain and the level of its reset line. -/
structure Domain (w : Nat) where
  fsm : Fsm w
  uplArstN : Bool

namespace Domain

variable {w : Nat}

/-- One event.  Of the reset line only its fall acts on the registers. -/
def step (P : FsmParams w) (s : Domain w) : Fsm.Event → Domain w
  | .uplArstN true => { s with uplArstN := true }
  | .uplArstN false =>
    { fsm := if s.uplArstN then s.fsm.reset else s.fsm
      uplArstN := false }
  | .dpClk input =>
    { s with fsm := s.fsm.posedge P s.uplArstN input.inCtrl input.debugStatusIngress }

/-- The inputs sampled since the reset was released, after one more event.  Until
a reset has reached the registers, by a falling line or by a clock edge, there
is nothing to count from. -/
def sampled (s : Domain w) (since : Option (List Fsm.Input)) : Fsm.Event →
    Option (List Fsm.Input)
  | .uplArstN true => since
  | .uplArstN false => if s.uplArstN then some [] else since
  | .dpClk input => if s.uplArstN then since.map (· ++ [input]) else some []

/-- A domain with the inputs sampled since its reset. -/
structure Watched (w : Nat) where
  domain : Domain w
  since : Option (List Fsm.Input)

/-- The history of a domain, from any contents of its registers. -/
def history (P : FsmParams w) (s : Domain w) (es : List Fsm.Event) : Watched w :=
  run (fun x e => ⟨x.domain.step P e, x.domain.sampled x.since e⟩) ⟨s, none⟩ es

end Domain

/-! ## what the registers hold -/

/-- The registers when `inputs` were sampled since the reset, with `T` the threshold. -/
structure Fsm.Timed {w : Nat} (T : Nat) (inputs : List Input) (d : Fsm w) : Prop where
  next : d.internalStatusNext = statusAt T inputs.length
  status : d.internalStatus = statusAt T (inputs.length - 1)
  counter : d.counter.toNat =
    if inputs.length < 3 * (T + 1) then inputs.length % (T + 1) else 0
  bounded : d.counter.toNat ≤ T
  unwrapped : (d.counter + 1).toNat = d.counter.toNat + 1
  low : 0 < inputs.length → inputs.length ≤ 2 * (T + 1) → d.outCtrl1 = false
  high : 2 * (T + 1) < inputs.length → inputs.length ≤ 3 * (T + 1) → d.outCtrl1 = true
  follows : 3 * (T + 1) < inputs.length →
    inputs[inputs.length - 2]?.map Input.inCtrl = some d.outCtrl1

theorem counterAt_eq (T n : Nat) :
    counterAt T n = if n < 3 * (T + 1) then n % (T + 1) else 0 := by
  rcases Nat.lt_or_ge n (3 * (T + 1)) with h | h
  · have hdiv := Nat.div_add_mod n (T + 1)
    have hmod := Nat.mod_lt n (Nat.succ_pos T)
    rw [if_pos h]
    -- the quotient is the number of thresholds passed
    have hcases : n / (T + 1) = 0 ∨ n / (T + 1) = 1 ∨ n / (T + 1) = 2 := by
      have hquot : n / (T + 1) < 3 := (Nat.div_lt_iff_lt_mul (Nat.succ_pos T)).2 h
      generalize n / (T + 1) = q at hquot
      omega
    rcases hcases with hq | hq | hq <;> rw [hq] at hdiv <;> grind [counterAt]
  · grind [counterAt]

theorem counterAt_le (T n : Nat) : counterAt T n ≤ T := by grind [counterAt]

section timing

variable {w : Nat} {P : FsmParams w} {d : Fsm w} {inputs : List Fsm.Input}

/-- The state machine stands where it should, and `in_ctrl` is on its way: sampled
by the last edge and, in `VALID`, put out by it as the edge before had sampled it. -/
structure Fsm.Tracks (P : FsmParams w) (inputs : List Input) (d : Fsm w) : Prop
    extends d.At P inputs.length where
  inCtrl : 0 < inputs.length → inputs[inputs.length - 1]?.map Input.inCtrl = some d.inCtrl
  follows : 3 * (P.threshold.toNat + 1) < inputs.length →
    inputs[inputs.length - 2]?.map Input.inCtrl = some d.outCtrl1

/-- A clock edge in reset leaves the registers reset too. -/
theorem Fsm.at_posedge_reset (inCtrl : Bool) (ingress : BitVec 32) :
    (d.posedge P false inCtrl ingress).At P 0 := by
  constructor <;> simp [Fsm.posedge, Fsm.reset, statusAt_zero, counterAt]

theorem Fsm.At.tracks (h : d.At P 0) : d.Tracks P [] :=
  ⟨h, by simp, by simp⟩

/-- **One edge** samples one input more. -/
theorem Fsm.Tracks.posedge (h : d.Tracks P inputs) (input : Input) :
    (d.posedge P true input.inCtrl input.debugStatusIngress).Tracks P (inputs ++ [input]) := by
  have hat := Fsm.at_posedge h.toAt input.inCtrl input.debugStatusIngress
  refine ⟨by simpa using hat, ?_, ?_⟩
  · intro _
    simp [Fsm.posedge, Fsm.clocked]
  · intro hlong
    have hlen : 3 * (P.threshold.toNat + 1) ≤ inputs.length := by
      simp only [List.length_append, List.length_singleton] at hlong
      omega
    have hvalid : d.internalStatusNext = statusValid := by grind [h.next, statusAt]
    have hout : (d.posedge P true input.inCtrl input.debugStatusIngress).outCtrl1 = d.inCtrl := by
      simp [Fsm.posedge, nextOutCtrl1, hvalid, statusInit, statusReady0, statusReady1, statusValid]
    rw [hout, ← h.inCtrl (by omega), List.length_append, List.length_singleton,
      List.getElem?_append_left (by omega)]
    rfl

/-- The closed form, for a counter wide enough for the threshold. -/
theorem Fsm.Tracks.timed {T : Nat} (h : d.Tracks P inputs) (hT : P.threshold.toNat = T)
    (hw : T + 1 < 2 ^ w) : d.Timed T inputs := by
  subst hT
  have hbounded : d.counter.toNat ≤ P.threshold.toNat := by
    rw [h.counter]
    exact counterAt_le _ _
  refine ⟨h.next, h.status, ?_, hbounded, ?_, h.low, h.high, h.follows⟩
  · rw [h.counter, counterAt_eq]
  · have hmod : (d.counter.toNat + 1) % 2 ^ w = d.counter.toNat + 1 :=
      Nat.mod_eq_of_lt (by omega)
    simp [hmod]

end timing

/-! ## every history -/

section history

variable {w : Nat} {P : FsmParams w}

/-- **One event** keeps the registers where the inputs since the reset tell. -/
theorem Domain.tracks_step {s : Domain w} {since : Option (List Fsm.Input)}
    (h : ∀ inputs, since = some inputs → s.fsm.Tracks P inputs) (e : Fsm.Event) :
    ∀ inputs, s.sampled since e = some inputs → (s.step P e).fsm.Tracks P inputs := by
  intro inputs hinputs
  cases e with
  | uplArstN level =>
      cases level with
      | true => exact h inputs hinputs
      | false =>
          cases hlevel : s.uplArstN with
          | true =>
              simp only [sampled, hlevel, if_true] at hinputs
              obtain rfl : [] = inputs := Option.some.inj hinputs
              simpa [step, hlevel] using Fsm.at_reset.tracks
          | false =>
              simp only [sampled, hlevel, Bool.false_eq_true, if_false] at hinputs
              simpa [step, hlevel] using h inputs hinputs
  | dpClk input =>
      cases hlevel : s.uplArstN with
      | true =>
          simp only [sampled, hlevel, if_true] at hinputs
          obtain ⟨before, hbefore, rfl⟩ := Option.map_eq_some_iff.1 hinputs
          simpa [step, hlevel] using (h before hbefore).posedge input
      | false =>
          simp only [sampled, hlevel, Bool.false_eq_true, if_false] at hinputs
          obtain rfl : [] = inputs := Option.some.inj hinputs
          simpa [step, hlevel] using
            (Fsm.at_posedge_reset input.inCtrl input.debugStatusIngress).tracks

theorem Domain.tracks_history (s : Domain w) (es : List Fsm.Event) (inputs : List Fsm.Input)
    (h : (s.history P es).since = some inputs) : (s.history P es).domain.fsm.Tracks P inputs := by
  have hrun : ∀ inputs, (s.history P es).since = some inputs →
      (s.history P es).domain.fsm.Tracks P inputs := by
    refine run_invariant
      (I := fun x : Domain.Watched w =>
        ∀ inputs, x.since = some inputs → x.domain.fsm.Tracks P inputs)
      (P := fun _ _ => True) ?_ (by simp) (along_of_forall (fun _ _ => trivial) _)
    intro x e hx _
    exact Domain.tracks_step hx e
  exact hrun inputs h

end history

/-- **The timing of both domains**, from any contents of the registers and over any
history of reset and clock: 101 edges a status in the fast one, 201 in the slow. -/
theorem domains_timed :
    (∀ (s : Domain 8) (es : List Fsm.Event) (inputs : List Fsm.Input),
      (s.history mxfsFast es).since = some inputs →
        (s.history mxfsFast es).domain.fsm.Timed 100 inputs) ∧
    (∀ (s : Domain 16) (es : List Fsm.Event) (inputs : List Fsm.Input),
      (s.history mxfsSlow es).since = some inputs →
        (s.history mxfsSlow es).domain.fsm.Timed 200 inputs) :=
  ⟨fun s es inputs h => (s.tracks_history es inputs h).timed rfl (by decide),
    fun s es inputs h => (s.tracks_history es inputs h).timed rfl (by decide)⟩

/-- Registers with arbitrary contents, before any reset. -/
def unresetFsm : Fsm 8 where
  internalStatus := statusValid
  internalStatusNext := 9#4
  inCtrl := true
  counter := 255#8
  outCtrl0Sw := true
  outCtrl0 := true
  outCtrl1 := true
  debugStatusEgress := 0

/-- A reset and two edges after its release. -/
theorem domains_timed_reset :
    ((Domain.mk unresetFsm true).history mxfsFast
      [.uplArstN false, .dpClk ⟨true, 0⟩, .uplArstN true, .dpClk ⟨true, 1⟩,
        .dpClk ⟨false, 0⟩]).domain.fsm.Timed 100 [⟨true, 1⟩, ⟨false, 0⟩] :=
  domains_timed.1 _ _ _ rfl

end Mxfs
