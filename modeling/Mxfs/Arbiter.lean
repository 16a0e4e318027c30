import Mxfs.Fsm

/-!
# Mxfs.Arbiter

The bus arbitration: the two domain state machines, cross-connected through
`out_ctrl0`, and the selector that decides from their `out_ctrl1` who owns the
bus.  The two clocks are independent: an instant may bring an edge of either,
of both, a change of a reset line or a write of the software's.
-/

namespace Mxfs

/-! ## the selector -/

def selectorS0 : BitVec 2 := 0#2
def selectorS1 : BitVec 2 := 1#2
def selectorS2 : BitVec 2 := 2#2
def selectorS3 : BitVec 2 := 3#2

/-- The registers of `mxfs_selector`. -/
structure Selector where
  state : BitVec 2
  outCtrl1FastSync1 : Bool
  outCtrl1FastSync2 : Bool
  outCtrl1SlowSync1 : Bool
  outCtrl1SlowSync2 : Bool
  q : Bool
  deriving DecidableEq

namespace Selector

/-- The combinational next state, from the synchronised inputs. -/
def nextState : (fastSync2 slowSync2 : Bool) → BitVec 2
  | false, false => selectorS0
  | false, true => selectorS2
  | true, false => selectorS1
  | true, true => selectorS3

/-- The output of a state: only `S2` gives the bus to the Child. -/
def output (state : BitVec 2) : Bool :=
  if state = selectorS0 then true
  else if state = selectorS1 then true
  else if state = selectorS2 then false
  else if state = selectorS3 then true
  else true

/-- In reset the Mother owns the bus. -/
def reset : Selector := ⟨selectorS0, false, false, false, false, true⟩

/-- A rising edge of `clk`. -/
def posedge (rstN outCtrl1Fast outCtrl1Slow : Bool) (x : Selector) : Selector :=
  if rstN then
    { state := nextState x.outCtrl1FastSync2 x.outCtrl1SlowSync2
      outCtrl1FastSync1 := outCtrl1Fast
      outCtrl1FastSync2 := x.outCtrl1FastSync1
      outCtrl1SlowSync1 := outCtrl1Slow
      outCtrl1SlowSync2 := x.outCtrl1SlowSync1
      q := output x.state }
  else reset

theorem output_nextState (f s : Bool) : output (nextState f s) = !(!f && s) := by
  cases f <;> cases s <;> decide

end Selector

/-! ## the composition -/

/-- The registers of the three modules and the lines that drive them. -/
structure Arbiter where
  fast : Fsm 8
  slow : Fsm 16
  selector : Selector
  rstNFast : Bool
  rstNSlow : Bool
  ingressFast : BitVec 32
  ingressSlow : BitVec 32
  deriving DecidableEq

/-- What an instant brings. -/
inductive Event where
  | rstNFast (level : Bool)
  | rstNSlow (level : Bool)
  | ingressFast (value : BitVec 32)
  | ingressSlow (value : BitVec 32)
  | clk (fast slow : Bool)
  deriving DecidableEq

namespace Event

def fastEdge : Event → Bool
  | .clk fast _ => fast
  | _ => false

def slowEdge : Event → Bool
  | .clk _ slow => slow
  | _ => false

/-- Edges of the clocks, with nothing else changing. -/
def IsClk (e : Event) : Prop := ∃ fast slow, e = .clk fast slow

end Event

namespace Arbiter

/-- The reset line of the fast domain resets the selector too. -/
def setRstNFast (s : Arbiter) (level : Bool) : Arbiter :=
  if level then { s with rstNFast := true }
  else { s with rstNFast := false, fast := s.fast.reset, selector := Selector.reset }

def setRstNSlow (s : Arbiter) (level : Bool) : Arbiter :=
  if level then { s with rstNSlow := true }
  else { s with rstNSlow := false, slow := s.slow.reset }

/-- Every module reads the others' registers as they were before the edge. -/
def clk (s : Arbiter) (fast slow : Bool) : Arbiter :=
  { s with
    fast := if fast then s.fast.posedge mxfsFast s.rstNFast s.slow.outCtrl0 s.ingressFast
      else s.fast
    slow := if slow then s.slow.posedge mxfsSlow s.rstNSlow s.fast.outCtrl0 s.ingressSlow
      else s.slow
    selector := if fast then s.selector.posedge s.rstNFast s.fast.outCtrl1 s.slow.outCtrl1
      else s.selector }

/-- One instant. -/
def step (s : Arbiter) : Event → Arbiter
  | .rstNFast level => s.setRstNFast level
  | .rstNSlow level => s.setRstNSlow level
  | .ingressFast value => { s with ingressFast := value }
  | .ingressSlow value => { s with ingressSlow := value }
  | .clk fast slow => s.clk fast slow

/-- A reset line that is low at power on resets its registers; all others start
with any contents. -/
def powerOn (s : Arbiter) : Arbiter := (s.setRstNFast s.rstNFast).setRstNSlow s.rstNSlow

end Arbiter

end Mxfs
