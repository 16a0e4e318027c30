import Mxfs.Lib.Run
import Mxfs.Arbiter

/-!
# Mxfs.Grant

Who owns the bus, over any order of clock edges, resets and software writes.  A
record of the trace keeps what each edge of the fast clock sampled; the
registers of the selector are the last four of these samples (`Pipe`), and the
slow domain follows its timing (`SlowTimed`).  So the Child is granted the bus
only by a sample of three fast edges ago, taken after the slow domain left
`READY_0` (`grant_safe`).
-/

namespace Mxfs

open Lib

/-! ## what the selector has sampled -/

/-- What an edge of the fast clock samples: the two inputs of the selector, and
the slow domain with the number of edges it has seen since its last release. -/
structure Sample where
  outCtrl1Fast : Bool
  outCtrl1Slow : Bool
  rstNSlow : Bool
  slowStatus : BitVec 4
  slowEdges : Option Nat
  deriving DecidableEq

/-- The selector's inputs at an edge nobody saw. -/
def Sample.idle : Sample := ⟨false, false, false, statusInit, none⟩

/-- The record of a trace: the samples of the fast edges since the last release
of the fast reset, in order, `none` during reset and before the first release;
and the number of slow edges since the last release of the slow reset. -/
structure Watch where
  samples : Option (List Sample)
  slowEdges : Option Nat
  deriving DecidableEq

namespace Watch

def start : Watch := ⟨none, none⟩

def sample (x : Watch) (s : Arbiter) : Sample :=
  ⟨s.fast.outCtrl1, s.slow.outCtrl1, s.rstNSlow, s.slow.internalStatus, x.slowEdges⟩

/-- The record after an instant that finds the registers `s`. -/
def step (x : Watch) (s : Arbiter) : Event → Watch
  | .rstNFast true => if s.rstNFast then x else { x with samples := some [] }
  | .rstNFast false => { x with samples := none }
  | .rstNSlow true => if s.rstNSlow then x else { x with slowEdges := some 0 }
  | .rstNSlow false => x
  | .ingressFast _ => x
  | .ingressSlow _ => x
  | .clk fast slow =>
    { samples := if fast then x.samples.map (· ++ [x.sample s]) else x.samples
      slowEdges := if slow then x.slowEdges.map (· + 1) else x.slowEdges }

end Watch

/-- The registers and the record after the instants `es`. -/
def trace (s : Arbiter) (es : List Event) : Arbiter × Watch :=
  run (fun x e => (x.1.step e, x.2.step x.1 e)) (s.powerOn, Watch.start) es

/-- The bus is granted only as the samples say.  Edge `n` of the fast clock,
counted from its last release, is the sample `n`. -/
structure GrantSafe (s : Arbiter) (x : Watch) : Prop where
  reset : s.rstNFast = false → s.selector.q = true
  early : ∀ l, x.samples = some l → l.length ≤ 3 → s.selector.q = true
  grant : ∀ l n y, x.samples = some l → l.length = n + 4 → l[n]? = some y →
    (s.selector.q = false ↔ y.outCtrl1Fast = false ∧ y.outCtrl1Slow = true)
  settled : ∀ l n y k, x.samples = some l → l.length = n + 4 → l[n]? = some y →
    s.selector.q = false → y.slowEdges = some k → 0 < k →
    403 ≤ k ∧ (y.rstNSlow = true → y.slowStatus = statusReady1 ∨ y.slowStatus = statusValid)

/-! ## the slow domain's invariant -/

/-- The slow domain follows its timing, and `H` on its output after an edge since
the release takes 403 of them. -/
structure SlowTimed (s : Arbiter) (edges : Option Nat) : Prop where
  held : s.rstNSlow = false → s.slow.reset = s.slow
  timed : ∀ k, edges = some k → s.rstNSlow = true → s.slow.At mxfsSlow k
  high : ∀ k, edges = some k → 0 < k → s.slow.outCtrl1 = true → 403 ≤ k

/-- The slow machine answers `H` from its 403rd edge on. -/
theorem Fsm.At.high_le {d : Fsm 16} {k : Nat} (h : d.At mxfsSlow k) (hk : 0 < k)
    (hout : d.outCtrl1 = true) : 403 ≤ k := by
  rcases Nat.lt_or_ge k 403 with hlt | hge
  · have hlow := h.low hk (show k ≤ 2 * (200 + 1) by omega)
    simp [hlow] at hout
  · exact hge

section slow

variable {s : Arbiter} {edges : Option Nat}

/-- The slow domain's timing depends on its machine and its reset line only. -/
theorem SlowTimed.congr {t : Arbiter} (h : SlowTimed s edges) (hslow : t.slow = s.slow)
    (hrst : t.rstNSlow = s.rstNSlow) : SlowTimed t edges := by
  constructor
  · rw [hslow, hrst]; exact h.held
  · rw [hslow, hrst]; exact h.timed
  · rw [hslow]; exact h.high

/-- A release of the slow reset starts the count of edges. -/
theorem SlowTimed.release (h : SlowTimed s edges) (hlow : s.rstNSlow = false) :
    SlowTimed (s.setRstNSlow true) (some 0) := by
  constructor
  · simp [Arbiter.setRstNSlow]
  · rintro k ⟨⟩ -
    show s.slow.At mxfsSlow 0
    rw [← h.held hlow]
    exact Fsm.at_reset
  · rintro k ⟨⟩ hk
    omega

/-- The slow domain keeps its timing when its reset is asserted. -/
theorem SlowTimed.assert (h : SlowTimed s edges) : SlowTimed (s.setRstNSlow false) edges := by
  constructor
  · simp [Arbiter.setRstNSlow, Fsm.reset]
  · simp [Arbiter.setRstNSlow]
  · exact h.high

/-- Each edge of the slow clock is counted. -/
theorem SlowTimed.edge (h : SlowTimed s edges) (fast : Bool) :
    SlowTimed (s.clk fast true) (edges.map (· + 1)) := by
  have hslow : (s.clk fast true).slow =
      s.slow.posedge mxfsSlow s.rstNSlow s.fast.outCtrl0 s.ingressSlow := rfl
  have hrst : (s.clk fast true).rstNSlow = s.rstNSlow := rfl
  cases hr : s.rstNSlow with
  | false =>
      have hinit : s.slow.internalStatusNext = statusInit := by
        rw [← h.held hr]
        rfl
      constructor
      · simp [hslow, hr, Fsm.posedge, Fsm.reset]
      · simp [hrst, hr]
      · simp [hslow, Fsm.posedge, Fsm.nextOutCtrl1, hinit]
  | true =>
      have hat : ∀ k, edges.map (· + 1) = some k → (s.clk fast true).slow.At mxfsSlow k := by
        intro k hk
        obtain ⟨n, hn, rfl⟩ := Option.map_eq_some_iff.1 hk
        rw [hslow, hr]
        exact Fsm.at_posedge (h.timed n hn hr) _ _
      constructor
      · simp [hrst, hr]
      · intro k hk _
        exact hat k hk
      · intro k hk hpos hout
        exact (hat k hk).high_le hpos hout

end slow

/-- At power on the slow reset has not been released. -/
theorem slowTimed_powerOn (s : Arbiter) : SlowTimed s.powerOn none := by
  constructor
  · cases h : s.rstNSlow <;> simp [Arbiter.powerOn, Arbiter.setRstNSlow, h, Fsm.reset] 
  · simp
  · simp

/-! ## the selector's invariant -/

/-- The pipeline of the selector holds the last four samples, newest first. -/
structure Pipe (l : List Sample) (x : Selector) : Prop where
  fastSync1 : x.outCtrl1FastSync1 = (l.getD 0 Sample.idle).outCtrl1Fast
  slowSync1 : x.outCtrl1SlowSync1 = (l.getD 0 Sample.idle).outCtrl1Slow
  fastSync2 : x.outCtrl1FastSync2 = (l.getD 1 Sample.idle).outCtrl1Fast
  slowSync2 : x.outCtrl1SlowSync2 = (l.getD 1 Sample.idle).outCtrl1Slow
  state : x.state = Selector.nextState (l.getD 2 Sample.idle).outCtrl1Fast
    (l.getD 2 Sample.idle).outCtrl1Slow
  output : x.q = !(!(l.getD 3 Sample.idle).outCtrl1Fast && (l.getD 3 Sample.idle).outCtrl1Slow)

/-- The selector comes up with an empty pipe. -/
theorem pipe_reset : Pipe [] Selector.reset := by
  constructor <;> rfl

/-- Each edge pushes a sample into the pipe. -/
theorem Pipe.posedge {l : List Sample} {x : Selector} (h : Pipe l x) (y : Sample) :
    Pipe (y :: l) (x.posedge true y.outCtrl1Fast y.outCtrl1Slow) := by
  constructor <;> simp [Selector.posedge, h.fastSync1, h.slowSync1, h.fastSync2, h.slowSync2,
    h.state, Selector.output_nextState]

/-- A sample of the slow domain with an edge since its release shows `H` only
once the state machine has left `READY_0`. -/
def Sample.Settled (y : Sample) : Prop :=
  ∀ k, y.slowEdges = some k → 0 < k → y.outCtrl1Slow = true →
    403 ≤ k ∧ (y.rstNSlow = true → y.slowStatus = statusReady1 ∨ y.slowStatus = statusValid)

/-- A sample is taken with the count that the slow machine has. -/
theorem SlowTimed.settled {s : Arbiter} {x : Watch} (h : SlowTimed s x.slowEdges) :
    (x.sample s).Settled := by
  intro k hk hpos hout
  have hle := h.high k hk hpos hout
  refine ⟨hle, fun hr => (h.timed k hk hr).ready ?_⟩
  show 2 * (200 + 1) < k
  omega

/-- The registers agree with the record. -/
structure Tracks (s : Arbiter) (x : Watch) : Prop where
  slow : SlowTimed s x.slowEdges
  held : s.rstNFast = false → x.samples = none ∧ s.selector = Selector.reset
  pipe : ∀ l, x.samples = some l → s.rstNFast = true ∧ Pipe l.reverse s.selector
  settled : ∀ l, x.samples = some l → ∀ y ∈ l, y.Settled

/-- At power on there is nothing to track. -/
theorem tracks_powerOn (s : Arbiter) : Tracks s.powerOn Watch.start := by
  refine ⟨slowTimed_powerOn s, ?_, by simp [Watch.start], by simp [Watch.start]⟩
  cases hf : s.rstNFast <;> cases hs : s.rstNSlow <;>
    simp [Arbiter.powerOn, Arbiter.setRstNFast, Arbiter.setRstNSlow, Watch.start, hf, hs]

section tracks

variable {s : Arbiter} {x : Watch}

/-- An edge of either clock is tracked. -/
theorem Tracks.clk (h : Tracks s x) (fast slow : Bool) :
    Tracks (s.clk fast slow) (x.step s (.clk fast slow)) := by
  have hslow : SlowTimed (s.clk fast slow) (x.step s (.clk fast slow)).slowEdges := by
    cases slow with
    | false => exact h.slow.congr rfl rfl
    | true => exact h.slow.edge fast
  cases fast with
  | false => exact ⟨hslow, h.held, h.pipe, h.settled⟩
  | true =>
      have hsel : (s.clk true slow).selector =
          s.selector.posedge s.rstNFast s.fast.outCtrl1 s.slow.outCtrl1 := rfl
      have hsamples : (x.step s (.clk true slow)).samples = x.samples.map (· ++ [x.sample s]) := rfl
      refine ⟨hslow, ?_, ?_, ?_⟩
      · intro hr
        have hlow : s.rstNFast = false := hr
        simp [hsamples, hsel, (h.held hlow).1, hlow, Selector.posedge]
      · intro l hl
        obtain ⟨m, hm, rfl⟩ := Option.map_eq_some_iff.1 (hsamples ▸ hl)
        obtain ⟨hr, hpipe⟩ := h.pipe m hm
        rw [hsel, hr, List.reverse_concat]
        exact ⟨hr, hpipe.posedge (x.sample s)⟩
      · intro l hl y hy
        obtain ⟨m, hm, rfl⟩ := Option.map_eq_some_iff.1 (hsamples ▸ hl)
        rcases List.mem_append.1 hy with hy | hy
        · exact h.settled m hm y hy
        · rw [List.mem_singleton.1 hy]
          exact h.slow.settled

/-- A level of the fast reset is tracked. -/
theorem Tracks.rstNFast (h : Tracks s x) (level : Bool) :
    Tracks (s.setRstNFast level) (x.step s (.rstNFast level)) := by
  cases level with
  | false =>
      refine ⟨h.slow.congr rfl rfl, ?_, ?_, ?_⟩ <;>
        simp [Arbiter.setRstNFast, Watch.step]
  | true =>
      cases hr : s.rstNFast with
      | true =>
          have hsame : s.setRstNFast true = s := by
            cases s
            simp_all [Arbiter.setRstNFast]
          simpa [hsame, Watch.step, hr] using h
      | false =>
          obtain ⟨-, hsel⟩ := h.held hr
          refine ⟨?_, ?_, ?_, ?_⟩
          · rw [Watch.step, hr]
            exact h.slow.congr rfl rfl
          · simp [Arbiter.setRstNFast]
          · intro l hl
            simp [Watch.step, hr] at hl
            subst hl
            simp [Arbiter.setRstNFast, hsel, pipe_reset]
          · intro l hl
            simp [Watch.step, hr] at hl
            simp [hl]

/-- A level of the slow reset is tracked. -/
theorem Tracks.rstNSlow (h : Tracks s x) (level : Bool) :
    Tracks (s.setRstNSlow level) (x.step s (.rstNSlow level)) := by
  cases level with
  | false => exact ⟨h.slow.assert, h.held, h.pipe, h.settled⟩
  | true =>
      cases hr : s.rstNSlow with
      | true =>
          have hsame : s.setRstNSlow true = s := by
            cases s
            simp_all [Arbiter.setRstNSlow]
          simpa [hsame, Watch.step, hr] using h
      | false =>
          rw [Watch.step, hr]
          exact ⟨h.slow.release hr, h.held, h.pipe, h.settled⟩

/-- **Every instant** keeps the registers and the record in agreement. -/
theorem Tracks.step (h : Tracks s x) (e : Event) : Tracks (s.step e) (x.step s e) := by
  cases e with
  | rstNFast level => exact h.rstNFast level
  | rstNSlow level => exact h.rstNSlow level
  | ingressFast value => exact ⟨h.slow.congr rfl rfl, h.held, h.pipe, h.settled⟩
  | ingressSlow value => exact ⟨h.slow.congr rfl rfl, h.held, h.pipe, h.settled⟩
  | clk fast slow => exact h.clk fast slow

/-- The selector's output is decided by the sample three edges before its last. -/
theorem Tracks.output (h : Tracks s x) {l : List Sample} (hl : x.samples = some l) :
    s.selector.q = !(!(l.reverse.getD 3 Sample.idle).outCtrl1Fast &&
      (l.reverse.getD 3 Sample.idle).outCtrl1Slow) :=
  (h.pipe l hl).2.output

/-- Three before the last of `n + 4` samples is the `n`-th. -/
theorem getD_reverse_three {l : List Sample} {n : Nat} {y : Sample} (hlen : l.length = n + 4)
    (hy : l[n]? = some y) : l.reverse.getD 3 Sample.idle = y := by
  rw [List.getD_eq_getElem?_getD, List.getElem?_reverse (by omega), hlen]
  simp [hy]

/-- What is tracked says when the bus is granted. -/
theorem Tracks.grantSafe (h : Tracks s x) : GrantSafe s x := by
  constructor
  · intro hr
    rw [(h.held hr).2]
    rfl
  · intro l hl hlen
    have hnone : l.reverse[3]? = none := by simpa using hlen
    rw [h.output hl, List.getD_eq_getElem?_getD, hnone]
    rfl
  · intro l n y hl hlen hy
    rw [h.output hl, getD_reverse_three hlen hy]
    simp
  · intro l n y k hl hlen hy hq hk hpos
    rw [h.output hl, getD_reverse_three hlen hy] at hq
    simp only [Bool.not_eq_false', Bool.and_eq_true, Bool.not_eq_true'] at hq
    exact h.settled l hl y (List.mem_of_getElem? hy) k hk hpos hq.2

end tracks

/-- **The bus is granted safely**: whatever the registers held at power on, and
for every order of clock edges, resets and software writes, the Child owns the
bus exactly when three fast edges ago the selector sampled `L` from the fast
domain and `H` from the slow one; and then the slow domain had left `READY_0`. -/
theorem grant_safe (s : Arbiter) (es : List Event) :
    GrantSafe (trace s es).1 (trace s es).2 := by
  have htracks : Tracks (trace s es).1 (trace s es).2 :=
    @run_invariant _ _ _ (fun _ _ => True) (fun x : Arbiter × Watch => Tracks x.1 x.2) _ _
      (fun _ e h _ => h.step e) (tracks_powerOn s) (along_of_forall (fun _ _ => trivial) _)
  exact htracks.grantSafe

end Mxfs
