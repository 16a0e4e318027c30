import Mxfs.Grant
import Mxfs.Settle

/-!
# Mxfs.Handover

How the bus changes hands over any history of resets, software writes and edges of
the two clocks.  The Mother offers the bus with bit 0 of the fast domain's ingress.

* `granted_offered` — once the slow domain is past `READY_1`, the Child owns the bus
  only if it was offered before, and never while the fast domain is in `READY_1`;
* `granted_unoffered` — during `READY_1` of the slow domain it gets the bus unoffered;
* `settles_after_resets` — after any history, a bounded number of edges brings the
  owner that the two requests ask for.
-/

namespace Mxfs

open Lib

/-! ## a domain along the record -/

/-- A domain stands where its timing puts it, `edges` after its release. -/
structure Fsm.Follows {w : Nat} (P : FsmParams w) (rstN : Bool) (edges : Option Nat)
    (d : Fsm w) : Prop where
  held : rstN = false → d.reset = d
  timed : ∀ k, edges = some k → rstN = true → d.At P k

section follows

variable {w : Nat} {P : FsmParams w} {rstN : Bool} {edges : Option Nat} {d : Fsm w}

/-- A machine in reset follows any count. -/
theorem Fsm.follows_reset : d.reset.Follows P false edges :=
  ⟨fun _ => rfl, fun _ _ h => absurd h (by decide)⟩

/-- A release of its reset starts a machine's count of edges. -/
theorem Fsm.Follows.release (h : d.Follows P false edges) : d.Follows P true (some 0) := by
  refine ⟨fun hr => absurd hr (by decide), ?_⟩
  rintro k ⟨⟩ -
  rw [← h.held rfl]
  exact Fsm.at_reset

/-- Each edge of its clock counts for a machine. -/
theorem Fsm.Follows.posedge (h : d.Follows P rstN edges) (i : Bool) (g : BitVec 32) :
    (d.posedge P rstN i g).Follows P rstN (edges.map (· + 1)) := by
  constructor
  · rintro rfl
    rfl
  · rintro k hk rfl
    obtain ⟨n, hn, rfl⟩ := Option.map_eq_some_iff.1 hk
    exact Fsm.at_posedge (h.timed n hn rfl) i g

/-- A machine is valid after three times its threshold. -/
theorem Fsm.At.valid {n : Nat} (h : d.At P n) (hn : 3 * (P.threshold.toNat + 1) ≤ n) :
    d.internalStatusNext = statusValid := by
  grind [h.next, statusAt]

end follows

/-- All histories are tracked. -/
theorem tracks_trace (s : Arbiter) (es : List Event) : Tracks (trace s es).1 (trace s es).2 :=
  @run_invariant _ _ _ (fun _ _ => True) (fun x : Arbiter × Watch => Tracks x.1 x.2) _ _
    (fun _ e h _ => h.step e) (tracks_powerOn s) (along_of_forall (fun _ _ => trivial) _)

/-! ## the fast domain keeps the bus -/

/-- The fast domain follows its timing, so that it answered `H` at the edges that
found it in `READY_1`. -/
structure FastWindow (s : Arbiter) (x : Watch) : Prop where
  follows : s.fast.Follows mxfsFast s.rstNFast (x.samples.map List.length)
  samples : ∀ l n y, x.samples = some l → l[n]? = some y → y.outCtrl1Fast = false →
    n ≤ 202 ∨ 304 ≤ n

section fast

variable {s : Arbiter} {x : Watch}

/-- At power on no sample has been taken. -/
theorem fastWindow_powerOn (s : Arbiter) : FastWindow s.powerOn Watch.start := by
  refine ⟨⟨fun hr => ?_, by simp [Watch.start]⟩, by simp [Watch.start]⟩
  cases hf : s.rstNFast <;> cases hs : s.rstNSlow <;>
    simp [Arbiter.powerOn, Arbiter.setRstNFast, Arbiter.setRstNSlow, hf, hs, Fsm.reset] at hr ⊢

/-- An edge of either clock keeps the Mother's window. -/
theorem FastWindow.clk (h : FastWindow s x) (ht : Tracks s x) (fast slow : Bool) :
    FastWindow (s.clk fast slow) (x.step s (.clk fast slow)) := by
  cases fast with
  | false => exact ⟨h.follows, h.samples⟩
  | true =>
      have hsamples : (x.step s (.clk true slow)).samples = x.samples.map (· ++ [x.sample s]) := rfl
      constructor
      · have hnext := h.follows.posedge s.slow.outCtrl0 s.ingressFast
        rw [hsamples, Option.map_map]
        rw [Option.map_map] at hnext
        have hlength : (List.length ∘ fun l => l ++ [x.sample s]) =
            (fun n => n + 1) ∘ List.length := by
          funext l
          simp
        rw [hlength]
        exact hnext
      · intro l n y hl hy hout
        obtain ⟨m, hm, rfl⟩ := Option.map_eq_some_iff.1 (hsamples ▸ hl)
        rcases Nat.lt_or_ge n m.length with hn | hn
        · rw [List.getElem?_append_left hn] at hy
          exact h.samples m n y hm hy hout
        · rw [List.getElem?_append_right hn] at hy
          have hlast : n = m.length ∧ x.sample s = y := by
            have hlt := (List.getElem?_eq_some_iff.1 hy).1
            rw [List.length_singleton] at hlt
            have hzero : n - m.length = 0 := by omega
            rw [hzero] at hy
            exact ⟨by omega, Option.some.inj hy⟩
          obtain ⟨rfl, rfl⟩ := hlast
          -- the new sample shows the domain after as many edges as were sampled
          have hat := h.follows.timed m.length (by rw [hm]; rfl) (ht.pipe m hm).1
          by_contra hwindow
          have hhigh := hat.high (show 2 * (100 + 1) < m.length by omega)
            (show m.length ≤ 3 * (100 + 1) by omega)
          exact absurd (hhigh.symm.trans hout) (by decide)

/-- A level of the fast reset keeps the Mother's window. -/
theorem FastWindow.rstNFast (h : FastWindow s x) (level : Bool) :
    FastWindow (s.setRstNFast level) (x.step s (.rstNFast level)) := by
  cases level with
  | false => exact ⟨Fsm.follows_reset, by simp [Watch.step]⟩
  | true =>
      cases hr : s.rstNFast with
      | true =>
          have hsame : s.setRstNFast true = s := by
            cases s
            simp_all [Arbiter.setRstNFast]
          simpa [hsame, Watch.step, hr] using h
      | false =>
          have hfollows := h.follows
          rw [hr] at hfollows
          refine ⟨?_, ?_⟩
          · simpa [Arbiter.setRstNFast, Watch.step, hr] using hfollows.release
          · intro l n y hl hy
            simp [Watch.step, hr] at hl
            simp [hl] at hy

/-- **Every instant** keeps the fast domain on its timing. -/
theorem FastWindow.step (h : FastWindow s x) (ht : Tracks s x) (e : Event) :
    FastWindow (s.step e) (x.step s e) := by
  cases e with
  | rstNFast level => exact h.rstNFast level
  | rstNSlow level =>
      cases level with
      | false => exact ⟨h.follows, h.samples⟩
      | true =>
          have hsamples : (x.step s (.rstNSlow true)).samples = x.samples := by
            simp only [Watch.step]
            split <;> rfl
          exact ⟨hsamples ▸ h.follows, hsamples ▸ h.samples⟩
  | ingressFast value => exact ⟨h.follows, h.samples⟩
  | ingressSlow value => exact ⟨h.follows, h.samples⟩
  | clk fast slow => exact h.clk ht fast slow

end fast

/-! ## the slow domain needs an offer -/

/-- The edge samples the Mother's offer. -/
def Arbiter.Offers (s : Arbiter) (e : Event) : Prop :=
  e.fastEdge = true ∧ s.rstNFast = true ∧ s.ingressFast.getLsbD 0 = true

/-- The Mother has offered the bus at some time. -/
def Offered (s : Arbiter) (es : List Event) : Prop :=
  ∃ before e after, es = before ++ e :: after ∧ (run Arbiter.step s.powerOn before).Offers e

/-- No offer is on its way to the slow domain. -/
structure Arbiter.Quiet (s : Arbiter) : Prop where
  outCtrl0Sw : s.fast.outCtrl0Sw = false
  outCtrl0 : s.fast.outCtrl0 = false
  inCtrl : s.slow.inCtrl = false

/-- As long as nothing is offered, the slow domain answers `H` only to the edges that
find it in `READY_1`. -/
structure SlowWindow (s : Arbiter) (x : Watch) : Prop where
  quiet : s.Quiet
  high : ∀ k, x.slowEdges = some k → 0 < k → s.slow.outCtrl1 = true → k ≤ 603
  samples : ∀ l y k, x.samples = some l → y ∈ l → y.slowEdges = some k → 0 < k →
    y.outCtrl1Slow = true → k ≤ 603

section slow

variable {s : Arbiter} {x : Watch}

/-- A power on keeps the quiet of the registers it does not reset. -/
theorem Arbiter.Quiet.powerOn (h : s.Quiet) : s.powerOn.Quiet := by
  cases hf : s.rstNFast <;> cases hs : s.rstNSlow <;> constructor <;>
    simp [Arbiter.powerOn, Arbiter.setRstNFast, Arbiter.setRstNSlow, hf, hs, Fsm.reset,
      h.outCtrl0Sw, h.outCtrl0, h.inCtrl]

/-- An event that offers nothing leaves a quiet arbiter quiet. -/
theorem Arbiter.Quiet.step (h : s.Quiet) {e : Event} (hoffer : ¬ s.Offers e) :
    (s.step e).Quiet := by
  cases e with
  | rstNFast level =>
      cases level with
      | false => exact ⟨rfl, h.outCtrl0, h.inCtrl⟩
      | true => exact ⟨h.outCtrl0Sw, h.outCtrl0, h.inCtrl⟩
  | rstNSlow level =>
      cases level with
      | false => exact ⟨h.outCtrl0Sw, h.outCtrl0, rfl⟩
      | true => exact ⟨h.outCtrl0Sw, h.outCtrl0, h.inCtrl⟩
  | ingressFast value => exact ⟨h.outCtrl0Sw, h.outCtrl0, h.inCtrl⟩
  | ingressSlow value => exact ⟨h.outCtrl0Sw, h.outCtrl0, h.inCtrl⟩
  | clk fast slow =>
      have hslow : (s.clk fast slow).slow.inCtrl = false := by
        cases slow with
        | false => exact h.inCtrl
        | true =>
            cases hr : s.rstNSlow <;>
              simp [Arbiter.clk, Fsm.posedge, Fsm.clocked, Fsm.reset, hr, h.outCtrl0]
      cases fast with
      | false => exact ⟨h.outCtrl0Sw, h.outCtrl0, hslow⟩
      | true =>
          refine ⟨?_, h.outCtrl0Sw, hslow⟩
          cases hr : s.rstNFast with
          | false => simp [Arbiter.step, Arbiter.clk, Fsm.posedge, Fsm.reset, hr]
          | true =>
              have hlow : s.ingressFast.getLsbD 0 = false := by
                rw [← Bool.not_eq_true]
                exact fun hbit => hoffer ⟨rfl, hr, hbit⟩
              simpa [Arbiter.step, Arbiter.clk, Fsm.posedge, Fsm.clocked, hr] using hlow

/-- An edge that finds the machine past `READY_1` puts out what it had sampled. -/
theorem Fsm.At.outCtrl1_le {d : Fsm 16} {k : Nat} (h : d.At mxfsSlow k) (hin : d.inCtrl = false)
    {i : Bool} {g : BitVec 32} (hout : (d.posedge mxfsSlow true i g).outCtrl1 = true) :
    k + 1 ≤ 603 := by
  rcases Nat.lt_or_ge k 603 with hlt | hge
  · exact hlt
  · rw [Fsm.outCtrl1_posedge (h.valid hge), hin] at hout
    cases hout

/-- An edge that offers nothing keeps the Child's window. -/
theorem SlowWindow.clk (h : SlowWindow s x) (ht : Tracks s x) {fast slow : Bool}
    (hoffer : ¬ s.Offers (.clk fast slow)) :
    SlowWindow (s.clk fast slow) (x.step s (.clk fast slow)) := by
  refine ⟨h.quiet.step hoffer, ?_, ?_⟩
  · cases slow with
    | false => exact h.high
    | true =>
        intro k hk hpos hout
        obtain ⟨n, hn, rfl⟩ := Option.map_eq_some_iff.1 hk
        have hslow : (s.clk fast true).slow =
            s.slow.posedge mxfsSlow s.rstNSlow s.fast.outCtrl0 s.ingressSlow := rfl
        rw [hslow] at hout
        cases hr : s.rstNSlow with
        | false =>
            -- in reset the output falls
            have hinit : s.slow.internalStatusNext = statusInit := by
              rw [← ht.slow.held hr]
              rfl
            simp [Fsm.posedge, Fsm.nextOutCtrl1, hinit] at hout
        | true =>
            rw [hr] at hout
            exact (ht.slow.timed n hn hr).outCtrl1_le h.quiet.inCtrl hout
  · cases fast with
    | false => exact h.samples
    | true =>
        intro l y k hl hy hk hpos hout
        have hsamples : (x.step s (.clk true slow)).samples = x.samples.map (· ++ [x.sample s]) :=
          rfl
        obtain ⟨m, hm, rfl⟩ := Option.map_eq_some_iff.1 (hsamples ▸ hl)
        rcases List.mem_append.1 hy with hy | hy
        · exact h.samples m y k hm hy hk hpos hout
        · obtain rfl := List.mem_singleton.1 hy
          exact h.high k hk hpos hout

/-- **Every instant** without an offer keeps the slow domain's answers to `READY_1`. -/
theorem SlowWindow.step (h : SlowWindow s x) (ht : Tracks s x) {e : Event}
    (hoffer : ¬ s.Offers e) : SlowWindow (s.step e) (x.step s e) := by
  cases e with
  | rstNFast level =>
      refine ⟨h.quiet.step hoffer, ?_, ?_⟩
      · cases level with
        | false => exact h.high
        | true =>
            have hsame : (x.step s (.rstNFast true)).slowEdges = x.slowEdges := by
              simp only [Watch.step]
              split <;> rfl
            rw [hsame]
            exact h.high
      · cases level with
        | false => simp [Watch.step]
        | true =>
            simp only [Watch.step]
            split
            · exact h.samples
            · rintro l y k ⟨⟩ hy
              cases hy
  | rstNSlow level =>
      refine ⟨h.quiet.step hoffer, ?_, ?_⟩
      · cases level with
        | false => exact h.high
        | true =>
            simp only [Watch.step]
            split
            · exact h.high
            · rintro k ⟨⟩ hpos
              omega
      · cases level with
        | false => exact h.samples
        | true =>
            have hsame : (x.step s (.rstNSlow true)).samples = x.samples := by
              simp only [Watch.step]
              split <;> rfl
            rw [hsame]
            exact h.samples
  | ingressFast value => exact ⟨h.quiet.step hoffer, h.high, h.samples⟩
  | ingressSlow value => exact ⟨h.quiet.step hoffer, h.high, h.samples⟩
  | clk fast slow => exact h.clk ht hoffer

end slow

/-! ## grants over a whole history -/

/-- The bus is the Child's only outside the Mother's `READY_1`, and only in the
Child's own one or for an offer.  Edge `n` of the fast clock is the sample `n`. -/
structure GrantWindows (s : Arbiter) (x : Watch) (offered : Prop) : Prop where
  fast : ∀ l n, x.samples = some l → l.length = n + 4 → s.selector.q = false →
    n ≤ 202 ∨ 304 ≤ n
  slow : ∀ l n y k, x.samples = some l → l.length = n + 4 → l[n]? = some y →
    s.selector.q = false → y.slowEdges = some k → 0 < k → 403 ≤ k ∧ (k ≤ 603 ∨ offered)

/-- The Mother's window holds in every history. -/
theorem fastWindow_trace (s : Arbiter) (es : List Event) :
    FastWindow (trace s es).1 (trace s es).2 := by
  have hrun : Tracks (trace s es).1 (trace s es).2 ∧ FastWindow (trace s es).1 (trace s es).2 :=
    @run_invariant _ _ _ (fun _ _ => True)
      (fun x : Arbiter × Watch => Tracks x.1 x.2 ∧ FastWindow x.1 x.2) _ _
      (fun _ e h _ => ⟨h.1.step e, h.2.step h.1 e⟩) ⟨tracks_powerOn s, fastWindow_powerOn s⟩
      (along_of_forall (fun _ _ => trivial) _)
  exact hrun.2

/-- The Child's window holds in every history without an offer. -/
theorem slowWindow_trace {s : Arbiter} (hquiet : s.Quiet) {es : List Event}
    (hoffered : ¬ Offered s es) : SlowWindow (trace s es).1 (trace s es).2 := by
  have hnone : Along Arbiter.step (fun t e => ¬ t.Offers e) s.powerOn es := by
    refine along_of_points fun before e after hes hoffer => ?_
    exact hoffered ⟨before, e, after, hes, hoffer⟩
  have hstart : SlowWindow s.powerOn Watch.start := by
    refine ⟨hquiet.powerOn, ?_, ?_⟩ <;> simp [Watch.start]
  have hrun : Tracks (trace s es).1 (trace s es).2 ∧ SlowWindow (trace s es).1 (trace s es).2 :=
    @run_invariant _ _ _ (fun (x : Arbiter × Watch) e => ¬ x.1.Offers e)
      (fun x => Tracks x.1 x.2 ∧ SlowWindow x.1 x.2) _ _
      (fun _ e h hoffer => ⟨h.1.step e, h.2.step h.1 hoffer⟩) ⟨tracks_powerOn s, hstart⟩
      (hnone.carry (t := (s.powerOn, Watch.start)) (π := Prod.fst) fun _ _ => rfl)
  exact hrun.2

/-- **Grants are offers**, over every order of edges, resets and software writes that
follows a quiet power on.  The Mother keeps the bus while her own machine is in
`READY_1`.  Once the slow clock has had an edge since its release, the Child gets the
bus from 403 edges after that release on, and past the 603 of `READY_1` only if some
edge of the fast clock has sampled an offer. -/
theorem granted_offered (s : Arbiter) (hquiet : s.Quiet) (es : List Event) :
    GrantWindows (trace s es).1 (trace s es).2 (Offered s es) := by
  have hsafe := (tracks_trace s es).grantSafe
  have hfast := fastWindow_trace s es
  constructor
  · intro l n hl hlen hq
    obtain ⟨y, hy⟩ : ∃ y, l[n]? = some y := ⟨_, List.getElem?_eq_getElem (by omega)⟩
    exact hfast.samples l n y hl hy ((hsafe.grant l n y hl hlen hy).1 hq).1
  · intro l n y k hl hlen hy hq hk hpos
    refine ⟨(hsafe.settled l n y k hl hlen hy hq hk hpos).1, ?_⟩
    by_cases hoffered : Offered s es
    · exact .inr hoffered
    · have hhigh := ((hsafe.grant l n y hl hlen hy).1 hq).2
      exact .inl ((slowWindow_trace hquiet hoffered).samples l y k hl (List.mem_of_getElem? hy)
        hk hpos hhigh)

/-- Registers of a Mother that has not offered anything, before any reset. -/
def quietArbiter : Arbiter :=
  { staleArbiter with
    fast := ⟨statusReady1, 9#4, true, 255#8, false, false, false, 0⟩
    slow := ⟨9#4, statusReady0, false, 777#16, true, true, true, 0⟩ }

/-- Resets and software writes between a few edges. -/
theorem granted_offered_quiet :
    let es : List Event := [.rstNSlow false, .clk true true, .rstNFast false, .rstNSlow true,
      .ingressFast 1, .clk true false, .rstNFast true, .clk true true, .clk true false]
    GrantWindows (trace quietArbiter es).1 (trace quietArbiter es).2 (Offered quietArbiter es) :=
  granted_offered quietArbiter ⟨rfl, rfl, rfl⟩ _

/-! ## the Child's `READY_1` -/

/-- The fast domain is valid, and nothing is on its way to it. -/
structure Arbiter.Idle (s : Arbiter) : Prop where
  rstNFast : s.rstNFast = true
  rstNSlow : s.rstNSlow = true
  valid : s.fast.internalStatusNext = statusValid
  outCtrl1 : s.fast.outCtrl1 = false
  inCtrl : s.fast.inCtrl = false
  outCtrl0 : s.slow.outCtrl0 = false
  outCtrl0Sw : s.slow.outCtrl0Sw = false
  ingressSlow : s.ingressSlow.getLsbD 0 = false

/-- An idle arbiter stays idle over every edge. -/
theorem Arbiter.Idle.clk {s : Arbiter} (h : s.Idle) (fast slow : Bool) : (s.clk fast slow).Idle := by
  have hslow : (s.clk fast slow).slow.outCtrl0 = false ∧
      (s.clk fast slow).slow.outCtrl0Sw = false := by
    cases slow with
    | false => exact ⟨h.outCtrl0, h.outCtrl0Sw⟩
    | true =>
        refine ⟨h.outCtrl0Sw, ?_⟩
        simpa [Arbiter.clk, Fsm.posedge, Fsm.clocked, h.rstNSlow] using h.ingressSlow
  cases fast with
  | false =>
      exact ⟨h.rstNFast, h.rstNSlow, h.valid, h.outCtrl1, h.inCtrl, hslow.1, hslow.2, h.ingressSlow⟩
  | true =>
      have hfast : (s.clk true slow).fast =
          s.fast.posedge mxfsFast true s.slow.outCtrl0 s.ingressFast := by
        simp [Arbiter.clk, h.rstNFast]
      refine ⟨h.rstNFast, h.rstNSlow, ?_, ?_, ?_, hslow.1, hslow.2, h.ingressSlow⟩
      · rw [hfast]
        exact Fsm.valid_posedge h.valid _ _
      · rw [hfast, Fsm.outCtrl1_posedge h.valid]
        exact h.inCtrl
      · rw [hfast]
        exact h.outCtrl0

/-- What edges leave while the slow domain is in `READY_1`. -/
structure Arbiter.HandsOver (k n : Nat) (s : Arbiter) : Prop extends s.Idle where
  slow : s.slow.At mxfsSlow k
  shows : s.selector.Shows false true n

/-- The slow machine of an idle arbiter counts its edges. -/
theorem Arbiter.Idle.at_clk {s : Arbiter} (h : s.Idle) {k : Nat} (hk : s.slow.At mxfsSlow k)
    (fast : Bool) : (s.clk fast true).slow.At mxfsSlow (k + 1) := by
  have hslow : (s.clk fast true).slow =
      s.slow.posedge mxfsSlow true s.fast.outCtrl0 s.ingressSlow := by
    simp [Arbiter.clk, h.rstNSlow]
  rw [hslow]
  exact Fsm.at_posedge hk _ _

/-- One instant, with a slow domain that answers `H`. -/
theorem Arbiter.HandsOver.clk {s : Arbiter} {k n : Nat} (h : s.HandsOver k n) (hlow : 402 < k)
    (hhigh : k ≤ 603) (fast slow : Bool) :
    (s.clk fast slow).HandsOver (if slow then k + 1 else k) (if fast then n + 1 else n) := by
  have hout : s.slow.outCtrl1 = true :=
    h.slow.high (show 2 * (200 + 1) < k from hlow) (show k ≤ 3 * (200 + 1) from hhigh)
  refine ⟨h.toIdle.clk fast slow, ?_, ?_⟩
  · cases slow with
    | false => exact h.slow
    | true => exact h.toIdle.at_clk h.slow fast
  · cases fast with
    | false => exact h.shows
    | true =>
        have hsel : (s.clk true slow).selector = s.selector.posedge true false true := by
          simp [Arbiter.clk, h.rstNFast, h.outCtrl1, hout]
        rw [hsel]
        exact h.shows.posedge

/-- **The Child gets the bus in its `READY_1`**, offered or not: from any history that
left the fast domain valid and the Child's own line low, the 403rd edge of the slow
clock and four fast ones before its 604th hand the bus over. -/
theorem granted_unoffered (s : Arbiter) (hist : List Event) {k : Nat}
    (hslow : (trace s hist).2.slowEdges = some k) (hidle : (trace s hist).1.Idle)
    (xs ys : List Event) (hclk : ∀ e ∈ xs ++ ys, e.IsClk)
    (hxs : 403 ≤ k + xs.countP Event.slowEdge) (hys : 4 ≤ ys.countP Event.fastEdge)
    (hend : k + (xs ++ ys).countP Event.slowEdge ≤ 603) :
    (run Arbiter.step (trace s hist).1 (xs ++ ys)).selector.q = false := by
  simp only [List.mem_append] at hclk
  rw [List.countP_append] at hend
  have hat : (trace s hist).1.slow.At mxfsSlow k :=
    (tracks_trace s hist).slow.timed k hslow hidle.rstNSlow
  obtain ⟨hidle₁, hat₁⟩ := run_slow_stages (K := Arbiter.Idle)
    (J := fun n t => t.slow.At mxfsSlow (k + n)) Arbiter.Idle.clk
    (fun hs hn fast => hs.at_clk hn fast) (fun hn _ => hn) hidle hat
    fun e he => hclk e (.inl he)
  have hstages : ys.countP Event.slowEdge + (k + xs.countP Event.slowEdge) ≤ 603 →
      (∀ e ∈ ys, e.IsClk) → (run Arbiter.step (run Arbiter.step (trace s hist).1 xs) ys).HandsOver
        (ys.countP Event.slowEdge + (k + xs.countP Event.slowEdge)) (ys.countP Event.fastEdge) := by
    refine run_history (I := fun done (t : Arbiter) =>
      done.countP Event.slowEdge + (k + xs.countP Event.slowEdge) ≤ 603 → (∀ e ∈ done, e.IsClk) →
        t.HandsOver (done.countP Event.slowEdge + (k + xs.countP Event.slowEdge))
          (done.countP Event.fastEdge)) ?_ ?_ ys
    · intro done e t ih hcount hdone
      rw [List.countP_append] at hcount
      have hbefore := ih (by omega) fun x hx => hdone x (by simp [hx])
      obtain ⟨fast, slow, rfl⟩ := hdone e (by simp)
      have hnext := hbefore.clk (by omega) (by omega) fast slow
      rw [List.countP_append, List.countP_append]
      cases fast <;> cases slow <;>
        simpa [Arbiter.step, Event.fastEdge, Event.slowEdge, Nat.add_right_comm] using hnext
    · intro _ _
      rw [List.countP_nil, List.countP_nil, Nat.zero_add]
      exact ⟨hidle₁, hat₁, by omega, by omega, by omega, by omega⟩
  rw [run_append]
  exact (hstages (by omega) fun e he => hclk e (.inr he)).shows.q hys

/-- A Mother that is up, and offers nothing, while the Child comes up. -/
theorem granted_unoffered_up :
    let s : Arbiter :=
      { quietArbiter with
        fast := ⟨statusValid, statusValid, false, 0, false, false, false, 0⟩
        slow := ⟨9#4, statusReady0, true, 777#16, false, false, true, 0⟩
        ingressFast := 0 }
    (run Arbiter.step (trace s [.rstNSlow false, .rstNSlow true]).1
      (List.replicate 403 (.clk true true) ++ List.replicate 4 (.clk true false))).selector.q =
        false := by
  intro s
  refine granted_unoffered s [.rstNSlow false, .rstNSlow true] rfl
    ⟨rfl, rfl, rfl, rfl, rfl, rfl, rfl, by decide⟩ _ _ ?_ ?_ (by decide) ?_
  · intro e he
    rcases List.mem_append.1 he with he | he
    · exact ⟨true, true, List.eq_of_mem_replicate he⟩
    · exact ⟨true, false, List.eq_of_mem_replicate he⟩
  · rw [List.countP_replicate]
    decide
  · rw [List.countP_append, List.countP_replicate, List.countP_replicate]
    decide

/-! ## the requests win in the end -/

/-- **The requests settle after any history**: once both resets have been released, 303
edges of the fast clock and 603 of the slow one since then, two of each, two of each
and four of the fast one give the bus to whom the requests ask for, and it stays so
over every further edge. -/
theorem settles_after_resets (s : Arbiter) (hist : List Event) {l : List Sample} {k : Nat}
    (hfast : (trace s hist).2.samples = some l) (hslow : (trace s hist).2.slowEdges = some k)
    (hrst : (trace s hist).1.rstNSlow = true) (ws xs ys zs rest : List Event)
    (hclk : ∀ e ∈ ws ++ xs ++ ys ++ zs ++ rest, e.IsClk)
    (hws : 303 ≤ l.length + ws.countP Event.fastEdge ∧ 603 ≤ k + ws.countP Event.slowEdge)
    (hxs : 2 ≤ xs.countP Event.fastEdge ∧ 2 ≤ xs.countP Event.slowEdge)
    (hys : 2 ≤ ys.countP Event.fastEdge ∧ 2 ≤ ys.countP Event.slowEdge)
    (hzs : 4 ≤ zs.countP Event.fastEdge) :
    (run Arbiter.step (trace s hist).1 (ws ++ xs ++ ys ++ zs ++ rest)).selector.q =
      !((trace s hist).1.ingressFast.getLsbD 0 && !(trace s hist).1.ingressSlow.getLsbD 0) := by
  simp only [List.mem_append] at hclk
  have htracks := tracks_trace s hist
  have hrequests : (trace s hist).1.Requests ((trace s hist).1.ingressFast.getLsbD 0)
      ((trace s hist).1.ingressSlow.getLsbD 0) := ⟨(htracks.pipe l hfast).1, hrst, rfl, rfl⟩
  have hfastAt : (trace s hist).1.fast.At mxfsFast l.length :=
    (fastWindow_trace s hist).follows.timed l.length (by rw [hfast]; rfl) (htracks.pipe l hfast).1
  have hslowAt : (trace s hist).1.slow.At mxfsSlow k := htracks.slow.timed k hslow hrst
  have hwsclk : ∀ e ∈ ws, e.IsClk := fun e he => hclk e (by simp [he])
  obtain ⟨hrequests₁, hfastAt₁⟩ := run_fast_stages
    (J := fun n t => t.fast.At mxfsFast (l.length + n)) Arbiter.Requests.clk
    (fun hs hn slow => by
      rw [hs.fast_clk]
      exact Fsm.at_posedge hn _ _)
    (fun hn _ => hn) hrequests hfastAt hwsclk
  obtain ⟨-, hslowAt₁⟩ := run_slow_stages
    (J := fun n t => t.slow.At mxfsSlow (k + n)) Arbiter.Requests.clk
    (fun hs hn fast => by
      rw [hs.slow_clk]
      exact Fsm.at_posedge hn _ _)
    (fun hn _ => hn) hrequests hslowAt hwsclk
  have hvalid : (run Arbiter.step (trace s hist).1 ws).Valid
      ((trace s hist).1.ingressFast.getLsbD 0) ((trace s hist).1.ingressSlow.getLsbD 0) :=
    ⟨hrequests₁, hfastAt₁.valid hws.1, hslowAt₁.valid hws.2⟩
  have hannounced := hvalid.announced (fun e he => hclk e (by simp [he])) hxs.1 hxs.2
  have hanswered := hannounced.answered (fun e he => hclk e (by simp [he])) hys.1 hys.2
  have hlast : 4 ≤ (zs ++ rest).countP Event.fastEdge := by
    rw [List.countP_append]
    omega
  have hsettled := hanswered.settled (fun e he => hclk e (by grind)) hlast
  rw [List.append_assoc _ zs rest, run_append _ (ws ++ xs ++ ys), run_append _ (ws ++ xs),
    run_append _ ws, hsettled, Bool.and_comm]

/-- Both domains come up with the Mother's offer standing. -/
theorem settles_after_resets_offer :
    (run Arbiter.step (trace quietArbiter
        [.rstNFast false, .rstNSlow false, .ingressFast 1, .rstNSlow true, .rstNFast true]).1
      (List.replicate 603 (.clk true true) ++ [.clk true true, .clk true true] ++
        [.clk true false, .clk false true, .clk true true] ++
        List.replicate 4 (.clk true false) ++ [.clk false true])).selector.q = false := by
  refine settles_after_resets quietArbiter
    [.rstNFast false, .rstNSlow false, .ingressFast 1, .rstNSlow true, .rstNFast true]
    rfl rfl rfl _ _ _ _ _ ?_ ?_ (by decide) (by decide) (by decide)
  · intro e he
    simp only [List.append_assoc] at he
    rcases List.mem_append.1 he with he | he
    · exact ⟨true, true, List.eq_of_mem_replicate he⟩
    · have hclk : ∀ e ∈ [Event.clk true true, .clk true true] ++ ([.clk true false, .clk false true,
          .clk true true] ++ (List.replicate 4 (.clk true false) ++ [.clk false true])), e.IsClk := by
        simp [Event.IsClk]
      exact hclk e he
  · rw [List.countP_replicate, List.countP_replicate]
    decide

end Mxfs
