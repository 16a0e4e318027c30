import Mxfs.Lib.Run
import Mxfs.Arbiter

/-!
# Mxfs.Settle

What constant requests of the software settle to.  A request passes two
registers of its own domain, two of the other one and four of the selector, and
each stretch is a stage count: an edge of the stretch's clock brings the next
stage, the other clock's edges keep it (`run_fast_stages`, `run_slow_stages`).
-/

namespace Mxfs

open Lib

/-! ## the registers a request passes -/

section stages

variable {w : Nat} {P : FsmParams w} {d : Fsm w} {a b : Bool} {n m : Nat}

/-- After `n` edges the first `n` registers of its own domain hold the request `a`. -/
structure Fsm.Announces (a : Bool) (n : Nat) (d : Fsm w) : Prop where
  valid : d.internalStatusNext = statusValid
  outCtrl0Sw : 1 ≤ n → d.outCtrl0Sw = a
  outCtrl0 : 2 ≤ n → d.outCtrl0 = a

/-- After `n` edges the first `n` registers of the other domain hold the request `b`. -/
structure Fsm.Answers (b : Bool) (n : Nat) (d : Fsm w) : Prop where
  inCtrl : 1 ≤ n → d.inCtrl = b
  outCtrl1 : 2 ≤ n → d.outCtrl1 = b

/-- A valid machine stays valid. -/
theorem Fsm.valid_posedge (h : d.internalStatusNext = statusValid) (i : Bool) (g : BitVec 32) :
    (d.posedge P true i g).internalStatusNext = statusValid := by
  simp [posedge, clocked, advance_valid h]

/-- A valid machine passes its input on. -/
theorem Fsm.outCtrl1_posedge (h : d.internalStatusNext = statusValid) (r i : Bool)
    (g : BitVec 32) : (d.posedge P r i g).outCtrl1 = d.inCtrl := by
  simp [posedge, nextOutCtrl1, h, statusInit, statusReady0, statusReady1, statusValid]

/-- A machine whose request stands announces it for an edge more. -/
theorem Fsm.Announces.posedge (h : d.Announces a n) {g : BitVec 32} (hg : g.getLsbD 0 = a)
    (i : Bool) : (d.posedge P true i g).Announces a (n + 1) := by
  constructor
  · exact valid_posedge h.valid i g
  · intro _
    exact hg
  · intro hn
    exact h.outCtrl0Sw (by omega)

/-- A valid machine answers an input that stands for an edge more. -/
theorem Fsm.Answers.posedge (h : d.Answers b n) (hvalid : d.internalStatusNext = statusValid)
    (g : BitVec 32) : (d.posedge P true b g).Answers b (n + 1) := by
  constructor
  · simp [Fsm.posedge, clocked]
  · intro hn
    rw [outCtrl1_posedge hvalid]
    exact h.inCtrl (by omega)

/-- A request announced for some edges is announced for fewer. -/
theorem Fsm.Announces.le (h : d.Announces a n) (hm : m ≤ n) : d.Announces a m :=
  ⟨h.valid, fun h1 => h.outCtrl0Sw (by omega), fun h2 => h.outCtrl0 (by omega)⟩

/-- An input answered for some edges is answered for fewer. -/
theorem Fsm.Answers.le (h : d.Answers b n) (hm : m ≤ n) : d.Answers b m :=
  ⟨fun h1 => h.inCtrl (by omega), fun h2 => h.outCtrl1 (by omega)⟩

end stages

/-- After `n` edges the first `n` registers of the selector hold what the domains answer. -/
structure Selector.Shows (fast slow : Bool) (n : Nat) (x : Selector) : Prop where
  sync1 : 1 ≤ n → x.outCtrl1FastSync1 = fast ∧ x.outCtrl1SlowSync1 = slow
  sync2 : 2 ≤ n → x.outCtrl1FastSync2 = fast ∧ x.outCtrl1SlowSync2 = slow
  state : 3 ≤ n → x.state = nextState fast slow
  q : 4 ≤ n → x.q = !(!fast && slow)

/-- Levels that stand move on in the pipe. -/
theorem Selector.Shows.posedge {x : Selector} {f s : Bool} {n : Nat} (h : x.Shows f s n) :
    (x.posedge true f s).Shows f s (n + 1) := by
  constructor
  · simp [Selector.posedge]
  · intro hn
    exact h.sync1 (by omega)
  · intro hn
    obtain ⟨hf, hs⟩ := h.sync2 (by omega)
    simp [Selector.posedge, hf, hs]
  · intro hn
    simp [Selector.posedge, h.state (by omega), output_nextState]

/-! ## the three stretches -/

/-- No reset is active and the software requests `a` of the fast domain and `b`
of the slow one. -/
structure Arbiter.Requests (a b : Bool) (s : Arbiter) : Prop where
  rstNFast : s.rstNFast = true
  rstNSlow : s.rstNSlow = true
  ingressFast : s.ingressFast.getLsbD 0 = a
  ingressSlow : s.ingressSlow.getLsbD 0 = b

/-- The state machines are valid besides. -/
structure Arbiter.Valid (a b : Bool) (s : Arbiter) : Prop extends s.Requests a b where
  fast : s.fast.internalStatusNext = statusValid
  slow : s.slow.internalStatusNext = statusValid

/-- Both requests left their own domain. -/
structure Arbiter.Announced (a b : Bool) (s : Arbiter) : Prop extends s.Requests a b where
  fast : s.fast.Announces a 2
  slow : s.slow.Announces b 2

/-- Both requests reached the selector. -/
structure Arbiter.Answered (a b : Bool) (s : Arbiter) : Prop extends s.Announced a b where
  fastAnswers : s.fast.Answers b 2
  slowAnswers : s.slow.Answers a 2

section stretches

variable {s : Arbiter} {a b : Bool} {es : List Event}

/-- No edge changes the requests. -/
theorem Arbiter.Requests.clk (h : s.Requests a b) (fast slow : Bool) :
    (s.clk fast slow).Requests a b :=
  ⟨h.rstNFast, h.rstNSlow, h.ingressFast, h.ingressSlow⟩

/-- An edge of the fast clock is one of the fast machine out of reset. -/
theorem Arbiter.Requests.fast_clk (h : s.Requests a b) (slow : Bool) :
    (s.clk true slow).fast = s.fast.posedge mxfsFast true s.slow.outCtrl0 s.ingressFast := by
  simp [Arbiter.clk, h.rstNFast]

/-- An edge of the slow clock is one of the slow machine out of reset. -/
theorem Arbiter.Requests.slow_clk (h : s.Requests a b) (fast : Bool) :
    (s.clk fast true).slow = s.slow.posedge mxfsSlow true s.fast.outCtrl0 s.ingressSlow := by
  simp [Arbiter.clk, h.rstNSlow]

/-- Both machines stay valid over every edge. -/
theorem Arbiter.Valid.clk (h : s.Valid a b) (fast slow : Bool) : (s.clk fast slow).Valid a b := by
  refine ⟨h.toRequests.clk fast slow, ?_, ?_⟩
  · cases fast with
    | false => exact h.fast
    | true =>
        rw [h.fast_clk]
        exact Fsm.valid_posedge h.fast _ _
  · cases slow with
    | false => exact h.slow
    | true =>
        rw [h.slow_clk]
        exact Fsm.valid_posedge h.slow _ _

/-- Requests that are announced stay so over every edge. -/
theorem Arbiter.Announced.clk (h : s.Announced a b) (fast slow : Bool) :
    (s.clk fast slow).Announced a b := by
  refine ⟨h.toRequests.clk fast slow, ?_, ?_⟩
  · cases fast with
    | false => exact h.fast
    | true =>
        rw [h.fast_clk]
        exact (h.fast.posedge h.ingressFast _).le (by omega)
  · cases slow with
    | false => exact h.slow
    | true =>
        rw [h.slow_clk]
        exact (h.slow.posedge h.ingressSlow _).le (by omega)

/-- The fast machine answers the slow one's request an edge longer. -/
theorem Arbiter.Announced.answers_fast (h : s.Announced a b) {n : Nat} (hn : s.fast.Answers b n)
    (slow : Bool) : (s.clk true slow).fast.Answers b (n + 1) := by
  rw [h.fast_clk, h.slow.outCtrl0 (Nat.le_refl 2)]
  exact hn.posedge h.fast.valid _

/-- The slow machine answers the fast one's request an edge longer. -/
theorem Arbiter.Announced.answers_slow (h : s.Announced a b) {n : Nat} (hn : s.slow.Answers a n)
    (fast : Bool) : (s.clk fast true).slow.Answers a (n + 1) := by
  rw [h.slow_clk, h.fast.outCtrl0 (Nat.le_refl 2)]
  exact hn.posedge h.slow.valid _

/-- Requests that are answered stay so over every edge. -/
theorem Arbiter.Answered.clk (h : s.Answered a b) (fast slow : Bool) :
    (s.clk fast slow).Answered a b := by
  refine ⟨h.toAnnounced.clk fast slow, ?_, ?_⟩
  · cases fast with
    | false => exact h.fastAnswers
    | true => exact (h.answers_fast h.fastAnswers slow).le (by omega)
  · cases slow with
    | false => exact h.slowAnswers
    | true => exact (h.answers_slow h.slowAnswers fast).le (by omega)

/-- The answers move on in the selector's pipe. -/
theorem Arbiter.Answered.shows (h : s.Answered a b) {n : Nat} (hn : s.selector.Shows b a n)
    (slow : Bool) : (s.clk true slow).selector.Shows b a (n + 1) := by
  have hsel : (s.clk true slow).selector = s.selector.posedge true b a := by
    simp [Arbiter.clk, h.rstNFast, h.fastAnswers.outCtrl1, h.slowAnswers.outCtrl1]
  rw [hsel]
  exact hn.posedge

end stretches

/-! ## the stages -/

section stages

variable {K : Arbiter → Prop} {J : Nat → Arbiter → Prop} {s : Arbiter} {es : List Event}

/-- Over edges that all keep `K`, each edge of the fast clock is a stage of `J`. -/
theorem run_fast_stages (hkeep : ∀ {s}, K s → ∀ fast slow, K (s.clk fast slow))
    (hedge : ∀ {s n}, K s → J n s → ∀ slow, J (n + 1) (s.clk true slow))
    (hstay : ∀ {s n}, J n s → ∀ slow, J n (s.clk false slow))
    (hK : K s) (hJ : J 0 s) (hclk : ∀ e ∈ es, e.IsClk) :
    K (run Arbiter.step s es) ∧ J (es.countP Event.fastEdge) (run Arbiter.step s es) := by
  refine run_stages Arbiter.step (fun n s => K s ∧ J n s) Event.fastEdge ?_ ⟨hK, hJ⟩
    (along_of_forall hclk s)
  rintro n s e ⟨fast, slow, rfl⟩ ⟨hK, hJ⟩
  cases fast with
  | false => exact ⟨hkeep hK false slow, hstay hJ slow⟩
  | true => exact ⟨hkeep hK true slow, hedge hK hJ slow⟩

/-- Over edges that all keep `K`, each edge of the slow clock is a stage of `J`. -/
theorem run_slow_stages (hkeep : ∀ {s}, K s → ∀ fast slow, K (s.clk fast slow))
    (hedge : ∀ {s n}, K s → J n s → ∀ fast, J (n + 1) (s.clk fast true))
    (hstay : ∀ {s n}, J n s → ∀ fast, J n (s.clk fast false))
    (hK : K s) (hJ : J 0 s) (hclk : ∀ e ∈ es, e.IsClk) :
    K (run Arbiter.step s es) ∧ J (es.countP Event.slowEdge) (run Arbiter.step s es) := by
  refine run_stages Arbiter.step (fun n s => K s ∧ J n s) Event.slowEdge ?_ ⟨hK, hJ⟩
    (along_of_forall hclk s)
  rintro n s e ⟨fast, slow, rfl⟩ ⟨hK, hJ⟩
  cases slow with
  | false => exact ⟨hkeep hK fast false, hstay hJ fast⟩
  | true => exact ⟨hkeep hK fast true, hedge hK hJ fast⟩

end stages

/-! ## the run -/

section run

variable {s : Arbiter} {a b : Bool} {es : List Event}

/-- Two edges of each clock bring the requests out of their domains. -/
theorem Arbiter.Valid.announced (h : s.Valid a b) (hclk : ∀ e ∈ es, e.IsClk)
    (hfast : 2 ≤ es.countP Event.fastEdge) (hslow : 2 ≤ es.countP Event.slowEdge) :
    (run step s es).Announced a b := by
  obtain ⟨hvalid, hf⟩ := run_fast_stages (J := fun n s => s.fast.Announces a n) Valid.clk
    (fun hs hn slow => by
      rw [hs.fast_clk]
      exact hn.posedge hs.ingressFast _)
    (fun hn _ => hn) h ⟨h.fast, by omega, by omega⟩ hclk
  obtain ⟨-, hs⟩ := run_slow_stages (J := fun n s => s.slow.Announces b n) Valid.clk
    (fun hs hn fast => by
      rw [hs.slow_clk]
      exact hn.posedge hs.ingressSlow _)
    (fun hn _ => hn) h ⟨h.slow, by omega, by omega⟩ hclk
  exact ⟨hvalid.toRequests, hf.le (by omega), hs.le (by omega)⟩

/-- Two more bring them through the other domain. -/
theorem Arbiter.Announced.answered (h : s.Announced a b) (hclk : ∀ e ∈ es, e.IsClk)
    (hfast : 2 ≤ es.countP Event.fastEdge) (hslow : 2 ≤ es.countP Event.slowEdge) :
    (run step s es).Answered a b := by
  obtain ⟨hannounced, hf⟩ := run_fast_stages (J := fun n s => s.fast.Answers b n)
    Announced.clk (fun hs hn => hs.answers_fast hn) (fun hn _ => hn) h ⟨by omega, by omega⟩ hclk
  obtain ⟨-, hs⟩ := run_slow_stages (J := fun n s => s.slow.Answers a n)
    Announced.clk (fun hs hn => hs.answers_slow hn) (fun hn _ => hn) h ⟨by omega, by omega⟩ hclk
  exact ⟨hannounced, hf.le (by omega), hs.le (by omega)⟩

/-- Four edges of the fast clock bring them through the selector. -/
theorem Arbiter.Answered.settled (h : s.Answered a b) (hclk : ∀ e ∈ es, e.IsClk)
    (hfast : 4 ≤ es.countP Event.fastEdge) : (run step s es).selector.q = !(!b && a) := by
  obtain ⟨-, hshows⟩ := run_fast_stages (J := fun n s => s.selector.Shows b a n)
    Answered.clk (fun hs hn => hs.shows hn) (fun hn _ => hn) h
    ⟨by omega, by omega, by omega, by omega⟩ hclk
  exact hshows.q (by omega)

end run

/-- **The arbitration settles**: with both state machines valid and the requests
held, two edges of each clock, two more of each and four of the fast one give
the bus to the Child exactly when only the fast domain is requested to, and it
stays so over every further edge. -/
theorem arbitration_settles (s : Arbiter) (hrst : s.rstNFast = true ∧ s.rstNSlow = true)
    (hvalid : s.fast.internalStatusNext = statusValid ∧ s.slow.internalStatusNext = statusValid)
    (xs ys zs rest : List Event) (hclk : ∀ e ∈ xs ++ ys ++ zs ++ rest, e.IsClk)
    (hxs : 2 ≤ xs.countP Event.fastEdge ∧ 2 ≤ xs.countP Event.slowEdge)
    (hys : 2 ≤ ys.countP Event.fastEdge ∧ 2 ≤ ys.countP Event.slowEdge)
    (hzs : 4 ≤ zs.countP Event.fastEdge) :
    (run Arbiter.step s (xs ++ ys ++ zs ++ rest)).selector.q =
      !(s.ingressFast.getLsbD 0 && !s.ingressSlow.getLsbD 0) := by
  simp only [List.mem_append] at hclk
  have h : s.Valid (s.ingressFast.getLsbD 0) (s.ingressSlow.getLsbD 0) :=
    ⟨⟨hrst.1, hrst.2, rfl, rfl⟩, hvalid.1, hvalid.2⟩
  have hannounced := h.announced (fun e he => hclk e (by simp [he])) hxs.1 hxs.2
  have hanswered := hannounced.answered (fun e he => hclk e (by simp [he])) hys.1 hys.2
  have hfast : 4 ≤ (zs ++ rest).countP Event.fastEdge := by
    rw [List.countP_append]
    omega
  have hsettled := hanswered.settled (fun e he => hclk e (by grind)) hfast
  rw [List.append_assoc _ zs rest, run_append _ (xs ++ ys), run_append _ xs, hsettled,
    Bool.and_comm]

/-- Registers left over from requests the other way round. -/
def staleArbiter : Arbiter where
  fast := ⟨statusValid, statusValid, true, 0, false, false, true, 0⟩
  slow := ⟨statusValid, statusValid, false, 0, true, true, false, 0⟩
  selector := ⟨selectorS1, true, true, false, false, true⟩
  rstNFast := true
  rstNSlow := true
  ingressFast := 1
  ingressSlow := 0

/-- The fast domain's request alone, over the stale registers. -/
theorem arbitration_settles_stale :
    (run Arbiter.step staleArbiter
      ([.clk true true, .clk true true] ++ [.clk true false, .clk false true, .clk true true] ++
        List.replicate 4 (.clk true false) ++ [.clk false true])).selector.q = false :=
  arbitration_settles staleArbiter ⟨rfl, rfl⟩ ⟨rfl, rfl⟩
    [.clk true true, .clk true true]
    [.clk true false, .clk false true, .clk true true] (List.replicate 4 (.clk true false))
    [.clk false true] (by simp [Event.IsClk]) (by decide) (by decide) (by decide)

end Mxfs
