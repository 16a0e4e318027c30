import Mathlib.Data.List.Basic
import Mathlib.Data.List.Induction

/-!
# Mxfs.Lib.Run

Runs of a deterministic transition system: a step function over states and
operations, folded along a list of operations.  `Along` asks a condition of
every step taken, `Always` asks a property of every state reached, and the
induction rules (`run_invariant`, `run_simulates`, `always_iff_along`) are the
only places where a run is inducted on.
-/

namespace Lib

variable {S T Op : Type} {step : S → Op → S} {step' : T → Op → T}
variable {P : S → Op → Prop} {Q I : S → Prop}

/-! ## runs -/

/-- The state after the operations `ops`. -/
def run (step : S → Op → S) (s : S) (ops : List Op) : S := ops.foldl step s

@[simp] theorem run_nil (s : S) : run step s [] = s := rfl

@[simp] theorem run_cons (s : S) (op : Op) (ops : List Op) :
    run step s (op :: ops) = run step (step s op) ops := rfl

theorem run_append (s : S) (xs ys : List Op) :
    run step s (xs ++ ys) = run step (run step s xs) ys := List.foldl_append

/-! ## conditions on every step -/

/-- `P` holds of each operation of the run and the state it is taken in. -/
def Along (step : S → Op → S) (P : S → Op → Prop) : S → List Op → Prop
  | _, [] => True
  | s, op :: ops => P s op ∧ Along step P (step s op) ops

/-- A condition on the operation alone holds along a run when every operation meets it. -/
theorem along_of_forall {p : Op → Prop} (h : ∀ op ∈ ops, p op) (s : S) :
    Along step (fun _ op => p op) s ops := by
  induction ops generalizing s with
  | nil => trivial
  | cons op ops ih =>
      exact ⟨h op List.mem_cons_self, ih (fun x hx => h x (List.mem_cons_of_mem op hx)) _⟩

theorem Along.and {P' : S → Op → Prop} (h : Along step P s ops) (h' : Along step P' s ops) :
    Along step (fun s op => P s op ∧ P' s op) s ops := by
  induction ops generalizing s with
  | nil => trivial
  | cons op ops ih => exact ⟨⟨h.1, h'.1⟩, ih h.2 h'.2⟩

/-- A condition met at every point of the run holds along it. -/
theorem along_of_points
    (h : ∀ before op after, ops = before ++ op :: after → P (run step s before) op) :
    Along step P s ops := by
  induction ops generalizing s with
  | nil => trivial
  | cons op ops ih =>
      refine ⟨h [] op ops rfl, ih fun before x after hops => ?_⟩
      exact h (op :: before) x after (congrArg (op :: ·) hops)

/-- A run that carries another one along meets the conditions of that one. -/
theorem Along.carry {π : T → S} (hπ : ∀ t op, π (step' t op) = step (π t) op) {t : T}
    (h : Along step P (π t) ops) : Along step' (fun t op => P (π t) op) t ops := by
  induction ops generalizing t with
  | nil => trivial
  | cons op ops ih => exact ⟨h.1, ih (hπ t op ▸ h.2)⟩

/-! ## properties of every state -/

/-- `Q` holds of every state the run goes through, the first and the last included. -/
def Always (step : S → Op → S) (Q : S → Prop) : S → List Op → Prop
  | s, [] => Q s
  | s, op :: ops => Q s ∧ Always step Q (step s op) ops

theorem Always.head (h : Always step Q s ops) : Q s := by
  cases ops with
  | nil => exact h
  | cons op ops => exact h.1

theorem Always.last (h : Always step Q s ops) : Q (run step s ops) := by
  induction ops generalizing s with
  | nil => exact h
  | cons op ops ih => exact ih h.2

/-! ## induction rules -/

/-- **Invariant rule**: what every admissible step preserves holds at the end of
every admissible run. -/
theorem run_invariant (hstep : ∀ s op, I s → P s op → I (step s op))
    (h : I s) (ha : Along step P s ops) : I (run step s ops) := by
  induction ops generalizing s with
  | nil => exact h
  | cons op ops ih => exact ih (hstep s op h ha.1) ha.2

/-- **History rule**: an invariant that speaks of the operations done so far. -/
theorem run_history {I : List Op → S → Prop}
    (hstep : ∀ done op t, I done t → I (done ++ [op]) (step t op)) (h : I [] s) (ops : List Op) :
    I ops (run step s ops) := by
  induction ops using List.reverseRecOn with
  | nil => exact h
  | append_singleton ops op ih =>
      rw [run_append]
      exact hstep ops op _ ih

/-- **Simulation rule**: a relation each step preserves relates the two runs. -/
theorem run_simulates {R : S → T → Prop}
    (hstep : ∀ s t op, R s t → P s op → R (step s op) (step' t op))
    (h : R s t) (ha : Along step P s ops) : R (run step s ops) (run step' t ops) := by
  induction ops generalizing s t with
  | nil => exact h
  | cons op ops ih => exact ih (hstep s t op h ha.1) ha.2

/-- **Stage rule**: when each ticking step brings the next stage and the others
keep the stage, a run reaches as many stages as it has ticks. -/
theorem run_stages (step : S → Op → S) (J : Nat → S → Prop) (tick : Op → Bool)
    (hstep : ∀ n s op, P s op → J n s → J (if tick op then n + 1 else n) (step s op))
    (h : J 0 s) (ha : Along step P s ops) : J (ops.countP tick) (run step s ops) := by
  have hfrom : ∀ n s, J n s → Along step P s ops → J (n + ops.countP tick) (run step s ops) := by
    clear ha
    induction ops with
    | nil => exact fun n s h _ => h
    | cons op ops ih =>
        intro n s h ha
        have hnext := ih _ _ (hstep n s op ha.1 h) ha.2
        rw [List.countP_cons, run_cons]
        cases ht : tick op with
        | false => simpa [ht] using hnext
        | true => simpa [ht, Nat.add_assoc, Nat.add_comm 1] using hnext
  simpa using hfrom 0 s h ha

/-- **Exchange rule**: two conditions that agree on the states of an invariant
hold along the same runs. -/
theorem along_iff_along {P' : S → Op → Prop} (hstep : ∀ s op, I s → P s op → I (step s op))
    (hiff : ∀ s op, I s → (P' s op ↔ P s op)) (h : I s) :
    Along step P' s ops ↔ Along step P s ops := by
  induction ops generalizing s with
  | nil => simp [Along]
  | cons op ops ih =>
      rw [Along, Along, hiff s op h]
      exact and_congr_right fun hp => ih (hstep s op h hp)

/-- **Exact rule**: when an invariant implies `Q`, is kept by the steps that
meet `P`, and a step that breaks `P` breaks `Q`, the runs on which `Q` always
holds are those that meet `P` at each step. -/
theorem always_iff_along (hI : ∀ s, I s → Q s)
    (hstep : ∀ s op, I s → P s op → I (step s op))
    (hbad : ∀ s op, I s → ¬ P s op → ¬ Q (step s op)) (h : I s) :
    Always step Q s ops ↔ Along step P s ops := by
  induction ops generalizing s with
  | nil => exact ⟨fun _ => trivial, fun _ => hI s h⟩
  | cons op ops ih =>
      constructor
      · intro ha
        have hp : P s op := by
          by_contra hn
          exact hbad s op h hn ha.2.head
        exact ⟨hp, (ih (hstep s op h hp)).1 ha.2⟩
      · intro ha
        exact ⟨hI s h, (ih (hstep s op h ha.1)).2 ha.2⟩

/-! ## observations -/

/-- What `f` reports at each step of the run, in order. -/
def observe (step : S → Op → S) (f : S → Op → List α) : S → List Op → List α
  | _, [] => []
  | s, op :: ops => f s op ++ observe step f (step s op) ops

/-- **Simulation rule**, for what is observed: related states observe the same. -/
theorem observe_simulates {R : S → T → Prop} {f : S → Op → List α} {f' : T → Op → List α}
    (hstep : ∀ s t op, R s t → P s op → f s op = f' t op ∧ R (step s op) (step' t op))
    (h : R s t) (ha : Along step P s ops) : observe step f s ops = observe step' f' t ops := by
  induction ops generalizing s t with
  | nil => rfl
  | cons op ops ih =>
      obtain ⟨hobs, hnext⟩ := hstep s t op h ha.1
      rw [observe, observe, hobs, ih hnext ha.2]

/-- **Observation rule**: when each step of the simulating run adds to `g` what
is observed of the step, the run adds what is observed of the run. -/
theorem run_observes {R : S → T → Prop} {g : T → List α} {f : S → Op → List α}
    (hstep : ∀ s t op, R s t → P s op →
      R (step s op) (step' t op) ∧ g (step' t op) = g t ++ f s op)
    (h : R s t) (ha : Along step P s ops) :
    g (run step' t ops) = g t ++ observe step f s ops := by
  induction ops generalizing s t with
  | nil => simp [observe]
  | cons op ops ih =>
      obtain ⟨hr, hg⟩ := hstep s t op h ha.1
      rw [run_cons, ih hr ha.2, hg, observe, List.append_assoc]

/-- **Record rule**: a relation between the two states and what was observed so far. -/
theorem run_records {R : S → T → List α → Prop} {f : S → Op → List α}
    (hstep : ∀ s t xs op, R s t xs → P s op → R (step s op) (step' t op) (xs ++ f s op))
    (h : R s t []) (ha : Along step P s ops) :
    R (run step s ops) (run step' t ops) (observe step f s ops) := by
  have hfrom : ∀ s t xs, R s t xs → Along step P s ops →
      R (run step s ops) (run step' t ops) (xs ++ observe step f s ops) := by
    clear h ha
    induction ops with
    | nil => exact fun s t xs h _ => (List.append_nil xs).symm ▸ h
    | cons op ops ih =>
        intro s t xs h ha
        rw [observe, ← List.append_assoc]
        exact ih _ _ _ (hstep s t xs op h ha.1) ha.2
  exact hfrom s t [] h ha

/-- **Counting rule**: the simulating run counts by `g` how many things are observed. -/
theorem run_counts {R : S → T → Prop} {g : T → Nat} {f : S → Op → List α}
    (hstep : ∀ s t op, R s t → P s op →
      R (step s op) (step' t op) ∧ g (step' t op) = g t + (f s op).length)
    (h : R s t) (ha : Along step P s ops) :
    g (run step' t ops) = g t + (observe step f s ops).length := by
  induction ops generalizing s t with
  | nil => simp [observe]
  | cons op ops ih =>
      obtain ⟨hr, hg⟩ := hstep s t op h ha.1
      rw [run_cons, ih hr ha.2, hg, observe, List.length_append, Nat.add_assoc]

end Lib
