import Mathlib.Data.List.Basic

/-!
# Mxfs.Lib.Poll

Busy waiting: `while (1)` around a look at a device that may change with each
look.  The loop takes a bound on its looks; when a measure falls with every
look until the device stands still, any bound past the measure gives the same
result (`poll_adequate`), so nothing but an endless loop is cut off.

A program with several such loops takes one bound for all of them; `Ends` says
that large enough bounds give a result, and composes as the program does.
-/

namespace Lib

variable {σ β : Type} {look : σ → β × σ} {done : β → Bool}

/-- Look until `done`, at most `fuel` times; the device after the last look. -/
def poll (look : σ → β × σ) (done : β → Bool) : (fuel : Nat) → σ → Option σ
  | 0, _ => none
  | fuel + 1, s => if done (look s).1 then some (look s).2 else poll look done fuel (look s).2

/-- A device that stands still is waited for in vain, or not at all. -/
theorem poll_still {s : σ} (h : (look s).2 = s) (fuel : Nat) :
    poll look done (fuel + 1) s = if done (look s).1 then some s else none := by
  induction fuel with
  | zero => rw [poll, poll, h]
  | succ fuel ih =>
      rw [poll, h, ih]
      split <;> rfl

/-- More looks than it took change nothing. -/
theorem poll_mono {s r : σ} {n k : Nat} (h : poll look done n s = some r) (hle : n ≤ k) :
    poll look done k s = some r := by
  induction n generalizing s k with
  | zero => cases h
  | succ n ih =>
      obtain ⟨k, rfl⟩ : ∃ j, k = j + 1 := ⟨k - 1, by omega⟩
      rw [poll] at h ⊢
      split
      · simp_all
      · simp_all

/-- Looks that a part of the state decides are waited for in that part. -/
theorem poll_map {τ : Type} {g : σ → τ} {look' : τ → β × τ}
    (h : ∀ s, look' (g s) = ((look s).1, g (look s).2)) (fuel : Nat) (s : σ) :
    poll look' done fuel (g s) = (poll look done fuel s).map g := by
  induction fuel generalizing s with
  | zero => rfl
  | succ fuel ih =>
      rw [poll, poll, h, ih]
      split <;> rfl

/-- **Enough looks are enough**: bounds past the measure agree. -/
theorem poll_adequate {m : σ → Nat} (hfall : ∀ s, m s ≠ 0 → m (look s).2 < m s)
    (hstill : ∀ s, m s = 0 → (look s).2 = s) {s : σ} {n k : Nat} (hn : m s < n) (hk : m s < k) :
    poll look done n s = poll look done k s := by
  induction n generalizing s k with
  | zero => omega
  | succ n ih =>
      obtain ⟨k, rfl⟩ : ∃ j, k = j + 1 := ⟨k - 1, by omega⟩
      rcases Nat.eq_zero_or_pos (m s) with hz | hpos
      · rw [poll_still (hstill s hz), poll_still (hstill s hz)]
      · have hlt := hfall s (by omega)
        have hrest : poll look done n (look s).2 = poll look done k (look s).2 :=
          ih (by omega) (by omega)
        rw [poll, poll, hrest]

/-- **What waiting conserves**: a value `f` that looks keep until done, and that
the last look leaves as `g`. -/
theorem poll_conserves {α : Type} {f g : σ → α} {I : σ → Prop}
    (hwait : ∀ s, I s → done (look s).1 = false → I (look s).2 ∧ f (look s).2 = f s)
    (hdone : ∀ s, I s → done (look s).1 = true → g (look s).2 = f s)
    {s r : σ} (h : I s) {fuel : Nat} (hpoll : poll look done fuel s = some r) : g r = f s := by
  induction fuel generalizing s with
  | zero => cases hpoll
  | succ fuel ih =>
      rw [poll] at hpoll
      cases hd : done (look s).1 with
      | false =>
          obtain ⟨hI, hf⟩ := hwait s h hd
          rw [← hf]
          exact ih hI (by simpa [hd] using hpoll)
      | true =>
          obtain rfl : (look s).2 = r := by simpa [hd] using hpoll
          exact hdone s h hd

/-- **The wait ends** at the state `rest` tells, when looks keep `rest`, fall in
the measure until done, and the last one leaves `rest`. -/
theorem poll_rest (rest : σ → σ) {m : σ → Nat} {I : σ → Prop}
    (hwait : ∀ s, I s → m s ≠ 0 →
      done (look s).1 = false ∧ m (look s).2 < m s ∧ rest (look s).2 = rest s ∧ I (look s).2)
    (hdone : ∀ s, I s → m s = 0 → done (look s).1 = true ∧ (look s).2 = rest s)
    {s : σ} (h : I s) {fuel : Nat} (hfuel : m s < fuel) :
    poll look done fuel s = some (rest s) := by
  induction fuel generalizing s with
  | zero => omega
  | succ fuel ih =>
      rcases Nat.eq_zero_or_pos (m s) with hz | hpos
      · obtain ⟨hd, hrest⟩ := hdone s h hz
        simp [poll, hd, hrest]
      · obtain ⟨hd, hlt, hrest, hI⟩ := hwait s h (by omega)
        rw [← hrest, ← ih hI (by omega)]
        simp [poll, hd]

/-! ## programs with loops -/

/-- Every large enough bound gives the result `x`. -/
def Ends {α : Type} (f : Nat → Option α) (x : α) : Prop :=
  ∃ enough, ∀ fuel, enough ≤ fuel → f fuel = some x

section ends

variable {α γ : Type} {f : Nat → Option α} {x y : α}

theorem ends_some (x : α) : Ends (fun _ => some x) x := ⟨0, fun _ _ => rfl⟩

/-- The result is one only. -/
theorem Ends.unique (h : Ends f x) (h' : Ends f y) : x = y := by
  obtain ⟨n, hn⟩ := h
  obtain ⟨k, hk⟩ := h'
  exact Option.some.inj ((hn (n + k) (by omega)).symm.trans (hk (n + k) (by omega)))

/-- One program after another. -/
theorem Ends.bind {g : Nat → α → Option γ} {z : γ} (h : Ends f x)
    (hg : Ends (fun fuel => g fuel x) z) : Ends (fun fuel => (f fuel).bind (g fuel)) z := by
  obtain ⟨n, hn⟩ := h
  obtain ⟨k, hk⟩ := hg
  refine ⟨n + k, fun fuel hfuel => ?_⟩
  show (f fuel).bind (g fuel) = some z
  rw [hn fuel (by omega), Option.bind_some]
  exact hk fuel (by omega)

theorem Ends.map (h : Ends f x) (g : α → γ) : Ends (fun fuel => (f fuel).map g) (g x) := by
  obtain ⟨n, hn⟩ := h
  refine ⟨n, fun fuel hfuel => ?_⟩
  show (f fuel).map g = some (g x)
  rw [hn fuel hfuel, Option.map_some]

theorem Ends.congr {f' : Nat → Option α} (h : Ends f x) (hf : ∀ fuel, f' fuel = f fuel) :
    Ends f' x := by
  obtain ⟨n, hn⟩ := h
  exact ⟨n, fun fuel hfuel => (hf fuel).trans (hn fuel hfuel)⟩

end ends

end Lib
