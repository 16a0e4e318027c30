import Mathlib.Data.Int.CardIntervalMod

/-!
# Mxfs.Lib.Wear

How often a circular log over `B` blocks of `P` pages enters each of its blocks.
An item that starts a block enters it, but for the first item of all.

* `count_entered_le` — no block is entered twice more than another;
* `count_entered_le_of` — `E` rounds enter no block more than `E` times.
-/

namespace Lib

variable {B P : Nat}

/-- The blocks that `n` writes enter, in order; the first write of all enters none. -/
def entered (B P n : Nat) : List Nat := (List.range ((n - 1) / P)).map fun k => (k + 1) % B

theorem entered_succ (n : Nat) :
    entered B P (n + 1) = entered B P n ++ if n % P = 0 ∧ n ≠ 0 then [n / P % B] else [] := by
  rw [entered, entered, Nat.add_sub_cancel]
  by_cases h : n % P = 0 ∧ n ≠ 0
  · obtain ⟨hmod, hne⟩ := h
    have hdiv : n / P = (n - 1) / P + 1 := by
      obtain ⟨k, rfl⟩ : ∃ k, n = k + 1 := ⟨n - 1, by omega⟩
      rw [Nat.succ_div, if_pos (Nat.dvd_of_mod_eq_zero hmod), Nat.add_sub_cancel]
    rw [if_pos ⟨hmod, hne⟩, hdiv, List.range_succ, List.map_append, List.map_singleton]
  · have hdiv : n / P = (n - 1) / P := by
      rcases Nat.eq_zero_or_pos n with rfl | hpos
      · rfl
      · obtain ⟨k, rfl⟩ : ∃ k, n = k + 1 := ⟨n - 1, by omega⟩
        have hno : ¬ P ∣ k + 1 := fun hdvd => h ⟨Nat.mod_eq_zero_of_dvd hdvd, by omega⟩
        rw [Nat.succ_div, if_neg hno, Nat.add_sub_cancel, Nat.add_zero]
    rw [if_neg h, hdiv, List.append_nil]

theorem length_entered (n : Nat) : (entered B P n).length = (n - 1) / P := by
  rw [entered, List.length_map, List.length_range]

theorem lt_of_mem_entered (hB : 0 < B) {b n : Nat} (h : b ∈ entered B P n) : b < B := by
  obtain ⟨k, -, rfl⟩ := List.mem_map.1 h
  exact Nat.mod_lt _ hB

/-- A block is entered once a round. -/
theorem count_entered {b : Nat} (hb : b < B) (n : Nat) :
    (entered B P n).count b + (if b = 0 then 1 else 0) =
      ((n - 1) / P + 1) / B + if b < ((n - 1) / P + 1) % B then 1 else 0 := by
  have hcount : ∀ m, ((List.range m).map fun k => (k + 1) % B).count b + (if b = 0 then 1 else 0) =
      (m + 1).count (· ≡ b [MOD B]) := by
    intro m
    induction m with
    | zero =>
        have hzero : (0 ≡ b [MOD B]) ↔ b = 0 := by
          rw [Nat.ModEq, Nat.zero_mod, Nat.mod_eq_of_lt hb, eq_comm]
        simp [Nat.count_succ, hzero]
    | succ m ih =>
        rw [List.range_succ, List.map_append, List.count_append, Nat.count_succ, ← ih]
        simp only [List.map_singleton, List.count_singleton, beq_iff_eq, Nat.ModEq,
          Nat.mod_eq_of_lt hb]
        omega
  rw [entered, hcount, Nat.count_modEq_card _ (Nat.zero_lt_of_lt hb), Nat.mod_eq_of_lt hb]

/-- **Wear is level**: no block is entered twice more than another. -/
theorem count_entered_le {b b' : Nat} (hb : b < B) (hb' : b' < B) (n : Nat) :
    (entered B P n).count b ≤ (entered B P n).count b' + 1 := by
  have hcount := count_entered (P := P) hb n
  have hcount' := count_entered (P := P) hb' n
  split at hcount <;> split at hcount <;> split at hcount' <;> split at hcount' <;> omega

/-- **Endurance**: `n` writes within `E` rounds enter no block more than `E` times. -/
theorem count_entered_le_of {E n : Nat} (hP : 0 < P) (hn : n ≤ B * P * E) {b : Nat} (hb : b < B) :
    (entered B P n).count b ≤ E := by
  have hcount := count_entered (P := P) hb n
  rcases Nat.eq_zero_or_pos n with rfl | hpos
  · simp [entered]
  · have hm : (n - 1) / P + 1 ≤ B * E := by
      refine (Nat.div_lt_iff_lt_mul hP).2 ?_
      have hcomm : B * E * P = B * P * E := Nat.mul_right_comm B E P
      omega
    have hsplit := Nat.div_add_mod ((n - 1) / P + 1) B
    have hle : ((n - 1) / P + 1) / B ≤ E := Nat.div_le_of_le_mul hm
    rcases Nat.eq_or_lt_of_le hle with heq | hlt
    · have hrest : ((n - 1) / P + 1) % B = 0 := by
        rw [heq] at hsplit
        omega
      rw [hrest, if_neg (Nat.not_lt_zero b)] at hcount
      omega
    · split at hcount <;> split at hcount <;> omega

end Lib
