import Mathlib.Data.List.Basic
import Mathlib.Data.List.Induction
import Mathlib.Data.Nat.ModEq

/-!
# Mxfs.Lib.Ring

A circular log over `B` blocks of `P` pages.  Items are written to the pages in
order, wrapping from the last block to the first, and entering a block erases
it.  `ringStore` is the content after a sequence of writes, and the theorems
say which items it still holds:

* `ringStore_eq_some` — a page holds exactly the live item of its slot;
* `live_iff` — the live items are the most recent `kept` ones;
* `slot_injOn` — no two live items share a slot;
* `ringStore_around` — once around from the write position, the pages hold the
  live items, oldest first.
-/

namespace Lib

variable {B P : Nat}

/-- The block and page of the `i`-th item, both from zero. -/
def slot (B P i : Nat) : Nat × Nat := (i / P % B, i % P)

/-- After `n` writes item `i` is live: fewer than `B` blocks were entered after its own. -/
def Live (B P n i : Nat) : Prop := i < n ∧ (n - 1) / P < i / P + B

/-- How many of `n` written items survive. -/
def kept (B P n : Nat) : Nat :=
  if n ≤ B * P then n else (B - 1) * P + (if n % P = 0 then P else n % P)

/-! ## the store -/

/-- One write: entering a block erases it, then the page takes the item. -/
def ringPut (B P : Nat) (st : Nat → Nat → Option α) (n : Nat) (a : α) : Nat → Nat → Option α :=
  fun b p =>
    if (b, p) = slot B P n then some a
    else if n % P = 0 ∧ b = n / P % B then none
    else st b p

/-- The content after writing `items` in order to an empty store. -/
def ringStore (B P : Nat) (items : List α) : Nat → Nat → Option α :=
  items.zipIdx.foldl (fun st x => ringPut B P st x.2 x.1) (fun _ _ => none)

@[simp] theorem ringStore_nil : ringStore B P ([] : List α) = fun _ _ => none := rfl

theorem ringStore_concat (items : List α) (a : α) :
    ringStore B P (items ++ [a]) = ringPut B P (ringStore B P items) items.length a := by
  rw [ringStore, List.zipIdx_append, List.foldl_append]
  simp [ringStore]

/-! ## liveness -/

theorem eq_of_mod_eq_of_lt {x y : Nat} (hxy : x ≤ y) (hlt : y < x + B) (h : x % B = y % B) :
    x = y := by
  have hd : B ∣ y - x := (Nat.modEq_iff_dvd' hxy).1 h
  have hz : y - x = 0 := Nat.eq_zero_of_dvd_of_lt hd (by omega)
  omega

/-- Two items in one slot, neither reclaimed by the other's block, are the same item. -/
theorem eq_of_slot_eq {i j : Nat} (hij : i ≤ j) (hlt : j / P < i / P + B)
    (h : slot B P i = slot B P j) : i = j := by
  obtain ⟨hb, hp⟩ := Prod.mk.inj h
  have hdiv : i / P = j / P := eq_of_mod_eq_of_lt (Nat.div_le_div_right hij) hlt hb
  rw [← Nat.div_add_mod i P, ← Nat.div_add_mod j P, hdiv, hp]

/-- Distinct live items have distinct slots. -/
theorem slot_injOn {n i j : Nat} (hi : Live B P n i) (hj : Live B P n j)
    (h : slot B P i = slot B P j) : i = j := by
  rcases Nat.le_total i j with hij | hji
  · have hle : j / P ≤ (n - 1) / P := Nat.div_le_div_right (by have := hj.1; omega)
    exact eq_of_slot_eq hij (by have := hi.2; omega) h
  · have hle : i / P ≤ (n - 1) / P := Nat.div_le_div_right (by have := hi.1; omega)
    exact (eq_of_slot_eq hji (by have := hj.2; omega) h.symm).symm

theorem live_self (hB : 0 < B) (n : Nat) : Live B P (n + 1) n :=
  ⟨Nat.lt_succ_self n, by rw [Nat.add_sub_cancel]; omega⟩

/-- Inside a block a write reclaims nothing. -/
theorem live_succ_of_mod_ne {n i : Nat} (hP : 0 < P) (h : n % P ≠ 0) (hi : i < n) :
    Live B P (n + 1) i ↔ Live B P n i := by
  have hdiv : (n - 1) / P = n / P := by
    have h1 : n - 1 = P * (n / P) + (n % P - 1) := by have := Nat.div_add_mod n P; omega
    have h2 : n % P - 1 < P := by have := Nat.mod_lt n hP; omega
    rw [h1, Nat.mul_add_div hP, Nat.div_eq_of_lt h2, Nat.add_zero]
  have hi' : i < n + 1 := by omega
  simp only [Live, Nat.add_sub_cancel, hdiv, hi, hi', true_and]

/-- Entering a block reclaims exactly the items of that block. -/
theorem live_succ_of_mod_eq {n i : Nat} (hP : 0 < P) (h : n % P = 0) (hi : i < n) :
    Live B P (n + 1) i ↔ Live B P n i ∧ i / P % B ≠ n / P % B := by
  obtain ⟨k, rfl⟩ := Nat.dvd_of_mod_eq_zero h
  obtain _ | q := k
  · omega
  have hn : P * (q + 1) / P = q + 1 := Nat.mul_div_cancel_left _ hP
  have hdiv : (P * (q + 1) - 1) / P = P * (q + 1) / P - 1 := by
    have h1 : P * (q + 1) - 1 = P * q + (P - 1) := by rw [Nat.mul_succ]; omega
    rw [h1, Nat.mul_add_div hP, Nat.div_eq_of_lt (by omega), hn]; rfl
  have hlt : i / P < P * (q + 1) / P := by
    rw [hn, Nat.div_lt_iff_lt_mul hP, Nat.mul_comm]; exact hi
  simp only [Live, Nat.add_sub_cancel, hdiv]
  constructor
  · rintro ⟨_, hlive⟩
    refine ⟨⟨hi, by omega⟩, fun heq => ?_⟩
    have := eq_of_mod_eq_of_lt (Nat.le_of_lt hlt) hlive heq
    omega
  · rintro ⟨⟨_, hlive⟩, hne⟩
    refine ⟨by omega, ?_⟩
    rcases Nat.lt_or_ge (P * (q + 1) / P) (i / P + B) with hc | hc
    · exact hc
    · -- the item's block is the one just entered
      have : P * (q + 1) / P = i / P + B := by omega
      exact absurd (by rw [this, Nat.add_mod_right]) hne

/-- **Content of the ring**: a page holds the live item whose slot it is. -/
theorem ringStore_eq_some (hB : 0 < B) (hP : 0 < P) (items : List α) (b p : Nat) (a : α) :
    ringStore B P items b p = some a ↔
      ∃ i, items[i]? = some a ∧ Live B P items.length i ∧ slot B P i = (b, p) := by
  induction items using List.reverseRecOn generalizing a with
  | nil => simp
  | append_singleton items x ih =>
      rw [ringStore_concat, ringPut, List.length_append, List.length_singleton]
      have hold : ∀ i < items.length, (items ++ [x])[i]? = items[i]? :=
        fun i hi => List.getElem?_append_left hi
      by_cases hslot : (b, p) = slot B P items.length
      · rw [if_pos hslot, Option.some.injEq]
        constructor
        · rintro rfl
          exact ⟨items.length, by simp, live_self hB _, hslot.symm⟩
        · rintro ⟨i, hget, hlive, hi⟩
          have hin : i = items.length :=
            slot_injOn hlive (live_self hB _) (hi.trans hslot)
          rw [hin] at hget
          simpa using hget
      · rw [if_neg hslot]
        -- the new item is elsewhere, so only the old ones can be on this page
        have hnew : (∃ i, (items ++ [x])[i]? = some a ∧ Live B P (items.length + 1) i ∧
            slot B P i = (b, p)) ↔ ∃ i, i < items.length ∧ items[i]? = some a ∧
            Live B P (items.length + 1) i ∧ slot B P i = (b, p) := by
          constructor
          · rintro ⟨i, hget, hlive, hi⟩
            have hlt : i < items.length := by
              rcases Nat.lt_or_ge i items.length with hlt | hge
              · exact hlt
              · have : i = items.length := by have := hlive.1; omega
                exact absurd (this ▸ hi.symm) hslot
            exact ⟨i, hlt, by rw [← hold i hlt]; exact hget, hlive, hi⟩
          · rintro ⟨i, hlt, hget, hlive, hi⟩
            exact ⟨i, by rw [hold i hlt]; exact hget, hlive, hi⟩
        rw [hnew]
        by_cases hmod : items.length % P = 0
        · by_cases hb : b = items.length / P % B
          · rw [if_pos ⟨hmod, hb⟩]
            constructor
            · intro h
              cases h
            · rintro ⟨i, hlt, _, hlive, hi⟩
              have := ((live_succ_of_mod_eq hP hmod hlt).1 hlive).2
              exact absurd (by rw [← hb]; exact congrArg Prod.fst hi) this
          · rw [if_neg (by tauto), ih]
            constructor
            · rintro ⟨i, hget, hlive, hi⟩
              have hne : i / P % B ≠ items.length / P % B := by
                rw [show i / P % B = b from congrArg Prod.fst hi]; exact hb
              exact ⟨i, hlive.1, hget, (live_succ_of_mod_eq hP hmod hlive.1).2 ⟨hlive, hne⟩, hi⟩
            · rintro ⟨i, hlt, hget, hlive, hi⟩
              exact ⟨i, hget, ((live_succ_of_mod_eq hP hmod hlt).1 hlive).1, hi⟩
        · rw [if_neg (by tauto), ih]
          constructor
          · rintro ⟨i, hget, hlive, hi⟩
            exact ⟨i, hlive.1, hget, (live_succ_of_mod_ne hP hmod hlive.1).2 hlive, hi⟩
          · rintro ⟨i, hlt, hget, hlive, hi⟩
            exact ⟨i, hget, (live_succ_of_mod_ne hP hmod hlt).1 hlive, hi⟩

/-- **The pages of a block fill from the front**. -/
theorem ringStore_front (hB : 0 < B) (hP : 0 < P) {items : List α} {b p p' : Nat} {a : α}
    (h : ringStore B P items b p = some a) (hlt : p' < p) :
    ∃ a', ringStore B P items b p' = some a' := by
  obtain ⟨i, hget, hlive, hslot⟩ := (ringStore_eq_some hB hP items b p a).1 h
  obtain ⟨hb, hp⟩ := Prod.mk.injEq .. ▸ hslot
  have hdm := Nat.div_add_mod i P
  have hmod := Nat.mod_lt i hP
  rw [hp] at hdm hmod
  -- the item put on page `p'` of the same round of the ring
  have hj : P * (i / P) + p' < items.length := by
    have := hlive.1
    omega
  have hdiv : (P * (i / P) + p') / P = i / P := by
    rw [Nat.mul_add_div hP, Nat.div_eq_of_lt (hlt.trans hmod), Nat.add_zero]
  have hrem : (P * (i / P) + p') % P = p' := by
    rw [Nat.mul_add_mod, Nat.mod_eq_of_lt (hlt.trans hmod)]
  refine ⟨items[P * (i / P) + p'], (ringStore_eq_some hB hP items b p' _).2
    ⟨P * (i / P) + p', List.getElem?_eq_getElem hj, ⟨hj, ?_⟩, ?_⟩⟩
  · rw [hdiv]
    exact hlive.2
  · rw [slot, hdiv, hrem, hb]

/-- What the ring holds was put there. -/
theorem mem_of_ringStore (hB : 0 < B) (hP : 0 < P) {items : List α} {b p : Nat} {a : α}
    (h : ringStore B P items b p = some a) : a ∈ items := by
  obtain ⟨i, hget, _⟩ := (ringStore_eq_some hB hP items b p a).1 h
  exact List.mem_of_getElem? hget

/-! ## counting the survivors -/

theorem succ_mod_of_lt {m : Nat} (h : m % P + 1 < P) : (m + 1) % P = m % P + 1 := by
  conv_lhs => rw [← Nat.div_add_mod m P]
  rw [Nat.add_assoc, Nat.mul_add_mod, Nat.mod_eq_of_lt h]

theorem succ_mod_of_eq {m : Nat} (h : m % P + 1 = P) : (m + 1) % P = 0 := by
  conv_lhs => rw [← Nat.div_add_mod m P]
  rw [Nat.add_assoc, Nat.mul_add_mod, h, Nat.mod_self]

/-- The live items are the most recent `kept` ones. -/
theorem live_iff (hB : 0 < B) (hP : 0 < P) {n i : Nat} (hi : i < n) :
    Live B P n i ↔ n - kept B P n ≤ i := by
  obtain ⟨m, rfl⟩ : ∃ m, n = m + 1 := ⟨n - 1, by omega⟩
  have hBP : B * P = (B - 1) * P + P := by
    rw [← Nat.succ_mul]; congr 1; omega
  have hdm := Nat.div_add_mod m P
  have hmod := Nat.mod_lt m hP
  -- liveness as a bound on the index: the oldest live block starts at a multiple of `P`
  have hlive : Live B P (m + 1) i ↔ P * (m / P) + P - B * P ≤ i := by
    simp only [Live, hi, true_and, Nat.add_sub_cancel]
    rw [← Nat.succ_le_iff, ← Nat.sub_le_iff_le_add, Nat.le_div_iff_mul_le hP, Nat.sub_mul,
      Nat.succ_mul, Nat.mul_comm (m / P) P]
  rw [hlive, kept]
  split
  · next hle =>
    have hlt : m / P < B := (Nat.div_lt_iff_lt_mul hP).2 hle
    have hblk : P * (m / P) + P ≤ B * P := by
      rw [← Nat.mul_succ, Nat.mul_comm B P]; exact Nat.mul_le_mul_left P hlt
    omega
  · next hgt =>
    have hrem : (if (m + 1) % P = 0 then P else (m + 1) % P) = m % P + 1 := by
      by_cases hlast : m % P + 1 = P
      · rw [if_pos (succ_mod_of_eq hlast), hlast]
      · have hs := succ_mod_of_lt (by omega : m % P + 1 < P)
        rw [if_neg (by omega), hs]
    rw [hrem]; omega

/-! ## once around -/

theorem kept_le (hB : 0 < B) (hP : 0 < P) (n : Nat) : kept B P n ≤ n ∧ kept B P n ≤ B * P := by
  have hBP : B * P = (B - 1) * P + P := by
    rw [← Nat.succ_mul]; congr 1; omega
  have hmod := Nat.mod_lt n hP
  unfold kept
  split
  · next hle => exact ⟨Nat.le_refl n, hle⟩
  · split <;> omega

/-- The slots come around. -/
theorem slot_add_mul (hP : 0 < P) (i : Nat) : slot B P (i + B * P) = slot B P i := by
  rw [slot, slot, Nat.add_mul_div_right i B hP, Nat.add_mod_right, Nat.mul_comm B P,
    Nat.add_mul_mod_self_left]

theorem slot_add_mul_mul (hP : 0 < P) (i k : Nat) : slot B P (i + B * P * k) = slot B P i := by
  induction k with
  | zero => rfl
  | succ k ih => rw [Nat.mul_succ, ← Nat.add_assoc, slot_add_mul hP, ih]

/-- The page `j` writes ahead holds the item of a turn ago, if that is live. -/
theorem ringStore_ahead (hB : 0 < B) (hP : 0 < P) (items : List α) {j : Nat} (hj : j < B * P) :
    ringStore B P items (slot B P (items.length + j)).1 (slot B P (items.length + j)).2 =
      if B * P - kept B P items.length ≤ j then items[items.length + j - B * P]? else none := by
  obtain ⟨hkn, hkB⟩ := kept_le hB hP items.length
  ext a
  rw [ringStore_eq_some hB hP]
  constructor
  · rintro ⟨i, hget, hlive, hslot⟩
    have hin := hlive.1
    -- the slot comes up again one turn after the item was put there
    have hturn : i + B * P = items.length + j := by
      have hfar : i / P + B ≤ (items.length + j) / P := by
        by_contra hnear
        have := eq_of_slot_eq (by omega : i ≤ items.length + j) (by omega) hslot
        omega
      have hdiv : (i + B * P) / P = i / P + B := Nat.add_mul_div_right i B hP
      have hbound : (items.length + j) / P ≤ (items.length - 1) / P + B := by
        rw [← Nat.add_mul_div_right (items.length - 1) B hP]
        exact Nat.div_le_div_right (by omega)
      have hclose := hlive.2
      have hslot' := (slot_add_mul hP i).trans hslot
      rcases Nat.lt_or_ge (items.length + j) (i + B * P) with hlt | hge
      · exact (eq_of_slot_eq (Nat.le_of_lt hlt) (by omega) hslot'.symm).symm
      · exact eq_of_slot_eq hge (by omega) hslot'
    have hkeep := (live_iff hB hP hin).1 hlive
    rw [if_pos (by omega), ← hturn, Nat.add_sub_cancel]
    exact hget
  · intro h
    split at h
    · next hkeep =>
      have hin : items.length + j - B * P < items.length := (List.getElem?_eq_some_iff.1 h).1
      refine ⟨items.length + j - B * P, h, (live_iff hB hP hin).2 (by omega), ?_⟩
      rw [← slot_add_mul hP, Nat.sub_add_cancel (by omega)]
    · cases h

/-- **Once around from the write position** the pages hold the live items, oldest first. -/
theorem ringStore_around (hB : 0 < B) (hP : 0 < P) (items : List α) :
    (List.range (B * P)).filterMap (fun j => ringStore B P items
        (slot B P (items.length + j)).1 (slot B P (items.length + j)).2) =
      items.drop (items.length - kept B P items.length) := by
  obtain ⟨hkn, hkB⟩ := kept_le hB hP items.length
  have hall : ∀ xs : List α, (List.range xs.length).filterMap (fun i => xs[i]?) = xs := by
    intro xs
    induction xs with
    | nil => rfl
    | cons x xs ih => simpa [List.range_succ_eq_map, List.filterMap_map, Function.comp_def] using ih
  have hcongr : (List.range (B * P)).filterMap (fun j => ringStore B P items
      (slot B P (items.length + j)).1 (slot B P (items.length + j)).2) =
        (List.range (B * P)).filterMap (fun j =>
          if B * P - kept B P items.length ≤ j then items[items.length + j - B * P]?
          else none) :=
    List.filterMap_congr fun j hj => ringStore_ahead hB hP items (List.mem_range.1 hj)
  have hsplit : List.range (B * P) = List.range (B * P - kept B P items.length) ++
      (List.range (kept B P items.length)).map (B * P - kept B P items.length + ·) := by
    rw [← List.range_add, Nat.sub_add_cancel hkB]
  have hnone : (List.range (B * P - kept B P items.length)).filterMap (fun j =>
      if B * P - kept B P items.length ≤ j then items[items.length + j - B * P]?
      else none) = [] := by
    rw [List.filterMap_eq_nil_iff]
    intro j hj
    exact if_neg (by have := List.mem_range.1 hj; omega)
  have hsome : ∀ t, t < kept B P items.length →
      (if B * P - kept B P items.length ≤ B * P - kept B P items.length + t then
        items[items.length + (B * P - kept B P items.length + t) - B * P]? else none) =
          (items.drop (items.length - kept B P items.length))[t]? := by
    intro t ht
    rw [if_pos (by omega), List.getElem?_drop]
    congr 1
    omega
  rw [hcongr, hsplit, List.filterMap_append, hnone, List.nil_append, List.filterMap_map]
  have hlen : (items.drop (items.length - kept B P items.length)).length =
      kept B P items.length := by
    rw [List.length_drop]; omega
  conv_rhs => rw [← hall (items.drop (items.length - kept B P items.length)), hlen]
  exact List.filterMap_congr fun t ht => hsome t (List.mem_range.1 ht)

/-- The slots from the write position on, then those before it, are the slots of
the next turn. -/
theorem slots_from (hP : 0 < P) (n : Nat) :
    ((List.range (B * P)).filter (fun j => !decide (j < n % (B * P))) ++
        (List.range (B * P)).filter fun j => decide (j < n % (B * P))).map (slot B P) =
      (List.range (B * P)).map fun j => slot B P (n + j) := by
  rcases Nat.eq_zero_or_pos (B * P) with hz | hpos
  · simp [hz]
  generalize hk : n % (B * P) = k
  have hlt : k < B * P := hk ▸ Nat.mod_lt n hpos
  have hdm : B * P * (n / (B * P)) + k = n := hk ▸ Nat.div_add_mod n (B * P)
  have hbefore : ∀ j ∈ List.range k, decide (j < k) = true := fun j hj => by
    simpa using List.mem_range.1 hj
  have hbehind : ∀ j ∈ (List.range (B * P - k)).map (k + ·), decide (j < k) = false := by
    intro j hj
    obtain ⟨t, _, rfl⟩ := List.mem_map.1 hj
    simp
  -- the slots in two at the position, and the turn in two where it comes around
  have hsplit : List.range (B * P) = List.range k ++ (List.range (B * P - k)).map (k + ·) := by
    rw [← List.range_add, Nat.add_sub_cancel' (Nat.le_of_lt hlt)]
  have hturn : List.range (B * P) =
      List.range (B * P - k) ++ (List.range k).map (B * P - k + ·) := by
    rw [← List.range_add, Nat.sub_add_cancel (Nat.le_of_lt hlt)]
  have hfirst : (List.range (B * P)).filter (fun j => !decide (j < k)) =
      (List.range (B * P - k)).map (k + ·) := by
    rw [hsplit, List.filter_append, List.filter_eq_nil_iff.2 (fun j hj => by simp [hbefore j hj]),
      List.filter_eq_self.2 (fun j hj => by simp [hbehind j hj]), List.nil_append]
  have hrest : (List.range (B * P)).filter (fun j => decide (j < k)) = List.range k := by
    rw [hsplit, List.filter_append, List.filter_eq_self.2 hbefore,
      List.filter_eq_nil_iff.2 (fun j hj => by simp [hbehind j hj]), List.append_nil]
  rw [hfirst, hrest, hturn, List.map_append, List.map_append, List.map_map, List.map_map]
  congr 1
  · refine List.map_congr_left fun t _ => ?_
    have hmove : n + t = k + t + B * P * (n / (B * P)) := by omega
    simp only [Function.comp]
    rw [hmove, slot_add_mul_mul hP]
  · refine List.map_congr_left fun t _ => ?_
    have hmove : n + (B * P - k + t) = t + B * P * (n / (B * P) + 1) := by
      rw [Nat.mul_succ]; omega
    simp only [Function.comp]
    rw [hmove, slot_add_mul_mul hP]

/-- The pages in order are the slots in order. -/
theorem map_slot_range (hP : 0 < P) :
    (List.range (B * P)).map (slot B P) =
      (List.range B).flatMap fun b => (List.range P).map fun p => (b, p) := by
  have hrows : ∀ n, (List.range (n * P)).map (fun j => (j / P, j % P)) =
      (List.range n).flatMap fun b => (List.range P).map fun p => (b, p) := by
    intro n
    induction n with
    | zero => simp
    | succ n ih =>
        rw [Nat.succ_mul, List.range_add, List.map_append, ih, List.range_succ,
          List.flatMap_append, List.map_map]
        congr 1
        rw [List.flatMap_singleton]
        refine List.map_congr_left fun p hp => ?_
        have hlt := List.mem_range.1 hp
        simp [Nat.add_comm (n * P), Nat.add_mul_div_right p n hP, Nat.div_eq_of_lt hlt,
          Nat.mod_eq_of_lt hlt]
  rw [← hrows]
  refine List.map_congr_left fun j hj => ?_
  have hlt : j / P < B := (Nat.div_lt_iff_lt_mul hP).2 (List.mem_range.1 hj)
  rw [slot, Nat.mod_eq_of_lt hlt]

end Lib
