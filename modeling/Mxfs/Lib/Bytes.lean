import Mathlib.Data.List.Basic
import Mathlib.Data.List.Forall2
import Mathlib.Data.Nat.Bitwise

/-!
# Mxfs.Lib.Bytes

Byte-list plumbing: little-endian words, slices and in-place patches of a
buffer, bitwise `and` of two buffers, and arrays of fixed-width records read
by a strided loop.  Nothing here knows about a file system; the storage
proofs use these lemmas instead of redoing list arithmetic.
-/

namespace Lib

/-! ## take/drop over appended buffers -/

/-- Taking the length of a prefix from an append gives the prefix. -/
theorem take_append_of_length {xs ys : List α} (h : xs.length = k) :
    (xs ++ ys).take k = xs := by
  subst h; simp

/-- Dropping the length of a prefix from an append gives the suffix. -/
theorem drop_append_of_length {xs ys : List α} (h : xs.length = k) :
    (xs ++ ys).drop k = ys := by
  subst h; simp

/-! ## slices and patches -/

/-- The `n` items of `xs` from index `i`. -/
def slice (xs : List α) (i n : Nat) : List α := (xs.drop i).take n

/-- `memcpy` of `ys` into `xs` at index `i`. -/
def patch (xs : List α) (i : Nat) (ys : List α) : List α :=
  xs.take i ++ ys ++ xs.drop (i + ys.length)

/-- A slice is as long as asked for, or as there are bytes left. -/
theorem length_slice (xs : List α) (i n : Nat) :
    (slice xs i n).length = min n (xs.length - i) := by
  simp [slice]

/-- A slice of bytes that are there is as long as asked for. -/
theorem length_slice_of_le {xs : List α} (h : i + n ≤ xs.length) :
    (slice xs i n).length = n := by
  rw [length_slice]; omega

/-- The slice of an append that covers its middle part. -/
theorem slice_append_mid {xs ys zs : List α} (hi : xs.length = i) (hn : ys.length = n) :
    slice (xs ++ (ys ++ zs)) i n = ys := by
  rw [slice, drop_append_of_length hi, take_append_of_length hn]

/-- A slice past a prefix is a slice of the suffix. -/
theorem slice_append_right {xs ys : List α} (h : xs.length = k) :
    slice (xs ++ ys) (k + i) n = slice ys i n := by
  rw [slice, ← List.drop_drop, drop_append_of_length h, slice]

/-- A slice inside a prefix does not see the suffix. -/
theorem slice_append_left {xs ys : List α} (h : i + n ≤ xs.length) :
    slice (xs ++ ys) i n = slice xs i n := by
  rw [slice, List.drop_append_of_le_length (by omega),
    List.take_append_of_le_length (by rw [List.length_drop]; omega), slice]

/-- A slice inside the first `k` items does not see the rest. -/
theorem slice_take {xs : List α} (h : i + n ≤ k) : slice (xs.take k) i n = slice xs i n := by
  simp only [slice, List.drop_take, List.take_take]
  congr 1; omega

/-- A slice does not look at the bytes before it. -/
theorem slice_congr {xs ys : List α} (h : xs.drop k = ys.drop k) (hk : k ≤ i) (n : Nat) :
    slice xs i n = slice ys i n := by
  have hdrop : ∀ zs : List α, zs.drop i = (zs.drop k).drop (i - k) := by
    intro zs
    rw [List.drop_drop]
    congr 1; omega
  rw [slice, slice, hdrop xs, hdrop ys, h]

/-- A slice within a slice is one of the whole. -/
theorem slice_slice (xs : List α) (h : j + m ≤ n) :
    slice (slice xs i n) j m = slice xs (i + j) m := by
  simp only [slice, List.drop_take, List.take_take, List.drop_drop]
  congr 1; omega

/-- Two neighbouring slices make one. -/
theorem slice_append_slice (xs : List α) (i m n : Nat) :
    slice xs i m ++ slice xs (i + m) n = slice xs i (m + n) := by
  rw [slice, slice, slice, ← List.drop_drop, List.take_add]

/-- A patch keeps the length if it fits. -/
theorem length_patch {xs ys : List α} (h : i + ys.length ≤ xs.length) :
    (patch xs i ys).length = xs.length := by
  simp [patch]; omega

/-- After a patch the buffer reads as its old prefix followed by the data. -/
theorem take_patch {xs : List α} (ys : List α) (h : i ≤ xs.length) :
    (patch xs i ys).take (i + ys.length) = xs.take i ++ ys := by
  have hlen : (xs.take i ++ ys).length = i + ys.length := by simp; omega
  rw [patch]; exact take_append_of_length hlen

/-- A patch at the end is an append. -/
@[simp] theorem patch_length (xs ys : List α) : patch xs xs.length ys = xs ++ ys := by
  simp [patch]

/-- A write at the front. -/
theorem take_patch_zero {xs ys : List α} {n : Nat} (h : ys.length = n) :
    (patch xs 0 ys).take n = ys := by
  rw [patch, List.take_zero, List.nil_append]
  exact take_append_of_length h

/-- Behind a patch at the front the bytes stay. -/
theorem drop_patch_zero {xs ys : List α} {n : Nat} (h : ys.length ≤ n) :
    (patch xs 0 ys).drop n = xs.drop n := by
  rw [patch, List.take_zero, List.nil_append, Nat.zero_add, List.drop_append, List.drop_drop,
    List.drop_of_length_le h, List.nil_append]
  congr 1
  omega

/-- Two consecutive patches are one patch with both data. -/
theorem patch_patch (xs ys zs : List α) (h : i + ys.length + zs.length ≤ xs.length) :
    patch (patch xs i ys) (i + ys.length) zs = patch xs i (ys ++ zs) := by
  have hlen : (xs.take i ++ ys).length = i + ys.length := by simp; omega
  have hsplit : patch xs i ys = (xs.take i ++ ys) ++ xs.drop (i + ys.length) := rfl
  have htake : (patch xs i ys).take (i + ys.length) = xs.take i ++ ys :=
    take_patch ys (by omega)
  have hdrop : (patch xs i ys).drop (i + ys.length + zs.length) =
      xs.drop (i + (ys ++ zs).length) := by
    rw [hsplit, ← List.drop_drop, drop_append_of_length hlen, List.drop_drop,
      List.length_append, Nat.add_assoc]
  rw [patch, htake, hdrop, patch]; simp only [List.append_assoc]

/-! ## little-endian words -/

/-- The `k` low bytes of `n`, least significant first. -/
def leBytes : Nat → Nat → List UInt8
  | 0, _ => []
  | k + 1, n => UInt8.ofNat n :: leBytes k (n / 256)

/-- The number a little-endian byte list denotes. -/
def leNat : List UInt8 → Nat
  | [] => 0
  | b :: bs => b.toNat + 256 * leNat bs

/-- A number takes as many bytes as it is written to. -/
@[simp] theorem length_leBytes (k n : Nat) : (leBytes k n).length = k := by
  induction k generalizing n with
  | zero => rfl
  | succ k ih => simp [leBytes, ih]

/-- Reading back `k` bytes loses what does not fit in them. -/
theorem leNat_leBytes (k n : Nat) : leNat (leBytes k n) = n % 256 ^ k := by
  induction k generalizing n with
  | zero => simp [leBytes, leNat, Nat.mod_one]
  | succ k ih =>
      have hb : (UInt8.ofNat n).toNat = n % 256 := by simp
      rw [leBytes, leNat, ih, hb, Nat.pow_succ, Nat.mul_comm (256 ^ k) 256, Nat.mod_mul]

/-- A number that fits its bytes is read back. -/
theorem leNat_leBytes_of_lt (h : n < 256 ^ k) : leNat (leBytes k n) = n := by
  rw [leNat_leBytes, Nat.mod_eq_of_lt h]

/-- The number that bytes show fits them. -/
theorem leNat_lt (bs : List UInt8) : leNat bs < 256 ^ bs.length := by
  induction bs with
  | nil => simp [leNat]
  | cons b bs ih =>
      have hb : b.toNat < 256 := b.toNat_lt
      rw [leNat, List.length_cons, Nat.pow_succ]; omega

/-- Words of equal bytes only are equal. -/
theorem leNat_inj {xs ys : List UInt8} (hlen : xs.length = ys.length) (h : leNat xs = leNat ys) :
    xs = ys := by
  induction xs generalizing ys with
  | nil => exact (List.length_eq_zero_iff.1 hlen.symm).symm
  | cons x xs ih =>
      obtain _ | ⟨y, ys⟩ := ys
      · cases hlen
      · have hx : x.toNat < 256 := x.toNat_lt
        have hy : y.toNat < 256 := y.toNat_lt
        rw [leNat, leNat] at h
        have hhead : x.toNat = y.toNat := by omega
        have htail : leNat xs = leNat ys := by omega
        rw [UInt8.toNat_inj.1 hhead, ih (Nat.succ.inj hlen) htail]

/-! ## bitwise `and` of two buffers -/

/-- Bytewise `and`, as a NAND program operation combines a page with data. -/
def andBytes (xs ys : List UInt8) : List UInt8 := List.zipWith (· &&& ·) xs ys

@[simp] theorem length_andBytes (xs ys : List UInt8) :
    (andBytes xs ys).length = min xs.length ys.length := by
  simp [andBytes]

/-- The front of an `and` is that of the fronts. -/
theorem take_andBytes (xs ys : List UInt8) (n : Nat) :
    (andBytes xs ys).take n = andBytes (xs.take n) (ys.take n) := List.take_zipWith

/-- The rest of an `and` is that of the rests. -/
theorem drop_andBytes (xs ys : List UInt8) (n : Nat) :
    (andBytes xs ys).drop n = andBytes (xs.drop n) (ys.drop n) := List.drop_zipWith

/-- A slice of an `and` is that of the slices. -/
theorem slice_andBytes (xs ys : List UInt8) (i n : Nat) :
    slice (andBytes xs ys) i n = andBytes (slice xs i n) (slice ys i n) := by
  rw [slice, drop_andBytes, take_andBytes, slice, slice]

theorem andBytes_comm (xs ys : List UInt8) : andBytes xs ys = andBytes ys xs := by
  rw [andBytes, andBytes, List.zipWith_comm]
  simp only [UInt8.and_comm]

/-- An `and` goes part by part. -/
theorem andBytes_append {xs ys xs' ys' : List UInt8} (h : xs.length = ys.length) :
    andBytes (xs ++ xs') (ys ++ ys') = andBytes xs ys ++ andBytes xs' ys' :=
  List.zipWith_append h

/-- All ones change nothing. -/
theorem andBytes_ones (xs : List UInt8) : andBytes (List.replicate xs.length 0xFF) xs = xs := by
  induction xs with
  | nil => rfl
  | cons x xs ih =>
      have hx : (0xFF : UInt8) &&& x = x := by
        have : (0xFF : UInt8) = -1 := rfl
        rw [this, UInt8.neg_one_and]
      rw [List.length_cons, List.replicate_succ, andBytes, List.zipWith_cons_cons, hx]
      exact congrArg (x :: ·) ih

/-- Bytes are their own `and`. -/
theorem andBytes_self (xs : List UInt8) : andBytes xs xs = xs := by
  simp [andBytes, List.zipWith_self]

/-- What is masked already is masked no further. -/
theorem andBytes_absorb (xs ys : List UInt8) : andBytes (andBytes xs ys) xs = andBytes xs ys := by
  induction xs generalizing ys with
  | nil => rfl
  | cons x xs ih =>
      cases ys with
      | nil => rfl
      | cons y ys =>
          have hx : x &&& y &&& x = x &&& y := by
            rw [UInt8.and_comm x y, UInt8.and_assoc, UInt8.and_self]
          show (x &&& y &&& x) :: andBytes (andBytes xs ys) xs = (x &&& y) :: andBytes xs ys
          rw [hx, ih]

/-- Where `xs` is masked only from byte `n` on, the result lies between `xs` and
the whole `and`. -/
theorem andBytes_from {xs ys : List UInt8} (h : xs.length = ys.length) (n : Nat) :
    andBytes (xs.take n ++ (andBytes xs ys).drop n) xs = xs.take n ++ (andBytes xs ys).drop n ∧
      andBytes (andBytes xs ys) (xs.take n ++ (andBytes xs ys).drop n) = andBytes xs ys := by
  have hlen : ((andBytes xs ys).take n).length = (xs.take n).length := by
    rw [List.length_take, List.length_take, length_andBytes, h, Nat.min_self]
  constructor
  · calc andBytes (xs.take n ++ (andBytes xs ys).drop n) xs
        = andBytes (xs.take n ++ (andBytes xs ys).drop n) (xs.take n ++ xs.drop n) := by
          rw [List.take_append_drop]
      _ = andBytes (xs.take n) (xs.take n) ++ andBytes ((andBytes xs ys).drop n) (xs.drop n) :=
          andBytes_append rfl
      _ = xs.take n ++ (andBytes xs ys).drop n := by
          rw [andBytes_self, drop_andBytes, andBytes_absorb]
  · calc andBytes (andBytes xs ys) (xs.take n ++ (andBytes xs ys).drop n)
        = andBytes ((andBytes xs ys).take n ++ (andBytes xs ys).drop n)
            (xs.take n ++ (andBytes xs ys).drop n) := by rw [List.take_append_drop]
      _ = andBytes ((andBytes xs ys).take n) (xs.take n) ++
            andBytes ((andBytes xs ys).drop n) ((andBytes xs ys).drop n) := andBytes_append hlen
      _ = (andBytes xs ys).take n ++ (andBytes xs ys).drop n := by
          rw [andBytes_self, take_andBytes, andBytes_absorb]
      _ = andBytes xs ys := List.take_append_drop n _

/-- `and` of two words is `and` of their bytes. -/
theorem leNat_andBytes {xs ys : List UInt8} (h : xs.length = ys.length) :
    leNat (andBytes xs ys) = leNat xs &&& leNat ys := by
  induction xs generalizing ys with
  | nil => simp [andBytes, leNat]
  | cons x xs ih =>
      obtain _ | ⟨y, ys⟩ := ys
      · simp at h
      · have hlen : xs.length = ys.length := by simpa using h
        have hx : x.toNat < 2 ^ 8 := x.toNat_lt
        have hy : y.toNat < 2 ^ 8 := y.toNat_lt
        have hxy : (x &&& y).toNat = x.toNat &&& y.toNat := UInt8.toNat_and x y
        have hlt : x.toNat &&& y.toNat < 2 ^ 8 := Nat.and_lt_two_pow _ hy
        change (x &&& y).toNat + 256 * leNat (andBytes xs ys) =
          (x.toNat + 256 * leNat xs) &&& (y.toNat + 256 * leNat ys)
        rw [ih hlen, hxy]
        have hsplit : ∀ a b : Nat, a < 2 ^ 8 → a + 256 * b = 2 ^ 8 * b + a := by
          intro a b _; omega
        rw [hsplit _ _ hx, hsplit _ _ hy, hsplit _ _ hlt]
        apply Nat.eq_of_testBit_eq
        intro i
        rw [Nat.testBit_and, Nat.testBit_two_pow_mul_add _ hx,
          Nat.testBit_two_pow_mul_add _ hy, Nat.testBit_two_pow_mul_add _ hlt]
        split <;> simp

/-- A bit field of a word: `len` bits from bit `lo`. -/
def field (lo len w : Nat) : Nat := w / 2 ^ lo % 2 ^ len

/-- The bits of a field are those of the word from its first on. -/
theorem testBit_field (lo len w i : Nat) :
    (field lo len w).testBit i = (decide (i < len) && w.testBit (lo + i)) := by
  rw [field, Nat.testBit_mod_two_pow, Nat.testBit_div_two_pow, Nat.add_comm i lo]

/-- A field of an `and` is the `and` of the fields. -/
theorem field_and (lo len v w : Nat) :
    field lo len (v &&& w) = field lo len v &&& field lo len w := by
  apply Nat.eq_of_testBit_eq
  intro i
  simp only [Nat.testBit_and, testBit_field]
  cases decide (i < len) <;> simp

/-- A word whose bits lie in `m` is not changed by a word that has all of `m`. -/
theorem and_eq_of_mask {a c m : Nat} (ha : m &&& a = m) (hc : m &&& c = c) : a &&& c = c :=
  calc a &&& c = a &&& (m &&& c) := by rw [hc]
    _ = m &&& a &&& c := by rw [← Nat.and_assoc, Nat.and_comm a m]
    _ = c := by rw [ha, hc]

/-- The bits of a mask are set in a word that has each of them. -/
theorem and_eq_of_testBit {m w : Nat} (h : ∀ i, m.testBit i = true → w.testBit i = true) :
    m &&& w = m := by
  apply Nat.eq_of_testBit_eq
  intro i
  rw [Nat.testBit_and]
  cases hm : m.testBit i with
  | false => rfl
  | true => rw [h i hm, Bool.and_self]

/-- A bit of a mask whose bits are all set in the word. -/
theorem testBit_of_and_eq {m w i : Nat} (h : w &&& m = m) (hm : m.testBit i = true) :
    w.testBit i = true := by
  rw [← h, Nat.testBit_and, Bool.and_eq_true] at hm
  exact hm.1

/-- A mask whose bits are set in a field is one of the word. -/
theorem and_field {lo len m w : Nat} (h : m &&& field lo len w = m) :
    m * 2 ^ lo &&& w = m * 2 ^ lo := by
  refine and_eq_of_testBit fun i hi => ?_
  rw [Nat.testBit_mul_two_pow, Bool.and_eq_true, decide_eq_true_eq] at hi
  have hbit := testBit_of_and_eq (Nat.and_comm _ _ ▸ h) hi.2
  rw [testBit_field, Bool.and_eq_true, Nat.add_sub_cancel' hi.1] at hbit
  exact hbit.2

/-! ## arrays of fixed-width records -/

/-- The values of `n` in `for (n = start; n < len; n += step)`. -/
def offsets (start len step : Nat) : List Nat :=
  (List.range ((len - start + (step - 1)) / step)).map (fun k => start + k * step)

/-- Over a whole number of records the loop visits each record's start. -/
theorem offsets_mul (k : Nat) (h : 0 < step) :
    offsets 0 (k * step) step = (List.range k).map (· * step) := by
  have hk : (k * step - 0 + (step - 1)) / step = k := by
    rw [Nat.sub_zero, Nat.add_comm, Nat.add_mul_div_right _ _ h,
      Nat.div_eq_of_lt (by omega), Nat.zero_add]
  rw [offsets, hk]; simp only [Nat.zero_add]

/-- Starting one record later visits all records but the first. -/
theorem offsets_step_mul (k : Nat) (h : 0 < step) :
    offsets step (k * step) step = (offsets 0 (k * step) step).drop 1 := by
  rw [offsets_mul k h]
  obtain _ | k := k
  · have hz : (0 * step - step + (step - 1)) / step = 0 := Nat.div_eq_of_lt (by omega)
    rw [offsets, hz]; rfl
  · have hk : ((k + 1) * step - step + (step - 1)) / step = k := by
      have he : (k + 1) * step - step + (step - 1) = (step - 1) + k * step := by
        rw [Nat.add_mul]; omega
      rw [he, Nat.add_mul_div_right _ _ h, Nat.div_eq_of_lt (by omega), Nat.zero_add]
    rw [offsets, hk, List.range_succ_eq_map]
    simp only [List.map_cons, List.map_map, List.drop_succ_cons, List.drop_zero]
    apply List.map_congr_left
    intro i _
    simp only [Function.comp_apply, Nat.succ_eq_add_one, Nat.add_mul]; omega

/-- Pieces of one length add up to a multiple of it. -/
theorem length_flatMap_const {f : α → List β} {rs : List α} (h : ∀ r ∈ rs, (f r).length = w) :
    (rs.flatMap f).length = rs.length * w := by
  induction rs with
  | nil => simp
  | cons r rs ih =>
      rw [List.flatMap_cons, List.length_append, h r List.mem_cons_self,
        ih (fun x hx => h x (List.mem_cons_of_mem r hx)), List.length_cons, Nat.succ_mul,
        Nat.add_comm]

/-- Slicing an array of fixed-width records at a record's start gives that record. -/
theorem slice_flatMap {f : α → List β} {rs : List α} (h : ∀ r ∈ rs, (f r).length = w)
    (hi : i < rs.length) : slice (rs.flatMap f) (i * w) w = f rs[i] := by
  induction rs generalizing i with
  | nil => simp at hi
  | cons r rs ih =>
      have hr : (f r).length = w := h r List.mem_cons_self
      have hrs : ∀ x ∈ rs, (f x).length = w := fun x hx => h x (List.mem_cons_of_mem r hx)
      rw [List.flatMap_cons]
      obtain _ | i := i
      · rw [Nat.zero_mul, slice, List.drop_zero, take_append_of_length hr]; rfl
      · have hstep : (i + 1) * w = w + i * w := by rw [Nat.add_mul]; omega
        rw [hstep, slice_append_right hr, ih hrs (by simpa using hi)]; rfl

/-- The strided loop over an array of fixed-width records meets the records in order. -/
theorem offsets_forall₂ {f : α → List β} {rs : List α} {buf : List β} (hw : 0 < w)
    (h : ∀ r ∈ rs, (f r).length = w) (hbuf : buf.take (rs.length * w) = rs.flatMap f) :
    List.Forall₂ (fun n r => slice buf n w = f r) (offsets 0 (rs.length * w) w) rs := by
  rw [offsets_mul _ hw, List.forall₂_iff_get]
  refine ⟨by simp, ?_⟩
  intro i hi hi'
  have hle : i * w + w ≤ rs.length * w := by
    rw [← Nat.succ_mul]; exact Nat.mul_le_mul_right w hi'
  rw [List.get_eq_getElem, List.get_eq_getElem, List.getElem_map, List.getElem_range,
    ← slice_flatMap h hi', ← hbuf, slice_take hle]

/-- Folds over related lists agree when their steps do. -/
theorem foldl_forall₂ {R : α → β → Prop} {xs : List α} {ys : List β} {f : σ → α → σ}
    {g : σ → β → σ} (h : List.Forall₂ R xs ys) (hfg : ∀ s x y, R x y → f s x = g s y) (s : σ) :
    xs.foldl f s = ys.foldl g s := by
  induction h generalizing s with
  | nil => rfl
  | cons hxy _ ih => rw [List.foldl_cons, List.foldl_cons, hfg s _ _ hxy, ih]

end Lib
