import Mathlib.Algebra.BigOperators.Intervals
import Mathlib.Algebra.BigOperators.Ring.Finset
import Mathlib.Data.Nat.Digits.Lemmas
import Mathlib.Data.BitVec
import Mathlib.Tactic.Ring

/-!
# Numbers as bytes, lowest byte first

Loops over such numbers keep a carry of `w` bits.  A term is added to it, its low byte is
the next byte of the result, and what is above that is the carry for the byte after.

* `bitAt_eq` : the bits, as loops over an exponent take them;
* `carryOut_value`, `carryIn_value` : while nothing overflows the carry, the result and
  the last carry together are the sum of the terms;
* `wrapped_product` : the product of two numbers of `n` digits, folded at the digit `n`.
-/

namespace NavHAL.Limbs

/-! ## The number -/

def value (bytes : List UInt8) : ℕ := Nat.ofDigits 256 (bytes.map UInt8.toNat)

@[simp] theorem value_nil : value [] = 0 := rfl

@[simp] theorem value_cons (b : UInt8) (bytes : List UInt8) :
    value (b :: bytes) = b.toNat + 256 * value bytes := Nat.ofDigits_cons

theorem value_append (xs ys : List UInt8) :
    value (xs ++ ys) = value xs + 256 ^ xs.length * value ys := by
  rw [value, List.map_append, Nat.ofDigits_append, List.length_map]
  rfl

theorem value_lt (bytes : List UInt8) : value bytes < 256 ^ bytes.length := by
  induction bytes with
  | nil => exact Nat.one_pos
  | cons b bytes ih =>
    have hb : b.toNat < 256 := b.toNat_lt
    rw [value_cons, List.length_cons, pow_succ]
    omega

theorem value_inj {xs ys : List UInt8} (hlen : xs.length = ys.length)
    (h : value xs = value ys) : xs = ys := by
  induction xs generalizing ys with
  | nil => exact (List.eq_nil_of_length_eq_zero hlen.symm).symm
  | cons x xs ih =>
    cases ys with
    | nil => cases hlen
    | cons y ys =>
      have hx : x.toNat < 256 := x.toNat_lt
      have hy : y.toNat < 256 := y.toNat_lt
      rw [value_cons, value_cons] at h
      have hhead : x = y := UInt8.toNat_inj.mp (by omega)
      rw [hhead, ih (Nat.succ.inj hlen) (by omega)]

@[simp] theorem value_zeros (n : ℕ) : value (List.replicate n 0) = 0 := by
  induction n with
  | zero => rfl
  | succ n ih => rw [List.replicate_succ, value_cons, ih]; rfl

/-- As a sum over the positions. -/
theorem value_eq_sum (bytes : List UInt8) :
    value bytes = ∑ j ∈ Finset.range bytes.length, (bytes.getD j 0).toNat * 256 ^ j := by
  induction bytes with
  | nil => rfl
  | cons b bytes ih =>
    rw [value_cons, List.length_cons, Finset.sum_range_succ', ih, Finset.mul_sum, add_comm]
    congr 1
    · apply Finset.sum_congr rfl
      intro j _
      rw [List.getD_cons_succ, pow_succ]
      ring
    · rw [List.getD_cons_zero, pow_zero, mul_one]

/-! A digit, and the digits from one on. -/

theorem value_drop (bytes : List UInt8) (k : ℕ) : value (bytes.drop k) = value bytes / 256 ^ k := by
  induction k generalizing bytes with
  | zero => rw [List.drop_zero, pow_zero, Nat.div_one]
  | succ k ih =>
    cases bytes with
    | nil => rw [List.drop_nil, value_nil, Nat.zero_div]
    | cons b bytes =>
      have hb : b.toNat < 256 := b.toNat_lt
      rw [List.drop_succ_cons, ih, value_cons, pow_succ', ← Nat.div_div_eq_div_mul,
        Nat.add_mul_div_left _ _ (by decide), Nat.div_eq_of_lt hb, Nat.zero_add]

theorem getD_value (bytes : List UInt8) (i : ℕ) :
    (bytes.getD i 0).toNat = value bytes / 256 ^ i % 256 := by
  rw [← value_drop]
  induction i generalizing bytes with
  | zero =>
    cases bytes with
    | nil => rfl
    | cons b bytes =>
      have hb : b.toNat < 256 := b.toNat_lt
      rw [List.drop_zero, value_cons, List.getD_cons_zero]
      omega
  | succ i ih =>
    cases bytes with
    | nil => rfl
    | cons b bytes =>
      rw [List.drop_succ_cons, List.getD_cons_succ]
      exact ih bytes

/-! ## Bits -/

theorem toNat_ofNat_byte (n : ℕ) : (UInt8.ofNat n).toNat = n % 256 := UInt8.toNat_ofNat'

theorem testBit_value (bytes : List UInt8) (i : ℕ) :
    (value bytes).testBit i = (bytes.getD (i / 8) 0).toNat.testBit (i % 8) := by
  induction bytes generalizing i with
  | nil => simp
  | cons b bytes ih =>
    have hb : b.toNat < 2 ^ 8 := b.toNat_lt
    rw [value_cons, Nat.add_comm, show 256 = 2 ^ 8 from rfl, Nat.testBit_two_pow_mul_add _ hb]
    by_cases hlow : i < 8
    · rw [if_pos hlow, Nat.div_eq_of_lt hlow, Nat.mod_eq_of_lt hlow, List.getD_cons_zero]
    · have hdiv : i / 8 = (i - 8) / 8 + 1 := by omega
      have hmod : i % 8 = (i - 8) % 8 := by omega
      rw [if_neg hlow, ih, hdiv, hmod, List.getD_cons_succ]

/-- `(bytes[i >> 3] >> (i & 7)) & 1` -/
def bitAt (bytes : List UInt8) (i : ℕ) : UInt8 :=
  (bytes.getD (i >>> 3) 0 >>> UInt8.ofNat (i &&& 7)) &&& 1

theorem bitAt_eq (bytes : List UInt8) (i : ℕ) :
    bitAt bytes i = if (value bytes).testBit i then 1 else 0 := by
  have hand : i &&& 7 = i % 8 := Nat.and_two_pow_sub_one_eq_mod i 3
  have hshift : (UInt8.ofNat (i % 8)).toNat % 8 = i % 8 := by
    rw [toNat_ofNat_byte]
    omega
  apply UInt8.toNat_inj.mp
  rw [bitAt, UInt8.toNat_and, UInt8.toNat_shiftRight, hand, hshift, Nat.shiftRight_eq_div_pow i 3,
    testBit_value, show (1 : UInt8).toNat = 1 from rfl, Nat.and_one_is_mod,
    Nat.shiftRight_eq_div_pow, ← Nat.toNat_testBit]
  cases (bytes.getD (i / 8) 0).toNat.testBit (i % 8) <;> rfl
/-! ## Loops with a carry -/

section Carry

variable {w : ℕ}

/-- `c += t; r[i] = c; c >>= 8` -/
def carryOut (c : BitVec w) : List (BitVec w) → List UInt8 × BitVec w
  | [] => ([], c)
  | t :: ts =>
    let rest := carryOut ((c + t) >>> 8) ts
    (UInt8.ofNat (c + t).toNat :: rest.1, rest.2)

/-- `c >>= 8; c += t; r[i] = c` -/
def carryIn (c : BitVec w) : List (BitVec w) → List UInt8 × BitVec w
  | [] => ([], c)
  | t :: ts =>
    let rest := carryIn ((c >>> 8) + t) ts
    (UInt8.ofNat ((c >>> 8) + t).toNat :: rest.1, rest.2)

@[simp] theorem carryOut_length (c : BitVec w) (ts : List (BitVec w)) :
    (carryOut c ts).1.length = ts.length := by
  induction ts generalizing c with
  | nil => rfl
  | cons t ts ih => rw [carryOut, List.length_cons, List.length_cons, ih]

@[simp] theorem carryIn_length (c : BitVec w) (ts : List (BitVec w)) :
    (carryIn c ts).1.length = ts.length := by
  induction ts generalizing c with
  | nil => rfl
  | cons t ts ih => rw [carryIn, List.length_cons, List.length_cons, ih]

/-- `bound` for the terms and `top` for the carry leave room in `w` bits. -/
structure Room (w bound top : ℕ) : Prop where
  fits : top + bound < 2 ^ w
  keeps : (top + bound) / 256 ≤ top

/-- The sum of the terms, each at its byte. -/
def total (ts : List (BitVec w)) : ℕ := Nat.ofDigits 256 (ts.map BitVec.toNat)

@[simp] theorem total_cons (t : BitVec w) (ts : List (BitVec w)) :
    total (t :: ts) = t.toNat + 256 * total ts := Nat.ofDigits_cons

theorem toNat_add_of_room {bound top : ℕ} (h : Room w bound top) {c t : BitVec w}
    (hc : c.toNat ≤ top) (ht : t.toNat ≤ bound) : (c + t).toNat = c.toNat + t.toNat := by
  have hfits := h.fits
  rw [BitVec.toNat_add, Nat.mod_eq_of_lt (by omega)]

theorem carryOut_value {bound top : ℕ} (h : Room w bound top) {ts : List (BitVec w)}
    (hts : ∀ t ∈ ts, t.toNat ≤ bound) {c : BitVec w} (hc : c.toNat ≤ top) :
    value (carryOut c ts).1 + 256 ^ ts.length * (carryOut c ts).2.toNat = c.toNat + total ts ∧
      (carryOut c ts).2.toNat ≤ top := by
  induction ts generalizing c with
  | nil =>
    refine ⟨?_, hc⟩
    simp [carryOut, total]
  | cons t ts ih =>
    have ht := hts t List.mem_cons_self
    have hsum := toNat_add_of_room h hc ht
    have hshift : ((c + t) >>> 8).toNat = (c.toNat + t.toNat) / 256 := by
      rw [BitVec.toNat_ushiftRight, hsum, Nat.shiftRight_eq_div_pow]
    have hnext : ((c + t) >>> 8).toNat ≤ top := by
      rw [hshift]
      exact (Nat.div_le_div_right (Nat.add_le_add hc ht)).trans h.keeps
    obtain ⟨hvalue, htop⟩ := ih (fun u hu => hts u (List.mem_cons_of_mem _ hu)) hnext
    refine ⟨?_, htop⟩
    rw [hshift] at hvalue
    rw [carryOut, value_cons, List.length_cons, total_cons, toNat_ofNat_byte, hsum, pow_succ]
    have hsplit := Nat.mod_add_div (c.toNat + t.toNat) 256
    calc (c.toNat + t.toNat) % 256 + 256 * value (carryOut ((c + t) >>> 8) ts).1 +
          256 ^ ts.length * 256 * (carryOut ((c + t) >>> 8) ts).2.toNat
        = (c.toNat + t.toNat) % 256 + 256 * (value (carryOut ((c + t) >>> 8) ts).1 +
          256 ^ ts.length * (carryOut ((c + t) >>> 8) ts).2.toNat) := by ring
      _ = (c.toNat + t.toNat) % 256 + 256 * ((c.toNat + t.toNat) / 256) +
          256 * total ts := by rw [hvalue]; ring
      _ = c.toNat + (t.toNat + 256 * total ts) := by rw [hsplit]; ring

/-- The last carry is kept whole: it has the last byte in it. -/
theorem carryIn_value {bound top : ℕ} (h : Room w bound top) {ts : List (BitVec w)} {t : BitVec w}
    (hts : ∀ u ∈ t :: ts, u.toNat ≤ bound) {c : BitVec w} (hc : c.toNat / 256 ≤ top) :
    value (carryIn c (t :: ts)).1.dropLast +
        256 ^ ts.length * (carryIn c (t :: ts)).2.toNat = c.toNat / 256 + total (t :: ts) ∧
      (carryIn c (t :: ts)).1.getLast? =
        some (UInt8.ofNat (carryIn c (t :: ts)).2.toNat) ∧
      (carryIn c (t :: ts)).2.toNat ≤ top + bound := by
  induction ts generalizing c t with
  | nil =>
    have ht := hts t List.mem_cons_self
    have hshift : (c >>> 8).toNat = c.toNat / 256 := by
      rw [BitVec.toNat_ushiftRight, Nat.shiftRight_eq_div_pow]
    have hsum := toNat_add_of_room h (hshift.trans_le hc) ht
    refine ⟨?_, rfl, ?_⟩
    · simp [carryIn, total, hsum, hshift]
    · rw [carryIn, carryIn, hsum, hshift]
      exact Nat.add_le_add hc ht
  | cons u ts ih =>
    have ht := hts t List.mem_cons_self
    have hshift : (c >>> 8).toNat = c.toNat / 256 := by
      rw [BitVec.toNat_ushiftRight, Nat.shiftRight_eq_div_pow]
    have hsum := toNat_add_of_room h (hshift.trans_le hc) ht
    rw [hshift] at hsum
    have hnext : ((c >>> 8) + t).toNat / 256 ≤ top := by
      rw [hsum]
      exact (Nat.div_le_div_right (Nat.add_le_add hc ht)).trans h.keeps
    obtain ⟨hvalue, hlast, htop⟩ := ih (fun v hv => hts v (List.mem_cons_of_mem _ hv)) hnext
    have hne : (carryIn ((c >>> 8) + t) (u :: ts)).1 ≠ [] := by
      rw [carryIn]
      exact List.cons_ne_nil _ _
    refine ⟨?_, ?_, htop⟩
    · rw [carryIn, List.dropLast_cons_of_ne_nil hne, value_cons, toNat_ofNat_byte,
        List.length_cons, total_cons, pow_succ, hsum]
      rw [hsum] at hvalue
      have hsplit := Nat.mod_add_div (c.toNat / 256 + t.toNat) 256
      calc (c.toNat / 256 + t.toNat) % 256 +
            256 * value (carryIn ((c >>> 8) + t) (u :: ts)).1.dropLast +
            256 ^ ts.length * 256 * (carryIn ((c >>> 8) + t) (u :: ts)).2.toNat
          = (c.toNat / 256 + t.toNat) % 256 +
            256 * (value (carryIn ((c >>> 8) + t) (u :: ts)).1.dropLast +
              256 ^ ts.length * (carryIn ((c >>> 8) + t) (u :: ts)).2.toNat) := by ring
        _ = (c.toNat / 256 + t.toNat) % 256 + 256 * ((c.toNat / 256 + t.toNat) / 256) +
            256 * total (u :: ts) := by rw [hvalue]; ring
        _ = c.toNat / 256 + (t.toNat + 256 * total (u :: ts)) := by rw [hsplit]; ring
    · rw [carryIn, List.getLast?_cons_of_ne_nil hne]
      exact hlast

end Carry

/-! ## Products -/

section Product

variable {R : Type*} [CommSemiring R] (a b : ℕ → R) (x : R) {n : ℕ}

/-- One digit of the first number times the second. -/
theorem shifted_row {j : ℕ} (hj : j ≤ n) :
    ∑ k ∈ Finset.range n, b k * x ^ (j + k) =
      ∑ i ∈ Finset.range n, (if j ≤ i then b (i - j) else x ^ n * b (i + n - j)) * x ^ i := by
  have hn : n = (n - j) + j := by omega
  have hleft : ∑ k ∈ Finset.range n, b k * x ^ (j + k) =
      ∑ k ∈ Finset.range (n - j), b k * x ^ (j + k) +
        ∑ m ∈ Finset.range j, b (n - j + m) * x ^ (n + m) := by
    conv_lhs => rw [hn, Finset.sum_range_add]
    congr 1
    apply Finset.sum_congr rfl
    intro m _
    rw [show j + (n - j + m) = n + m by omega]
  have hright : ∑ i ∈ Finset.range n,
        (if j ≤ i then b (i - j) else x ^ n * b (i + n - j)) * x ^ i =
      ∑ m ∈ Finset.range j, x ^ n * b (m + n - j) * x ^ m +
        ∑ k ∈ Finset.range (n - j), b k * x ^ (j + k) := by
    conv_lhs => rw [show n = j + (n - j) by omega, Finset.sum_range_add]
    rw [← show n = j + (n - j) by omega]
    congr 1
    · apply Finset.sum_congr rfl
      intro m hm
      rw [if_neg (by have := Finset.mem_range.mp hm; omega)]
    · apply Finset.sum_congr rfl
      intro k _
      rw [if_pos (Nat.le_add_right j k), Nat.add_sub_cancel_left]
  rw [hleft, hright, add_comm]
  congr 1
  apply Finset.sum_congr rfl
  intro m _
  rw [show m + n - j = n - j + m by omega, pow_add]
  ring

/-- What lies at `n` digits and above comes back at the low end, `x ^ n` times. -/
theorem wrapped_product :
    (∑ j ∈ Finset.range n, a j * x ^ j) * ∑ k ∈ Finset.range n, b k * x ^ k =
      ∑ i ∈ Finset.range n, (∑ j ∈ Finset.range (i + 1), a j * b (i - j) +
        x ^ n * ∑ j ∈ Finset.Ico (i + 1) n, a j * b (i + n - j)) * x ^ i := by
  have hrows : (∑ j ∈ Finset.range n, a j * x ^ j) * ∑ k ∈ Finset.range n, b k * x ^ k =
      ∑ j ∈ Finset.range n, ∑ i ∈ Finset.range n,
        a j * (if j ≤ i then b (i - j) else x ^ n * b (i + n - j)) * x ^ i := by
    rw [Finset.sum_mul]
    apply Finset.sum_congr rfl
    intro j hj
    have hrow := shifted_row b x (Finset.mem_range.mp hj).le
    calc a j * x ^ j * ∑ k ∈ Finset.range n, b k * x ^ k
        = a j * ∑ k ∈ Finset.range n, b k * x ^ (j + k) := by
          rw [mul_assoc, Finset.mul_sum]
          simp only [pow_add, mul_left_comm]
      _ = _ := by
          rw [hrow, Finset.mul_sum]
          simp only [mul_assoc]
  rw [hrows, Finset.sum_comm]
  apply Finset.sum_congr rfl
  intro i hi
  have hlow : i + 1 ≤ n := Finset.mem_range.mp hi
  rw [← Finset.sum_mul, ← Finset.sum_range_add_sum_Ico _ hlow, Finset.mul_sum]
  congr 2
  · apply Finset.sum_congr rfl
    intro j hj
    rw [if_pos (Nat.lt_succ_iff.mp (Finset.mem_range.mp hj))]
  · apply Finset.sum_congr rfl
    intro j hj
    have hgt : ¬ j ≤ i := by have := (Finset.mem_Ico.mp hj).1; omega
    rw [if_neg hgt]
    ring

end Product
end NavHAL.Limbs
