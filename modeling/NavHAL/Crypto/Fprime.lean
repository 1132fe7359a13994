import NavHAL.Crypto.F25519
import NavHAL.Lib.Ladder

/-!
# Numbers modulo the order (`fprime.c`)

Strings of 32 bytes below a modulus, which is given to every call.

* `rawTrySub_value`, `shiftNBits_value`, `primeMsb_spec` : the steps the loops are made of;
* `Residue.add`, `Residue.mul`, `Residue.fromBytes` : what the three operations return.
-/

namespace NavHAL.Crypto

open Limbs Ladder

/-! ## As in the source -/

/-- `raw_add` -/
def rawAdd (x p : List UInt8) : List UInt8 :=
  (carryOut (0 : BitVec 16) (List.zipWith (fun x p => widen 16 x + widen 16 p) x p)).1

/-- `c = x[i] - p[i] - c; minusp[i] = c; c = (c >> 8) & 1;` -/
def borrowOut (c : BitVec 16) : List UInt8 → List UInt8 → List UInt8 × BitVec 16
  | x :: xs, p :: ps =>
    let c := widen 16 x - widen 16 p - c
    let rest := borrowOut ((c >>> 8) &&& 1) xs ps
    (UInt8.ofNat c.toNat :: rest.1, rest.2)
  | _, _ => ([], c)

/-- `fprime_select` -/
def fprimeSelect (zero one : List UInt8) (condition : UInt8) : List UInt8 :=
  f25519Select zero one condition

/-- `raw_try_sub` -/
def rawTrySub (x p : List UInt8) : List UInt8 :=
  let r := borrowOut 0 x p
  fprimeSelect r.1 x (UInt8.ofNat r.2.toNat)

/-- `while (x) { x >>= 1; i++; }` -/
def bitCount (x : UInt8) : ℕ :=
  if x = 0 then 0 else bitCount (x >>> 1) + 1
termination_by x.toNat
decreasing_by
  have hpos : x.toNat ≠ 0 := fun h => by simp_all [← UInt8.toNat_inj]
  rw [UInt8.toNat_shiftRight, Nat.shiftRight_eq_div_pow]
  exact Nat.div_lt_self (Nat.pos_of_ne_zero hpos) (by decide)

/-- `for (i = k - 1; i >= 0; i--) if (p[i]) break;` -/
def highestByte (p : List UInt8) : ℕ → ℕ
  | 0 => 0
  | i + 1 => if p.getD i 0 ≠ 0 then i else highestByte p i

/-- `prime_msb`, for a modulus other than zero -/
def primeMsb (p : List UInt8) : ℕ :=
  let i := highestByte p 32
  (i <<< 3) + bitCount (p.getD i 0) - 1

/-- `c |= x[i] << n; x[i] = c; c >>= 8;` -/
def shiftOut (n : ℕ) (c : BitVec 16) : List UInt8 → List UInt8
  | [] => []
  | x :: xs =>
    let c := c ||| (widen 16 x <<< n)
    UInt8.ofNat c.toNat :: shiftOut n (c >>> 8) xs

/-- `shift_n_bits` -/
def shiftNBits (x : List UInt8) (n : ℕ) : List UInt8 := shiftOut n 0 x

/-- `n[0] |= bits` -/
def orLowest (n : List UInt8) (bits : UInt8) : List UInt8 := n.set 0 (n.getD 0 0 ||| bits)

/-- One bit of `fprime_from_bytes`. -/
def fromBytesBit (modulus n : List UInt8) (bit : UInt8) : List UInt8 :=
  rawTrySub (orLowest (shiftNBits n 1) bit) modulus

/-- `fprime_from_bytes` -/
def fprimeFromBytes (x modulus : List UInt8) : List UInt8 :=
  let len := x.length
  let preloadTotal := min (primeMsb modulus - 1) (len <<< 3)
  let preloadBytes := preloadTotal >>> 3
  let preloadBits := preloadTotal &&& 7
  let rbits := (len <<< 3) - preloadTotal
  let n := (List.range preloadBytes).map (fun i => x.getD (len - preloadBytes + i) 0) ++
    List.replicate (32 - preloadBytes) 0
  let n := if preloadBits ≠ 0 then
      orLowest (shiftNBits n preloadBits)
        (x.getD (len - preloadBytes - 1) 0 >>> UInt8.ofNat (8 - preloadBits))
    else n
  (List.range rbits).reverse.foldl (fun n i => fromBytesBit modulus n (bitAt x i)) n

/-- `fprime_add` -/
def fprimeAdd (r a modulus : List UInt8) : List UInt8 := rawTrySub (rawAdd r a) modulus

/-- One bit of `fprime_mul`. -/
def mulBit (a modulus r : List UInt8) (bit : UInt8) : List UInt8 :=
  let r := rawTrySub (shiftNBits r 1) modulus
  let plusa := fprimeAdd r a modulus
  fprimeSelect r plusa bit

/-- `fprime_mul` -/
def fprimeMul (a b modulus : List UInt8) : List UInt8 :=
  (List.range (primeMsb modulus + 1)).reverse.foldl (fun r i => mulBit a modulus r (bitAt b i))
    (List.replicate 32 0)

/-! ## Comparing and subtracting -/

theorem borrowOut_length (c : BitVec 16) {xs ps : List UInt8} (hlen : xs.length = ps.length) :
    (borrowOut c xs ps).1.length = xs.length := by
  induction xs generalizing c ps with
  | nil => rfl
  | cons x xs ih =>
    cases ps with
    | nil => cases hlen
    | cons p ps =>
      rw [borrowOut, List.length_cons, List.length_cons, ih _ (Nat.succ.inj hlen)]

/-- One byte: what is written, and what is borrowed from the next. -/
theorem borrow_byte (x p : UInt8) {c : BitVec 16} (hc : c.toNat ≤ 1) :
    (UInt8.ofNat (widen 16 x - widen 16 p - c).toNat).toNat + p.toNat + c.toNat =
        x.toNat + 256 * (((widen 16 x - widen 16 p - c) >>> 8) &&& 1).toNat ∧
      (((widen 16 x - widen 16 p - c) >>> 8) &&& 1).toNat ≤ 1 := by
  have hx := x.toNat_lt
  have hp := p.toNat_lt
  have hwx := widen_toNat (w := 16) (by decide) x
  have hwp := widen_toNat (w := 16) (by decide) p
  have hbit : (((widen 16 x - widen 16 p - c) >>> 8) &&& 1).toNat =
      (widen 16 x - widen 16 p - c).toNat / 256 % 2 := by
    rw [BitVec.toNat_and, BitVec.toNat_ushiftRight, Nat.shiftRight_eq_div_pow,
      show (1 : BitVec 16).toNat = 1 from rfl, Nat.and_one_is_mod]
  rw [hbit, toNat_ofNat_byte]
  by_cases hge : p.toNat + c.toNat ≤ x.toNat
  · have hsub : (widen 16 x - widen 16 p - c).toNat = x.toNat - p.toNat - c.toNat := by bv_omega
    omega
  · have hsub : (widen 16 x - widen 16 p - c).toNat =
        2 ^ 16 + x.toNat - p.toNat - c.toNat := by bv_omega
    omega

theorem borrowOut_value {c : BitVec 16} (hc : c.toNat ≤ 1) {xs ps : List UInt8}
    (hlen : xs.length = ps.length) :
    value (borrowOut c xs ps).1 + value ps + c.toNat =
        value xs + 256 ^ xs.length * (borrowOut c xs ps).2.toNat ∧
      (borrowOut c xs ps).2.toNat ≤ 1 := by
  induction xs generalizing c ps with
  | nil =>
    cases ps with
    | nil =>
      refine ⟨?_, hc⟩
      simp [borrowOut]
    | cons p ps => cases hlen
  | cons x xs ih =>
    cases ps with
    | nil => cases hlen
    | cons p ps =>
      obtain ⟨hbyte, hnext⟩ := borrow_byte x p hc
      obtain ⟨hrest, hlast⟩ := ih hnext (Nat.succ.inj hlen)
      refine ⟨?_, hlast⟩
      simp only [borrowOut, value_cons, List.length_cons, pow_succ', Nat.mul_assoc]
      omega

theorem rawTrySub_length {x p : List UInt8} (hlen : x.length = p.length) :
    (rawTrySub x p).length = x.length := by
  have hborrow := borrowOut_length 0 hlen
  rw [rawTrySub, fprimeSelect, f25519Select_length hborrow, hborrow]

theorem rawTrySub_value {x p : List UInt8} (hlen : x.length = p.length) :
    value (rawTrySub x p) = if value x < value p then value x else value x - value p := by
  obtain ⟨hvalue, hlast⟩ := borrowOut_value (c := 0) (by decide) hlen
  have hborrow := borrowOut_length 0 hlen
  have hsmall := value_lt (borrowOut 0 x p).1
  have hx := value_lt x
  rw [hborrow] at hsmall
  rw [show (0 : BitVec 16).toNat = 0 from rfl, Nat.add_zero] at hvalue
  rw [rawTrySub, fprimeSelect]
  rcases Nat.le_one_iff_eq_zero_or_eq_one.mp hlast with h | h
  · rw [h, Nat.mul_zero, Nat.add_zero] at hvalue
    rw [h, show UInt8.ofNat 0 = 0 from rfl, select_zero hborrow, if_neg (by omega)]
    omega
  · rw [h, Nat.mul_one] at hvalue
    rw [h, show UInt8.ofNat 1 = 1 from rfl, select_one hborrow, if_pos (by omega)]

/-- Below twice the modulus, it is the remainder. -/
theorem rawTrySub_mod {x p : List UInt8} (hlen : x.length = p.length)
    (hlt : value x < 2 * value p) : value (rawTrySub x p) = value x % value p := by
  rw [rawTrySub_value hlen]
  split
  · next h => rw [Nat.mod_eq_of_lt h]
  · next h => rw [Nat.mod_eq_sub_mod (Nat.le_of_not_lt h), Nat.mod_eq_of_lt (by omega)]

theorem rawAdd_length {x p : List UInt8} (hlen : x.length = p.length) :
    (rawAdd x p).length = x.length := by
  rw [rawAdd, carryOut_length, List.length_zipWith, hlen, Nat.min_self]

theorem rawAdd_value {x p : List UInt8} (hlen : x.length = p.length)
    (hlt : value x + value p < 256 ^ x.length) : value (rawAdd x p) = value x + value p := by
  have hroom : Room 16 510 2 := ⟨by decide, by decide⟩
  obtain ⟨hvalue, -⟩ := carryOut_value hroom (widen_add_le x p) (c := 0) (by decide)
  rw [total_add widen_add hlen, List.length_zipWith, hlen, Nat.min_self, ← rawAdd,
    show (0 : BitVec 16).toNat = 0 from rfl, Nat.zero_add] at hvalue
  rw [hlen] at hlt
  rcases Nat.eq_zero_or_pos (carryOut (0 : BitVec 16)
    (List.zipWith (fun x p => widen 16 x + widen 16 p) x p)).2.toNat with h | h
  · rw [h, Nat.mul_zero, Nat.add_zero] at hvalue
    exact hvalue
  · have hle := Nat.le_mul_of_pos_right (256 ^ p.length) h
    omega

/-! ## Shifting -/

theorem shiftOut_length (n : ℕ) (c : BitVec 16) (xs : List UInt8) :
    (shiftOut n c xs).length = xs.length := by
  induction xs generalizing c with
  | nil => rfl
  | cons x xs ih => rw [shiftOut, List.length_cons, List.length_cons, ih]

/-- The bits of the carry and of the shifted byte do not meet. -/
theorem or_shift_toNat {n : ℕ} (hn : n ≤ 8) {c : BitVec 16} (hc : c.toNat < 2 ^ n) (x : UInt8) :
    (c ||| (widen 16 x <<< n)).toNat = 2 ^ n * x.toNat + c.toNat ∧
      ((c ||| (widen 16 x <<< n)) >>> 8).toNat < 2 ^ n := by
  have hx : x.toNat ≤ 255 := Nat.le_of_lt_succ x.toNat_lt
  have hpow : 2 ^ n ≤ 2 ^ 8 := Nat.pow_le_pow_right (by decide) hn
  have hmul : 2 ^ n * x.toNat ≤ 2 ^ n * 255 := Nat.mul_le_mul_left _ hx
  have hshift : (widen 16 x <<< n).toNat = 2 ^ n * x.toNat := by
    rw [BitVec.toNat_shiftLeft, widen_toNat (by decide), Nat.shiftLeft_eq, Nat.mul_comm,
      Nat.mod_eq_of_lt (by omega)]
  have hor : (c ||| (widen 16 x <<< n)).toNat = 2 ^ n * x.toNat + c.toNat := by
    rw [BitVec.toNat_or, hshift, Nat.or_comm, Nat.two_pow_add_eq_or_of_lt hc]
  refine ⟨hor, ?_⟩
  rw [BitVec.toNat_ushiftRight, hor, Nat.shiftRight_eq_div_pow]
  omega

theorem shiftOut_value {n : ℕ} (hn : n ≤ 8) {c : BitVec 16} (hc : c.toNat < 2 ^ n)
    (xs : List UInt8) :
    value (shiftOut n c xs) = (2 ^ n * value xs + c.toNat) % 256 ^ xs.length := by
  induction xs generalizing c with
  | nil => rw [List.length_nil, pow_zero, Nat.mod_one]; rfl
  | cons x xs ih =>
    obtain ⟨hor, hnext⟩ := or_shift_toNat hn hc x
    have hshift : ((c ||| (widen 16 x <<< n)) >>> 8).toNat = (2 ^ n * x.toNat + c.toNat) / 256 := by
      rw [BitVec.toNat_ushiftRight, hor, Nat.shiftRight_eq_div_pow]
    have hsum : 2 ^ n * (x.toNat + 256 * value xs) + c.toNat =
        (2 ^ n * x.toNat + c.toNat) + 256 * (2 ^ n * value xs) := by ring
    rw [shiftOut, value_cons, value_cons, List.length_cons, pow_succ', hsum, Nat.mod_mul,
      toNat_ofNat_byte, hor, ih hnext, hshift, Nat.add_mul_mod_self_left,
      Nat.add_mul_div_left _ _ (by decide), Nat.add_comm (2 ^ n * value xs)]

theorem shiftNBits_value {n : ℕ} (hn : n ≤ 8) {x : List UInt8}
    (hlt : 2 ^ n * value x < 256 ^ x.length) : value (shiftNBits x n) = 2 ^ n * value x := by
  have hzero : (0 : BitVec 16).toNat < 2 ^ n := Nat.two_pow_pos n
  rw [shiftNBits, shiftOut_value hn hzero, show (0 : BitVec 16).toNat = 0 from rfl, Nat.add_zero,
    Nat.mod_eq_of_lt hlt]

theorem orLowest_length (n : List UInt8) (bits : UInt8) : (orLowest n bits).length = n.length :=
  List.length_set

/-- Bits put where a shift has left zeros. -/
theorem orLowest_value {n k : ℕ} {xs : List UInt8} (hne : xs ≠ []) (hn : n ≤ 8)
    (hvalue : value xs = 2 ^ n * k) {bits : UInt8} (hbits : bits.toNat < 2 ^ n) :
    value (orLowest xs bits) = 2 ^ n * k + bits.toNat := by
  cases xs with
  | nil => exact absurd rfl hne
  | cons x xs =>
    have hsplit : (256 : ℕ) = 2 ^ n * 2 ^ (8 - n) := by
      rw [← pow_add, Nat.add_sub_cancel' hn]
      rfl
    have hx : x.toNat = 2 ^ n * (x.toNat / 2 ^ n) := by
      have hdvd : 2 ^ n ∣ x.toNat := by
        rw [value_cons, hsplit, Nat.mul_assoc] at hvalue
        exact (Nat.dvd_add_left (Dvd.intro _ rfl)).mp (hvalue ▸ Dvd.intro _ rfl)
      exact (Nat.mul_div_cancel' hdvd).symm
    have hor : (x ||| bits).toNat = x.toNat + bits.toNat := by
      rw [UInt8.toNat_or, hx, ← Nat.two_pow_add_eq_or_of_lt hbits]
    rw [value_cons] at hvalue
    rw [orLowest, List.set_cons_zero, List.getD_cons_zero, value_cons, hor]
    omega

/-! ## The highest bit -/

theorem highestByte_spec {p : List UInt8} {k : ℕ} (hlt : value p < 256 ^ k) (hne : value p ≠ 0) :
    p.getD (highestByte p k) 0 ≠ 0 ∧ value p < 256 ^ (highestByte p k + 1) := by
  induction k with
  | zero => omega
  | succ k ih =>
    rw [highestByte]
    split
    · next h => exact ⟨h, hlt⟩
    · next h =>
      apply ih
      have hzero := getD_value p k
      rw [not_not.mp h, show (0 : UInt8).toNat = 0 from rfl] at hzero
      have hquot : value p / 256 ^ k < 256 := by
        rw [Nat.div_lt_iff_lt_mul (Nat.pos_of_ne_zero (by positivity)), ← pow_succ']
        exact hlt
      rw [Nat.mod_eq_of_lt hquot] at hzero
      exact (Nat.div_eq_zero_iff_lt (by positivity)).mp hzero.symm

theorem bitCount_eq {x : UInt8} (hne : x ≠ 0) : bitCount x = x.toNat.log2 + 1 := by
  induction x using bitCount.induct with
  | case1 => exact absurd rfl hne
  | case2 x _ ih =>
    have hhalf : (x >>> 1).toNat = x.toNat / 2 := by
      rw [UInt8.toNat_shiftRight]
      exact Nat.shiftRight_eq_div_pow _ 1
    have hpos : x.toNat ≠ 0 := fun h => hne (UInt8.toNat_inj.mp h)
    rw [bitCount, if_neg hne, Nat.log2_def]
    by_cases hone : x >>> 1 = 0
    · have hsmall : ¬ 2 ≤ x.toNat := by
        rw [hone] at hhalf
        have hzero : (0 : UInt8).toNat = 0 := rfl
        omega
      rw [if_neg hsmall, hone, bitCount, if_pos rfl]
    · have hlarge : 2 ≤ x.toNat := by
        by_contra hsmall
        apply hone
        apply UInt8.toNat_inj.mp
        rw [hhalf]
        show x.toNat / 2 = 0
        omega
      rw [if_pos hlarge, ih hone, hhalf]

/-- The highest bit set is the bit `prime_msb`. -/
theorem primeMsb_spec {p : List UInt8} (hlen : p.length = 32) (hne : value p ≠ 0) :
    2 ^ primeMsb p ≤ value p ∧ value p < 2 ^ (primeMsb p + 1) := by
  have hlt := value_lt p
  rw [hlen] at hlt
  obtain ⟨htop, hbound⟩ := highestByte_spec hlt hne
  have hdigit := getD_value p (highestByte p 32)
  have hquot : value p / 256 ^ highestByte p 32 < 256 := by
    rw [Nat.div_lt_iff_lt_mul (by positivity), ← pow_succ']
    exact hbound
  rw [Nat.mod_eq_of_lt hquot] at hdigit
  have hpos : (p.getD (highestByte p 32) 0).toNat ≠ 0 := fun h => htop (UInt8.toNat_inj.mp h)
  have hlow := Nat.log2_self_le hpos
  have hhigh := Nat.lt_log2_self (n := (p.getD (highestByte p 32) 0).toNat)
  have hmsb : primeMsb p =
      8 * highestByte p 32 + (p.getD (highestByte p 32) 0).toNat.log2 := by
    rw [primeMsb, bitCount_eq htop, Nat.shiftLeft_eq]
    omega
  have hpow : (256 : ℕ) ^ highestByte p 32 = 2 ^ (8 * highestByte p 32) := by rw [pow_mul]; rfl
  rw [hmsb, Nat.add_assoc, pow_add, pow_add, ← hpow, Nat.mul_comm, Nat.mul_comm (256 ^ _)]
  constructor
  · exact (Nat.le_div_iff_mul_le (by positivity)).mp (hlow.trans_eq hdigit)
  · exact (Nat.div_lt_iff_lt_mul (by positivity)).mp (hdigit.symm.trans_lt hhigh)

/-! ## Remainders -/

structure Modulus where
  bytes : List UInt8
  size : bytes.length = 32
  two_le : 2 ≤ value bytes
  lt : value bytes < 2 ^ 255

/-- `r` holds the remainder of `m`. -/
structure Residue (p : Modulus) (r : List UInt8) (m : ℕ) : Prop where
  size : r.length = 32
  value_eq : value r = m % value p.bytes

namespace Residue

variable {p : Modulus} {r a : List UInt8} {m n : ℕ}

theorem lt (h : Residue p r m) : value r < value p.bytes := by
  have htwo := p.two_le
  rw [h.value_eq]
  exact Nat.mod_lt _ (by omega)

theorem of_lt (hsize : r.length = 32) (hlt : value r < value p.bytes) : Residue p r (value r) :=
  ⟨hsize, (Nat.mod_eq_of_lt hlt).symm⟩

/-- What is below twice the modulus, subtracted from where it can be. -/
theorem trySub {x : List UInt8} (hsize : x.length = 32) (hlt : value x < 2 * value p.bytes)
    (hmod : value x % value p.bytes = m % value p.bytes) : Residue p (rawTrySub x p.bytes) m := by
  have hlen := hsize.trans p.size.symm
  exact ⟨(rawTrySub_length hlen).trans hsize, (rawTrySub_mod hlen hlt).trans hmod⟩

theorem shifted (h : Residue p r m) : (shiftNBits r 1).length = 32 ∧
    value (shiftNBits r 1) = 2 * value r := by
  have hlt := h.lt
  have hp := p.lt
  have hfits : 2 ^ 1 * value r < 256 ^ r.length := by
    rw [h.size]
    omega
  exact ⟨(shiftOut_length _ _ _).trans h.size, shiftNBits_value (by decide) hfits⟩

theorem fromBytesBit (h : Residue p r m) (b : Bool) :
    Residue p (fromBytesBit p.bytes r (if b then 1 else 0)) (2 * m + b.toNat) := by
  obtain ⟨hlen, hshift⟩ := h.shifted
  have hlt := h.lt
  have hbit : (if b then 1 else 0 : UInt8).toNat = b.toNat := by cases b <;> rfl
  have hle : b.toNat ≤ 1 := b.toNat_le
  have hne : shiftNBits r 1 ≠ [] := List.ne_nil_of_length_eq_add_one hlen
  have hor : value (orLowest (shiftNBits r 1) (if b then 1 else 0)) = 2 * value r + b.toNat := by
    rw [← hbit]
    exact orLowest_value (n := 1) hne (by decide) hshift (by omega)
  apply trySub ((orLowest_length _ _).trans hlen)
  · omega
  · rw [hor, h.value_eq]
    exact ((Nat.mod_modEq m _).mul_left 2).add_right _

theorem add (h : Residue p r m) (ha : Residue p a n) :
    Residue p (fprimeAdd r a p.bytes) (m + n) := by
  have hlen := h.size.trans ha.size.symm
  have hr := h.lt
  have ha' := ha.lt
  have hp := p.lt
  have hsum : value (rawAdd r a) = value r + value a := by
    apply rawAdd_value hlen
    rw [h.size]
    omega
  apply trySub ((rawAdd_length hlen).trans h.size)
  · omega
  · rw [hsum, h.value_eq, ha.value_eq]
    exact (Nat.mod_modEq m _).add (Nat.mod_modEq n _)

theorem mulBit (h : Residue p r (m * n)) (ha : Residue p a n) (b : Bool) :
    Residue p (mulBit a p.bytes r (if b then 1 else 0)) ((2 * m + b.toNat) * n) := by
  obtain ⟨hlen, hshift⟩ := h.shifted
  have hlt := h.lt
  have hdouble : Residue p (rawTrySub (shiftNBits r 1) p.bytes) (2 * m * n) := by
    apply trySub hlen
    · omega
    · rw [hshift, h.value_eq, Nat.mul_assoc]
      exact (Nat.mod_modEq _ _).mul_left 2
  have hplus := hdouble.add ha
  have hsame := hdouble.size.trans hplus.size.symm
  cases b with
  | false =>
    have hzero : Crypto.mulBit a p.bytes r 0 = rawTrySub (shiftNBits r 1) p.bytes :=
      select_zero hsame
    rw [if_neg Bool.false_ne_true, hzero]
    exact hdouble
  | true =>
    have hone : Crypto.mulBit a p.bytes r 1 =
        fprimeAdd (rawTrySub (shiftNBits r 1) p.bytes) a p.bytes := select_one hsame
    rw [if_pos rfl, hone]
    rw [show 2 * m * n + n = (2 * m + 1) * n by ring] at hplus
    exact hplus

/-- The product, for a second factor that has no bit above the highest of the modulus. -/
theorem mul {b : List UInt8} (ha : Residue p a n) (hb : value b < value p.bytes) :
    Residue p (fprimeMul a b p.bytes) (value b * n) := by
  have htwo := p.two_le
  obtain ⟨-, hmsb⟩ := primeMsb_spec p.size (by omega)
  have hstart : Residue p (List.replicate 32 0) (0 * n) := by
    refine ⟨List.length_replicate, ?_⟩
    rw [value_zeros, Nat.zero_mul, Nat.zero_mod]
  have hall := ladder_start (fun r m => Residue p r (m * n))
    (fun r b => Crypto.mulBit a p.bytes r (if b then 1 else 0))
    (fun r m b hr => hr.mulBit ha b) (hb.trans hmsb) hstart
  rw [bitsDown_eq, List.foldl_map] at hall
  simp only [← bitAt_eq] at hall
  exact hall

end Residue

/-! ## Reducing a string of any length -/

section Preload

variable (x : List UInt8)

/-- The bytes that are copied. -/
theorem preload_bytes {k : ℕ} (hk : k ≤ x.length) :
    (List.range k).map (fun i => x.getD (x.length - k + i) 0) = x.drop (x.length - k) := by
  apply List.ext_getElem
  · rw [List.length_map, List.length_range, List.length_drop]
    omega
  · intro i h1 h2
    rw [List.getElem_map, List.getElem_range, List.getElem_drop]
    rw [List.length_drop] at h2
    exact (List.getElem_eq_getD 0).symm

/-- The bits below the bytes that are copied. -/
theorem shifted_quotient {v b : ℕ} (hb : b ≤ 8) :
    2 ^ b * (v / 256) + v % 256 / 2 ^ (8 - b) = v / 2 ^ (8 - b) := by
  have hsplit : (256 : ℕ) = 2 ^ (8 - b) * 2 ^ b := by
    rw [← pow_add, Nat.sub_add_cancel hb]
    rfl
  have hv := Nat.div_add_mod v 256
  conv_rhs => rw [← hv, hsplit, Nat.mul_assoc, Nat.mul_add_div (Nat.two_pow_pos _)]
  rw [← hsplit]

end Preload

/-! ## The bit loop -/

/-- The number that the bit loop of `fprime_from_bytes` starts with. -/
def preload (x : List UInt8) (total : ℕ) : List UInt8 :=
  let n := (List.range (total >>> 3)).map (fun i => x.getD (x.length - (total >>> 3) + i) 0) ++
    List.replicate (32 - (total >>> 3)) 0
  if total &&& 7 ≠ 0 then
    orLowest (shiftNBits n (total &&& 7))
      (x.getD (x.length - (total >>> 3) - 1) 0 >>> UInt8.ofNat (8 - (total &&& 7)))
  else n

theorem copied_value (x : List UInt8) {k : ℕ} (hk : k ≤ x.length) (hk' : k ≤ 32) :
    ((List.range k).map (fun i => x.getD (x.length - k + i) 0) ++
        List.replicate (32 - k) 0).length = 32 ∧
      value ((List.range k).map (fun i => x.getD (x.length - k + i) 0) ++
        List.replicate (32 - k) 0) = value x / 256 ^ (x.length - k) := by
  constructor
  · rw [List.length_append, List.length_map, List.length_range, List.length_replicate]
    omega
  · rw [preload_bytes x hk, value_append, value_zeros, Nat.mul_zero, Nat.add_zero, value_drop]

theorem pow_256 (k : ℕ) : (256 : ℕ) ^ k = 2 ^ (8 * k) := by
  rw [pow_mul]
  rfl

theorem preload_value (x : List UInt8) (total : ℕ) (hfits : total ≤ 8 * x.length)
    (hmax : total < 256) : (preload x total).length = 32 ∧
      value (preload x total) = value x / 2 ^ (8 * x.length - total) := by
  have hand : total &&& 7 = total % 8 := Nat.and_two_pow_sub_one_eq_mod total 3
  have hshift : total >>> 3 = total / 8 := Nat.shiftRight_eq_div_pow total 3
  obtain ⟨hlen, hvalue⟩ := copied_value x (k := total / 8) (by omega) (by omega)
  unfold preload
  simp only [hand, hshift]
  split
  · next hbits =>
    have hb : total % 8 ≤ 8 := by omega
    have hquot : value x / 256 ^ (x.length - total / 8) < 256 ^ (total / 8) := by
      have hlt := value_lt x
      rw [Nat.div_lt_iff_lt_mul (by positivity), ← pow_add, Nat.add_sub_cancel' (by omega)]
      exact hlt
    have hroom : 2 ^ (total % 8) * (value x / 256 ^ (x.length - total / 8)) < 256 ^ 32 := by
      calc 2 ^ (total % 8) * (value x / 256 ^ (x.length - total / 8))
          < 2 ^ (total % 8) * 256 ^ (total / 8) := Nat.mul_lt_mul_of_pos_left hquot (by positivity)
        _ = 2 ^ total := by rw [pow_256, ← pow_add, Nat.mod_add_div]
        _ ≤ 2 ^ 256 := Nat.pow_le_pow_right (by decide) hmax.le
        _ = 256 ^ 32 := by norm_num
    generalize hn : (List.range (total / 8)).map
      (fun i => x.getD (x.length - total / 8 + i) 0) ++ List.replicate (32 - total / 8) 0 = n at *
    have hshifted := shiftNBits_value hb (x := n) (by rw [hlen, hvalue]; exact hroom)
    have hlen' : (shiftNBits n (total % 8)).length = 32 := (shiftOut_length _ _ _).trans hlen
    have hdown : (UInt8.ofNat (8 - total % 8)).toNat % 8 = 8 - total % 8 := by
      rw [toNat_ofNat_byte]
      omega
    have hnext : value x / 256 ^ (x.length - total / 8) =
        value x / 256 ^ (x.length - total / 8 - 1) / 256 := by
      rw [Nat.div_div_eq_div_mul, ← pow_succ, Nat.sub_add_cancel (by omega)]
    have hbyte : (x.getD (x.length - total / 8 - 1) 0 >>> UInt8.ofNat (8 - total % 8)).toNat =
        value x / 256 ^ (x.length - total / 8 - 1) % 256 / 2 ^ (8 - total % 8) := by
      rw [UInt8.toNat_shiftRight, hdown, Nat.shiftRight_eq_div_pow, getD_value]
    have hsmall : value x / 256 ^ (x.length - total / 8 - 1) % 256 / 2 ^ (8 - total % 8) <
        2 ^ (total % 8) := by
      rw [Nat.div_lt_iff_lt_mul (by positivity), ← pow_add, Nat.add_sub_cancel' hb]
      exact Nat.mod_lt _ (by decide)
    refine ⟨(orLowest_length _ _).trans hlen', ?_⟩
    rw [orLowest_value (List.ne_nil_of_length_eq_add_one hlen') hb hshifted (hbyte ▸ hsmall), hbyte,
      hvalue, hnext, shifted_quotient hb, Nat.div_div_eq_div_mul, pow_256, ← pow_add]
    congr 2
    omega
  · next hbits =>
    refine ⟨hlen, ?_⟩
    rw [hvalue, pow_256]
    congr 2
    omega

/-- The remainder of a string of any length. -/
theorem Residue.fromBytes (p : Modulus) (x : List UInt8) :
    Residue p (fprimeFromBytes x p.bytes) (value x) := by
  have htwo := p.two_le
  have hp := p.lt
  have hx := value_lt x
  obtain ⟨hmsb, hmsb'⟩ := primeMsb_spec p.size (by omega)
  have hbound : primeMsb p.bytes < 255 := by
    by_contra hge
    have hpow := Nat.pow_le_pow_right (show 0 < 2 by decide) (Nat.le_of_not_lt hge)
    omega
  have hlen : x.length <<< 3 = 8 * x.length := by rw [Nat.shiftLeft_eq, Nat.mul_comm]
  have hdef : fprimeFromBytes x p.bytes =
      (List.range (8 * x.length - min (primeMsb p.bytes - 1) (8 * x.length))).reverse.foldl
        (fun n i => Crypto.fromBytesBit p.bytes n (bitAt x i))
        (preload x (min (primeMsb p.bytes - 1) (8 * x.length))) := by
    rw [← hlen]
    rfl
  obtain ⟨hsize, hvalue⟩ := preload_value x
    (min (primeMsb p.bytes - 1) (8 * x.length)) (by omega) (by omega)
  have hstart : Residue p (preload x (min (primeMsb p.bytes - 1) (8 * x.length)))
      (value x / 2 ^ (8 * x.length - min (primeMsb p.bytes - 1) (8 * x.length))) := by
    refine ⟨hsize, hvalue.trans (Nat.mod_eq_of_lt ?_).symm⟩
    generalize htotal : min (primeMsb p.bytes - 1) (8 * x.length) = total
    have hle : total ≤ primeMsb p.bytes := by omega
    rw [pow_256] at hx
    calc value x / 2 ^ (8 * x.length - total)
        < 2 ^ total := by
          rw [Nat.div_lt_iff_lt_mul (by positivity), ← pow_add, Nat.add_sub_cancel' (by omega)]
          exact hx
      _ ≤ 2 ^ primeMsb p.bytes := Nat.pow_le_pow_right (by decide) hle
      _ ≤ value p.bytes := hmsb
  have hall := ladder_rel (Residue p)
    (fun r b => Crypto.fromBytesBit p.bytes r (if b then 1 else 0))
    (fun r m b hr => hr.fromBytesBit b) (value x)
    (8 * x.length - min (primeMsb p.bytes - 1) (8 * x.length)) hstart
  rw [bitsDown_eq, List.foldl_map, Nat.div_add_mod'] at hall
  simp only [← bitAt_eq] at hall
  rw [hdef]
  exact hall

/-- **`fprime.c` computes modulo its modulus**: the remainder of a string of any length, and the
sum and the product of two remainders. -/
theorem fprime_ops_correct (p : Modulus) :
    (∀ x, value (fprimeFromBytes x p.bytes) = value x % value p.bytes) ∧
      ∀ a b : List UInt8, a.length = 32 → b.length = 32 → value a < value p.bytes →
        value b < value p.bytes →
        value (fprimeAdd a b p.bytes) = (value a + value b) % value p.bytes ∧
          value (fprimeMul a b p.bytes) = value a * value b % value p.bytes := by
  refine ⟨fun x => (Residue.fromBytes p x).value_eq, ?_⟩
  intro a b hsize hsize' ha hb
  have hra := Residue.of_lt hsize ha
  refine ⟨(hra.add (Residue.of_lt hsize' hb)).value_eq, ?_⟩
  rw [(hra.mul hb).value_eq, Nat.mul_comm]

end NavHAL.Crypto
