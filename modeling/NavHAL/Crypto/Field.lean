import NavHAL.Crypto.Prime25519

/-!
# Field elements

`Fe` is a string of 32 bytes below `2 * p`, which is what the operations of `f25519.c` take
and what each of them returns.  `toZ` is the number modulo `p` it stands for.

* `toZ_add` to `toZ_mulC` : the operations are those of the field;
* `toZ_inv`, `toZ_sqrt` : the two exponent chains;
* `field_ops_correct` : all of them, with the comparison of normal forms.
-/

namespace NavHAL.Crypto

open Limbs Ladder

structure Fe where
  bytes : List UInt8
  size : bytes.length = 32
  lt : value bytes < 2 * p25519
  deriving DecidableEq

namespace Fe

def toZ (a : Fe) : ZMod p25519 := value a.bytes

theorem ext_bytes {a b : Fe} (h : a.bytes = b.bytes) : a = b := by
  obtain ⟨a, _, _⟩ := a
  obtain ⟨b, _, _⟩ := b
  cases h
  rfl

/-! ## The operations -/

theorem lt_of_fold {s k : ℕ} (h : s < k * 2 ^ 255) (hk : k < 2 ^ 32) : fold s < 2 * p25519 := by
  have hfold := fold_lt h
  unfold p25519
  omega

theorem value_lt_four (a : Fe) : value a.bytes < 2 * 2 ^ 255 := by
  have hlt := a.lt
  unfold p25519 at hlt
  omega

def zero : Fe := ⟨List.replicate 32 0, rfl, by decide⟩

def one : Fe := ⟨f25519One, rfl, by decide⟩

theorem add_lt (a b : Fe) : value (f25519Add a.bytes b.bytes) < 2 * p25519 := by
  have ha := a.value_lt_four
  have hb := b.value_lt_four
  rw [add_value a.size b.size]
  exact lt_of_fold (k := 4) (by omega) (by decide)

def add (a b : Fe) : Fe :=
  ⟨f25519Add a.bytes b.bytes, f25519Add_length a.size b.size, add_lt a b⟩

theorem sub_lt (a b : Fe) : value (f25519Sub a.bytes b.bytes) < 2 * p25519 := by
  have ha := a.lt
  rw [sub_value a.size b.size b.lt]
  exact lt_of_fold (k := 4) (by unfold p25519 at *; omega) (by decide)

def sub (a b : Fe) : Fe :=
  ⟨f25519Sub a.bytes b.bytes, f25519Sub_length a.size b.size, sub_lt a b⟩

theorem neg_lt (a : Fe) : value (f25519Neg a.bytes) < 2 * p25519 := by
  rw [neg_value a.size a.lt]
  exact lt_of_fold (k := 4) (by unfold p25519; omega) (by decide)

theorem f25519Neg_length (a : Fe) : (f25519Neg a.bytes).length = 32 := by
  rw [f25519Neg_eq a.size]
  exact f25519Sub_length List.length_replicate a.size

def neg (a : Fe) : Fe := ⟨f25519Neg a.bytes, f25519Neg_length a, neg_lt a⟩

theorem product_lt (a b : List UInt8) : product a b < 620161 * 2 ^ 255 := by
  have hsum : product a b ≤ ∑ i ∈ Finset.range 32, 79070400 * 256 ^ i := by
    apply Finset.sum_le_sum
    intro i hi
    exact Nat.mul_le_mul_right _ (mulTerm_toNat a b (Finset.mem_range.mp hi)).2
  rw [← Finset.mul_sum] at hsum
  have hones : ∑ i ∈ Finset.range 32, 256 ^ i = (256 ^ 32 - 1) / 255 := by decide
  rw [hones] at hsum
  omega

/-- The product is below `p` but for less than `2 ^ 24`. -/
theorem mul_lt_near (a b : List UInt8) : value (f25519MulDistinct a b) < p25519 + 2 ^ 24 := by
  have hfold := fold_lt (product_lt a b)
  rw [mul_value]
  unfold p25519
  omega

theorem mul_lt (a b : List UInt8) : value (f25519MulDistinct a b) < 2 * p25519 := by
  have hnear := mul_lt_near a b
  unfold p25519 at hnear ⊢
  omega

def mul (a b : Fe) : Fe :=
  ⟨f25519MulDistinct a.bytes b.bytes, f25519MulDistinct_length _ _, mul_lt _ _⟩

theorem mulC_lt {b : UInt32} (hb : b.toNat < 2 ^ 24) (a : Fe) :
    value (f25519MulC a.bytes b) < 2 * p25519 := by
  have ha := a.value_lt_four
  have hprod : b.toNat * value a.bytes < 2 ^ 25 * 2 ^ 255 := by
    calc b.toNat * value a.bytes
        ≤ b.toNat * (2 * 2 ^ 255) := Nat.mul_le_mul_left _ ha.le
      _ < 2 ^ 24 * (2 * 2 ^ 255) := Nat.mul_lt_mul_of_pos_right hb (by decide)
      _ = 2 ^ 25 * 2 ^ 255 := by norm_num
  rw [mulC_value a.size hb]
  exact lt_of_fold hprod (by decide)

def mulC (a : Fe) (b : UInt32) (hb : b.toNat < 2 ^ 24) : Fe :=
  ⟨f25519MulC a.bytes b, f25519MulC_length a.size b, mulC_lt hb a⟩

def normalize (a : Fe) : Fe where
  bytes := f25519Normalize a.bytes
  size := f25519Normalize_length a.size
  lt := by
    rw [normalize_value a.size]
    exact (Nat.mod_lt _ (by decide)).trans (by decide)

/-! ## What they compute -/

@[simp] theorem toZ_zero : zero.toZ = 0 := by
  have hvalue : value zero.bytes = 0 := value_zeros 32
  rw [toZ, hvalue, Nat.cast_zero]

@[simp] theorem toZ_one : one.toZ = 1 := by
  rw [toZ, show value one.bytes = 1 from one_value, Nat.cast_one]

@[simp] theorem toZ_add (a b : Fe) : (a.add b).toZ = a.toZ + b.toZ := by
  rw [toZ, show value (a.add b).bytes = _ from add_value a.size b.size, fold_cast, Nat.cast_add]
  rfl

@[simp] theorem toZ_sub (a b : Fe) : (a.sub b).toZ = a.toZ - b.toZ := by
  have hle : value b.bytes ≤ value a.bytes + 2 * p25519 := b.lt.le.trans (Nat.le_add_left _ _)
  rw [toZ, show value (a.sub b).bytes = _ from sub_value a.size b.size b.lt, fold_cast,
    Nat.cast_sub hle, Nat.cast_add, Nat.cast_mul, ZMod.natCast_self, mul_zero, add_zero]
  rfl

@[simp] theorem toZ_neg (a : Fe) : a.neg.toZ = -a.toZ := by
  rw [toZ, show value a.neg.bytes = _ from neg_value a.size a.lt, fold_cast,
    Nat.cast_sub a.lt.le, Nat.cast_mul, ZMod.natCast_self, mul_zero, zero_sub]
  rfl

@[simp] theorem toZ_mul (a b : Fe) : (a.mul b).toZ = a.toZ * b.toZ := by
  rw [toZ, show value (a.mul b).bytes = _ from mul_value _ _, fold_cast,
    product_cast two_pow_256 a.size b.size]
  rfl

@[simp] theorem toZ_mulC (a : Fe) (b : UInt32) (hb : b.toNat < 2 ^ 24) :
    (a.mulC b hb).toZ = b.toNat * a.toZ := by
  rw [toZ, show value (a.mulC b hb).bytes = _ from mulC_value a.size hb, fold_cast, Nat.cast_mul]
  rfl

@[simp] theorem toZ_normalize (a : Fe) : a.normalize.toZ = a.toZ := by
  rw [toZ, show value a.normalize.bytes = _ from normalize_value a.size, ZMod.natCast_mod]
  rfl

/-- Normal forms are equal where the elements are. -/
theorem normalize_inj {a b : Fe} : f25519Normalize a.bytes = f25519Normalize b.bytes ↔
    a.toZ = b.toZ := by
  have hlen := (f25519Normalize_length a.size).trans (f25519Normalize_length b.size).symm
  rw [toZ, toZ, ZMod.natCast_eq_natCast_iff', ← normalize_value a.size, ← normalize_value b.size]
  exact ⟨congrArg value, value_inj hlen⟩

/-- `f25519_eq` on normal forms. -/
theorem eq_normalize (a b : Fe) :
    f25519Eq (f25519Normalize a.bytes) (f25519Normalize b.bytes) =
      if a.toZ = b.toZ then 1 else 0 := by
  rw [f25519Eq_value ((f25519Normalize_length a.size).trans (f25519Normalize_length b.size).symm)]
  exact if_congr normalize_inj rfl rfl

theorem value_normalize (a : Fe) : value (f25519Normalize a.bytes) = a.toZ.val := by
  rw [normalize_value a.size, toZ, ZMod.val_natCast]

/-! ## The two exponent chains -/

/-- `squareMul` on elements. -/
def squareMul (x : Fe) (n : ℕ) (r : Fe) : Fe := (fun r => (r.mul r).mul x)^[n] r

theorem bytes_squareMul (x : Fe) (n : ℕ) (r : Fe) :
    (squareMul x n r).bytes = Crypto.squareMul x.bytes n r.bytes := by
  induction n generalizing r with
  | zero => rfl
  | succ n ih => exact ih ((r.mul r).mul x)

/-- Every round puts a binary one at the end of the exponent. -/
theorem toZ_squareMul {x r : Fe} {k : ℕ} (hr : r.toZ = x.toZ ^ k) (n : ℕ) :
    (squareMul x n r).toZ = x.toZ ^ (2 ^ n * (k + 1) - 1) := by
  induction n generalizing r k with
  | zero => rw [pow_zero, Nat.one_mul, Nat.add_sub_cancel, ← hr]; rfl
  | succ n ih =>
    have hround : ((r.mul r).mul x).toZ = x.toZ ^ (2 * k + 1) := by
      rw [toZ_mul, toZ_mul, hr, ← pow_add, ← pow_succ, two_mul]
    have hexp : 2 ^ n * (2 * k + 1 + 1) - 1 = 2 ^ (n + 1) * (k + 1) - 1 := by
      rw [pow_succ]
      congr 1
      ring
    rw [← hexp]
    exact ih hround

def inv (x : Fe) : Fe :=
  let s := x.mul x
  let r := s.mul x
  let r := squareMul x 248 r
  let s := r.mul r
  let r := s.mul s
  let s := r.mul x
  let r := s.mul s
  let s := r.mul r
  let r := s.mul x
  let s := r.mul r
  s.mul x

theorem bytes_inv (x : Fe) : x.inv.bytes = f25519InvDistinct x.bytes := by
  simp only [inv, f25519InvDistinct, mul, bytes_squareMul]

theorem toZ_inv_pow (x : Fe) : x.inv.toZ = x.toZ ^ (p25519 - 2) := by
  have hthree : ((x.mul x).mul x).toZ = x.toZ ^ 3 := by
    rw [toZ_mul, toZ_mul]
    ring
  simp only [inv, toZ_mul, toZ_squareMul hthree]
  generalize hn : 2 ^ 248 * (3 + 1) - 1 = n
  rw [show p25519 - 2 = (((n * 2) * 2 + 1) * 2 * 2 + 1) * 2 + 1 by rw [← hn]; rfl]
  ring

@[simp] theorem toZ_inv (x : Fe) : x.inv.toZ = x.toZ⁻¹ := by
  rw [toZ_inv_pow]
  by_cases hzero : x.toZ = 0
  · rw [hzero, inv_zero, zero_pow (by decide)]
  · apply eq_inv_of_mul_eq_one_left
    rw [← pow_succ]
    exact ZMod.pow_card_sub_one_eq_one hzero

/-- `exp2523` on elements. -/
def exp2523 (x : Fe) : Fe :=
  let r := x.mul x
  let s := r.mul x
  let s := squareMul x 248 s
  let r := s.mul s
  let s := r.mul r
  s.mul x

theorem bytes_exp2523 (x : Fe) : x.exp2523.bytes = Crypto.exp2523 x.bytes := by
  simp only [exp2523, Crypto.exp2523, mul, bytes_squareMul]

theorem toZ_exp2523 (x : Fe) : x.exp2523.toZ = x.toZ ^ ((p25519 - 5) / 8) := by
  have hthree : ((x.mul x).mul x).toZ = x.toZ ^ 3 := by
    rw [toZ_mul, toZ_mul]
    ring
  simp only [exp2523, toZ_mul, toZ_squareMul hthree]
  generalize hn : 2 ^ 248 * (3 + 1) - 1 = n
  rw [show (p25519 - 5) / 8 = n * 2 * 2 + 1 by rw [← hn]; rfl]
  ring

def sqrt (a : Fe) : Fe :=
  let x := a.mulC 2 (by decide)
  let v := x.exp2523
  let y := v.mul v
  let i := x.mul y
  let i := i.sub one
  let x := v.mul a
  x.mul i

theorem bytes_sqrt (a : Fe) : a.sqrt.bytes = f25519Sqrt a.bytes := by
  simp only [sqrt, f25519Sqrt, mul, mulC, sub, one, bytes_exp2523, load_one]

/-- The square root of a square. -/
theorem toZ_sqrt {a : Fe} (h : IsSquare a.toZ) : a.sqrt.toZ ^ 2 = a.toZ := by
  have hx : (a.mulC 2 (by decide)).toZ = 2 * a.toZ := by
    rw [toZ_mulC]
    rfl
  simp only [sqrt, toZ_mul, toZ_sub, toZ_one, hx]
  exact sqrt_candidate h (by rw [toZ_exp2523, hx])

end Fe

/-! ## The field -/

/-- `r` is an element, and stands for `z`. -/
def Stands (r : List UInt8) (z : ZMod p25519) : Prop := ∃ a : Fe, a.bytes = r ∧ a.toZ = z

/-- **The operations of `f25519.c` are those of the field of `2 ^ 255 - 19` elements.**  They
keep elements below `2 * p`, and no carry overflows on the way. -/
theorem field_ops_correct (a b : Fe) :
    Stands (f25519Add a.bytes b.bytes) (a.toZ + b.toZ) ∧
      Stands (f25519Sub a.bytes b.bytes) (a.toZ - b.toZ) ∧
      Stands (f25519Neg a.bytes) (-a.toZ) ∧
      Stands (f25519MulDistinct a.bytes b.bytes) (a.toZ * b.toZ) ∧
      (∀ c : UInt32, c.toNat < 2 ^ 24 → Stands (f25519MulC a.bytes c) (c.toNat * a.toZ)) ∧
      Stands (f25519InvDistinct a.bytes) a.toZ⁻¹ ∧
      (∃ r, Stands (f25519Sqrt a.bytes) r ∧ (IsSquare a.toZ → r ^ 2 = a.toZ)) ∧
      value (f25519Normalize a.bytes) = a.toZ.val ∧
      (f25519Eq (f25519Normalize a.bytes) (f25519Normalize b.bytes) = 1 ↔ a.toZ = b.toZ) := by
  refine ⟨⟨a.add b, rfl, Fe.toZ_add a b⟩, ⟨a.sub b, rfl, Fe.toZ_sub a b⟩,
    ⟨a.neg, rfl, Fe.toZ_neg a⟩, ⟨a.mul b, rfl, Fe.toZ_mul a b⟩, ?_,
    ⟨a.inv, Fe.bytes_inv a, Fe.toZ_inv a⟩,
    ⟨a.sqrt.toZ, ⟨a.sqrt, Fe.bytes_sqrt a, rfl⟩, Fe.toZ_sqrt⟩, Fe.value_normalize a, ?_⟩
  · intro c hc
    exact ⟨a.mulC c hc, rfl, Fe.toZ_mulC a c hc⟩
  · rw [Fe.eq_normalize]
    split
    · next heq => exact iff_of_true rfl heq
    · next hne => exact iff_of_false (by decide) hne

end NavHAL.Crypto
