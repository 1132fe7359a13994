import NavHAL.Crypto.Ed25519
import NavHAL.Crypto.Fprime
import Mathlib.GroupTheory.OrderOfElement

/-!
# The order of the base point

* `addOrderOf_basePoint` : the modulus of `edsign.c` is the order of the base point, by a
  ladder over numbers;
* `nsmul_base_eq_iff` : which multiples of the base point are the same.
-/

namespace NavHAL.Crypto

open Limbs Ladder Edwards

/-! ## The modulus -/

/-- `ed25519_order` -/
def ed25519Order : List UInt8 :=
  [0xed, 0xd3, 0xf5, 0x5c, 0x1a, 0x63, 0x12, 0x58, 0xd6, 0x9c, 0xf7, 0xa2, 0xde, 0xf9, 0xde, 0x14,
    0x00, 0x00, 0x00, 0x00, 0x00, 0x00, 0x00, 0x00, 0x00, 0x00, 0x00, 0x00, 0x00, 0x00, 0x00, 0x10]

theorem value_order : value ed25519Order = order := by decide +kernel

/-- The modulus of every call in `edsign.c`. -/
def orderModulus : Modulus where
  bytes := ed25519Order
  size := rfl
  two_le := by
    rw [value_order]
    decide
  lt := by
    rw [value_order]
    decide

/-! ## Coordinates as numbers -/

/-- `a - b` modulo `p` -/
def subMod (a b : ℕ) : ℕ := (a + (p25519 - b % p25519)) % p25519

theorem cast_subMod (a b : ℕ) : (subMod a b : ZMod p25519) = a - b := by
  have hle : b % p25519 ≤ p25519 := (Nat.mod_lt b (by decide)).le
  rw [subMod, ZMod.natCast_mod, Nat.cast_add, Nat.cast_sub hle, ZMod.natCast_self, ZMod.natCast_mod]
  ring

/-- Extended coordinates of a multiple of the base point. -/
structure Quad where
  x : ℕ
  y : ℕ
  t : ℕ
  z : ℕ

namespace Quad

def Of (q : Quad) (P : curve25519.Point) : Prop :=
  Shows (q.x : ZMod p25519) (q.y : ZMod p25519) (q.t : ZMod p25519) (q.z : ZMod p25519) P

def add (p q : Quad) : Quad :=
  let a := subMod p.y p.x * subMod q.y q.x % p25519
  let b := (p.y + p.x) * (q.y + q.x) % p25519
  let c := p.t * q.t % p25519 * (2 * value ed25519D.bytes) % p25519
  let e := p.z * q.z + p.z * q.z
  { x := subMod b a * subMod e c % p25519
    y := (e + c) * (b + a) % p25519
    t := subMod b a * (b + a) % p25519
    z := subMod e c * (e + c) % p25519 }

def double (p : Quad) : Quad :=
  let a := p.x * p.x % p25519
  let b := p.y * p.y % p25519
  let c := p.z * p.z + p.z * p.z
  let e := subMod (subMod ((p.x + p.y) * (p.x + p.y)) a) b
  let g := subMod b a
  let f := subMod g c
  let h := subMod (subMod 0 b) a
  { x := e * f % p25519
    y := g * h % p25519
    t := e * h % p25519
    z := f * g % p25519 }

theorem Of.add {p q : Quad} {P Q : curve25519.Point} (hP : p.Of P) (hQ : q.Of Q) :
    (p.add q).Of (P + Q) := by
  have hd : curve25519.d = (value ed25519D.bytes : ZMod p25519) := rfl
  unfold Of Quad.add
  simp only [ZMod.natCast_mod, Nat.cast_mul, cast_subMod, Nat.cast_add, Nat.cast_ofNat, ← hd]
  exact Shows.add hP hQ rfl rfl rfl rfl

theorem Of.double {p : Quad} {P : curve25519.Point} (hP : p.Of P) : p.double.Of (P + P) := by
  unfold Of Quad.double
  simp only [ZMod.natCast_mod, Nat.cast_mul, cast_subMod, Nat.cast_add, Nat.cast_zero, zero_sub]
  exact Shows.double hP rfl rfl rfl rfl rfl rfl rfl

def base : Quad where
  x := value ed25519Base.x.bytes
  y := value ed25519Base.y.bytes
  t := value ed25519Base.t.bytes
  z := 1

theorem base_of : base.Of basePoint := by
  have hbase := base_represents
  unfold Represents at hbase
  rw [show ed25519Base.z.toZ = 1 from Fe.toZ_one, ← Nat.cast_one] at hbase
  exact hbase

def step (r : Quad) (bit : Bool) : Quad := if bit then r.double.add base else r.double

def mul (n : ℕ) : Quad := (bitsDown n 256).foldl step ⟨0, 1, 0, 1⟩

theorem mul_of {n : ℕ} (hn : n < 2 ^ 256) : (mul n).Of (n • basePoint) := by
  refine ladder_start (fun (r : Quad) m => r.Of (m • basePoint)) step ?_ hn ?_
  · intro r m b hr
    have hdouble := hr.double
    rw [← two_nsmul, ← mul_nsmul'] at hdouble
    cases b with
    | false => exact hdouble
    | true =>
      have hadd := hdouble.add base_of
      rw [← succ_nsmul] at hadd
      exact hadd
  · rw [zero_nsmul]
    unfold Of
    rw [Nat.cast_zero, Nat.cast_one]
    exact shows_zero

end Quad

/-! ## The order -/

theorem Quad.Of.eq_zero {q : Quad} {P : curve25519.Point} (h : q.Of P) (hx : q.x % p25519 = 0)
    (hy : q.y % p25519 = q.z % p25519) : P = 0 := by
  have hx' : (q.x : ZMod p25519) = 0 := by
    rw [← Nat.cast_zero]
    exact cast_eq_of_mod (hx.trans (Nat.zero_mod _).symm)
  have hy' : (q.y : ZMod p25519) = q.z := cast_eq_of_mod hy
  obtain ⟨hPx, hPy⟩ := Shows.affine h
  rw [hx', zero_mul] at hPx
  rw [hy', mul_inv_cancel₀ h.z_ne] at hPy
  exact Curve.Point.ext hPx.symm hPy.symm

theorem order_nsmul : order • basePoint = 0 := by
  have hlast : (Quad.mul order).x % p25519 = 0 ∧
      (Quad.mul order).y % p25519 = (Quad.mul order).z % p25519 := by decide +kernel
  exact (Quad.mul_of (by decide)).eq_zero hlast.1 hlast.2

theorem basePoint_ne_zero : basePoint ≠ 0 := by
  intro hzero
  have hx : basePoint.x = 0 := congrArg Curve.Point.x hzero
  have hval : basePoint.x.val = value ed25519Base.x.bytes % p25519 := ZMod.val_natCast p25519 _
  rw [hx, ZMod.val_zero] at hval
  exact absurd hval (by decide +kernel)

instance : Fact (Nat.Prime order) := ⟨prime_order⟩

theorem addOrderOf_basePoint : addOrderOf basePoint = order :=
  addOrderOf_eq_prime order_nsmul basePoint_ne_zero

theorem nsmul_base_eq_iff {m n : ℕ} : m • basePoint = n • basePoint ↔ m % order = n % order := by
  rw [nsmul_eq_nsmul_iff_modEq, addOrderOf_basePoint]
  rfl

/-! ## Multiples as numbers -/

theorem Quad.Of.x_val {q : Quad} {P : curve25519.Point} (h : q.Of P) :
    P.x.val = q.x * powMod p25519 q.z 256 (p25519 - 2) % p25519 := by
  have hpow : (q.z : ZMod p25519) ^ (p25519 - 2) = powMod p25519 q.z 256 (p25519 - 2) :=
    cast_powMod (by decide) rfl
  have hinv : (q.z : ZMod p25519)⁻¹ = (q.z : ZMod p25519) ^ (p25519 - 2) := by
    apply inv_eq_of_mul_eq_one_left
    rw [← pow_succ]
    exact ZMod.pow_card_sub_one_eq_one h.z_ne
  rw [← (Shows.affine h).1, hinv, hpow, ← Nat.cast_mul, ZMod.val_natCast]

/-- The `x` of a multiple of the base point, as a number. -/
theorem nsmul_x_val {n : ℕ} (hn : n < 2 ^ 256) : (n • basePoint).x.val =
    (Quad.mul n).x * powMod p25519 (Quad.mul n).z 256 (p25519 - 2) % p25519 :=
  (Quad.mul_of hn).x_val

end NavHAL.Crypto
