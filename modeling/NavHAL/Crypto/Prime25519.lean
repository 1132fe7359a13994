import NavHAL.Crypto.F25519
import NavHAL.Lib.Ladder
import Mathlib.FieldTheory.Finite.Basic
import Mathlib.NumberTheory.LegendreSymbol.Basic

/-!
# The two primes

* `prime_p25519`, `prime_order` : by a chain of certificates that ends with two;
* `not_isSquare_of_pow`, `sqrt_candidate` : squares modulo `p`, which is 5 modulo 8.
-/

namespace NavHAL.Crypto

open Ladder

/-! ## Primality -/

/-- The order of the base point. -/
def order : ℕ := 2 ^ 252 + 27742317777372353535851937790883648493

/-- Of the two primes, and of the factors under them. -/
def certificates : List Certificate :=
  [⟨256, 57896044618658097711785492504343953926634992332820282019728792003956564819949, 2, [2, 2,
    3, 65147, 74058212732561358302231226437062788676166966415465897661863160754340907]⟩, ⟨256,
    7237005577332262213973186563042994240857116359379907606001950938285454250989, 2, [2, 2, 3, 11,
    198211423230930754013084525763697, 276602624281642239937218680557139826668747]⟩, ⟨256,
    74058212732561358302231226437062788676166966415465897661863160754340907, 2, [2, 3, 353, 57467,
    132049, 1923133, 31757755568855353, 75445702479781427272750846543864801]⟩, ⟨256,
    276602624281642239937218680557139826668747, 2, [2, 7,
    19757330305831588566944191468367130476339]⟩, ⟨256, 19757330305831588566944191468367130476339,
    2, [2, 269, 213441916511, 172054593956031949258510691]⟩, ⟨128,
    75445702479781427272750846543864801, 7, [2, 2, 2, 2, 2, 3, 3, 5, 5, 75707, 72106336199,
    1919519569386763]⟩, ⟨128, 198211423230930754013084525763697, 5, [2, 2, 2, 2, 3, 23, 58964693,
    3044861653679985063343]⟩, ⟨128, 172054593956031949258510691, 2, [2, 5, 1361, 2851,
    4434155615661930479]⟩, ⟨128, 3044861653679985063343, 5, [2, 3, 11, 30703, 82163, 132667,
    137849]⟩, ⟨64, 4434155615661930479, 17, [2, 41, 43, 1257559732178653]⟩, ⟨64,
    31757755568855353, 10, [2, 2, 2, 3, 31, 107, 223, 4153, 430751]⟩, ⟨64, 1919519569386763, 2,
    [2, 3, 7, 19, 47, 47, 127, 8574133]⟩, ⟨64, 1257559732178653, 2, [2, 2, 3, 7, 23, 531581,
    1224481]⟩, ⟨64, 213441916511, 13, [2, 5, 73, 292386187]⟩, ⟨64, 72106336199, 7, [2, 13,
    2773320623]⟩, ⟨32, 2773320623, 5, [2, 2437, 569003]⟩, ⟨32, 292386187, 2, [2, 3, 3, 3, 3, 307,
    5879]⟩, ⟨32, 58964693, 2, [2, 2, 14741173]⟩, ⟨32, 14741173, 2, [2, 2, 3, 3, 409477]⟩, ⟨32,
    8574133, 2, [2, 2, 3, 7, 103, 991]⟩, ⟨32, 1923133, 2, [2, 2, 3, 43, 3727]⟩, ⟨32, 1224481, 13,
    [2, 2, 2, 2, 2, 3, 5, 2551]⟩, ⟨32, 569003, 2, [2, 7, 97, 419]⟩, ⟨32, 531581, 2, [2, 2, 5, 7,
    3797]⟩, ⟨32, 430751, 17, [2, 5, 5, 5, 1723]⟩, ⟨32, 409477, 2, [2, 2, 3, 34123]⟩, ⟨32, 137849,
    3, [2, 2, 2, 17231]⟩, ⟨32, 132667, 5, [2, 3, 22111]⟩, ⟨32, 132049, 26, [2, 2, 2, 2, 3, 3, 7,
    131]⟩, ⟨32, 82163, 2, [2, 41081]⟩, ⟨32, 75707, 2, [2, 37853]⟩, ⟨16, 65147, 2, [2, 32573]⟩,
    ⟨16, 57467, 2, [2, 59, 487]⟩, ⟨16, 41081, 3, [2, 2, 2, 5, 13, 79]⟩, ⟨16, 37853, 2, [2, 2,
    9463]⟩, ⟨16, 34123, 2, [2, 3, 11, 11, 47]⟩, ⟨16, 32573, 2, [2, 2, 17, 479]⟩, ⟨16, 30703, 3,
    [2, 3, 7, 17, 43]⟩, ⟨16, 22111, 6, [2, 3, 5, 11, 67]⟩, ⟨16, 17231, 13, [2, 5, 1723]⟩, ⟨16,
    9463, 3, [2, 3, 19, 83]⟩, ⟨16, 5879, 11, [2, 2939]⟩, ⟨16, 4153, 5, [2, 2, 2, 3, 173]⟩, ⟨16,
    3797, 2, [2, 2, 13, 73]⟩, ⟨16, 3727, 3, [2, 3, 3, 3, 3, 23]⟩, ⟨16, 2939, 2, [2, 13, 113]⟩,
    ⟨16, 2851, 2, [2, 3, 5, 5, 19]⟩, ⟨16, 2551, 6, [2, 3, 5, 5, 17]⟩, ⟨16, 2437, 2, [2, 2, 3, 7,
    29]⟩, ⟨16, 1723, 3, [2, 3, 7, 41]⟩, ⟨16, 1361, 3, [2, 2, 2, 2, 5, 17]⟩, ⟨16, 991, 6, [2, 3, 3,
    5, 11]⟩, ⟨16, 487, 3, [2, 3, 3, 3, 3, 3]⟩, ⟨16, 479, 13, [2, 239]⟩, ⟨16, 419, 2, [2, 11, 19]⟩,
    ⟨16, 353, 3, [2, 2, 2, 2, 2, 11]⟩, ⟨16, 307, 5, [2, 3, 3, 17]⟩, ⟨16, 269, 2, [2, 2, 67]⟩, ⟨8,
    239, 7, [2, 7, 17]⟩, ⟨8, 223, 3, [2, 3, 37]⟩, ⟨8, 173, 2, [2, 2, 43]⟩, ⟨8, 131, 2, [2, 5,
    13]⟩, ⟨8, 127, 3, [2, 3, 3, 7]⟩, ⟨8, 113, 3, [2, 2, 2, 2, 7]⟩, ⟨8, 107, 2, [2, 53]⟩, ⟨8, 103,
    5, [2, 3, 17]⟩, ⟨8, 97, 5, [2, 2, 2, 2, 2, 3]⟩, ⟨8, 83, 2, [2, 41]⟩, ⟨8, 79, 3, [2, 3, 13]⟩,
    ⟨8, 73, 5, [2, 2, 2, 3, 3]⟩, ⟨8, 67, 2, [2, 3, 11]⟩, ⟨8, 59, 2, [2, 29]⟩, ⟨8, 53, 2, [2, 2,
    13]⟩, ⟨8, 47, 5, [2, 23]⟩, ⟨8, 43, 3, [2, 3, 7]⟩, ⟨8, 41, 6, [2, 2, 2, 5]⟩, ⟨8, 37, 2, [2, 2,
    3, 3]⟩, ⟨8, 31, 3, [2, 3, 5]⟩, ⟨8, 29, 2, [2, 2, 7]⟩, ⟨8, 23, 5, [2, 11]⟩, ⟨8, 19, 2, [2, 3,
    3]⟩, ⟨8, 17, 3, [2, 2, 2, 2]⟩, ⟨8, 13, 2, [2, 2, 3]⟩, ⟨8, 11, 2, [2, 5]⟩, ⟨8, 7, 3, [2, 3]⟩,
    ⟨8, 5, 2, [2, 2]⟩, ⟨8, 3, 2, [2]⟩, ⟨8, 2, 1, []⟩]

theorem certificates_pass : Chain certificates := by decide +kernel

theorem prime_p25519 : Nat.Prime p25519 :=
  prime_of_chain certificates_pass _ (List.mem_cons_self)

theorem prime_order : Nat.Prime order :=
  prime_of_chain certificates_pass _ (by decide)

instance : Fact (Nat.Prime p25519) := ⟨prime_p25519⟩

instance : Fact (2 < p25519) := ⟨by decide⟩

/-! ## Squares -/

/-- A fact about powers of a number, read in the field. -/
theorem cast_powMod {a n r : ℕ} (hn : n < 2 ^ 256) (h : powMod p25519 a 256 n = r) :
    (a : ZMod p25519) ^ n = r := by
  rw [powMod_eq hn] at h
  rw [← Nat.cast_pow, ← h, ZMod.natCast_mod]

theorem cast_pred : ((p25519 - 1 : ℕ) : ZMod p25519) = -1 := by
  rw [Nat.cast_sub prime_p25519.one_lt.le, ZMod.natCast_self, Nat.cast_one, zero_sub]

/-- Euler's criterion, for the numbers that are not squares. -/
theorem not_isSquare_of_powMod {a : ℕ} (h : powMod p25519 a 256 (p25519 / 2) = p25519 - 1) :
    ¬ IsSquare (a : ZMod p25519) := by
  have hpow : (a : ZMod p25519) ^ (p25519 / 2) = -1 := by
    rw [cast_powMod (by decide) h, cast_pred]
  have hne : (-1 : ZMod p25519) ≠ 1 := ZMod.neg_one_ne_one
  have hzero : (a : ZMod p25519) ≠ 0 := by
    intro hzero
    rw [hzero, zero_pow (by decide)] at hpow
    exact one_ne_zero (neg_eq_zero.mp hpow.symm)
  rw [ZMod.euler_criterion p25519 hzero, hpow]
  exact hne

theorem powMod_two : powMod p25519 2 256 (p25519 / 2) = p25519 - 1 := by decide +kernel

theorem two_not_isSquare : ¬ IsSquare (2 : ZMod p25519) := by
  have h := not_isSquare_of_powMod powMod_two
  rwa [Nat.cast_ofNat] at h

/-- `-1` is a square. -/
theorem neg_one_isSquare : IsSquare (-1 : ZMod p25519) := by
  have h : ((2 : ℕ) : ZMod p25519) ^ (p25519 / 2) = -1 := by
    rw [cast_powMod (by decide) powMod_two, cast_pred]
  refine ⟨((2 : ℕ) : ZMod p25519) ^ (p25519 / 4), ?_⟩
  rw [← pow_add, ← h]
  rfl

theorem pow_half_eq_neg_one {u : ZMod p25519} (hu : ¬ IsSquare u) : u ^ (p25519 / 2) = -1 := by
  have hne : u ≠ 0 := by
    rintro rfl
    exact hu IsSquare.zero
  rw [ZMod.euler_criterion p25519 hne] at hu
  exact (ZMod.pow_div_two_eq_neg_one_or_one p25519 hne).resolve_left hu

/-- With `u = 2 * a`, where `a` is a square and `u` therefore is not. -/
theorem sqrt_candidate {a v : ZMod p25519} (ha : IsSquare a)
    (hv : v = (2 * a) ^ ((p25519 - 5) / 8)) : (v * a * (2 * a * (v * v) - 1)) ^ 2 = a := by
  by_cases hzero : a = 0
  · rw [hzero]
    ring
  · have hu : ¬ IsSquare (2 * a) := by
      intro hsquare
      have hdiv := hsquare.div ha
      rw [mul_div_cancel_right₀ _ hzero] at hdiv
      exact two_not_isSquare hdiv
    have hroot : (2 * a * (v * v)) ^ 2 = -1 := by
      rw [← pow_half_eq_neg_one hu, hv, ← pow_add, ← pow_succ', ← pow_mul]
      rfl
    have htwo : (4 * a ^ 2 * v ^ 4 + 1 : ZMod p25519) = 0 := by
      linear_combination hroot
    linear_combination (a ^ 2 * v ^ 2 - a) * htwo

end NavHAL.Crypto
