import Mathlib.NumberTheory.LucasPrimality
import Mathlib.Tactic.Ring

/-!
# Binary ladders

A loop over the bits of a number, highest first, that doubles at every bit and adds one
where it is set, holds after each bit what the bits so far stand for.  What a state stands
for is any relation the step keeps.

* `ladder_rel` : the loop over all of the bits;
* `powMod_eq`, `prime_of_chain` : powers with it, and primes by their powers.
-/

namespace NavHAL.Ladder

/-- The `k` lowest bits of `n`, highest first. -/
def bitsDown (n : ℕ) : ℕ → List Bool
  | 0 => []
  | k + 1 => n.testBit k :: bitsDown n k

theorem bitsDown_eq (n k : ℕ) : bitsDown n k = (List.range k).reverse.map n.testBit := by
  induction k with
  | zero => rfl
  | succ k ih => rw [bitsDown, ih, List.range_succ, List.reverse_concat, List.map_cons]

/-- Doubled, and one more where the bit is set. -/
theorem ladder_rel {α : Type*} (Stands : α → ℕ → Prop) (step : α → Bool → α)
    (hstep : ∀ r m b, Stands r m → Stands (step r b) (2 * m + b.toNat)) (n k : ℕ) {r : α} {m : ℕ}
    (h : Stands r m) : Stands ((bitsDown n k).foldl step r) (m * 2 ^ k + n % 2 ^ k) := by
  induction k generalizing r m with
  | zero =>
    rw [pow_zero, Nat.mod_one, Nat.mul_one, Nat.add_zero]
    exact h
  | succ k ih =>
    have hnext := ih (hstep r m (n.testBit k) h)
    have hbit : n % 2 ^ (k + 1) = n % 2 ^ k + 2 ^ k * (n.testBit k).toNat := by
      rw [Nat.mod_pow_succ, Nat.toNat_testBit]
    have hsum : (2 * m + (n.testBit k).toNat) * 2 ^ k + n % 2 ^ k =
        m * 2 ^ (k + 1) + n % 2 ^ (k + 1) := by
      rw [hbit, pow_succ]
      ring
    rw [hsum] at hnext
    exact hnext

/-- From nothing, for a number of `k` bits. -/
theorem ladder_start {α : Type*} (Stands : α → ℕ → Prop) (step : α → Bool → α)
    (hstep : ∀ r m b, Stands r m → Stands (step r b) (2 * m + b.toNat)) {n k : ℕ} (hn : n < 2 ^ k)
    {r : α} (h : Stands r 0) : Stands ((bitsDown n k).foldl step r) n := by
  have hall := ladder_rel Stands step hstep n k h
  rwa [Nat.zero_mul, Nat.zero_add, Nat.mod_eq_of_lt hn] at hall

/-! ## Powers -/

/-- `a ^ n % p`, for an `n` of `k` bits. -/
def powMod (p a k n : ℕ) : ℕ :=
  (bitsDown n k).foldl (fun r bit => if bit then r * r % p * a % p else r * r % p) (1 % p)

theorem powMod_eq {p a k n : ℕ} (hn : n < 2 ^ k) : powMod p a k n = a ^ n % p := by
  apply ladder_start (fun r m => r = a ^ m % p) _ _ hn
  · rw [pow_zero]
  · rintro r m b rfl
    have hsquare : a ^ m % p * (a ^ m % p) % p = a ^ (2 * m) % p := by
      rw [← Nat.mul_mod, ← pow_add, two_mul]
    cases b with
    | false => exact hsquare
    | true => rw [if_pos rfl, hsquare, Nat.mod_mul_mod, ← pow_succ]; rfl

/-! ## Primes -/

theorem cast_pow_eq_one_iff {p : ℕ} (hp : 1 < p) (a n : ℕ) :
    (a : ZMod p) ^ n = 1 ↔ a ^ n % p = 1 := by
  have hone : 1 % p = 1 := Nat.mod_eq_of_lt hp
  rw [← Nat.cast_pow, ← Nat.cast_one, ZMod.natCast_eq_natCast_iff', hone]

/-- `fs` are the factors of `p - 1`, each as often as it occurs. -/
def LucasTest (k p a : ℕ) (fs : List ℕ) : Prop :=
  1 < p ∧ p < 2 ^ k ∧ fs.prod = p - 1 ∧ powMod p a k (p - 1) = 1 ∧
    ∀ q ∈ fs, powMod p a k ((p - 1) / q) ≠ 1

instance (k p a : ℕ) (fs : List ℕ) : Decidable (LucasTest k p a fs) :=
  inferInstanceAs (Decidable (_ ∧ _))

theorem prime_of_lucas {k p a : ℕ} {fs : List ℕ} (hfs : ∀ q ∈ fs, q.Prime)
    (h : LucasTest k p a fs) : p.Prime := by
  obtain ⟨hp, hk, hprod, hfull, hpart⟩ := h
  have hfits : ∀ n, n ≤ p - 1 → n < 2 ^ k := by
    intro n hn
    omega
  apply lucas_primality p (a : ZMod p)
  · rw [cast_pow_eq_one_iff hp, ← powMod_eq (hfits _ le_rfl)]
    exact hfull
  · intro q hq hdvd
    rw [← hprod] at hdvd
    obtain ⟨f, hf, hqf⟩ := (Nat.Prime.prime hq).dvd_prod_iff.mp hdvd
    obtain rfl := (Nat.prime_dvd_prime_iff_eq hq (hfs f hf)).mp hqf
    rw [ne_eq, cast_pow_eq_one_iff hp, ← powMod_eq (hfits _ (Nat.div_le_self _ _))]
    exact hpart q hf

/-- A prime of at most `bits` bits, a number that generates its residues, and the factors of
one less. -/
structure Certificate where
  bits : ℕ
  prime : ℕ
  root : ℕ
  factors : List ℕ

/-- Every certificate passes, with the certificates of its factors behind it. -/
def Chain : List Certificate → Prop
  | [] => True
  | c :: cs => LucasTest c.bits c.prime c.root c.factors ∧
      (∀ q ∈ c.factors, q ∈ cs.map Certificate.prime) ∧ Chain cs

instance decidableChain : (cs : List Certificate) → Decidable (Chain cs)
  | [] => isTrue trivial
  | _ :: cs => @instDecidableAnd _ _ inferInstance
      (@instDecidableAnd _ _ inferInstance (decidableChain cs))

theorem prime_of_chain {cs : List Certificate} (h : Chain cs) :
    ∀ p ∈ cs.map Certificate.prime, p.Prime := by
  induction cs with
  | nil =>
    intro p hp
    cases hp
  | cons c cs ih =>
    obtain ⟨htest, hfactors, hrest⟩ := h
    rw [List.map_cons, List.forall_mem_cons]
    exact ⟨prime_of_lucas (fun q hq => ih hrest q (hfactors q hq)) htest, ih hrest⟩

end NavHAL.Ladder
