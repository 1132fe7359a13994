import Mathlib.Algebra.Order.Field.Basic
import Mathlib.Data.Rat.Cast.Order
import Mathlib.Tactic.FieldSimp
import Mathlib.Tactic.Linarith
import Mathlib.Tactic.Ring

/-!
# Dividing towards a target

Dividers `q` bring `x` to `x / q`, which is to be near `c`.  The whole quotient `x / c`
is the last that stays at or above `c`; whether it is the nearest depends on the
remainder (`nearest_div_iff`).  `HalfStep` is what rounding to whole steps achieves
(`halfStep_rounded`), and a quotient that is cut off only at times (`halfStep_div_iff`).
-/

namespace NavHAL.NearestQuotient

/-- How far `x / q` is from `c`. -/
def off (c x q : ℕ) : ℚ := |(x : ℚ) / q - c|

/-- `q` is one of the dividers, and none of them comes nearer. -/
def Nearest (dividers : Set ℕ) (c x q : ℕ) : Prop :=
  q ∈ dividers ∧ ∀ q' ∈ dividers, off c x q ≤ off c x q'

section

variable {dividers : Set ℕ} {c x q q' : ℕ}

theorem off_of_le (hq : 0 < q) (h : c * q ≤ x) : off c x q = (x : ℚ) / q - c := by
  have hq' : (0 : ℚ) < q := by exact_mod_cast hq
  have hle : (c : ℚ) ≤ x / q := by
    rw [le_div_iff₀ hq']
    exact_mod_cast h
  exact abs_of_nonneg (sub_nonneg.mpr hle)

theorem off_of_ge (hq : 0 < q) (h : x ≤ c * q) : off c x q = c - (x : ℚ) / q := by
  have hq' : (0 : ℚ) < q := by exact_mod_cast hq
  have hle : (x : ℚ) / q ≤ c := by
    rw [div_le_iff₀ hq']
    exact_mod_cast h
  rw [off, abs_sub_comm]
  exact abs_of_nonneg (sub_nonneg.mpr hle)

/-- Above the target the larger divider is nearer. -/
theorem off_le_off_of_le (hq' : 0 < q') (hle : q' ≤ q) (h : c * q ≤ x) :
    off c x q ≤ off c x q' := by
  rw [off_of_le (Nat.lt_of_lt_of_le hq' hle) h,
    off_of_le hq' (Nat.le_trans (Nat.mul_le_mul_left c hle) h)]
  have hdiv : (x : ℚ) / q ≤ x / q' :=
    div_le_div_of_nonneg_left (by positivity) (by exact_mod_cast hq') (by exact_mod_cast hle)
  linarith

/-- Below it, the smaller. -/
theorem off_le_off_of_ge (hq : 0 < q) (hle : q ≤ q') (h : x ≤ c * q) :
    off c x q ≤ off c x q' := by
  rw [off_of_ge hq h,
    off_of_ge (Nat.lt_of_lt_of_le hq hle) (Nat.le_trans h (Nat.mul_le_mul_left c hle))]
  have hdiv : (x : ℚ) / q' ≤ x / q :=
    div_le_div_of_nonneg_left (by positivity) (by exact_mod_cast hq) (by exact_mod_cast hle)
  linarith

/-- The two dividers around the target, compared by the remainder of the first. -/
theorem off_div_le_iff (hc : 0 < c) (hq : 0 < x / c) :
    off c x (x / c) ≤ off c x (x / c + 1) ↔ x % c * (2 * (x / c) + 1) ≤ c * (x / c) := by
  have hsplit := Nat.div_add_mod x c
  have hover : x ≤ c * (x / c + 1) := Nat.le_of_lt (Nat.lt_mul_div_succ x hc)
  rw [off_of_le hq (Nat.mul_div_le x c), off_of_ge (Nat.succ_pos _) hover]
  clear hover
  generalize x / c = q at hq hsplit ⊢
  generalize x % c = r at hsplit ⊢
  subst hsplit
  have hq' : (0 : ℚ) < q := by exact_mod_cast hq
  have hq1 : (0 : ℚ) < q + 1 := by linarith
  have hbelow : ((c * q + r : ℕ) : ℚ) / q - c = r / q := by
    push_cast
    field_simp
    ring
  have habove : (c : ℚ) - ((c * q + r : ℕ) : ℚ) / ((q + 1 : ℕ) : ℚ) = (c - r) / (q + 1) := by
    push_cast
    field_simp
    ring
  rw [hbelow, habove, div_le_div_iff₀ hq' hq1]
  constructor
  · intro h
    have hcast : (r : ℚ) * (2 * q + 1) ≤ c * q := by linarith
    exact_mod_cast hcast
  · intro h
    have hcast : (r : ℚ) * (2 * q + 1) ≤ c * q := by exact_mod_cast h
    linarith

/-- The whole quotient is the nearest divider exactly when its remainder is small enough
beside it. -/
theorem nearest_div_iff (hc : 0 < c) (hpos : ∀ q ∈ dividers, 0 < q) (hq : x / c ∈ dividers)
    (hnext : x / c + 1 ∈ dividers) :
    Nearest dividers c x (x / c) ↔ x % c * (2 * (x / c) + 1) ≤ c * (x / c) := by
  rw [← off_div_le_iff hc (hpos _ hq)]
  constructor
  · intro h
    exact h.2 _ hnext
  · intro h
    refine ⟨hq, ?_⟩
    intro q' hq'
    rcases Nat.lt_or_ge (x / c) q' with hlt | hge
    · have hover : x ≤ c * (x / c + 1) := Nat.le_of_lt (Nat.lt_mul_div_succ x hc)
      exact le_trans h (off_le_off_of_ge (Nat.succ_pos _) hlt hover)
    · exact off_le_off_of_le (hpos q' hq') hge (Nat.mul_div_le x c)

end

/-! ## Whole steps -/

/-- `q` steps of `d` come within half a step of `n`. -/
def HalfStep (n d q : ℕ) : Prop := 2 * n ≤ 2 * (q * d) + d ∧ 2 * (q * d) ≤ 2 * n + d

section

variable {n d q : ℕ}

theorem halfStep_rounded (hd : 0 < d) : HalfStep n d ((n + d / 2) / d) := by
  have hsplit := Nat.div_add_mod' (n + d / 2) d
  have hrem := Nat.mod_lt (n + d / 2) hd
  constructor <;> omega

theorem halfStep_div_iff : HalfStep n d (n / d) ↔ 2 * (n % d) ≤ d := by
  have hsplit := Nat.div_add_mod' n d
  constructor
  · intro h
    have hbelow := h.1
    omega
  · intro h
    constructor <;> omega

/-- No other number of steps is that near, but for a tie. -/
theorem HalfStep.rounded_le (hd : 0 < d) (h : HalfStep n d q) : (n + d / 2) / d ≤ q + 1 := by
  have hbelow := h.1
  have hlt : n + d / 2 < (q + 2) * d := by
    rw [Nat.add_mul]
    omega
  exact Nat.le_of_lt_succ ((Nat.div_lt_iff_lt_mul hd).mpr hlt)

end

end NavHAL.NearestQuotient
